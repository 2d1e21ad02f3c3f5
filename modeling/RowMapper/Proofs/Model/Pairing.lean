import RowMapper.Proofs.Dictionary
import RowMapper.Proofs.Model.Extension

/-!
# Columns of two registries

What two registries have in common is stated with pairs of numbers, the number that something has in
one and its number in the other.  `ColumnsAlike` says of pairs of columns that no column has two
partners and that partners are keys together.  Two new columns make a new pair, and partners may be
marked together.
-/
namespace RowMapper.Model

open Relator

/-! ## 1. Pairs -/

/-- Whether two numbers are a pair. -/
def Paired (pairs : List (Nat × Nat)) (a b : Nat) : Prop := (a, b) ∈ pairs

instance (pairs : List (Nat × Nat)) (a b : Nat) : Decidable (Paired pairs a b) :=
  inferInstanceAs (Decidable ((a, b) ∈ pairs))

/-- No number has two partners. -/
def OneToOne (pairs : List (Nat × Nat)) : Prop := BiUnique (Paired pairs)

/-- All numbers are below the numbers that come next. -/
def Below (pairs : List (Nat × Nat)) (next next' : Nat) : Prop :=
  ∀ a b, Paired pairs a b → a < next ∧ b < next'

section Pairs

variable {pairs : List (Nat × Nat)} {next next' : Nat}

theorem paired_cons {a b : Nat} :
    Paired ((next, next') :: pairs) a b ↔ (a = next ∧ b = next') ∨ Paired pairs a b := by
  simp [Paired]

theorem Below.mono (h : Below pairs next next') {later later' : Nat} (hle : next ≤ later)
    (hle' : next' ≤ later') : Below pairs later later' := fun a b hab =>
  ⟨Nat.lt_of_lt_of_le (h a b hab).1 hle, Nat.lt_of_lt_of_le (h a b hab).2 hle'⟩

theorem Below.cons (h : Below pairs next next') :
    Below ((next, next') :: pairs) (next + 1) (next' + 1) := by
  intro a b hab
  rcases paired_cons.mp hab with ⟨rfl, rfl⟩ | hab
  · exact ⟨Nat.lt_succ_self a, Nat.lt_succ_self b⟩
  · exact h.mono (Nat.le_succ _) (Nat.le_succ _) a b hab

/-- Numbers that come next make a new pair. -/
theorem OneToOne.cons (h : OneToOne pairs) (hbelow : Below pairs next next') :
    OneToOne ((next, next') :: pairs) := by
  constructor
  · intro a b c hac hbc
    rcases paired_cons.mp hac with ⟨ha, hc⟩ | hac <;>
      rcases paired_cons.mp hbc with ⟨hb, hc'⟩ | hbc
    · rw [ha, hb]
    · exact absurd (hbelow b c hbc).2 (hc ▸ Nat.lt_irrefl c)
    · exact absurd (hbelow a c hac).2 (hc' ▸ Nat.lt_irrefl c)
    · exact h.1 hac hbc
  · intro a b c hab hac
    rcases paired_cons.mp hab with ⟨ha, hb⟩ | hab <;>
      rcases paired_cons.mp hac with ⟨ha', hc⟩ | hac
    · rw [hb, hc]
    · exact absurd (hbelow a c hac).1 (ha ▸ Nat.lt_irrefl a)
    · exact absurd (hbelow a b hab).1 (ha' ▸ Nat.lt_irrefl a)
    · exact h.2 hab hac

end Pairs

namespace Registry

/-! ## 2. Columns -/

/-- Pairs of columns, with a partner each, that are keys together. -/
structure ColumnsAlike (pairs : List (Nat × Nat)) (r r' : Registry) : Prop where
  oneToOne : OneToOne pairs
  below : Below pairs r.columns.length r'.columns.length
  isKey_eq : ∀ a b, Paired pairs a b → (r.columnAt a).isKey = (r'.columnAt b).isKey

variable {pairs : List (Nat × Nat)} {r r' t t' : Registry}

theorem ColumnsAlike.of_keepsKeys (h : ColumnsAlike pairs r r') (hr : KeepsKeys r t)
    (hr' : KeepsKeys r' t') : ColumnsAlike pairs t t' where
  oneToOne := h.oneToOne
  below := h.below.mono hr.columns_le hr'.columns_le
  isKey_eq a b hab := by
    obtain ⟨ha, hb⟩ := h.below a b hab
    rw [hr.isKey_eq a ha, hr'.isKey_eq b hb, h.isKey_eq a b hab]

/-- Two new columns that are both keys or both none make a pair. -/
theorem ColumnsAlike.addColumn (h : ColumnsAlike pairs r r') {c c' : Column}
    (hkey : c.isKey = c'.isKey) :
    ColumnsAlike ((r.columns.length, r'.columns.length) :: pairs) (r.addColumn c).1
      (r'.addColumn c').1 where
  oneToOne := h.oneToOne.cons h.below
  below := by
    have hlength (s : Registry) (new : Column) :
        (s.addColumn new).1.columns.length = s.columns.length + 1 := by simp [Registry.addColumn]
    rw [hlength, hlength]
    exact h.below.cons
  isKey_eq a b hab := by
    rcases paired_cons.mp hab with ⟨rfl, rfl⟩ | hab
    · rw [columnAt_addColumn_self, columnAt_addColumn_self, hkey]
    · obtain ⟨ha, hb⟩ := h.below a b hab
      rw [columnAt_addColumn r c ha, columnAt_addColumn r' c' hb, h.isKey_eq a b hab]

/-- Partners that are marked stay alike, and nobody else is touched. -/
theorem ColumnsAlike.markKey (h : ColumnsAlike pairs r r') {i j : Nat} (hij : Paired pairs i j) :
    ColumnsAlike pairs (r.markKey i) (r'.markKey j) where
  oneToOne := h.oneToOne
  below := by
    have hlength (s : Registry) (index : Nat) :
        (s.markKey index).columns.length = s.columns.length := by
      simp [Registry.markKey, updateColumn]
    rw [hlength, hlength]
    exact h.below
  isKey_eq a b hab := by
    obtain ⟨hi, hj⟩ := h.below i j hij
    have hsame : i = a ↔ j = b := rel_eq h.oneToOne hij hab
    rw [Registry.markKey, Registry.markKey, columnAt_updateColumn r hi,
      columnAt_updateColumn r' hj]
    by_cases hia : i = a
    · rw [if_pos hia, if_pos (hsame.mp hia)]
    · rw [if_neg hia, if_neg (mt hsame.mpr hia), h.isKey_eq a b hab]

/-- Attributes that are alike pick columns that are. -/
theorem collect_alike {P : String → ClassAttribute → ClassAttribute → Prop}
    {Q : String → Nat → Nat → Prop} {select : ClassAttribute → Option Nat}
    (hselect : ∀ name a b, P name a b → Option.Rel (Q name) (select a) (select b))
    {chain chain' : List (Dictionary ClassAttribute)}
    (h : List.Forall₂ (Dictionary.Alike P) chain chain') :
    Dictionary.Alike Q (collect select chain) (collect select chain') := by
  refine Dictionary.Alike.ofList (List.rel_flatMap (List.rel_reverse h) ?_)
  refine fun attributes attributes' hattributes =>
    List.rel_filterMap (fun entry entry' hentry => ?_)
    hattributes
  have hpicked := hselect _ _ _ hentry.2
  revert hpicked
  generalize select entry.2 = picked
  generalize select entry'.2 = picked'
  intro hpicked
  cases hpicked with
  | none => exact .none
  | some hvalue => exact .some ⟨hentry.1, hvalue⟩

end Registry
end RowMapper.Model
