import RowMapper.Proofs.Outcome
import RowMapper.Proofs.World.Holding
import RowMapper.World.Observation

/-!
# Plain values

A plain value is made of null, truth values, numbers, texts, byte strings, lists, tuples and
mappings, and no part of it comes from a shelf.  So it means the same in every world, and it can be
printed there.
-/
namespace RowMapper

/-- A value without references, of which nothing comes from a shelf. -/
inductive Value.IsPlain : Value → Prop
  | null : IsPlain .null
  | bool (b : Bool) : IsPlain (.bool b)
  | int (n : Int) : IsPlain (.int n)
  | float (x : Binary64) : IsPlain (.float x)
  | str (s : String) : IsPlain (.str s)
  | bytes (b : List UInt8) : IsPlain (.bytes b)
  | list {items : List Value} (h : ∀ item ∈ items, IsPlain item) : IsPlain (.list items)
  | tuple {items : List Value} (h : ∀ item ∈ items, IsPlain item) : IsPlain (.tuple items)
  | mapping {entries : List (Value × Value)} (hkeys : ∀ entry ∈ entries, IsPlain entry.1)
      (hvalues : ∀ entry ∈ entries, IsPlain entry.2) : IsPlain (.mapping entries)

namespace Value

variable {v : Value}

/-! ## 1. On the shelf -/

theorem IsPlain.place_eq (h : v.IsPlain) : v.place = none := by
  cases h <;> rfl

theorem replaceSharedAll_eq_map (contents : Nat → Value) (items : List Value) :
    replaceSharedAll contents items = items.map (replaceShared contents) := by
  induction items with
  | nil => rfl
  | cons item rest ih => rw [replaceSharedAll, ih, List.map_cons]

theorem replaceSharedEntries_eq_map (contents : Nat → Value) (entries : List (Value × Value)) :
    replaceSharedEntries contents entries =
      entries.map fun entry => (replaceShared contents entry.1, replaceShared contents entry.2) := by
  induction entries with
  | nil => rfl
  | cons entry rest ih =>
    obtain ⟨key, value⟩ := entry
    rw [replaceSharedEntries, ih, List.map_cons]

/-- There is nothing to look up in a plain value. -/
theorem IsPlain.replaceShared_eq (h : v.IsPlain) (contents : Nat → Value) :
    v.replaceShared contents = v := by
  induction h with
  | list _ ih =>
    rw [replaceShared, replaceSharedAll_eq_map, List.map_congr_left ih, List.map_id']
  | tuple _ ih =>
    rw [replaceShared, replaceSharedAll_eq_map, List.map_congr_left ih, List.map_id']
  | mapping _ _ ihkeys ihvalues =>
    rw [replaceShared, replaceSharedEntries_eq_map, List.map_congr_left (g := id), List.map_id]
    exact fun entry hentry => Prod.ext (ihkeys entry hentry) (ihvalues entry hentry)
  | _ => rfl

theorem IsPlain.expandWithin_eq (h : v.IsPlain) (s : Shelf) (depth : Nat) :
    s.expandWithin depth v = v := by
  cases depth with
  | zero => rfl
  | succ depth => exact h.replaceShared_eq _

theorem IsPlain.expand_eq (h : v.IsPlain) (w : World) : w.expand v = v :=
  h.expandWithin_eq w.shelf _

/-! ## 2. Printing -/

theorem literals_isOk {reference : ReferencePrinter} {items : List Value}
    (h : ∀ item ∈ items, ∀ opened, ∃ text, literalIn reference opened item = .ok text)
    (opened : List Nat) : ∃ texts, literals reference opened items = .ok texts := by
  induction items with
  | nil => exact ⟨[], rfl⟩
  | cons item rest ih =>
    obtain ⟨hitem, hrest⟩ := List.forall_mem_cons.mp h
    obtain ⟨text, htext⟩ := hitem opened
    obtain ⟨texts, htexts⟩ := ih hrest
    exact ⟨text :: texts, by rw [literals, htext, htexts]; rfl⟩

theorem entryLiterals_isOk {reference : ReferencePrinter} {entries : List (Value × Value)}
    (hkeys : ∀ entry ∈ entries, ∀ opened, ∃ text, literalIn reference opened entry.1 = .ok text)
    (hvalues : ∀ entry ∈ entries, ∀ opened, ∃ text, literalIn reference opened entry.2 = .ok text)
    (opened : List Nat) : ∃ texts, entryLiterals reference opened entries = .ok texts := by
  induction entries with
  | nil => exact ⟨[], rfl⟩
  | cons entry rest ih =>
    obtain ⟨hkey, hkeys⟩ := List.forall_mem_cons.mp hkeys
    obtain ⟨hvalue, hvalues⟩ := List.forall_mem_cons.mp hvalues
    obtain ⟨key, hkey⟩ := hkey opened
    obtain ⟨value, hvalue⟩ := hvalue opened
    obtain ⟨texts, htexts⟩ := ih hkeys hvalues
    exact ⟨(key ++ ": " ++ value) :: texts, by rw [entryLiterals, hkey, hvalue, htexts]; rfl⟩

theorem IsPlain.literalIn_isOk (h : v.IsPlain) (reference : ReferencePrinter)
    (opened : List Nat) : ∃ text, literalIn reference opened v = .ok text := by
  induction h generalizing opened with
  | list _ ih =>
    obtain ⟨texts, htexts⟩ := literals_isOk ih opened
    exact ⟨enclosed "[" "]" texts, congrArg (Except.map (enclosed "[" "]")) htexts⟩
  | @tuple items _ ih =>
    obtain ⟨texts, htexts⟩ := literals_isOk ih opened
    exact ⟨_, congrArg (Except.map (enclosed "(" (if items.length == 1 then ",)" else ")"))) htexts⟩
  | mapping _ _ ihkeys ihvalues =>
    obtain ⟨texts, htexts⟩ := entryLiterals_isOk ihkeys ihvalues opened
    exact ⟨_, congrArg (Except.map (enclosed "\x7b" "\x7d")) htexts⟩
  | _ => exact ⟨_, rfl⟩

/-- A plain value can be printed in every world. -/
theorem IsPlain.literal_isOk (h : v.IsPlain) (w : World) : ∃ text, w.literal v = .ok text := by
  rw [World.literal, h.expand_eq]
  exact h.literalIn_isOk _ _

end Value
end RowMapper
