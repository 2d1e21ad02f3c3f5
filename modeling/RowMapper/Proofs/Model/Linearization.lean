import Mathlib.Data.List.Forall2
import RowMapper.Model.Linearization

/-!
# Orders of ancestors

Joining orders only asks which numbers are equal.  So if the classes have other numbers, and every
class has one number on either side, the joined orders go side by side as well.

No class comes twice in a joined order, and a class with one base comes before the ancestors of the
base.
-/
namespace RowMapper.Model

open Relator

variable {P : Nat → Nat → Prop} {orders orders' : List (List Nat)}

theorem contains_alike (hP : BiUnique P) {a b : Nat} (hab : P a b) {order order' : List Nat}
    (h : List.Forall₂ P order order') : order.contains a = order'.contains b := by
  rw [Bool.eq_iff_iff, List.contains_iff_mem, List.contains_iff_mem]
  exact List.rel_mem hP hab h

theorem tail_alike {order order' : List Nat} (h : List.Forall₂ P order order') :
    List.Forall₂ P order.tail order'.tail := by
  cases h with
  | nil => exact .nil
  | cons _ htail => exact htail

theorem head?_alike {order order' : List Nat} (h : List.Forall₂ P order order') :
    Option.Rel P order.head? order'.head? := by
  cases h with
  | nil => exact .none
  | cons hhead _ => exact .some hhead

theorem isEmpty_alike {α β : Type} {R : α → β → Prop} {list : List α} {list' : List β}
    (h : List.Forall₂ R list list') : list.isEmpty = list'.isEmpty := by
  cases h <;> rfl

theorem isBehind_alike (hP : BiUnique P) {a b : Nat} (hab : P a b)
    (h : List.Forall₂ (List.Forall₂ P) orders orders') : isBehind a orders = isBehind b orders' := by
  unfold isBehind
  induction h with
  | nil => rfl
  | cons horder _ ih =>
    rw [List.any_cons, List.any_cons, ih, contains_alike hP hab (tail_alike horder)]

theorem find?_alike {p q : Nat → Bool} (hpq : ∀ a b, P a b → p a = q b) {list list' : List Nat}
    (h : List.Forall₂ P list list') : Option.Rel P (list.find? p) (list'.find? q) := by
  induction h with
  | nil => exact .none
  | @cons a b _ _ hab _ ih =>
    rw [List.find?_cons, List.find?_cons, hpq a b hab]
    cases q b with
    | true => exact .some hab
    | false => exact ih

theorem nextAncestor?_alike (hP : BiUnique P) (h : List.Forall₂ (List.Forall₂ P) orders orders') :
    Option.Rel P (nextAncestor? orders) (nextAncestor? orders') :=
  find?_alike (fun _ _ hab => by rw [isBehind_alike hP hab h])
    (List.rel_filterMap (fun _ _ horder => head?_alike horder) h)

theorem nonempty_alike (h : List.Forall₂ (List.Forall₂ P) orders orders') :
    List.Forall₂ (List.Forall₂ P) (orders.filter fun order => !order.isEmpty)
      (orders'.filter fun order => !order.isEmpty) :=
  List.rel_filter (fun _ _ horder => by simp only [isEmpty_alike horder]) h

theorem takeAncestor_alike (hP : BiUnique P) {a b : Nat} (hab : P a b)
    (h : List.Forall₂ (List.Forall₂ P) orders orders') :
    List.Forall₂ (List.Forall₂ P) (takeAncestor a orders) (takeAncestor b orders') := by
  refine nonempty_alike (List.rel_map (fun order order' horder => ?_) h)
  cases horder with
  | nil => exact .nil
  | @cons first first' rest rest' hfirst hrest =>
    have heq : first = a ↔ first' = b := rel_eq hP hfirst hab
    by_cases hchosen : first = a
    · simpa [hchosen, heq.mp hchosen] using hrest
    · simpa [hchosen, mt heq.mpr hchosen] using List.Forall₂.cons hfirst hrest

theorem mergeWithin_alike (hP : BiUnique P) (steps : Nat)
    (h : List.Forall₂ (List.Forall₂ P) orders orders') :
    Option.Rel (List.Forall₂ P) (mergeWithin steps orders) (mergeWithin steps orders') := by
  induction steps generalizing orders orders' with
  | zero =>
    rw [mergeWithin, mergeWithin, isEmpty_alike h]
    split
    · exact .some .nil
    · exact .none
  | succ steps ih =>
    rw [mergeWithin, mergeWithin, isEmpty_alike h]
    split
    · exact .some .nil
    · have hnext := nextAncestor?_alike hP h
      generalize nextAncestor? orders = next at hnext ⊢
      generalize nextAncestor? orders' = next' at hnext ⊢
      cases hnext with
      | none => exact .none
      | @some a b hab =>
        have hrest := ih (takeAncestor_alike hP hab h)
        simp only [Option.bind_eq_bind, Option.bind_some]
        generalize mergeWithin steps (takeAncestor a orders) = rest at hrest ⊢
        generalize mergeWithin steps (takeAncestor b orders') = rest' at hrest ⊢
        cases hrest with
        | none => exact .none
        | some hrest => exact .some (.cons hab hrest)

/-- A new class goes before its bases under its own number on either side. -/
theorem linearize_alike (hP : BiUnique P) {bases bases' : List Nat}
    (hbases : List.Forall₂ P bases bases') {ancestors ancestors' : List (List Nat)}
    (hancestors : List.Forall₂ (List.Forall₂ P) ancestors ancestors') (self self' : Nat) :
    Option.Rel (fun order order' => ∃ rest rest', order = self :: rest ∧ order' = self' :: rest' ∧
        List.Forall₂ P rest rest')
      (linearize self bases ancestors) (linearize self' bases' ancestors') := by
  have horders : List.Forall₂ (List.Forall₂ P) (ancestors ++ [bases]) (ancestors' ++ [bases']) :=
    List.rel_append hancestors (.cons hbases .nil)
  have hnonempty := nonempty_alike horders
  have hlength := (List.rel_flatten hnonempty).length_eq
  have hmerge := mergeWithin_alike hP
    ((ancestors ++ [bases]).filter fun order => !order.isEmpty).flatten.length hnonempty
  rw [linearize, linearize, merge, merge, ← hlength]
  revert hmerge
  generalize mergeWithin _ ((ancestors ++ [bases]).filter _) = merged
  generalize mergeWithin _ ((ancestors' ++ [bases']).filter _) = merged'
  intro hmerge
  cases hmerge with
  | none => exact .none
  | some hrest => exact .some ⟨_, _, rfl, rfl, hrest⟩

/-- The ancestors of a new class, apart from itself, are its bases and their ancestors, so they are
below every bound of these. -/
theorem linearize_below {bound self : Nat} {bases ancestry : List Nat} {ancestors : List (List Nat)}
    (h : linearize self bases ancestors = some ancestry) (hbases : ∀ base ∈ bases, base < bound)
    (hancestors : ∀ order ∈ ancestors, ∀ ancestor ∈ order, ancestor < bound) :
    ∃ rest, ancestry = self :: rest ∧ ∀ ancestor ∈ rest, ancestor < bound := by
  -- a number below the bound is alike to itself, and no other number is alike to anything
  let P (a b : Nat) : Prop := a = b ∧ a < bound
  have hP : BiUnique P :=
    ⟨fun _ _ _ h h' => h.1.trans h'.1.symm, fun _ _ _ h h' => h.1.symm.trans h'.1⟩
  have hsame {order : List Nat} (horder : ∀ a ∈ order, a < bound) : List.Forall₂ P order order :=
    List.forall₂_same.mpr fun a ha => ⟨rfl, horder a ha⟩
  have halike := linearize_alike hP (hsame hbases)
    (List.forall₂_same.mpr fun order horder => hsame (hancestors order horder)) self self
  rw [h] at halike
  obtain ⟨rest, _, rfl, heq, hrest⟩ := Option.rel_some_some.mp halike
  obtain ⟨-, rfl⟩ := List.cons.inj heq
  exact ⟨rest, rfl, fun a ha => (List.forall₂_same.mp hrest a ha).2⟩

/-! ## Joined orders -/

theorem not_isBehind_of_nextAncestor? {chosen : Nat} (h : nextAncestor? orders = some chosen) :
    isBehind chosen orders = false := by
  simpa using List.find?_some h

/-- A class that was taken stands in no list any more. -/
theorem not_mem_takeAncestor {chosen : Nat} (h : isBehind chosen orders = false) :
    ∀ order ∈ takeAncestor chosen orders, chosen ∉ order := by
  intro order horder
  obtain ⟨known, hknown, rfl⟩ := List.mem_map.mp (List.mem_of_mem_filter horder)
  have htail : chosen ∉ known.tail := by simpa using List.any_eq_false.mp h known hknown
  split
  · exact htail
  · next hhead =>
    cases known with
    | nil => exact List.not_mem_nil
    | cons first rest =>
      rw [List.mem_cons, not_or]
      exact ⟨fun heq => hhead (by rw [heq]; rfl), htail⟩

theorem mem_of_mem_takeAncestor {chosen a : Nat} {order : List Nat}
    (horder : order ∈ takeAncestor chosen orders) (ha : a ∈ order) : ∃ known ∈ orders, a ∈ known := by
  obtain ⟨known, hknown, rfl⟩ := List.mem_map.mp (List.mem_of_mem_filter horder)
  refine ⟨known, hknown, ?_⟩
  split at ha
  · exact List.mem_of_mem_tail ha
  · exact ha

/-- A joined order names the classes of the lists, each once. -/
theorem mergeWithin_spec {steps : Nat} {order : List Nat}
    (h : mergeWithin steps orders = some order) :
    order.Nodup ∧ ∀ a ∈ order, ∃ known ∈ orders, a ∈ known := by
  induction steps generalizing orders order with
  | zero =>
    rw [mergeWithin] at h
    split at h <;> cases h
    exact ⟨List.nodup_nil, nofun⟩
  | succ steps ih =>
    rw [mergeWithin] at h
    split at h
    · cases h
      exact ⟨List.nodup_nil, nofun⟩
    · obtain ⟨chosen, hchosen, h⟩ := Option.bind_eq_some_iff.mp h
      obtain ⟨rest, hrest, h⟩ := Option.bind_eq_some_iff.mp h
      cases h
      obtain ⟨hnodup, hmem⟩ := ih hrest
      have hbehind := not_isBehind_of_nextAncestor? hchosen
      refine ⟨List.nodup_cons.mpr ⟨fun hin => ?_, hnodup⟩, List.forall_mem_cons.mpr ⟨?_, ?_⟩⟩
      · obtain ⟨known, hknown, hin⟩ := hmem chosen hin
        exact not_mem_takeAncestor hbehind known hknown hin
      · obtain ⟨known, hknown, hhead⟩ := List.mem_filterMap.mp (List.mem_of_find?_eq_some hchosen)
        exact ⟨known, hknown, List.mem_of_head? hhead⟩
      · intro a ha
        obtain ⟨known, hknown, hin⟩ := hmem a ha
        exact mem_of_mem_takeAncestor hknown hin

/-- No class comes twice among the ancestors of a new class, apart from itself. -/
theorem linearize_nodup {self : Nat} {bases rest : List Nat} {ancestors : List (List Nat)}
    (h : linearize self bases ancestors = some (self :: rest)) : rest.Nodup := by
  obtain ⟨order, horder, heq⟩ := Option.map_eq_some_iff.mp h
  cases heq
  exact (mergeWithin_spec horder).1

theorem mergeWithin_succ {steps chosen : Nat} (h : nextAncestor? orders = some chosen) :
    mergeWithin (steps + 1) orders =
      (mergeWithin steps (takeAncestor chosen orders)).map (chosen :: ·) := by
  have hne : orders.isEmpty = false := by
    cases orders with
    | nil => cases h
    | cons => rfl
  rw [mergeWithin, hne, h]
  cases hrest : mergeWithin steps (takeAncestor chosen orders) <;> simp [hrest]

/-- An order alone is joined to itself. -/
theorem mergeWithin_alone {order : List Nat} (h : order.Nodup) {steps : Nat}
    (hsteps : order.length ≤ steps) :
    mergeWithin steps ([order].filter fun order => !order.isEmpty) = some order := by
  induction order generalizing steps with
  | nil => cases steps <;> rfl
  | cons first rest ih =>
    obtain ⟨hfirst, hrest⟩ := List.nodup_cons.mp h
    obtain ⟨steps, rfl⟩ : ∃ fewer, steps = fewer + 1 :=
      Nat.exists_eq_add_one_of_ne_zero (by rintro rfl; cases hsteps)
    have hnext : nextAncestor? [first :: rest] = some first := by
      simp [nextAncestor?, isBehind, hfirst]
    have htake : takeAncestor first [first :: rest] = [rest].filter fun order => !order.isEmpty := by
      simp [takeAncestor]
    change mergeWithin (steps + 1) [first :: rest] = _
    rw [mergeWithin_succ hnext, htake, ih hrest (Nat.le_of_succ_le_succ hsteps)]
    rfl

/-- A class with one base comes before the ancestors of the base. -/
theorem linearize_single {self base : Nat} {rest : List Nat} (h : (base :: rest).Nodup) :
    linearize self [base] [base :: rest] = some (self :: base :: rest) := by
  obtain ⟨hbase, hrest⟩ := List.nodup_cons.mp h
  have hnext : nextAncestor? [base :: rest, [base]] = some base := by
    simp [nextAncestor?, isBehind, hbase]
  have htake : takeAncestor base [base :: rest, [base]] =
      [rest].filter fun order => !order.isEmpty := by
    simp [takeAncestor, List.filter_cons]
  have hmerge : merge [base :: rest, [base]] = some (base :: rest) := by
    change mergeWithin ((base :: rest) ++ [base]).length [base :: rest, [base]] = _
    rw [List.cons_append, List.length_cons, mergeWithin_succ hnext, htake,
      mergeWithin_alone hrest (by simp)]
    rfl
  exact congrArg (Option.map (self :: ·)) hmerge

end RowMapper.Model
