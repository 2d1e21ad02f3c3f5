import RowMapper.Shelf

/-!
# What a shelf keeps

Putting a value on a shelf only adds to it (`store_grows`), so a number stays good.  There is only
one null, which never lies on a shelf; hence a value whose parts are looked up is null only if it
was null before (`isNull_expand`).
-/
namespace RowMapper.Shelf

/-! ## 1. Growing -/

/-- No null lies on the shelf. -/
def Solid (s : Shelf) : Prop := ∀ v ∈ s, v.isNull = false

/-- The shelf with more values behind those that it has, none of them null. -/
def Grows (s s' : Shelf) : Prop := ∃ more : Shelf, s' = s ++ more ∧ Solid more

section Grows

variable {s s' s'' : Shelf}

theorem Grows.refl (s : Shelf) : Grows s s := ⟨[], (List.append_nil s).symm, by simp [Solid]⟩

theorem Grows.trans (h : Grows s s') (h' : Grows s' s'') : Grows s s'' := by
  obtain ⟨more, rfl, hmore⟩ := h
  obtain ⟨others, rfl, hothers⟩ := h'
  refine ⟨more ++ others, List.append_assoc s more others, fun v hv => ?_⟩
  rcases List.mem_append.mp hv with hv | hv
  · exact hmore v hv
  · exact hothers v hv

theorem Grows.isPrefix (h : Grows s s') : s <+: s' := by
  obtain ⟨more, rfl, -⟩ := h
  exact List.prefix_append s more

theorem Grows.solid (h : Grows s s') (hs : Solid s) : Solid s' := by
  obtain ⟨more, rfl, hmore⟩ := h
  intro v hv
  rcases List.mem_append.mp hv with hv | hv
  · exact hs v hv
  · exact hmore v hv

theorem grows_one {v : Value} (h : v.isNull = false) : Grows s (s ++ [v]) :=
  ⟨[v], rfl, fun _ hv => List.mem_singleton.mp hv ▸ h⟩

end Grows

/-- Null is unique, so it is never put. -/
theorem isNull_of_not_isUnique {v : Value} (h : isUnique v = false) : v.isNull = false := by
  cases v <;> first | rfl | cases h

theorem isNull_lyingAt (v : Value) (number : Nat) : (v.lyingAt number).isNull = v.isNull := by
  cases v <;> rfl

theorem put_grows (s : Shelf) (v : Value) : Grows s (put s v).2 := by
  cases h : isUnique v with
  | true => simpa [put, h] using Grows.refl s
  | false => simpa [put, h] using grows_one (isNull_of_not_isUnique h)

theorem putKey_grows (s : Shelf) (key : Value) : Grows s (putKey s key).2 := by
  cases h : isUnique key || key.place.isSome with
  | true => simpa [putKey, h] using Grows.refl s
  | false =>
    have hunique : isUnique key = false := (Bool.or_eq_false_iff.mp h).1
    simpa [putKey, h] using grows_one (isNull_of_not_isUnique hunique)

theorem store_grows (v : Value) (s : Shelf) : Grows s (store v s).2 := by
  induction v, s using store.induct_unfolding
    (motive_2 := fun _ s stored => Grows s stored.2)
    (motive_3 := fun _ s stored => Grows s stored.2) with
  | case1 items s items' s' h ih => exact (h ▸ ih).trans (put_grows _ _)
  | case2 items s items' s' h ih => exact (h ▸ ih).trans (put_grows _ _)
  | case3 entries s entries' s' h ih => exact (h ▸ ih).trans (put_grows _ _)
  | case4 _ _ s _ s' h _ s'' h' ih ih' => exact ((h ▸ ih).trans (h' ▸ ih')).trans (put_grows _ _)
  | case5 _ s _ s' h ih => exact (h ▸ ih).trans (put_grows _ _)
  | case6 _ _ _ s _ s' h _ s'' h' _ s''' h'' ih ih' ih'' =>
    exact (((h ▸ ih).trans (h' ▸ ih')).trans (h'' ▸ ih'')).trans (put_grows _ _)
  | case7 _ s _ s' h ih => exact (h ▸ ih).trans (put_grows _ _)
  | case8 _ _ s _ s' h ih => exact (h ▸ ih).trans (put_grows _ _)
  | case9 v s => exact .refl s
  | case10 v s => exact put_grows s v
  | case11 s => exact .refl s
  | case12 _ _ s _ s' h _ s'' h' ih ih' =>
    rw [h'] at ih'
    exact (h ▸ ih).trans ih'
  | case13 s => exact .refl s
  | case14 key _ _ s _ s' h _ s'' h' _ s''' h'' ih ih' =>
    rw [h''] at ih'
    exact ((h ▸ putKey_grows s key).trans (h' ▸ ih)).trans ih'

theorem isNull_put (s : Shelf) (v : Value) : (put s v).1.isNull = v.isNull := by
  cases h : isUnique v with
  | true => simp [put, h]
  | false =>
    rw [isNull_of_not_isUnique h]
    simp [put, h, Value.isNull]

/-- Only null is put as null. -/
theorem isNull_store (v : Value) (s : Shelf) : (store v s).1.isNull = v.isNull := by
  rw [store.eq_def]
  split
  all_goals first | exact isNull_put _ _ | skip
  split
  · next hplace =>
    cases v <;> first | rfl | cases hplace
  · exact isNull_put _ _

/-! ## 2. Looking up -/

/-- Nothing that is looked up on a solid shelf is null. -/
theorem isNull_valueAt {s : Shelf} (h : Solid s) (number : Nat) :
    (s.valueAt number).isNull = false := by
  unfold valueAt
  cases hnumber : s[number]? with
  | none => rfl
  | some v => exact h v (List.mem_of_getElem? hnumber)

theorem isNull_replaceShared {contents : Nat → Value}
    (h : ∀ number, (contents number).isNull = false) (v : Value) :
    (v.replaceShared contents).isNull = v.isNull := by
  cases v with
  | shared number => exact h number
  | filterAt f => cases f <;> rfl
  | _ => rfl

theorem isNull_expandWithin {s : Shelf} (h : Solid s) (depth : Nat) (v : Value) :
    (s.expandWithin depth v).isNull = v.isNull := by
  induction depth generalizing v with
  | zero => rfl
  | succ depth ih =>
    refine isNull_replaceShared (fun number => ?_) v
    rw [isNull_lyingAt, ih, isNull_valueAt h]

theorem isNull_expand {s : Shelf} (h : Solid s) (v : Value) : (s.expand v).isNull = v.isNull :=
  isNull_expandWithin h _ v

/-- Appending to a list leaves a solid shelf solid. -/
theorem append_solid {s : Shelf} (h : Solid s) (number : Nat) (v : Value) :
    Solid (s.append number v) := by
  unfold append
  split
  · intro found hfound
    rcases List.mem_or_eq_of_mem_set hfound with hfound | rfl
    · exact h found hfound
    · rfl
  · exact h

end RowMapper.Shelf
