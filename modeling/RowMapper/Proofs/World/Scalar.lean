import RowMapper.Proofs.Sql.Store
import RowMapper.Proofs.Value.Plain
import RowMapper.Proofs.Where.Pinning

/-!
# Scalars on the shelf

A value that was taken from the shelf remembers its number, and a value of a database stays there as
it is, so it is had back the same (`Scalar.sent`), and two such keys with one number are one key.
-/
namespace RowMapper

namespace Value

theorem text?_of_unplaced {v : Value} {name : String} (h : v.unplaced = .str name) :
    v.text? = some name := by
  cases v <;> first
    | cases h; rfl
    | cases h

/-- A value with a text is that text, which may lie on the shelf. -/
theorem eq_strAt_of_text? {v : Value} {name : String} (h : v.text? = some name) :
    ∃ place, v = .strAt name place := by
  cases v <;> cases h
  exact ⟨_, rfl⟩

theorem place_of_isDatum {v : Value} (h : v.isDatum = true) : v.place = none := by
  cases v with
  | intAt n place => cases place <;> first | rfl | cases h
  | floatAt x place => cases place <;> first | rfl | cases h
  | strAt s place => cases place <;> first | rfl | cases h
  | bytesAt b place => cases place <;> first | rfl | cases h
  | null => rfl
  | bool b => rfl
  | _ => cases h

theorem isDatum_of_place {v : Value} (h : v.unplaced.isDatum = true) (hplace : v.place = none) :
    v.isDatum = true := by
  cases v <;> first
    | exact h
    | (cases hplace; rfl)

end Value

namespace Shelf

variable {s t : Shelf} {v : Value}

/-! ## 1. Scalars -/

/-- A value that remembers a number lies there. -/
def Recalls (s : Shelf) (v : Value) : Prop :=
  ∀ number, v.place = some number → s[number]? = some v.unplaced

theorem recalls_of_place (h : v.place = none) : s.Recalls v := by
  intro number hnumber
  cases h.symm.trans hnumber

theorem Recalls.mono (h : s.Recalls v) (hshelf : s <+: t) : t.Recalls v := by
  intro number hnumber
  obtain ⟨more, rfl⟩ := hshelf
  have hlies := h number hnumber
  rw [List.getElem?_append_left (List.getElem?_eq_some_iff.mp hlies).1, hlies]

/-- A value of a database, which may lie on the shelf. -/
structure Scalar (s : Shelf) (v : Value) : Prop where
  datum : v.unplaced.isDatum = true
  recalls : s.Recalls v

theorem scalar_of_datum (h : v.isDatum = true) : s.Scalar v where
  datum := by rwa [v.unplaced_datum h]
  recalls := recalls_of_place (Value.place_of_isDatum h)

theorem Scalar.mono (h : s.Scalar v) (hshelf : s <+: t) : t.Scalar v :=
  ⟨h.datum, h.recalls.mono hshelf⟩

/-- A scalar that was put on the shelf is had back. -/
theorem Scalar.expand_kept {held : Value} (h : s.Scalar v) (hkept : s.Kept v held) :
    (s.expand held).unplaced = v.unplaced := by
  cases hplace : v.place with
  | none =>
    have hv := Value.isDatum_of_place h.datum hplace
    rcases Shelf.expand_kept hkept hv with hsame | ⟨number, hsame⟩
    · rw [hsame]
    · rw [hsame, Value.unplaced_lyingAt hv, Value.unplaced_datum hv]
  | some number =>
    obtain ⟨before, after, hstore, -⟩ := hkept
    have hback : Shelf.store v before = (.shared number, before) := by
      have hdatum := h.datum
      cases v <;> first
        | cases hplace; done
        | cases hdatum; done
        | (cases hplace; rfl)
    cases hback.symm.trans hstore
    have hlies : s.valueAt number = v.unplaced := by
      rw [valueAt, h.recalls number hplace]
      rfl
    show ((s.expandWithin s.length (s.valueAt number)).lyingAt number).unplaced = _
    rw [hlies, expandWithin_datum h.datum, Value.unplaced_lyingAt h.datum]

/-- There is nothing to look up in a scalar. -/
theorem Scalar.replaceShared_eq (h : s.Scalar v) (contents : Nat → Value) :
    v.replaceShared contents = v := by
  have hdatum := h.datum
  cases v <;> first | rfl | cases hdatum

theorem Scalar.literalIn_isOk (h : s.Scalar v) (reference : ReferencePrinter) (opened : List Nat) :
    ∃ text, v.literalIn reference opened = .ok text := by
  have hdatum := h.datum
  cases v <;> first
    | cases hdatum; done
    | exact ⟨_, rfl⟩

/-- Scalars can be printed in every world. -/
theorem literal_scalars {values : List Value} (h : ∀ v ∈ values, s.Scalar v) (w : World) :
    ∃ text, w.literal (.list (values.map w.expand)) = .ok text := by
  have hexpand : values.map w.expand = values := by
    refine (List.map_congr_left fun v hv => ?_).trans (List.map_id values)
    exact (h v hv).replaceShared_eq _
  have hlist : w.expand (.list values) = .list values := by
    show (Value.list values).replaceShared _ = _
    rw [Value.replaceShared, Value.replaceSharedAll_eq_map,
      List.map_congr_left fun v hv => (h v hv).replaceShared_eq _, List.map_id']
  rw [hexpand, World.literal, hlist]
  obtain ⟨texts, htexts⟩ := Value.literals_isOk
    (fun v hv => (h v hv).literalIn_isOk (w.printReference w.printingDepth)) []
  exact ⟨Value.enclosed "[" "]" texts, congrArg (Except.map (Value.enclosed "[" "]")) htexts⟩

/-! ## 2. Looking up -/

/-- A value of a database is looked up as it was put on the shelf. -/
theorem look_kept {held : Value} (h : s.Kept v held) (hv : v.isDatum = true) : s.look held = v := by
  obtain ⟨before, after, hstore, more, rfl⟩ := h
  have hput : store v before = put before v := by
    cases v <;> first | rfl | (rename_i place; cases place <;> first | rfl | cases hv)
  rw [hput, put] at hstore
  split at hstore <;> cases hstore
  · cases v <;> first | rfl | cases hv
  · simp [look, valueAt]

/-- Under a number that does not stand for itself something lies. -/
theorem lies_of_ne {number : Nat} (h : s.valueAt number ≠ .shared number) :
    s[number]? = some (s.valueAt number) := by
  rw [valueAt] at h ⊢
  cases hlies : s[number]? with
  | some v => rfl
  | none =>
    rw [hlies] at h
    exact absurd rfl h

theorem lies_of_datum {number : Nat} (h : (s.valueAt number).isDatum = true) :
    s[number]? = some (s.valueAt number) :=
  lies_of_ne fun hself => by
    rw [hself] at h
    cases h

/-- What lies on the shelf stays there. -/
theorem valueAt_later {number : Nat} (h : s.valueAt number ≠ .shared number) (hshelf : s <+: t) :
    t.valueAt number = s.valueAt number := by
  obtain ⟨more, rfl⟩ := hshelf
  rw [valueAt, List.getElem?_append_left (List.getElem?_eq_some_iff.mp (lies_of_ne h)).1,
    lies_of_ne h]
  rfl

/-- A value that is looked up as one of a database is taken from the shelf as that value. -/
theorem scalar_expand {held : Value} (h : (s.look held).isDatum = true) :
    s.Scalar (s.expand held) ∧ (s.expand held).unplaced = s.look held := by
  by_cases hshared : ∃ number, held = .shared number
  · obtain ⟨number, rfl⟩ := hshared
    replace h : (s.valueAt number).isDatum = true := h
    have hexpand : s.expand (.shared number) = (s.valueAt number).lyingAt number := by
      show (s.expandWithin s.length (s.valueAt number)).lyingAt number = _
      rw [expandWithin_datum h]
    have hunplaced := Value.unplaced_lyingAt h number
    rw [hexpand]
    refine ⟨⟨hunplaced.symm ▸ h, fun place hplace => ?_⟩, hunplaced⟩
    have hsame : place = number := by
      generalize s.valueAt number = v at h hplace
      cases v <;> first
        | cases h; done
        | cases hplace; done
        | (cases hplace; rfl)
    rw [hsame, lies_of_datum h, hunplaced]
  · have hlook : s.look held = held := by
      cases held <;> first | rfl | exact absurd ⟨_, rfl⟩ hshared
    rw [hlook] at h
    have hexpand : s.expand held = held := expandWithin_datum h s _
    rw [hexpand, hlook]
    exact ⟨scalar_of_datum h, held.unplaced_datum h⟩

/-- What is looked up as a value of a database is looked up as the same later. -/
theorem look_later {held : Value} (h : (s.look held).isDatum = true) (hshelf : s <+: t) :
    t.look held = s.look held := by
  by_cases hshared : ∃ number, held = .shared number
  · obtain ⟨number, rfl⟩ := hshared
    replace h : (s.valueAt number).isDatum = true := h
    refine valueAt_later (fun hself => ?_) hshelf
    rw [hself] at h
    cases h
  · cases held <;> first | rfl | exact absurd ⟨_, rfl⟩ hshared

/-! ## 3. Keys -/

/-- Keys with one number are the same but for the number. -/
theorem Recalls.unplaced_eq {a b : Value} (ha : s.Recalls a) (hb : s.Recalls b)
    (h : a.sharePlace b = true) : a.unplaced = b.unplaced := by
  unfold Value.sharePlace at h
  split at h
  · next m n hm hn =>
    cases beq_iff_eq.mp h
    exact Option.some.inj ((ha m hm).symm.trans (hb m hn))
  · cases h

/-- A text is put only under a key that is the same text. -/
theorem Recalls.text?_eq {a b : Value} {name : String} (ha : s.Recalls a) (hb : s.Recalls b)
    (h : a.Takes b) (hname : b.text? = some name) : a.text? = some name := by
  rcases h with rfl | h
  · exact hname
  obtain ⟨place, rfl⟩ := Value.eq_strAt_of_text? hname
  cases hplace : a.sharePlace (.strAt name place) with
  | true => exact Value.text?_of_unplaced (ha.unplaced_eq hb hplace)
  | false =>
    cases a with
    | strAt other place' =>
      rw [Value.sameKey, hplace, Bool.false_or, beq_iff_eq] at h
      exact congrArg some h
    | _ => simp [Value.sameKey, hplace, Value.asInt?] at h

end Shelf
end RowMapper
