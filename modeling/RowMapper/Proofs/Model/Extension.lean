import Mathlib.Order.Defs.Unbundled
import RowMapper.Proofs.Model.Numbering

/-!
# What definitions leave alone

When a class is defined the registry grows at its ends: `Extends` says which parts of it are as they
were.  An association of another class that is used again goes by its new name from then on, and
columns may be marked, but what the classes have stays, and so does what is known of the targets of
associations.  `KeepsKeys` says that no column was marked; `addModel` may mark one, and then it is
the column that the new class takes for its key (`addModel_marks`).
-/
namespace RowMapper.Model.Registry

/-- A registry with more classes and associations at the end.  Those that were there are the same,
but for the names of associations. -/
structure Extends (r r' : Registry) : Prop where
  classes : r.classes <+: r'.classes
  associations_le : r.associations.length ≤ r'.associations.length
  associationAt_eq : ∀ index, index < r.associations.length →
    ∃ name, r'.associationAt index = { r.associationAt index with name }

variable {r r' r'' : Registry}

theorem Extends.of_eq (hclasses : r'.classes = r.classes)
    (hassociations : r'.associations = r.associations) : Extends r r' where
  classes := hclasses ▸ List.prefix_rfl
  associations_le := hassociations ▸ Nat.le_refl _
  associationAt_eq index _ := ⟨(r.associationAt index).name, by
    rw [associationAt, hassociations]
    rfl⟩

instance : IsPreorder Registry Extends where
  refl _ := .of_eq rfl rfl
  trans _ _ _ h h' := by
    refine ⟨h.classes.trans h'.classes, Nat.le_trans h.associations_le h'.associations_le,
      fun index hindex => ?_⟩
    obtain ⟨name, hname⟩ := h.associationAt_eq index hindex
    obtain ⟨name', hname'⟩ := h'.associationAt_eq index (Nat.lt_of_lt_of_le hindex h.associations_le)
    exact ⟨name', by rw [hname', hname]⟩

theorem Extends.classAt_eq (h : Extends r r') {id : Nat} (hid : id < r.classes.length) :
    r'.classAt id = r.classAt id := by
  obtain ⟨more, hmore⟩ := h.classes
  rw [classAt, classAt, ← hmore, List.getElem?_append_left hid]

/-! ## 1. Attributes -/

theorem addAssociation_extends (r : Registry) (a : Association) :
    Extends r (r.addAssociation a).1 where
  classes := List.prefix_rfl
  associations_le := by simp [addAssociation]
  associationAt_eq index hindex := ⟨(r.associationAt index).name, by
    show ((r.associations ++ [a])[index]?).getD default = _
    rw [List.getElem?_append_left hindex]
    rfl⟩

/-- An association that is used again gets a new name. -/
theorem rename_extends (r : Registry) (index : Nat) (name : Value) :
    Extends r (r.updateAssociation index fun a => { a with name }) where
  classes := List.prefix_rfl
  associations_le := by simp [updateAssociation]
  associationAt_eq other hother := by
    show ∃ known, ((r.associations.set index _)[other]?).getD default = _
    by_cases hindex : index = other
    · subst hindex
      exact ⟨name, by rw [List.getElem?_set_self hother]; rfl⟩
    · exact ⟨(r.associationAt other).name, by rw [List.getElem?_set_ne hindex]; rfl⟩

theorem addAttribute_extends (r : Registry) (name : String) (body : AttributeBody) :
    Extends r (r.addAttribute name body).1 := by
  cases body with
  | column c => exact .of_eq rfl rfl
  | association a => exact addAssociation_extends r _
  | plain v =>
    cases v with
    | association ref => exact rename_extends r ref.index _
    | _ => exact .of_eq rfl rfl

theorem addAttributes_extends (r : Registry) (body : List (String × AttributeBody)) :
    Extends r (r.addAttributes body).1 := by
  induction body generalizing r with
  | nil => exact refl_of Extends r
  | cons entry rest ih =>
    rw [addAttributes]
    exact trans_of Extends (addAttribute_extends r entry.1 entry.2) (ih _)

/-! ## 2. Classes -/

theorem addClass_extends (r : Registry) (c : ModelClass) : Extends r (r.addClass c) where
  classes := List.prefix_append r.classes [c]
  associations_le := Nat.le_refl _
  associationAt_eq index _ := ⟨(r.associationAt index).name, rfl⟩

theorem bodyOf_extends (r : Registry) (d : Definition) : Extends r (r.bodyOf d).1 := by
  rw [bodyOf]
  cases d.settings with
  | none => exact refl_of Extends r
  | some settings => exact trans_of Extends (addAttributes_extends r _) (addClass_extends _ _)

theorem newClass_extends {d : Definition} {c : ModelClass} (hnew : r.newClass d = .ok (r', c)) :
    Extends r r' := by
  obtain ⟨rfl, -⟩ := newClass_eq_ok hnew
  exact trans_of Extends (bodyOf_extends r d) (addAttributes_extends _ _)

theorem resolveKey_associations {model : String} {attributes : Dictionary ClassAttribute}
    {columns : Dictionary Nat} {keyed : Keyed}
    (h : r.resolveKey model attributes columns = .ok keyed) :
    keyed.registry.associations = r.associations := by
  rw [resolveKey] at h
  split at h
  · cases h
    rfl
  · split at h <;> cases h <;> rfl
  · cases h

theorem addModel_extends {c : ModelClass} {tableName : Value}
    (hadd : r.addModel c tableName = .ok r') : Extends r r' := by
  rw [addModel] at hadd
  obtain ⟨keyed, hkeyed, hadd⟩ := bind_eq_ok.mp hadd
  cases hadd
  exact trans_of Extends (.of_eq (resolveKey_classes hkeyed) (resolveKey_associations hkeyed))
    (addClass_extends keyed.registry _)

/-! ## 3. Keys -/

/-- A registry with more columns at the end.  Those that were there are keys if they were keys. -/
structure KeepsKeys (r r' : Registry) : Prop where
  columns_le : r.columns.length ≤ r'.columns.length
  isKey_eq : ∀ index, index < r.columns.length →
    (r'.columnAt index).isKey = (r.columnAt index).isKey

theorem KeepsKeys.of_eq (h : r'.columns = r.columns) : KeepsKeys r r' where
  columns_le := h ▸ Nat.le_refl _
  isKey_eq index _ := by rw [columnAt, columnAt, h]

instance : IsPreorder Registry KeepsKeys where
  refl _ := .of_eq rfl
  trans _ _ _ h h' := ⟨Nat.le_trans h.columns_le h'.columns_le, fun index hindex =>
    (h'.isKey_eq index (Nat.lt_of_lt_of_le hindex h.columns_le)).trans (h.isKey_eq index hindex)⟩

theorem columnAt_addColumn (r : Registry) (c : Column) {index : Nat}
    (hindex : index < r.columns.length) : (r.addColumn c).1.columnAt index = r.columnAt index := by
  show ((r.columns ++ [c])[index]?).getD default = _
  rw [List.getElem?_append_left hindex]
  rfl

theorem columnAt_addColumn_self (r : Registry) (c : Column) :
    (r.addColumn c).1.columnAt r.columns.length = c := by
  show ((r.columns ++ [c])[r.columns.length]?).getD default = c
  rw [List.getElem?_concat_length]
  rfl

theorem columnAt_updateColumn (r : Registry) {index : Nat} (hindex : index < r.columns.length)
    (change : Column → Column) (other : Nat) :
    (r.updateColumn index change).columnAt other =
      if index = other then change (r.columnAt index) else r.columnAt other := by
  show ((r.columns.set index _)[other]?).getD default = _
  by_cases hother : index = other
  · subst hother
    rw [if_pos rfl, List.getElem?_set_self hindex]
    rfl
  · rw [if_neg hother, List.getElem?_set_ne hother]
    rfl

theorem addColumn_keepsKeys (r : Registry) (c : Column) : KeepsKeys r (r.addColumn c).1 where
  columns_le := by simp [addColumn]
  isKey_eq index hindex := by rw [columnAt_addColumn r c hindex]

/-- A column that is used again under another name is a key if it was one. -/
theorem updateColumn_keepsKeys (r : Registry) (index : Nat) {change : Column → Column}
    (hchange : ∀ c, (change c).isKey = c.isKey) : KeepsKeys r (r.updateColumn index change) where
  columns_le := by simp [updateColumn]
  isKey_eq other hother := by
    by_cases hindex : index < r.columns.length
    · rw [columnAt_updateColumn r hindex]
      split
      · next heq => rw [hchange, heq]
      · rfl
    · rw [columnAt, updateColumn, List.set_eq_of_length_le (Nat.le_of_not_lt hindex)]
      rfl

theorem addAttribute_keepsKeys (r : Registry) (name : String) (body : AttributeBody) :
    KeepsKeys r (r.addAttribute name body).1 := by
  cases body with
  | column c => exact addColumn_keepsKeys r _
  | association a => exact .of_eq rfl
  | plain v =>
    cases v with
    | column ref =>
      have hchange (c : Column) : ({ c with name } : Column).isKey = c.isKey := rfl
      exact updateColumn_keepsKeys r ref.index hchange
    | _ => exact .of_eq rfl

theorem addAttributes_keepsKeys (r : Registry) (body : List (String × AttributeBody)) :
    KeepsKeys r (r.addAttributes body).1 := by
  induction body generalizing r with
  | nil => exact refl_of KeepsKeys r
  | cons entry rest ih =>
    rw [addAttributes]
    exact trans_of KeepsKeys (addAttribute_keepsKeys r entry.1 entry.2) (ih _)

theorem addClass_keepsKeys (r : Registry) (c : ModelClass) : KeepsKeys r (r.addClass c) :=
  .of_eq rfl

theorem bodyOf_keepsKeys (r : Registry) (d : Definition) : KeepsKeys r (r.bodyOf d).1 := by
  rw [bodyOf]
  cases d.settings with
  | none => exact refl_of KeepsKeys r
  | some settings => exact trans_of KeepsKeys (addAttributes_keepsKeys r _) (addClass_keepsKeys _ _)

theorem newClass_keepsKeys {d : Definition} {c : ModelClass} (hnew : r.newClass d = .ok (r', c)) :
    KeepsKeys r r' := by
  obtain ⟨rfl, -⟩ := newClass_eq_ok hnew
  exact trans_of KeepsKeys (bodyOf_keepsKeys r d) (addAttributes_keepsKeys _ _)

/-- The only column that finding a key marks is the one that is found. -/
theorem resolveKey_marks {model : String} {attributes : Dictionary ClassAttribute}
    {columns : Dictionary Nat} {keyed : Keyed}
    (h : r.resolveKey model attributes columns = .ok keyed) :
    r.columns.length ≤ keyed.registry.columns.length ∧ ∀ index, index < r.columns.length →
      (keyed.registry.columnAt index).isKey = (r.columnAt index).isKey ∨
      (keyed.registry.columnAt index).isKey = true ∧
        keyed.columns.get? keyed.key = some index := by
  rw [resolveKey] at h
  split at h
  · cases h
    exact ⟨Nat.le_refl _, fun _ _ => .inl rfl⟩
  · split at h
    · next marked hmarked =>
      cases h
      refine ⟨by simp [markKey, updateColumn], fun index hindex => ?_⟩
      by_cases hsame : marked = index
      · subst hsame
        refine .inr ⟨?_, hmarked⟩
        show ((r.updateColumn marked _).columnAt marked).isKey = true
        rw [columnAt_updateColumn r hindex, if_pos rfl]
      · refine .inl ?_
        show ((r.columns.set marked _)[index]?.getD default).isKey = _
        rw [List.getElem?_set_ne hsame]
        rfl
    · cases h
      have hkeeps := addColumn_keepsKeys r implicitColumn
      exact ⟨hkeeps.columns_le, fun index hindex => .inl (hkeeps.isKey_eq index hindex)⟩
  · cases h

/-- The only column that adding a model marks is the one that the model takes for its key. -/
theorem addModel_marks {c : ModelClass} {tableName : Value} (hadd : r.addModel c tableName = .ok r') :
    r.columns.length ≤ r'.columns.length ∧ ∀ index, index < r.columns.length →
      (r'.columnAt index).isKey = (r.columnAt index).isKey ∨
      (r'.columnAt index).isKey = true ∧ ∃ m, (r'.classAt r.classes.length).mapper = some m ∧
        m.columns.get? m.key = some index := by
  rw [addModel] at hadd
  obtain ⟨keyed, hkeyed, hadd⟩ := bind_eq_ok.mp hadd
  obtain ⟨hle, hmarks⟩ := resolveKey_marks hkeyed
  have hclasses := resolveKey_classes hkeyed
  cases hadd
  refine ⟨hle, fun index hindex => ?_⟩
  rcases hmarks index hindex with hsame | ⟨hmarked, hkey⟩
  · exact .inl hsame
  · refine .inr ⟨hmarked, ?_⟩
    rw [← hclasses, classAt_addClass_self]
    exact ⟨_, rfl, hkey⟩

end RowMapper.Model.Registry
