import RowMapper.Proofs.Dictionary
import RowMapper.Proofs.Model.Extension

/-!
# References to associations

Classes hold associations by their numbers, as attributes and in the tables of their mappers.  In a
`Whole` registry there is an association for each of these numbers.  A definition keeps a registry
whole if the associations of other classes that it uses again are there (`addModel_whole`,
`newClass_whole`).

`Grows` says in which way a registry may change so that nothing that was found for an association is
lost.
-/
namespace RowMapper.Model

/-- What is used again is there: if a value is an association, the registry has it. -/
def Registry.Has (r : Registry) (v : Value) : Prop :=
  ∀ ref, v = .association ref → ref.index < r.associations.length

/-- The associations of other classes that a definition uses again are there. -/
structure Definition.Usable (r : Registry) (d : Definition) : Prop where
  attributes : ∀ name v, (name, .plain v) ∈ d.attributes → r.Has v
  settings : ∀ settings, d.settings = some settings → ∀ entry ∈ settings, r.Has entry.2

namespace Registry

/-- The associations among attributes have numbers below a bound. -/
def Within (bound : Nat) (attributes : Dictionary ClassAttribute) : Prop :=
  ∀ name index, (name, .association index) ∈ attributes → index < bound

/-- The associations in the table of a class have numbers below a bound. -/
def TableWithin (bound : Nat) (mapper : Option Mapper) : Prop :=
  ∀ m, mapper = some m → ∀ entry ∈ m.associations, entry.2 < bound

/-- Every class goes by its number, and the associations that it holds are there. -/
structure Whole (r : Registry) : Prop where
  numbered : r.Numbered
  attributes : ∀ id, Within r.associations.length (r.classAt id).attributes
  tables : ∀ id, TableWithin r.associations.length (r.classAt id).mapper

variable {r r' : Registry}

theorem Within.mono {bound bound' : Nat} {attributes : Dictionary ClassAttribute}
    (hle : bound ≤ bound') (h : Within bound attributes) : Within bound' attributes :=
  fun name index hentry => Nat.lt_of_lt_of_le (h name index hentry) hle

theorem TableWithin.mono {bound bound' : Nat} {mapper : Option Mapper} (hle : bound ≤ bound')
    (h : TableWithin bound mapper) : TableWithin bound' mapper :=
  fun m hm entry hentry => Nat.lt_of_lt_of_le (h m hm entry hentry) hle

theorem TableWithin.none (bound : Nat) : TableWithin bound none := by
  rintro _ ⟨⟩

theorem initial_whole : initial.Whole where
  numbered := initial_numbered
  attributes id := by
    cases id with
    | zero => simp [Within, classAt, initial, root, rootOperations]
    | succ => rintro _ _ ⟨⟩
  tables id := by
    cases id with
    | zero => exact .none _
    | succ => exact .none _

/-- More associations do no harm. -/
theorem Whole.of_classes (h : r.Whole) (hclasses : r'.classes = r.classes)
    (hle : r.associations.length ≤ r'.associations.length) : r'.Whole where
  numbered := h.numbered.of_classes hclasses
  attributes id := by
    rw [classAt, hclasses]
    exact (h.attributes id).mono hle
  tables id := by
    rw [classAt, hclasses]
    exact (h.tables id).mono hle

theorem classAt_addClass_of_ne (r : Registry) (c : ModelClass) {id : Nat}
    (hid : id ≠ r.classes.length) : (r.addClass c).classAt id = r.classAt id := by
  rw [classAt, addClass, classAt]
  rcases Nat.lt_or_gt_of_ne hid with hlt | hgt
  · rw [List.getElem?_append_left hlt]
  · have hout : (r.classes ++ [c]).length ≤ id := by
      rw [List.length_append]
      exact hgt
    rw [List.getElem?_eq_none (Nat.le_of_lt hgt), List.getElem?_eq_none hout]

theorem addClass_whole (h : r.Whole) {c : ModelClass} (hid : c.ref.id = r.classes.length)
    (hattributes : Within r.associations.length c.attributes)
    (htable : TableWithin r.associations.length c.mapper) : (r.addClass c).Whole where
  numbered := addClass_numbered h.numbered hid
  attributes id := by
    by_cases hnew : id = r.classes.length
    · rwa [hnew, classAt_addClass_self]
    · rw [classAt_addClass_of_ne r c hnew]
      exact h.attributes id
  tables id := by
    by_cases hnew : id = r.classes.length
    · rwa [hnew, classAt_addClass_self]
    · rw [classAt_addClass_of_ne r c hnew]
      exact h.tables id

/-! ## 1. Definitions -/

/-- What a body may use again. -/
def UsableBody (r : Registry) (body : List (String × AttributeBody)) : Prop :=
  ∀ name v, (name, .plain v) ∈ body → r.Has v

theorem Has.mono {v : Value} (hle : r.associations.length ≤ r'.associations.length)
    (h : r.Has v) : r'.Has v := fun ref hv => Nat.lt_of_lt_of_le (h ref hv) hle

theorem addAttribute_within {name : String} {body : AttributeBody}
    (h : ∀ v, body = .plain v → r.Has v) {index : Nat}
    (hattribute : (r.addAttribute name body).2 = .association index) :
    index < (r.addAttribute name body).1.associations.length := by
  cases body with
  | column c => cases hattribute
  | association a =>
    cases hattribute
    show r.associations.length < (r.associations ++ [_]).length
    simp
  | plain v =>
    have hv := h v rfl
    cases v with
    | association ref =>
      cases hattribute
      show ref.index < (r.associations.set _ _).length
      rw [List.length_set]
      exact hv ref rfl
    | _ => cases hattribute

theorem addAttributes_within {body : List (String × AttributeBody)} (h : r.UsableBody body) :
    Within (r.addAttributes body).1.associations.length (r.addAttributes body).2 := by
  induction body generalizing r with
  | nil => exact nofun
  | cons entry rest ih =>
    obtain ⟨name, body⟩ := entry
    have hfirst := (addAttribute_extends r name body).associations_le
    have hrest := (addAttributes_extends (r.addAttribute name body).1 rest).associations_le
    intro known index hentry
    rcases List.mem_cons.mp hentry with heq | hmem
    · refine Nat.lt_of_lt_of_le (addAttribute_within (fun v hv => ?_) (Prod.mk.inj heq).2.symm) hrest
      exact h name v (hv ▸ List.mem_cons_self)
    · refine ih (fun other v hv => ?_) known index hmem
      exact (h other v (List.mem_cons_of_mem _ hv)).mono hfirst

theorem addAttributes_whole (h : r.Whole) (body : List (String × AttributeBody)) :
    (r.addAttributes body).1.Whole :=
  h.of_classes (addAttributes_classes r body) (addAttributes_extends r body).associations_le

theorem bodyOf_whole (h : r.Whole) {d : Definition} (hd : d.Usable r) :
    (r.bodyOf d).1.Whole ∧ (r.bodyOf d).1.UsableBody (Dictionary.ofList (r.bodyOf d).2) := by
  have hextends := bodyOf_extends r d
  rw [bodyOf] at hextends ⊢
  cases hsettings : d.settings with
  | none =>
    exact ⟨h, fun name v hv => hd.attributes name v (Dictionary.mem_ofList hv)⟩
  | some settings =>
    rw [hsettings] at hextends
    refine ⟨addClass_whole (addAttributes_whole h _) ?_ (addAttributes_within ?_) (.none _), ?_⟩
    · rw [addAttributes_classes]
    · intro name v hv
      obtain ⟨entry, hentry, heq⟩ := List.mem_map.mp hv
      cases heq
      exact hd.settings settings hsettings entry (Dictionary.mem_ofList hentry)
    · intro name v hv
      rcases List.mem_cons.mp (Dictionary.mem_ofList hv) with heq | hmem
      · cases heq
        rintro _ ⟨⟩
      · exact (hd.attributes name v hmem).mono hextends.associations_le

theorem newClass_whole {d : Definition} {c : ModelClass} (h : r.Whole) (hd : d.Usable r)
    (hnew : r.newClass d = .ok (r', c)) :
    r'.Whole ∧ Within r'.associations.length c.attributes ∧ c.mapper = none := by
  obtain ⟨hmade, hbody⟩ := bodyOf_whole h hd
  obtain ⟨bases, hbases, -⟩ := bind_eq_ok.mp hnew
  rw [newClass_eq hbases] at hnew
  split at hnew
  · cases hnew
    exact ⟨addAttributes_whole hmade _, addAttributes_within hbody, rfl⟩
  · cases hnew

theorem mem_collect {select : ClassAttribute → Option Nat}
    {chain : List (Dictionary ClassAttribute)} {entry : String × Nat}
    (h : entry ∈ collect select chain) :
    ∃ attributes ∈ chain, ∃ a, (entry.1, a) ∈ attributes ∧ select a = some entry.2 := by
  obtain ⟨attributes, hattributes, hentry⟩ := List.mem_flatMap.mp (Dictionary.mem_ofList h)
  obtain ⟨⟨name, a⟩, ha, hpicked⟩ := List.mem_filterMap.mp hentry
  obtain ⟨index, hindex, heq⟩ := Option.map_eq_some_iff.mp hpicked
  cases heq
  exact ⟨attributes, List.mem_reverse.mp hattributes, a, ha, hindex⟩

theorem resolveKey_within {model : String} {attributes : Dictionary ClassAttribute}
    {columns : Dictionary Nat} {keyed : Keyed} {bound : Nat}
    (h : r.resolveKey model attributes columns = .ok keyed) (hwithin : Within bound attributes) :
    Within bound keyed.attributes := by
  rw [resolveKey] at h
  split at h
  · cases h
    exact hwithin
  · split at h
    · cases h
      exact hwithin
    · cases h
      intro name index hentry
      rcases Dictionary.mem_insert hentry with hmem | heq
      · exact hwithin name index hmem
      · cases heq
  · cases h

theorem addModel_whole {c : ModelClass} {tableName : Value} (h : r.Whole)
    (hid : c.ref.id = r.classes.length) (hattributes : Within r.associations.length c.attributes)
    (hadd : r.addModel c tableName = .ok r') : r'.Whole := by
  rw [addModel] at hadd
  obtain ⟨keyed, hkeyed, hadd⟩ := bind_eq_ok.mp hadd
  cases hadd
  have hclasses := resolveKey_classes hkeyed
  have hassociations := resolveKey_associations hkeyed
  have hkeyed_within := resolveKey_within hkeyed hattributes
  rw [← hassociations] at hkeyed_within
  refine addClass_whole (h.of_classes hclasses (hassociations ▸ Nat.le_refl _)) ?_ hkeyed_within ?_
  · rw [hclasses]
    exact hid
  · rintro m hm entry hentry
    cases hm
    obtain ⟨⟨name, index⟩, hcollected, rfl⟩ := List.mem_map.mp hentry
    obtain ⟨attributes, hchain, a, ha, hpicked⟩ := mem_collect hcollected
    cases a <;> cases hpicked
    rcases List.mem_cons.mp hchain with rfl | hinherited
    · exact hkeyed_within name index ha
    · obtain ⟨ancestor, -, rfl⟩ := List.mem_map.mp hinherited
      rw [hassociations]
      exact h.attributes ancestor name index ha

/-- The classes from a number on are not finalized. -/
def Unfinalized (bound : Nat) (r : Registry) : Prop :=
  ∀ id, bound ≤ id → ∀ m, (r.classAt id).mapper = some m → m.finalized = false

theorem unfinalized_self (r : Registry) : Unfinalized r.classes.length r := by
  intro id hid m hm
  rw [classAt, List.getElem?_eq_none hid] at hm
  cases hm

theorem Unfinalized.of_classes {bound : Nat} (h : Unfinalized bound r)
    (hclasses : r'.classes = r.classes) : Unfinalized bound r' := by
  intro id hid m hm
  rw [classAt, hclasses] at hm
  exact h id hid m hm

theorem addClass_unfinalized {bound : Nat} (h : Unfinalized bound r) {c : ModelClass}
    (hc : ∀ m, c.mapper = some m → m.finalized = false) : Unfinalized bound (r.addClass c) := by
  intro id hid m hm
  by_cases hnew : id = r.classes.length
  · rw [hnew, classAt_addClass_self] at hm
    exact hc m hm
  · rw [classAt_addClass_of_ne r c hnew] at hm
    exact h id hid m hm

theorem newClass_unfinalized {d : Definition} {c : ModelClass}
    (hnew : r.newClass d = .ok (r', c)) : Unfinalized r.classes.length r' := by
  obtain ⟨rfl, -⟩ := newClass_eq_ok hnew
  refine Unfinalized.of_classes ?_ (addAttributes_classes _ _)
  rw [bodyOf]
  cases d.settings with
  | none => exact unfinalized_self r
  | some settings =>
    exact addClass_unfinalized ((unfinalized_self r).of_classes (addAttributes_classes _ _))
      (by rintro _ ⟨⟩)

theorem addModel_unfinalized {c : ModelClass} {tableName : Value} {bound : Nat}
    (h : Unfinalized bound r) (hadd : r.addModel c tableName = .ok r') : Unfinalized bound r' := by
  rw [addModel] at hadd
  obtain ⟨keyed, hkeyed, hadd⟩ := bind_eq_ok.mp hadd
  cases hadd
  refine addClass_unfinalized (h.of_classes (resolveKey_classes hkeyed)) fun m hm => ?_
  cases hm
  rfl

/-! ## 2. What was found -/

/-- A target was found, and it is a model. -/
def Finds (r : Registry) (found : Option ModelRef) : Prop :=
  ∃ ref, found = some ref ∧ (r.classAt ref.id).mapper.isSome

/-- All targets of an association were found. -/
structure Resolved (r : Registry) (a : Association) : Prop where
  target : r.Finds a.resolved
  through : ∀ through otherKey key, a.kind = .belongsToMany through otherKey key →
    r.Finds a.resolvedThrough

/-- A registry later: models stay models, and what was found for an association is not lost. -/
structure Grows (r r' : Registry) : Prop where
  associations_le : r.associations.length ≤ r'.associations.length
  models : ∀ id, (r.classAt id).mapper.isSome → (r'.classAt id).mapper.isSome
  resolved : ∀ index, index < r.associations.length → r.Resolved (r.associationAt index) →
    r'.Resolved (r'.associationAt index)

instance : IsPreorder Registry Grows where
  refl _ := ⟨Nat.le_refl _, fun _ h => h, fun _ _ h => h⟩
  trans _ _ _ h h' := ⟨Nat.le_trans h.associations_le h'.associations_le,
    fun id hid => h'.models id (h.models id hid),
    fun index hindex hfound => h'.resolved index (Nat.lt_of_lt_of_le hindex h.associations_le)
      (h.resolved index hindex hfound)⟩

theorem Finds.of_models {found : Option ModelRef}
    (hmodels : ∀ id, (r.classAt id).mapper.isSome → (r'.classAt id).mapper.isSome)
    (h : r.Finds found) : r'.Finds found := by
  obtain ⟨ref, hfound, hmodel⟩ := h
  exact ⟨ref, hfound, hmodels _ hmodel⟩

theorem Resolved.of_models {a : Association}
    (hmodels : ∀ id, (r.classAt id).mapper.isSome → (r'.classAt id).mapper.isSome)
    (h : r.Resolved a) : r'.Resolved a where
  target := h.target.of_models hmodels
  through through otherKey key hkind := (h.through through otherKey key hkind).of_models hmodels

theorem Extends.grows (h : Extends r r') : Grows r r' := by
  have hmodels (id : Nat) (hid : (r.classAt id).mapper.isSome) :
      (r'.classAt id).mapper.isSome := by
    rcases Nat.lt_or_ge id r.classes.length with hlt | hout
    · rwa [h.classAt_eq hlt]
    · rw [classAt, List.getElem?_eq_none hout] at hid
      cases hid
  refine ⟨h.associations_le, hmodels, fun index hindex hfound => ?_⟩
  obtain ⟨name, hname⟩ := h.associationAt_eq index hindex
  have hlater := hfound.of_models hmodels
  rw [hname]
  exact ⟨hlater.target, hlater.through⟩

end RowMapper.Model.Registry
