import RowMapper.Proofs.Model.Linearization
import RowMapper.Proofs.Model.Reference
import RowMapper.Proofs.World.Holding

/-!
# Names of columns and of associations

A class gets its columns and its associations in two walks over its ancestors.  `DeclaresAs` says
that a name is met on such a walk, and `DeclaredTwice` that it is met on both.  In a `WellNamed`
registry the columns of every model are just what is met on the first walk, what is met on the
second is in the table of associations, and whatever else is in the table has the name of no column.
-/
namespace RowMapper

namespace Dictionary

variable {α : Type}

theorem mem_insert_self (d : Dictionary α) (name : String) (a : α) : (name, a) ∈ insert d name a :=
  mem_of_get? (get?_insert_self d name a)

/-- Writing a name leaves the entries of other names where they are. -/
theorem mem_insert_of_ne {d : Dictionary α} {name other : String} {a b : α} (h : (name, a) ∈ d)
    (hne : other ≠ name) : (name, a) ∈ insert d other b := by
  induction d with
  | nil => cases h
  | cons entry rest ih =>
    obtain ⟨known, old⟩ := entry
    rw [insert]
    rcases List.mem_cons.mp h with heq | hrest
    · obtain ⟨rfl, rfl⟩ := Prod.mk.inj heq
      rw [if_neg (Ne.symm hne)]
      exact List.mem_cons_self
    · split
      · exact List.mem_cons_of_mem _ hrest
      · exact List.mem_cons_of_mem _ (ih hrest)

theorem mem_names_ofList {entries : List (String × α)} {name : String} :
    name ∈ names (ofList entries) ↔ ∃ a, (name, a) ∈ entries := by
  constructor
  · intro h
    obtain ⟨entry, hentry, rfl⟩ := List.mem_map.mp h
    exact ⟨entry.2, mem_ofList hentry⟩
  · rintro ⟨a, ha⟩
    by_contra hnot
    exact get?_ofList_ne_none ha (get?_eq_none hnot)

end Dictionary

/-- Something stands under a text where an entry has that text for its key. -/
theorem Entries.has_str {α : Type} {entries : List (Value × α)} {name : String} :
    Entries.has entries (.str name) = true ↔ ∃ entry ∈ entries, entry.1.text? = some name := by
  simp [Entries.has, Value.sameKey_str]

/-- The entries of a dictionary stand under its names. -/
theorem Entries.has_str_map {α : Type} {d : Dictionary α} {name : String} :
    Entries.has (d.map fun entry => (Value.str entry.1, entry.2)) (.str name) = true ↔
      name ∈ d.names := by
  simp [Entries.has_str, Dictionary.names, Value.text?]

namespace Model.Registry

variable {r r' : Registry} {id : Nat} {name : String} {select : ClassAttribute → Option Nat}

/-! ## 1. What classes declare -/

/-- One of the bodies in a chain has an attribute of a name that `select` picks. -/
def MetIn (select : ClassAttribute → Option Nat) (chain : List (Dictionary ClassAttribute))
    (name : String) : Prop :=
  ∃ attributes ∈ chain, ∃ a, (name, a) ∈ attributes ∧ select a ≠ none

/-- The bodies of a class and of all its ancestors. -/
def bodies (r : Registry) (id : Nat) : List (Dictionary ClassAttribute) :=
  (r.classAt id).ancestry.map fun ancestor => (r.classAt ancestor).attributes

/-- A class or one of its ancestors has an attribute of a name that `select` picks. -/
def DeclaresAs (r : Registry) (select : ClassAttribute → Option Nat) (id : Nat) (name : String) :
    Prop := MetIn select (r.bodies id) name

/-- A name is declared as a column, and as an association too. -/
def DeclaredTwice (r : Registry) (id : Nat) (name : String) : Prop :=
  r.DeclaresAs column? id name ∧ r.DeclaresAs association? id name

/-- A class declares the same where it has the same ancestors, and these have the same bodies. -/
theorem bodies_congr (hancestry : (r'.classAt id).ancestry = (r.classAt id).ancestry)
    (hattributes : ∀ ancestor ∈ (r.classAt id).ancestry,
      (r'.classAt ancestor).attributes = (r.classAt ancestor).attributes) :
    r'.bodies id = r.bodies id := by
  rw [bodies, hancestry]
  exact List.map_congr_left hattributes

theorem declaresAs_congr (hsame : r'.bodies id = r.bodies id) :
    r'.DeclaresAs select id name = r.DeclaresAs select id name := by
  rw [DeclaresAs, hsame, DeclaresAs]

theorem declaredTwice_congr (hsame : r'.bodies id = r.bodies id) :
    r'.DeclaredTwice id name = r.DeclaredTwice id name := by
  rw [DeclaredTwice, declaresAs_congr hsame, declaresAs_congr hsame, DeclaredTwice]

/-- What a mapper names.  Its columns are those that its class declares; the associations that the
class declares are in the table; and no others have the name of a column. -/
structure Named (r : Registry) (id : Nat) (m : Mapper) : Prop where
  columns : ∀ name, name ∈ m.columns.names ↔ r.DeclaresAs column? id name
  declared : ∀ name, r.DeclaresAs association? id name →
    Entries.has m.associations (.str name) = true
  apart : ∀ name, name ∈ m.columns.names → Entries.has m.associations (.str name) = true →
    r.DeclaresAs association? id name

/-- A mapper whose table has nothing but what is declared. -/
theorem Named.of_bodies {m : Mapper} {chain : List (Dictionary ClassAttribute)}
    (hbodies : r.bodies id = chain) (hcolumns : ∀ name, name ∈ m.columns.names ↔
      MetIn column? chain name)
    (hassociations : ∀ name, Entries.has m.associations (.str name) = true ↔
      MetIn association? chain name) : r.Named id m where
  columns name := by
    rw [DeclaresAs, hbodies]
    exact hcolumns name
  declared name := by
    rw [DeclaresAs, hbodies]
    exact (hassociations name).mpr
  apart name _ := by
    rw [DeclaresAs, hbodies]
    exact (hassociations name).mp

/-- The names that columns and associations share are those that are declared twice. -/
theorem Named.shared_iff {m : Mapper} (h : r.Named id m) (name : String) :
    (name ∈ m.columns.names ∧ Entries.has m.associations (.str name) = true) ↔
      r.DeclaredTwice id name := by
  constructor
  · rintro ⟨hcolumn, hassociation⟩
    exact ⟨(h.columns name).mp hcolumn, h.apart name hcolumn hassociation⟩
  · rintro ⟨hcolumn, hassociation⟩
    exact ⟨(h.columns name).mpr hcolumn, h.declared name hassociation⟩

theorem Named.congr {m : Mapper} (h : r.Named id m) (hsame : r'.bodies id = r.bodies id) :
    r'.Named id m where
  columns name := by
    rw [declaresAs_congr hsame]
    exact h.columns name
  declared name := by
    rw [declaresAs_congr hsame]
    exact h.declared name
  apart name := by
    rw [declaresAs_congr hsame]
    exact h.apart name

/-- More associations do no harm where none of them has the name of a column. -/
theorem Named.later {m : Mapper} (h : r.Named id m) {added : List (Value × Nat)}
    (hadded : ∀ name, name ∈ m.columns.names → Entries.has added (.str name) = false)
    (flag : Bool) :
    r.Named id { m with associations := m.associations ++ added, finalized := flag } where
  columns := h.columns
  declared name hdeclared := by
    rw [Entries.has, List.any_append]
    exact Bool.or_eq_true_iff.mpr (.inl (h.declared name hdeclared))
  apart name hcolumn hassociation := by
    rw [Entries.has, List.any_append, Bool.or_eq_true_iff] at hassociation
    exact h.apart name hcolumn
      (hassociation.resolve_right (Bool.eq_false_iff.mp (hadded name hcolumn)))

/-- The classes under keys are there, and so are the ancestors of classes; and every model has the
names that it declares. -/
structure WellNamed (r : Registry) : Prop where
  keys : ∀ entry ∈ r.keys, entry.2 < r.classes.length
  ancestors : ∀ id, ∀ ancestor ∈ (r.classAt id).ancestry, ancestor < r.classes.length
  named : ∀ id m, (r.classAt id).mapper = some m → r.Named id m

theorem initial_wellNamed : initial.WellNamed where
  keys := by simp [initial]
  ancestors id := by
    cases id with
    | zero => simp [classAt, initial, root]
    | succ =>
      rintro ancestor hmem
      cases hmem
  named id m hm := by
    cases id <;> cases hm

/-- Only the classes and their keys matter. -/
theorem WellNamed.of_classes (h : r.WellNamed) (hclasses : r'.classes = r.classes)
    (hkeys : ∀ entry ∈ r'.keys, entry.2 < r.classes.length) : r'.WellNamed := by
  have hat (id : Nat) : r'.classAt id = r.classAt id := by rw [classAt, hclasses, classAt]
  refine ⟨hclasses ▸ hkeys, fun id => ?_, fun id m hm => ?_⟩
  · rw [hat, hclasses]
    exact h.ancestors id
  · rw [hat] at hm
    exact (h.named id m hm).congr (bodies_congr (by rw [hat]) fun ancestor _ => by rw [hat])

/-- Putting a class that is there under a key. -/
theorem WellNamed.nameClass (h : r.WellNamed) (key : String) (hid : id < r.classes.length) :
    (r.nameClass key id).WellNamed :=
  h.of_classes rfl (Dictionary.forall_mem_insert (P := (· < r.classes.length)) h.keys hid)

/-! ## 2. Bodies -/

theorem addAttribute_keys (r : Registry) (name : String) (body : AttributeBody) :
    (r.addAttribute name body).1.keys = r.keys := by
  cases body with
  | column c => rfl
  | association a => rfl
  | plain v => cases v <;> rfl

theorem addAttributes_keys (r : Registry) (body : List (String × AttributeBody)) :
    (r.addAttributes body).1.keys = r.keys := by
  induction body generalizing r with
  | nil => rfl
  | cons entry rest ih =>
    rw [addAttributes]
    exact (ih _).trans (addAttribute_keys r entry.1 entry.2)

theorem WellNamed.addAttributes (h : r.WellNamed) (body : List (String × AttributeBody)) :
    (r.addAttributes body).1.WellNamed :=
  h.of_classes (addAttributes_classes r body) (addAttributes_keys r body ▸ h.keys)

/-- A class whose ancestors are there, apart from itself, and whose mapper has the names that it
declares. -/
theorem WellNamed.addClass (h : r.WellNamed) {c : ModelClass}
    (hancestry : ∀ ancestor ∈ c.ancestry, ancestor ≤ r.classes.length)
    (hmapper : ∀ m, c.mapper = some m → (r.addClass c).Named r.classes.length m) :
    (r.addClass c).WellNamed := by
  have hlength : (r.addClass c).classes.length = r.classes.length + 1 := by
    simp [Registry.addClass]
  refine ⟨fun entry hentry => ?_, fun id ancestor hmem => ?_, fun id m hm => ?_⟩
  · exact hlength ▸ Nat.lt_succ_of_lt (h.keys entry hentry)
  · rw [hlength, Nat.lt_succ_iff]
    by_cases hnew : id = r.classes.length
    · rw [hnew, classAt_addClass_self] at hmem
      exact hancestry ancestor hmem
    · rw [classAt_addClass_of_ne r c hnew] at hmem
      exact Nat.le_of_lt (h.ancestors id ancestor hmem)
  · by_cases hnew : id = r.classes.length
    · rw [hnew, classAt_addClass_self] at hm
      exact hnew ▸ hmapper m hm
    · have hsame := classAt_addClass_of_ne r c hnew
      rw [hsame] at hm
      refine (h.named id m hm).congr (bodies_congr (by rw [hsame]) fun ancestor hmem => ?_)
      rw [classAt_addClass_of_ne r c (Nat.ne_of_lt (h.ancestors id ancestor hmem))]

theorem WellNamed.bodyOf (h : r.WellNamed) (d : Definition) : (r.bodyOf d).1.WellNamed := by
  rw [Registry.bodyOf]
  cases d.settings with
  | none => exact h
  | some settings =>
    refine (h.addAttributes _).addClass (fun ancestor hmem => ?_) (by rintro _ ⟨⟩)
    rw [addAttributes_classes]
    exact Nat.le_of_eq (List.mem_singleton.mp hmem)

/-- The classes under keys that are given together. -/
theorem WellNamed.find (h : r.WellNamed) {keys : List String} {ids : List Nat}
    (hfind : keys.mapM r.find = .ok ids) : ∀ id ∈ ids, id < r.classes.length := by
  induction keys generalizing ids with
  | nil =>
    cases hfind
    exact nofun
  | cons key rest ih =>
    rw [List.mapM_cons] at hfind
    obtain ⟨first, hfirst, hfind⟩ := bind_eq_ok.mp hfind
    obtain ⟨others, hothers, hfind⟩ := bind_eq_ok.mp hfind
    cases hfind
    refine List.forall_mem_cons.mpr ⟨?_, ih hothers⟩
    rw [Registry.find] at hfirst
    split at hfirst
    · next id hid =>
      cases hfirst
      exact h.keys _ (Dictionary.mem_of_get? hid)
    · cases hfirst

/-- A new class has itself for its first ancestor, and the others are there. -/
theorem WellNamed.newClass (h : r.WellNamed) {d : Definition} {c : ModelClass}
    (hnew : r.newClass d = .ok (r', c)) :
    r'.WellNamed ∧ ∃ rest, c.ancestry = r'.classes.length :: rest ∧
      ∀ ancestor ∈ rest, ancestor < r'.classes.length := by
  have hbody := h.bodyOf d
  have hle := (bodyOf_extends r d).classes.length_le
  obtain ⟨bases, hbases, -⟩ := bind_eq_ok.mp hnew
  rw [newClass_eq hbases] at hnew
  split at hnew
  · next ancestry hancestry =>
    cases hnew
    rw [addAttributes_classes]
    refine ⟨hbody.addAttributes _, linearize_below hancestry (fun base hbase => ?_) ?_⟩
    · exact Nat.lt_of_lt_of_le (h.find hbases base hbase) hle
    · rintro _ horder
      obtain ⟨base, -, rfl⟩ := List.mem_map.mp horder
      exact hbody.ancestors base
  · cases hnew

/-! ## 3. Models -/

theorem mem_names_collect {chain : List (Dictionary ClassAttribute)} :
    name ∈ (collect select chain).names ↔ MetIn select chain name := by
  constructor
  · intro h
    obtain ⟨entry, hentry, rfl⟩ := List.mem_map.mp h
    obtain ⟨attributes, hchain, a, ha, hpicked⟩ := mem_collect hentry
    exact ⟨attributes, hchain, a, ha, by simp [hpicked]⟩
  · rintro ⟨attributes, hchain, a, ha, hpicked⟩
    obtain ⟨index, hindex⟩ := Option.ne_none_iff_exists'.mp hpicked
    refine Dictionary.mem_names_ofList.mpr ⟨index, List.mem_flatMap.mpr
      ⟨attributes, List.mem_reverse.mpr hchain, List.mem_filterMap.mpr ⟨(name, a), ha, ?_⟩⟩⟩
    simp [hindex]

theorem metIn_cons {attributes : Dictionary ClassAttribute}
    {chain : List (Dictionary ClassAttribute)} : MetIn select (attributes :: chain) name ↔
      (∃ a, (name, a) ∈ attributes ∧ select a ≠ none) ∨ MetIn select chain name := by
  simp [MetIn]

theorem resolveKey_keys {model : String} {attributes : Dictionary ClassAttribute}
    {columns : Dictionary Nat} {keyed : Keyed}
    (h : r.resolveKey model attributes columns = .ok keyed) :
    keyed.registry.keys = r.keys := by
  rw [resolveKey] at h
  split at h
  · cases h
    rfl
  · split at h <;> cases h <;> rfl
  · cases h

/-- The columns with a key are those that the body with a key and the inherited bodies declare. -/
theorem resolveKey_names {model : String} {attributes : Dictionary ClassAttribute}
    {chain : List (Dictionary ClassAttribute)} {keyed : Keyed}
    (h : r.resolveKey model attributes (collect column? (attributes :: chain)) = .ok keyed) :
    name ∈ keyed.columns.names ↔ MetIn column? (keyed.attributes :: chain) name := by
  rw [resolveKey] at h
  split at h
  · cases h
    exact mem_names_collect
  · split at h
    · cases h
      exact mem_names_collect
    · next hmissing =>
      cases h
      let index := r.columns.length
      show name ∈ implicitKey :: (collect column? (attributes :: chain)).names ↔
        MetIn column? (attributes.insert implicitKey (.column index) :: chain) name
      rw [List.mem_cons, mem_names_collect, metIn_cons, metIn_cons]
      constructor
      · rintro (rfl | ⟨a, ha, hpicked⟩ | hinherited)
        · exact .inl ⟨_, Dictionary.mem_insert_self _ _ _, Option.some_ne_none index⟩
        · -- a column that is declared has not the name of the new one
          refine .inl ⟨a, Dictionary.mem_insert_of_ne ha ?_, hpicked⟩
          rintro rfl
          exact Dictionary.get?_ne_none_of_mem
            (mem_names_collect.mpr (metIn_cons.mpr (.inl ⟨a, ha, hpicked⟩))) hmissing
        · exact .inr hinherited
      · rintro (⟨a, ha, hpicked⟩ | hinherited)
        · rcases Dictionary.mem_insert ha with hold | heq
          · exact .inr (.inl ⟨a, hold, hpicked⟩)
          · exact .inl (Prod.mk.inj heq).1
        · exact .inr (.inr hinherited)
  · cases h

/-- The bodies of a class that is added, and of its ancestors. -/
theorem bodies_addClass {c : ModelClass} {rest : List Nat}
    (hancestry : c.ancestry = r.classes.length :: rest)
    (hrest : ∀ ancestor ∈ rest, ancestor < r.classes.length) :
    (r.addClass c).bodies r.classes.length =
      c.attributes :: rest.map fun ancestor => (r.classAt ancestor).attributes := by
  rw [bodies, classAt_addClass_self, hancestry, List.map_cons, classAt_addClass_self]
  refine congrArg (c.attributes :: ·) (List.map_congr_left fun ancestor hmem => ?_)
  rw [classAt_addClass_of_ne r c (Nat.ne_of_lt (hrest ancestor hmem))]

/-- A model has the names that it declares from the start. -/
theorem WellNamed.addModel (h : r.WellNamed) {c : ModelClass} {tableName : Value} {rest : List Nat}
    (hancestry : c.ancestry = r.classes.length :: rest)
    (hrest : ∀ ancestor ∈ rest, ancestor < r.classes.length)
    (hadd : r.addModel c tableName = .ok r') : r'.WellNamed := by
  rw [Registry.addModel] at hadd
  obtain ⟨keyed, hkeyed, hadd⟩ := bind_eq_ok.mp hadd
  cases hadd
  have hclasses := resolveKey_classes hkeyed
  have hat (ancestor : Nat) : keyed.registry.classAt ancestor = r.classAt ancestor := by
    rw [classAt, hclasses, classAt]
  rw [hancestry, List.tail_cons] at hkeyed
  rw [← hclasses] at hancestry hrest
  refine (h.of_classes hclasses (resolveKey_keys hkeyed ▸ h.keys)).addClass ?_ ?_
  · rw [hancestry]
    exact List.forall_mem_cons.mpr ⟨Nat.le_refl _, fun ancestor hmem => Nat.le_of_lt (hrest _ hmem)⟩
  · rintro m hm
    cases hm
    -- both walks go over the body with the key first, and then over the inherited bodies
    refine .of_bodies (bodies_addClass hancestry hrest) (fun name => ?_) fun name => ?_ <;>
      simp only [hat]
    · exact resolveKey_names hkeyed
    · rw [Entries.has_str_map, mem_names_collect, hancestry, List.tail_cons]

end Model.Registry
end RowMapper
