import Mathlib.Data.List.Induction
import Mathlib.Data.List.Nodup
import RowMapper.Proofs.Model.Naming

/-!
# The order of columns

The columns of a class are collected from its ancestors, the farthest first, each in the place where
its name is first met: this is the order of declaration (`columnOrder`).  What a class adds to it
goes behind everything that its ancestors declare (`columnOrder_append`).

The mapper of a class has its columns in the order of declaration, unless the class has got a key
that none of its ancestors has: the mapper has such a key in front (`Arranged`), whereas in the body
of the class, from where other classes inherit it, it comes last.  So a class whose ancestor has got
a key in that way has its columns in another order than the ancestor (`Arranged.inherited_iff`).
-/
namespace RowMapper

/-! ## 1. First occurrences -/

section FirstOccurrences

variable {α : Type} [BEq α] [LawfulBEq α]

theorem eraseDups_concat_of_mem {l : List α} {a : α} (h : a ∈ l) :
    (l ++ [a]).eraseDups = l.eraseDups := by
  simp [List.eraseDups_append, List.removeAll, h]

theorem eraseDups_concat_of_not_mem {l : List α} {a : α} (h : a ∉ l) :
    (l ++ [a]).eraseDups = l.eraseDups ++ [a] := by
  have hnew : [a].removeAll l = [a] := by simp [List.removeAll, h]
  rw [List.eraseDups_append, hnew]
  rfl

theorem nodup_eraseDups (l : List α) : l.eraseDups.Nodup := by
  induction l using List.reverseRecOn with
  | nil => exact List.nodup_nil
  | append_singleton l a ih =>
    by_cases h : a ∈ l
    · rwa [eraseDups_concat_of_mem h]
    · rw [eraseDups_concat_of_not_mem h]
      simpa using ih.concat (mt List.mem_eraseDups.mp h)

theorem filter_eraseDups (p : α → Bool) (l : List α) :
    l.eraseDups.filter p = (l.filter p).eraseDups := by
  induction l using List.reverseRecOn with
  | nil => rfl
  | append_singleton l a ih =>
    rw [List.filter_append, List.filter_singleton]
    by_cases h : a ∈ l
    · rw [eraseDups_concat_of_mem h, ih]
      cases hp : p a with
      | true => exact (eraseDups_concat_of_mem (List.mem_filter.mpr ⟨h, hp⟩)).symm
      | false => simp
    · rw [eraseDups_concat_of_not_mem h, List.filter_append, List.filter_singleton, ih]
      cases hp : p a with
      | true => exact (eraseDups_concat_of_not_mem fun hmem => h (List.mem_of_mem_filter hmem)).symm
      | false => simp

end FirstOccurrences

/-- Each name of a dictionary stands where it was first written. -/
theorem Dictionary.names_ofList {α : Type} (entries : Dictionary α) :
    names (ofList entries) = (names entries).eraseDups := by
  induction entries using List.reverseRecOn with
  | nil => rfl
  | append_singleton entries entry ih =>
    have hinsert : ofList (entries ++ [entry]) = insert (ofList entries) entry.1 entry.2 := by
      simp [ofList, update]
    have hnames : names (entries ++ [entry]) = names entries ++ [entry.1] := by simp [names]
    rw [hinsert, hnames]
    by_cases h : entry.1 ∈ names entries
    · have hhas : has (ofList entries) entry.1 = true := by
        rwa [← mem_names_iff_has, ih, List.mem_eraseDups]
      rw [eraseDups_concat_of_mem h, names_insert_of_has _ _ _ hhas, ih]
    · have hhas : has (ofList entries) entry.1 = false := by
        rwa [← Bool.not_eq_true, ← mem_names_iff_has, ih, List.mem_eraseDups]
      rw [eraseDups_concat_of_not_mem h, insert_of_not_has _ _ _ hhas, ← ih]
      simp [names]

namespace Model.Registry

variable {r r' : Registry} {id : Nat} {m : Mapper}

/-! ## 2. The order of declaration -/

/-- The names of the columns in the body of a class. -/
def columnNames (attributes : Dictionary ClassAttribute) : List String :=
  attributes.filterMap fun entry => (column? entry.2).map fun _ => entry.1

/-- The names of the columns in the bodies of classes, those of the last class first. -/
def columnsIn (r : Registry) (ids : List Nat) : List String :=
  ids.reverse.flatMap fun id => columnNames (r.classAt id).attributes

/-- The columns of a class in the order of declaration: those of its ancestors come first, and each
name stands where it is first met. -/
def columnOrder (r : Registry) (id : Nat) : List String :=
  (r.columnsIn (r.classAt id).ancestry).eraseDups

/-- The columns that classes add to those of another one, in the order of declaration. -/
def newColumns (r : Registry) (front : List Nat) (base : Nat) : List String :=
  ((r.columnsIn front).removeAll (r.columnsIn (r.classAt base).ancestry)).eraseDups

theorem columnsIn_append (r : Registry) (front back : List Nat) :
    r.columnsIn (front ++ back) = r.columnsIn back ++ r.columnsIn front := by
  simp [columnsIn]

/-- What a class adds to the columns of its ancestors goes behind them. -/
theorem columnOrder_append {child parent : Nat} {front : List Nat}
    (h : (r.classAt child).ancestry = front ++ (r.classAt parent).ancestry) :
    r.columnOrder child = r.columnOrder parent ++ r.newColumns front parent := by
  rw [columnOrder, h, columnsIn_append, List.eraseDups_append, columnOrder, newColumns]

/-- The columns that are collected from classes are in the order of declaration. -/
theorem names_collect (chain : List (Dictionary ClassAttribute)) :
    (collect column? chain).names = (chain.reverse.flatMap columnNames).eraseDups := by
  have hpicked (attributes : Dictionary ClassAttribute) : Dictionary.names (attributes.filterMap
      fun entry => (column? entry.2).map fun index => (entry.1, index)) = columnNames attributes := by
    rw [columnNames, Dictionary.names, List.map_filterMap]
    refine List.filterMap_congr fun entry _ => ?_
    rw [Option.map_map]
    rfl
  rw [collect, Dictionary.names_ofList, Dictionary.names, List.map_flatMap]
  exact congrArg List.eraseDups (congrArg (chain.reverse.flatMap ·) (funext hpicked))

/-! ## 3. The key in front -/

/-- A mapper has its columns in the order of declaration; or it has a new key in front, which is
declared in the body of the class and by none of its ancestors. -/
inductive Arranged (r : Registry) (id : Nat) (m : Mapper) : Prop
  | declared (hnames : m.columns.names = r.columnOrder id)
  | keyFirst (hkey : m.key = implicitKey)
      (hnames : m.columns.names = implicitKey :: (r.columnOrder id).erase implicitKey)
      (hown : implicitKey ∈ r.columnOrder id)
      (hnew : implicitKey ∉ r.columnsIn (r.classAt id).ancestry.tail)

/-- The columns of a mapper are those that are declared, perhaps in another order. -/
theorem Arranged.perm (h : r.Arranged id m) : m.columns.names.Perm (r.columnOrder id) := by
  cases h with
  | declared hnames => rw [hnames]
  | keyFirst _ hnames hown => exact hnames ▸ (List.perm_cons_erase hown).symm

/-- A mapper starts with the columns of an ancestor's mapper, in their order, just if both mappers
have the order of declaration.  Then the columns that are new come behind those of the ancestor. -/
theorem Arranged.inherited_iff {child parent : Nat} {mc mp : Mapper} {front : List Nat}
    (hc : r.Arranged child mc) (hp : r.Arranged parent mp) (hne : mp.columns.names ≠ [])
    (hfront : front ≠ [])
    (hancestry : (r.classAt child).ancestry = front ++ (r.classAt parent).ancestry) :
    (mc.columns.names = mp.columns.names ++ r.newColumns front parent ↔
      mp.columns.names = r.columnOrder parent ∧ mc.columns.names = r.columnOrder child) ∧
    (mp.columns.names <+: mc.columns.names ↔
      mp.columns.names = r.columnOrder parent ∧ mc.columns.names = r.columnOrder child) := by
  have horder := columnOrder_append hancestry
  have hsplit
      (h : mp.columns.names = r.columnOrder parent ∧ mc.columns.names = r.columnOrder child) :
      mc.columns.names = mp.columns.names ++ r.newColumns front parent := by
    rw [h.1, h.2, horder]
  have hboth (h : mp.columns.names <+: mc.columns.names) :
      mp.columns.names = r.columnOrder parent ∧ mc.columns.names = r.columnOrder child := by
    cases hc with
    | declared hnames =>
      -- the mapper of the ancestor has as many columns as are declared
      refine ⟨?_, hnames⟩
      rw [hnames, horder] at h
      exact (List.prefix_of_prefix_length_le h (List.prefix_append _ _)
        (Nat.le_of_eq hp.perm.length_eq)).eq_of_length hp.perm.length_eq
    | keyFirst _ hnames _ hnew =>
      -- the key in front would be a column of the ancestor
      obtain ⟨first, rest, hfirst⟩ := List.exists_cons_of_ne_nil hne
      obtain ⟨first', front, rfl⟩ := List.exists_cons_of_ne_nil hfront
      rw [hfirst, hnames] at h
      have hkey : implicitKey ∈ mp.columns.names := by
        rw [hfirst, ← (List.cons_prefix_cons.mp h).1]
        exact List.mem_cons_self
      have hparent : implicitKey ∈ r.columnsIn (r.classAt parent).ancestry :=
        List.mem_eraseDups.mp (hp.perm.mem_iff.mp hkey)
      rw [hancestry, List.cons_append, List.tail_cons, columnsIn_append] at hnew
      exact absurd (List.mem_append_left _ hparent) hnew
  exact ⟨⟨fun h => hboth (h ▸ List.prefix_append _ _), hsplit⟩,
    hboth, fun h => hsplit h ▸ List.prefix_append _ _⟩

/-! ## 4. Keys of new models -/

/-- The columns of a new class before it has got a key, in the order of declaration. -/
def columnsBefore (r : Registry) (c : ModelClass) : List String :=
  (r.columnsIn c.ancestry.tail ++ columnNames c.attributes).eraseDups

/-- None of the columns of a new class is a key, and none has the name of the implicit key. -/
def Keyless (r : Registry) (c : ModelClass) : Prop :=
  ∀ entry ∈ collect column? (c.attributes ::
    c.ancestry.tail.map fun ancestor => (r.classAt ancestor).attributes),
    (r.columnAt entry.2).isKey = false ∧ entry.1 ≠ implicitKey

theorem resolveKey_eq_ok {model : String} {attributes : Dictionary ClassAttribute}
    {columns : Dictionary Nat} {keyed : Keyed}
    (h : r.resolveKey model attributes columns = .ok keyed) :
    (¬(∀ entry ∈ columns, (r.columnAt entry.2).isKey = false ∧ entry.1 ≠ implicitKey) ∧
      keyed.attributes = attributes ∧ keyed.columns = columns) ∨
    (∀ entry ∈ columns, (r.columnAt entry.2).isKey = false ∧ entry.1 ≠ implicitKey) ∧
      keyed.key = implicitKey ∧ ∃ index,
        keyed.attributes = attributes.insert implicitKey (.column index) ∧
        keyed.columns = (implicitKey, index) :: columns := by
  rw [resolveKey] at h
  split at h
  · next key hkeys =>
    cases h
    refine .inl ⟨fun hnone => ?_, rfl, rfl⟩
    rw [List.filter_eq_nil_iff.mpr fun entry hentry => by simp [(hnone entry hentry).1]] at hkeys
    cases hkeys
  · next hkeys =>
    split at h
    · next index hindex =>
      cases h
      refine .inl ⟨fun hnone => ?_, rfl, rfl⟩
      exact (hnone _ (Dictionary.mem_of_get? hindex)).2 rfl
    · next hmissing =>
      cases h
      refine .inr ⟨fun entry hentry => ⟨?_, ?_⟩, rfl, _, rfl, rfl⟩
      · simpa using List.filter_eq_nil_iff.mp (List.map_eq_nil_iff.mp hkeys) entry hentry
      · intro hname
        exact Dictionary.get?_ne_none_of_mem (List.mem_map.mpr ⟨entry, hentry, hname⟩) hmissing
  · cases h

theorem columnNames_cons (name : String) (a : ClassAttribute) (rest : Dictionary ClassAttribute) :
    columnNames ((name, a) :: rest) =
      ((column? a).map fun _ => name).toList ++ columnNames rest := by
  rw [columnNames, List.filterMap_cons]
  cases column? a <;> rfl

/-- A column is put into a body that has none of its name. -/
theorem columnNames_insert {attributes : Dictionary ClassAttribute} {name : String}
    (h : name ∉ columnNames attributes) (index : Nat) :
    name ∈ columnNames (attributes.insert name (.column index)) ∧
      (columnNames (attributes.insert name (.column index))).filter (· != name) =
        columnNames attributes := by
  have hothers {names : List String} (hnot : name ∉ names) : names.filter (· != name) = names :=
    List.filter_eq_self.mpr fun other hother => by
      simpa using ne_of_mem_of_not_mem hother hnot
  induction attributes with
  | nil =>
    have hone : columnNames [(name, .column index)] = [name] := rfl
    rw [Dictionary.insert, hone]
    exact ⟨List.mem_cons_self, by simp [columnNames]⟩
  | cons entry rest ih =>
    obtain ⟨known, a⟩ := entry
    rw [columnNames_cons, List.mem_append, not_or] at h
    obtain ⟨hfirst, hrest⟩ := h
    rw [Dictionary.insert, columnNames_cons]
    split
    · next heq =>
      -- what stood there was no column
      subst heq
      have hnone : column? a = none := by
        cases ha : column? a with
        | none => rfl
        | some i => simp [ha] at hfirst
      have hcolumn : column? (.column index) = some index := rfl
      rw [columnNames_cons, hnone, hcolumn]
      exact ⟨List.mem_cons_self, by simpa using hothers hrest⟩
    · obtain ⟨hmem, hfilter⟩ := ih hrest
      rw [columnNames_cons, List.filter_append, hfilter, hothers hfirst]
      exact ⟨List.mem_append_right _ hmem, rfl⟩

/-- A column that is put into a body joins the columns that were there, which keep their order. -/
theorem columnNames_insert_erase {known : List String} {attributes : Dictionary ClassAttribute}
    {name : String} (h : name ∉ known ++ columnNames attributes) (index : Nat) :
    name ∈ (known ++ columnNames (attributes.insert name (.column index))).eraseDups ∧
      (known ++ columnNames (attributes.insert name (.column index))).eraseDups.erase name =
        (known ++ columnNames attributes).eraseDups := by
  rw [List.mem_append, not_or] at h
  obtain ⟨hknown, hattributes⟩ := h
  obtain ⟨hmem, hothers⟩ := columnNames_insert hattributes index
  have hsame : known.filter (· != name) = known :=
    List.filter_eq_self.mpr fun other hother => by
      simpa using ne_of_mem_of_not_mem hother hknown
  refine ⟨List.mem_eraseDups.mpr (List.mem_append_right _ hmem), ?_⟩
  rw [(nodup_eraseDups _).erase_eq_filter, filter_eraseDups, List.filter_append, hsame, hothers]

/-! ## 5. New models -/

theorem columnsIn_congr {ids : List Nat}
    (h : ∀ id ∈ ids, (r'.classAt id).attributes = (r.classAt id).attributes) :
    r'.columnsIn ids = r.columnsIn ids := by
  rw [columnsIn, columnsIn]
  exact List.flatMap_congr fun id hid => by rw [h id (List.mem_reverse.mp hid)]

theorem columnsIn_singleton (r : Registry) (id : Nat) :
    r.columnsIn [id] = columnNames (r.classAt id).attributes := by simp [columnsIn]

/-- The columns that are collected for a new class. -/
theorem names_columnsBefore (c : ModelClass) : (collect column? (c.attributes ::
    c.ancestry.tail.map fun ancestor => (r.classAt ancestor).attributes)).names =
      r.columnsBefore c := by
  rw [names_collect, columnsBefore, columnsIn, List.reverse_cons, List.flatMap_append,
    List.flatMap_singleton, ← List.map_reverse, List.flatMap_map]

/-- The order of declaration of a class that is added behind its ancestors. -/
theorem columnOrder_addClass {c : ModelClass} {rest : List Nat}
    (hancestry : c.ancestry = r.classes.length :: rest)
    (hrest : ∀ ancestor ∈ rest, ancestor < r.classes.length) :
    (r.addClass c).columnsIn rest = r.columnsIn rest ∧
      (r.addClass c).columnOrder r.classes.length =
        (r.columnsIn rest ++ columnNames c.attributes).eraseDups := by
  have hsame : (r.addClass c).columnsIn rest = r.columnsIn rest :=
    columnsIn_congr fun ancestor hmem => by
      rw [classAt_addClass_of_ne r c (Nat.ne_of_lt (hrest ancestor hmem))]
  have hsplit : r.classes.length :: rest = [r.classes.length] ++ rest := rfl
  refine ⟨hsame, ?_⟩
  rw [columnOrder, classAt_addClass_self, hancestry, hsplit, columnsIn_append, columnsIn_singleton,
    classAt_addClass_self, hsame]

/-- The columns of a new model are those that are declared, behind an implicit key if the class has
none among them; and so they are arranged. -/
theorem addModel_arranged {c : ModelClass} {tableName : Value} {rest : List Nat}
    (hancestry : c.ancestry = r.classes.length :: rest)
    (hrest : ∀ ancestor ∈ rest, ancestor < r.classes.length)
    (hadd : r.addModel c tableName = .ok r') {m : Mapper}
    (hm : (r'.classAt r.classes.length).mapper = some m) :
    r'.Arranged r.classes.length m ∧
      (r.Keyless c → m.columns.names = implicitKey :: r.columnsBefore c) ∧
      (¬r.Keyless c → m.columns.names = r.columnsBefore c) := by
  rw [addModel] at hadd
  obtain ⟨keyed, hkeyed, hadd⟩ := bind_eq_ok.mp hadd
  cases hadd
  have hclasses := resolveKey_classes hkeyed
  have hlength : keyed.registry.classes.length = r.classes.length := congrArg List.length hclasses
  have hbelow (ids : List Nat) : keyed.registry.columnsIn ids = r.columnsIn ids :=
    columnsIn_congr fun id _ => by rw [classAt, hclasses, classAt]
  rw [← hlength, classAt_addClass_self] at hm
  cases hm
  rw [← hlength] at hancestry hrest ⊢
  obtain ⟨hin, horder⟩ := columnOrder_addClass
    (c := { c with attributes := keyed.attributes, mapper := some _ }) hancestry hrest
  rw [hbelow] at hin horder
  have hbefore : r.columnsBefore c = (r.columnsIn rest ++ columnNames c.attributes).eraseDups := by
    rw [columnsBefore, hancestry, List.tail_cons]
  have hnames := names_columnsBefore (r := r) c
  rcases resolveKey_eq_ok hkeyed with ⟨hkey, hattributes, hcolumns⟩ |
    ⟨hkeyless, hkey, index, hattributes, hcolumns⟩
  · refine ⟨.declared ?_, fun hkeyless => absurd hkeyless hkey, fun _ => ?_⟩
    · rw [horder, hcolumns, hnames, hbefore, hattributes]
    · rw [hcolumns, hnames]
  · have hfront : Dictionary.names keyed.columns = implicitKey :: r.columnsBefore c := by
      rw [hcolumns, ← hnames]
      rfl
    -- no column of the body or of the ancestors has the name of the new key
    have hnot : implicitKey ∉ r.columnsIn rest ++ columnNames c.attributes := by
      intro hmem
      rw [← List.mem_eraseDups, ← hbefore, ← hnames] at hmem
      obtain ⟨entry, hentry, hname⟩ := List.mem_map.mp hmem
      exact (hkeyless entry hentry).2 hname
    obtain ⟨hown, herase⟩ := columnNames_insert_erase hnot index
    rw [← hattributes, ← horder] at hown herase
    refine ⟨.keyFirst hkey ?_ hown ?_, fun _ => hfront, fun h => absurd hkeyless h⟩
    · rw [herase, ← hbefore]
      exact hfront
    · have htail : c.ancestry.tail = rest := by rw [hancestry, List.tail_cons]
      have hinherited := mt (List.mem_append_left _) hnot
      rw [← hin] at hinherited
      simpa only [classAt_addClass_self, htail] using hinherited

/-! ## 6. Ordered registries -/

/-- A class with the same ancestors, whose bodies are the same, has its columns arranged alike. -/
theorem Arranged.congr (h : r.Arranged id m)
    (hancestry : (r'.classAt id).ancestry = (r.classAt id).ancestry)
    (hattributes : ∀ ancestor ∈ (r.classAt id).ancestry,
      (r'.classAt ancestor).attributes = (r.classAt ancestor).attributes) {m' : Mapper}
    (hcolumns : m'.columns = m.columns) (hkey : m'.key = m.key) : r'.Arranged id m' := by
  have horder : r'.columnOrder id = r.columnOrder id := by
    rw [columnOrder, hancestry, columnsIn_congr hattributes, columnOrder]
  cases h with
  | declared hnames => exact .declared (by rw [hcolumns, hnames, horder])
  | keyFirst hfirst hnames hown hnew =>
    refine .keyFirst (hkey.trans hfirst) (by rw [hcolumns, hnames, horder]) (horder ▸ hown) ?_
    rwa [hancestry, columnsIn_congr fun ancestor hmem =>
      hattributes ancestor (List.mem_of_mem_tail hmem)]

/-- Every class comes first among its ancestors, none of which comes twice, and every model has its
columns arranged. -/
structure Ordered (r : Registry) : Prop where
  lines : ∀ id < r.classes.length, ∃ rest, (r.classAt id).ancestry = id :: rest ∧ (id :: rest).Nodup
  arranged : ∀ id m, (r.classAt id).mapper = some m → r.Arranged id m

theorem initial_ordered : initial.Ordered where
  lines id hid := by
    cases Nat.lt_one_iff.mp hid
    exact ⟨[], rfl, List.nodup_singleton 0⟩
  arranged id m hm := by
    cases id <;> cases hm

theorem Ordered.of_classes (h : r.Ordered) (hclasses : r'.classes = r.classes) : r'.Ordered := by
  have hat (id : Nat) : r'.classAt id = r.classAt id := by rw [classAt, hclasses, classAt]
  refine ⟨fun id hid => ?_, fun id m hm => ?_⟩
  · rw [hat]
    exact h.lines id (hclasses ▸ hid)
  · rw [hat] at hm
    exact (h.arranged id m hm).congr (by rw [hat]) (fun ancestor _ => by rw [hat]) rfl rfl

/-- A class that comes first among its ancestors, with its columns arranged if it is a model. -/
theorem Ordered.addClass (h : r.Ordered) (hnamed : r.WellNamed) {c : ModelClass} {rest : List Nat}
    (hancestry : c.ancestry = r.classes.length :: rest) (hnodup : (r.classes.length :: rest).Nodup)
    (hmapper : ∀ m, c.mapper = some m → (r.addClass c).Arranged r.classes.length m) :
    (r.addClass c).Ordered := by
  refine ⟨fun id hid => ?_, fun id m hm => ?_⟩
  · by_cases hnew : id = r.classes.length
    · rw [hnew, classAt_addClass_self]
      exact ⟨rest, hancestry, hnodup⟩
    · rw [classAt_addClass_of_ne r c hnew]
      refine h.lines id (Nat.lt_of_le_of_ne (Nat.lt_succ_iff.mp ?_) hnew)
      simpa [Registry.addClass] using hid
  · by_cases hnew : id = r.classes.length
    · rw [hnew, classAt_addClass_self] at hm
      exact hnew ▸ hmapper m hm
    · have hsame := classAt_addClass_of_ne r c hnew
      rw [hsame] at hm
      refine (h.arranged id m hm).congr (by rw [hsame]) (fun ancestor hmem => ?_) rfl rfl
      rw [classAt_addClass_of_ne r c (Nat.ne_of_lt (hnamed.ancestors id ancestor hmem))]

theorem Ordered.bodyOf (h : r.Ordered) (hnamed : r.WellNamed) (d : Definition) :
    (r.bodyOf d).1.Ordered := by
  rw [Registry.bodyOf]
  cases d.settings with
  | none => exact h
  | some settings =>
    exact (h.of_classes (addAttributes_classes r _)).addClass (hnamed.addAttributes _)
      (congrArg (fun classes => [classes.length]) (addAttributes_classes r _).symm)
      (List.nodup_singleton _) (by rintro _ ⟨⟩)

/-- A new class comes before its ancestors; if it has one base, these are the ancestors of the
base. -/
theorem Ordered.newClass (h : r.Ordered) (hnamed : r.WellNamed) {d : Definition} {c : ModelClass}
    (hnew : r.newClass d = .ok (r', c)) :
    r'.Ordered ∧ (∃ rest, c.ancestry = r'.classes.length :: rest ∧
      (r'.classes.length :: rest).Nodup) ∧
    ∀ base, d.bases.mapM r.find = .ok [base] →
      c.ancestry = r'.classes.length :: (r.classAt base).ancestry := by
  obtain ⟨-, rest, hancestry, hbelow⟩ := hnamed.newClass hnew
  have hextends := bodyOf_extends r d
  obtain ⟨bases, hbases, -⟩ := bind_eq_ok.mp hnew
  rw [newClass_eq hbases] at hnew
  split at hnew
  · next order horder =>
    cases hnew
    have hlength := congrArg List.length
      (addAttributes_classes (r.bodyOf d).1 (Dictionary.ofList (r.bodyOf d).2))
    refine ⟨(h.bodyOf hnamed d).of_classes (addAttributes_classes _ _), ⟨rest, hancestry, ?_⟩, ?_⟩
    · refine List.nodup_cons.mpr ⟨fun hmem => Nat.lt_irrefl _ (hbelow _ hmem), ?_⟩
      have horder' : order = (r.bodyOf d).1.classes.length :: rest := hlength ▸ hancestry
      exact linearize_nodup (horder' ▸ horder)
    · intro base hbase
      cases hbases.symm.trans hbase
      have hbase : base < r.classes.length := hnamed.find hbases base List.mem_cons_self
      obtain ⟨others, hothers, hnodup⟩ := h.lines base hbase
      rw [List.map_singleton, hextends.classAt_eq hbase, hothers, linearize_single hnodup] at horder
      cases horder
      rw [hlength, hothers]
  · cases hnew

theorem Ordered.addModel (h : r.Ordered) (hnamed : r.WellNamed) {c : ModelClass} {tableName : Value}
    {rest : List Nat} (hancestry : c.ancestry = r.classes.length :: rest)
    (hnodup : (r.classes.length :: rest).Nodup)
    (hrest : ∀ ancestor ∈ rest, ancestor < r.classes.length)
    (hadd : r.addModel c tableName = .ok r') : r'.Ordered := by
  have harranged (m : Mapper) (hm : (r'.classAt r.classes.length).mapper = some m) :
      r'.Arranged r.classes.length m := (addModel_arranged hancestry hrest hadd hm).1
  rw [Registry.addModel] at hadd
  obtain ⟨keyed, hkeyed, hadd⟩ := bind_eq_ok.mp hadd
  cases hadd
  have hclasses := resolveKey_classes hkeyed
  rw [← hclasses] at hancestry hnodup harranged
  refine (h.of_classes hclasses).addClass
    (hnamed.of_classes hclasses (resolveKey_keys hkeyed ▸ hnamed.keys)) hancestry hnodup
    fun m hm => harranged m ?_
  rwa [classAt_addClass_self]

end Model.Registry
end RowMapper
