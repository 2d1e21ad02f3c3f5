import RowMapper.Proofs.World.Comparison

/-!
# Whether definitions interfere

A model that declares no key takes the column `id` for it, and marks the column.  A mixin shares its
columns with all classes that have it as a base, so the mark is seen by all of them: a class that
declares another key has two keys from then on, and is refused if it is defined later
(`shared_key_changes_other_classes`).

Nothing else gets from one class to another.  `Beside` runs two sequences of definitions and pairs
the classes that have the same body and the same bases, whatever else either sequence defines
between them.  If none of the other definitions marks a column that a class of a pair holds, then
partners are stored alike and a definition with the same body is accepted in both or in neither
(`definitions_do_not_interfere`).
-/
namespace RowMapper.World

open Model

variable {C S K : List (Nat × Nat)} {w w' : World} {watched : Nat → Prop}

/-! ## 1. How a class is stored -/

/-- How a class is stored: its table, its columns in order, each with whether it is a key, and the
name of the key. -/
structure Schema where
  tableName : Value
  columns : List (String × Bool)
  key : String

/-- How a class is stored, when it is a model. -/
def schemaOf (w : World) (id : Nat) : Option Schema :=
  (w.registry.classAt id).mapper.map fun m =>
    { tableName := w.look m.tableName
      columns := m.columns.map fun entry => (entry.1, (w.registry.columnAt entry.2).isKey)
      key := m.key }

theorem Alike.schemaOf_eq (h : Alike C S K w w') {a b : Nat} (hab : Paired C a b) :
    w.schemaOf a = w'.schemaOf b := by
  have hmapper := (h.classes a b hab).mapper
  rw [schemaOf, schemaOf]
  generalize (w.registry.classAt a).mapper = m at hmapper
  generalize (w'.registry.classAt b).mapper = m' at hmapper
  cases hmapper with
  | none => rfl
  | @some m m' hm =>
    have htable : w.look m.tableName = w'.look m'.tableName := hm.tableName.2.symm
    have hcolumns : (m.columns.map fun entry => (entry.1, (w.registry.columnAt entry.2).isKey)) =
        m'.columns.map fun entry => (entry.1, (w'.registry.columnAt entry.2).isKey) :=
      hm.columns.map_eq fun _ i j hij => h.columns.isKey_eq i j hij
    rw [Option.map_some, Option.map_some, htable, hcolumns, hm.key_eq]

/-! ## 2. A definition on one side only -/

theorem Enlarged.mono {watched' : Nat → Prop} (himp : ∀ index, watched' index → watched index)
    (h : Enlarged watched w w') : Enlarged watched' w w' :=
  { h with isKey_eq := fun index hindex hwatched => h.isKey_eq index hindex (himp index hwatched) }

/-- Adding a class marks the column that the class takes for its key, and no other. -/
theorem addClass_marks {c : ModelClass} {r : Registry} (hadd : w.addClass c = .ok r) :
    w.registry.columns.length ≤ r.columns.length ∧ ∀ index, index < w.registry.columns.length →
      (r.columnAt index).isKey = (w.registry.columnAt index).isKey ∨
      (r.columnAt index).isKey = true ∧
        ∃ m, (r.classAt w.registry.classes.length).mapper = some m ∧
          m.columns.get? m.key = some index := by
  rw [addClass] at hadd
  split at hadd
  · obtain ⟨tableName, -, hadd⟩ := bind_eq_ok.mp hadd
    exact Registry.addModel_marks hadd
  · cases hadd
    exact ⟨Nat.le_refl _, fun _ _ => .inl rfl⟩

/-- A definition takes none of the watched columns for its key, unless it was a key before. -/
def LeavesUnmarked (watched : Nat → Prop) (w : World) (action : Action World Nat) : Prop :=
  ∀ id v m index, action.runOn w = (.ok id, v) → (v.registry.classAt id).mapper = some m →
    m.columns.get? m.key = some index → watched index → (w.registry.columnAt index).isKey = true

theorem define_enlarged {d : Definition} (hunmarked : LeavesUnmarked watched w (define d)) :
    Enlarged watched w ((define d).runOn w).2 := by
  have hclasses := (define_extends d w).2.classes
  rw [LeavesUnmarked, define_runOn] at hunmarked
  rw [define_runOn] at hclasses ⊢
  cases hnew : w.registry.newClass d with
  | error fault => exact .refl w
  | ok declared =>
    obtain ⟨r, c⟩ := declared
    have hkeys := Registry.newClass_keepsKeys hnew
    have hid := (Registry.newClass_eq_ok hnew).2
    rw [hnew] at hclasses hunmarked
    dsimp only at hclasses hunmarked hid ⊢
    cases hadd : ({ w with registry := r } : World).addClass c with
    | error fault =>
      rw [hadd] at hclasses
      exact .of_registry hclasses hkeys
    | ok extended =>
      rw [hadd] at hclasses hunmarked
      obtain ⟨hle, hmarks⟩ := addClass_marks hadd
      refine ⟨hclasses, Nat.le_trans hkeys.columns_le hle, fun index hindex hwatched => ?_,
        List.prefix_rfl⟩
      have hkey := hkeys.isKey_eq index hindex
      have hold := Nat.lt_of_lt_of_le hindex hkeys.columns_le
      rcases hmarks index hold with hsame | ⟨hmarked, m, hm, hget⟩
      · exact hsame.trans hkey
      · have hbefore := hunmarked c.ref.id _ m index rfl (hid ▸ hm) hget hwatched
        exact hmarked.trans hbefore.symm

/-- A definition adds to a world, and marks none of the watched columns that were no keys. -/
theorem defineShared_enlarged {d : Definition} (hunmarked : LeavesUnmarked watched w (defineShared d)) :
    Enlarged watched w ((defineShared d).runOn w).2 := by
  rw [LeavesUnmarked, defineShared_eq, Action.runOn_bind] at hunmarked
  rw [defineShared_eq, Action.runOn_bind]
  rcases hsettings : (storeSettings d.settings).runOn w with ⟨fault | settings, v⟩
  · exact .of_still ((storeSettings_still d.settings).of_run hsettings)
  · have hv := (storeSettings_still d.settings).of_run hsettings
    rw [hsettings] at hunmarked
    dsimp only at hunmarked ⊢
    rw [Action.runOn_bind] at hunmarked ⊢
    rcases hattributes : (storeAttributes d.attributes).runOn v with ⟨fault | attributes, t⟩
    · exact .of_still (trans_of Still hv ((storeAttributes_still d.attributes).of_run hattributes))
    · have ht := trans_of Still hv ((storeAttributes_still d.attributes).of_run hattributes)
      rw [hattributes] at hunmarked
      refine (Enlarged.of_still ht).trans
        (define_enlarged fun id u m index hrun hm hget hwatched => ?_)
      rw [Registry.columnAt, ht.registry_eq]
      exact hunmarked id u m index hrun hm hget hwatched

/-- Every definition adds to a world. -/
theorem defineShared_grows (d : Definition) (w : World) :
    Enlarged (fun _ => False) w ((defineShared d).runOn w).2 :=
  defineShared_enlarged fun _ _ _ _ _ _ _ hnone => hnone.elim

/-! ## 3. Two sequences of definitions -/

/-- Whether one of some classes holds a column. -/
def HeldByOne (classes : List Nat) (w : World) (index : Nat) : Prop :=
  ∃ id ∈ classes, ∃ name, (w.registry.classAt id).attributes.get? name = some (.column index)

/-- The worlds after two sequences of definitions, and the pairs of classes that have the same body
and bases with the same bodies.  A definition may stand in both sequences, or in one of them only.
In the latter case it may take no column for its key that a class of a pair holds, unless the column
was a key before. -/
inductive Beside : List (Nat × Nat) → World → World → Prop
  | start {w w' : World} (hw : w.registry = .initial) (hw' : w'.registry = .initial) :
    Beside [(0, 0)] w w'
  | accepted {pairs : List (Nat × Nat)} {w w' v v' : World} {d d' : Definition} {id id' : Nat}
      (h : Beside pairs w w') (hbody : SameBody pairs w w' d d')
      (hrun : (defineShared d).runOn w = (.ok id, v))
      (hrun' : (defineShared d').runOn w' = (.ok id', v')) : Beside ((id, id') :: pairs) v v'
  | refused {pairs : List (Nat × Nat)} {w w' v v' : World} {d d' : Definition} {fault fault' : Fault}
      (h : Beside pairs w w') (hbody : SameBody pairs w w' d d')
      (hrun : (defineShared d).runOn w = (.error fault, v))
      (hrun' : (defineShared d').runOn w' = (.error fault', v')) : Beside pairs v v'
  | left {pairs : List (Nat × Nat)} {w w' : World} (d : Definition) (h : Beside pairs w w')
      (hunmarked : LeavesUnmarked (HeldByOne (pairs.map (·.1)) w) w (defineShared d)) :
    Beside pairs ((defineShared d).runOn w).2 w'
  | right {pairs : List (Nat × Nat)} {w w' : World} (d : Definition) (h : Beside pairs w w')
      (hunmarked : LeavesUnmarked (HeldByOne (pairs.map (·.2)) w') w' (defineShared d)) :
    Beside pairs w ((defineShared d).runOn w').2

/-- The classes of pairs hold all columns of pairs. -/
def HoldsAll (C K : List (Nat × Nat)) (w w' : World) : Prop :=
  ∀ i j, Paired K i j → SharedColumn C w w' i j

theorem HoldsAll.left (h : HoldsAll C K w w') (index : Nat) (hpair : ∃ j, Paired K index j) :
    HeldByOne (C.map (·.1)) w index := by
  obtain ⟨j, hij⟩ := hpair
  obtain ⟨a, b, name, hab, ha, -⟩ := h index j hij
  exact ⟨a, List.mem_map.mpr ⟨(a, b), hab, rfl⟩, name, ha⟩

theorem HoldsAll.right (h : HoldsAll C K w w') (index : Nat) (hpair : ∃ i, Paired K i index) :
    HeldByOne (C.map (·.2)) w' index := by
  obtain ⟨i, hij⟩ := hpair
  obtain ⟨a, b, name, hab, -, hb⟩ := h i index hij
  exact ⟨b, List.mem_map.mpr ⟨(a, b), hab, rfl⟩, name, hb⟩

theorem HoldsAll.enlarge (h : HoldsAll C K w w') (hC : Below C w.registry.classes.length
    w'.registry.classes.length) {v v' : World} {watched watched' : Nat → Prop}
    (hv : Enlarged watched w v) (hv' : Enlarged watched' w' v') : HoldsAll C K v v' := by
  intro i j hij
  obtain ⟨a, b, name, hab, ha, hb⟩ := h i j hij
  obtain ⟨hlt, hlt'⟩ := hC a b hab
  exact ⟨a, b, name, hab, by rwa [hv.classAt_eq hlt], by rwa [hv'.classAt_eq hlt']⟩

/-- The root has no columns, and no attribute that names a table. -/
theorem root_attributes : ∀ entry ∈ Registry.root.attributes,
    entry.1 ∉ namingAttributes ∧ Registry.column? entry.2 = none := by decide

theorem alike_of_initial (hw : w.registry = .initial) (hw' : w'.registry = .initial) :
    Alike [(0, 0)] [] [] w w' := by
  have hroot (r : Registry) (hr : r = .initial) : r.classAt 0 = Registry.root := by
    rw [hr]
    rfl
  have hsingle {a b : Nat} (hab : Paired [(0, 0)] a b) : a = 0 ∧ b = 0 := by
    simpa [Paired] using hab
  have hnone {a b : Nat} : ¬Paired [] a b := List.not_mem_nil
  refine ⟨⟨⟨fun _ _ _ h => absurd h hnone, fun _ _ _ h => absurd h hnone⟩,
    fun _ _ h => absurd h hnone, fun _ _ h => absurd h hnone⟩, ⟨?_, ?_⟩, ?_,
    fun _ _ h => absurd h hnone, List.mem_singleton_self _, ?_, fun _ _ h => absurd h hnone⟩
  · exact fun a b c hac hbc => (hsingle hac).1.trans (hsingle hbc).1.symm
  · exact fun a b c hab hac => (hsingle hab).2.trans (hsingle hac).2.symm
  · intro a b hab
    obtain ⟨rfl, rfl⟩ := hsingle hab
    rw [hw, hw']
    exact ⟨Nat.zero_lt_one, Nat.zero_lt_one⟩
  · intro a b hab
    obtain ⟨rfl, rfl⟩ := hsingle hab
    rw [hroot _ hw, hroot _ hw']
    refine ⟨.cons (List.mem_singleton_self _) .nil,
      List.forall₂_same.mpr fun entry hentry => ?_, .none⟩
    obtain ⟨hname, hcolumn⟩ := root_attributes entry hentry
    refine ⟨rfl, .free hname ?_⟩
    rw [hcolumn]
    exact .none

/-- After two sequences of definitions the worlds are alike. -/
theorem Beside.alike {pairs : List (Nat × Nat)} (h : Beside pairs w w') :
    ∃ S K, Alike pairs S K w w' ∧ HoldsAll pairs K w w' := by
  induction h with
  | start hw hw' => exact ⟨[], [], alike_of_initial hw hw', nofun⟩
  | @accepted pairs w w' v v' d d' id id' _ hbody hrun hrun' ih =>
    obtain ⟨S, K, halike, hheld⟩ := ih
    have hdefined := defineShared_alike halike hbody
    have hv := defineShared_grows d w
    have hv' := defineShared_grows d' w'
    rw [hrun] at hdefined hv
    rw [hrun'] at hdefined hv'
    cases hdefined with
    | @accepted _ _ _ _ S' K' hworlds hnew =>
      refine ⟨S', K', hworlds, fun i j hij => ?_⟩
      rcases hnew i j hij with hij | ⟨name, hi, hj⟩
      · obtain ⟨a, b, name, hab, hi, hj⟩ := hheld.enlarge halike.below hv hv' i j hij
        exact ⟨a, b, name, paired_cons.mpr (.inr hab), hi, hj⟩
      · exact ⟨id, id', name, paired_cons.mpr (.inl ⟨rfl, rfl⟩), hi, hj⟩
  | @refused pairs w w' v v' d d' fault fault' _ hbody hrun hrun' ih =>
    obtain ⟨S, K, halike, hheld⟩ := ih
    have hdefined := defineShared_alike halike hbody
    have hv := defineShared_grows d w
    have hv' := defineShared_grows d' w'
    rw [hrun] at hdefined hv
    rw [hrun'] at hdefined hv'
    cases hdefined with
    | refused hworlds => exact ⟨S, K, hworlds, hheld.enlarge halike.below hv hv'⟩
  | @left pairs w w' d _ hunmarked ih =>
    obtain ⟨S, K, halike, hheld⟩ := ih
    have hv := (defineShared_enlarged hunmarked).mono hheld.left
    have hw' : Enlarged (fun j => ∃ i, Paired K i j) w' w' := .refl w'
    exact ⟨S, K, halike.enlarge hv hw', hheld.enlarge halike.below hv hw'⟩
  | @right pairs w w' d _ hunmarked ih =>
    obtain ⟨S, K, halike, hheld⟩ := ih
    have hw : Enlarged (fun i => ∃ j, Paired K i j) w w := .refl w
    have hv' := (defineShared_enlarged hunmarked).mono hheld.right
    exact ⟨S, K, halike.enlarge hw hv', hheld.enlarge halike.below hw hv'⟩

/-- Definitions do not interfere, as long as none marks a column that others share.  In two
sequences of definitions the classes with the same bodies, and with bases that have the same bodies,
are stored alike: under the same table, with the same columns in the same order, of which the same
are keys, and with the same key.  And whatever is defined next with the same body is accepted in
both or refused in both, for the same reason. -/
theorem definitions_do_not_interfere {pairs : List (Nat × Nat)} {w w' : World}
    (h : Beside pairs w w') :
    (∀ id id', Paired pairs id id' → w.schemaOf id = w'.schemaOf id') ∧
    ∀ d d', SameBody pairs w w' d d' →
      ((defineShared d).runOn w).1.map (fun _ => ()) =
        ((defineShared d').runOn w').1.map fun _ => () := by
  obtain ⟨S, K, halike, -⟩ := h.alike
  refine ⟨fun id id' hpair => halike.schemaOf_eq hpair, fun d d' hbody => ?_⟩
  have hdefined := defineShared_alike halike hbody
  generalize (defineShared d).runOn w = run at hdefined
  generalize (defineShared d').runOn w' = run' at hdefined
  cases hdefined <;> rfl

/-- A mixin with a column `id` that is declared as no key. -/
def stamped : Definition :=
  { name := "Stamped", key := "Stamped", bases := [],
    attributes := [("id", .column { name := "id", spelling := "Number", type := .integer })] }

/-- A model with the mixin, and with the given columns. -/
def stampedModel (name table : String) (columns : List (String × AttributeBody)) : Definition :=
  { name, key := name, bases := ["Stamped", "Model"],
    attributes := (tableAttribute, .plain (.str table)) :: columns }

/-- A model that declares another key. -/
def badge : Definition :=
  stampedModel "Badge" "badges"
    [("code", .column { name := "code", spelling := "Text", type := .text, isKey := true })]

/-- Another model that declares another key. -/
def note : Definition :=
  stampedModel "Note" "notes"
    [("number", .column { name := "number", spelling := "Number", type := .integer, isKey := true })]

/-- A model that declares no key, and so takes the column of the mixin. -/
def article : Definition := stampedModel "Article" "articles" []

/-- The world after some definitions, from nothing. -/
def afterAll (definitions : List Definition) : World :=
  definitions.foldl (fun w d => ((defineShared d).runOn w).2) {}

/-- The mixin alone. -/
theorem stamped_beside_stamped :
    Beside [(1, 1), (0, 0)] (afterAll [stamped]) (afterAll [stamped]) := by
  have hrun : (defineShared stamped).runOn {} = (.ok 1, afterAll [stamped]) := rfl
  exact .accepted (.start rfl rfl) ⟨rfl, .nil, .none, .cons (.column (by decide) rfl) .nil⟩ hrun hrun

/-- A model with the mixin and a key of its own takes no column of the mixin for its key. -/
theorem note_leaves_stamped_unmarked :
    LeavesUnmarked (HeldByOne [1, 0] (afterAll [stamped])) (afterAll [stamped]) (defineShared note) := by
  intro id v m index hrun hm hget hheld
  have hnote : (defineShared note).runOn (afterAll [stamped]) = (.ok 2, afterAll [stamped, note]) :=
    rfl
  rw [hnote] at hrun
  cases hrun
  have hkey : ((afterAll [stamped, note]).registry.classAt 2).mapper.bind
      (fun m => m.columns.get? m.key) = some 1 := rfl
  rw [hm, Option.bind_some, hget] at hkey
  cases hkey
  obtain ⟨id, hid, name, hname⟩ := hheld
  have hnone : ∀ id ∈ [1, 0], ∀ entry ∈ ((afterAll [stamped]).registry.classAt id).attributes,
      Registry.column? entry.2 ≠ some 1 := by decide +kernel
  exact absurd rfl (hnone id hid _ (Dictionary.mem_of_get? hname))

theorem badge_same_body :
    SameBody [(1, 1), (0, 0)] (afterAll [stamped, note]) (afterAll [stamped]) badge badge where
  name_eq := rfl
  bases := .cons ⟨1, 1, by decide, rfl, rfl⟩ (.cons ⟨0, 0, by decide, rfl, rfl⟩ .nil)
  settings := .none
  attributes := .cons (.datum (.of_isDatum rfl)) (.cons (.column (by decide) rfl) .nil)

/-- A model with a key of its own is stored alike whether or not another one is defined before. -/
theorem badge_is_stored_alike_after_note :
    (afterAll [stamped, note, badge]).schemaOf 3 = (afterAll [stamped, badge]).schemaOf 2 ∧
      ((defineShared badge).runOn (afterAll [stamped, note])).1.map (fun _ => ()) =
        ((defineShared badge).runOn (afterAll [stamped])).1.map fun _ => () := by
  have hnote : Beside [(1, 1), (0, 0)] (afterAll [stamped, note]) (afterAll [stamped]) :=
    .left note stamped_beside_stamped note_leaves_stamped_unmarked
  have hbadge : Beside [(3, 2), (1, 1), (0, 0)] (afterAll [stamped, note, badge])
      (afterAll [stamped, badge]) := .accepted hnote badge_same_body rfl rfl
  exact ⟨(definitions_do_not_interfere hbadge).1 3 2 List.mem_cons_self,
    (definitions_do_not_interfere hnote).2 badge badge badge_same_body⟩

/-- A model that takes the column of the mixin for its key changes the other models with the mixin,
those that are defined later and those that were defined before. -/
theorem shared_key_changes_other_classes :
    ((defineShared badge).runOn (afterAll [stamped])).1 = .ok 2 ∧
      ((defineShared badge).runOn (afterAll [stamped, article])).1 =
        .error (.rejected (.severalKeys "Badge" ["id", "code"])) ∧
      (((afterAll [stamped, badge]).schemaOf 2).map Schema.columns =
        some [("id", false), ("code", true)]) ∧
      (((afterAll [stamped, badge, article]).schemaOf 2).map Schema.columns =
        some [("id", true), ("code", true)]) :=
  ⟨rfl, rfl, rfl, rfl⟩

end RowMapper.World
