import RowMapper.Proofs.Entity.Insertion
import RowMapper.Proofs.Entity.Linking
import RowMapper.Proofs.World.Naming

/-!
# Names that columns and relations share

A relation is held under its name like a column, so a name that both have would let `populate` and
`attach` overwrite a column, and entities be written as the value of one.  A later registration
cannot bring this about, since a declaration is checked against the columns; but the bodies of a
class and its ancestors are never compared with each other.  So a name is shared if and only if it
is declared twice there, and every other column is safe from relations
(`names_are_shared_only_where_declared_twice`).
-/
namespace RowMapper

/-! ## 1. Texts among keys -/

/-- A key that was not taken from the shelf is the same as a text only if it is that text. -/
theorem Value.text?_of_sameKey_strAt {key : Value} {name : String} {place : Option Nat}
    (hplace : key.place = none) (h : (Value.strAt name place).sameKey key = true) :
    key.text? = some name := by
  cases key <;> simp_all [Value.sameKey, Value.sharePlace, Value.place, Value.text?, Value.asInt?]

/-- Writing under another key leaves what is under a text. -/
theorem Entries.get?_insert_of_text_ne {key v : Value} {name : String} (hplace : key.place = none)
    (hne : key.text? ≠ some name) (entries : Entries) :
    Entries.get? (Entries.insert entries key v) (.str name) =
      Entries.get? entries (.str name) := by
  have hknown {known : Value} (hsame : known.sameKey key = true) :
      (known.text? == some name) = false := by
    rw [beq_eq_false_iff_ne]
    intro htext
    cases known <;> cases htext
    exact hne (Value.text?_of_sameKey_strAt hplace hsame)
  unfold Entries.get?
  induction entries with
  | nil => simp [Entries.insert, Value.sameKey_str, hne]
  | cons entry rest ih =>
    obtain ⟨known, old⟩ := entry
    rw [Entries.insert]
    split
    · next hsame => simp [Value.sameKey_str, hknown hsame]
    · by_cases hname : known.text? = some name
      · simp [Value.sameKey_str, hname]
      · simpa [Value.sameKey_str, hname] using ih

theorem Entries.has_of_get? {α : Type} {entries : List (Value × α)} {key : Value} {a : α}
    (h : Entries.get? entries key = some a) : Entries.has entries key = true := by
  obtain ⟨entry, hentry, -⟩ := Option.map_eq_some_iff.mp h
  have hsame := List.find?_some hentry
  exact List.any_eq_true.mpr ⟨entry, List.mem_of_find?_eq_some hentry, hsame⟩

namespace World

open Model (Association Mapper Registry)

variable {id : Nat} {w t w' : World} {left : List (Nat × Nat)} {ref other : EntityRef}
  {name : String} {m : Mapper}

/-! ## 2. What an entity keeps under a name -/

/-- An entity that is there stays there, and has the same set under a name, or still nothing. -/
def Retains (ref : EntityRef) (name : String) (w w' : World) : Prop :=
  ref.id < w.entities.length → ref.id < w'.entities.length ∧
    Entries.get? (w'.entityAt ref).attributes (.str name) =
      Entries.get? (w.entityAt ref).attributes (.str name)

instance (ref : EntityRef) (name : String) : IsPreorder World (Retains ref name) where
  refl _ hin := ⟨hin, rfl⟩
  trans _ _ _ h h' hin := by
    obtain ⟨hin', hsame⟩ := h hin
    obtain ⟨hin'', hsame'⟩ := h' hin'
    exact ⟨hin'', hsame'.trans hsame⟩

theorem retains_of_prefix (h : w.entities <+: w'.entities) : Retains ref name w w' := by
  intro hin
  refine ⟨Nat.lt_of_lt_of_le hin h.length_le, ?_⟩
  obtain ⟨more, hmore⟩ := h
  rw [entityAt, ← hmore, List.getElem?_append_left hin, entityAt]

theorem retains_of_still {α : Type} {action : Action World α} (h : action.Obeys Still) :
    action.Obeys (Retains ref name) :=
  h.mono fun _ _ hstill => retains_of_prefix (hstill.entities_eq ▸ List.prefix_rfl)

theorem retains_of_registers {α : Type} {action : Action World α} (h : action.Obeys Registers) :
    action.Obeys (Retains ref name) :=
  h.mono fun _ _ hregisters => retains_of_prefix (hregisters.entities_eq ▸ List.prefix_rfl)

theorem retains_of_adds {α : Type} {action : Action World α} (h : action.Obeys Adds) :
    action.Obeys (Retains ref name) := h.mono fun _ _ hadds hin => by
  rw [hadds.entityAt_eq hin]
  obtain ⟨made, shelf, rfl, -⟩ := hadds
  exact ⟨Nat.lt_of_lt_of_le hin (List.prefix_append ..).length_le, rfl⟩

/-- What is done to another entity. -/
theorem retains_of_alters {α : Type} {action : Action World α} (h : action.Obeys (Alters other))
    (hne : other.id ≠ ref.id) : action.Obeys (Retains ref name) := h.mono fun w _ halters hin => by
  obtain ⟨e, shelf, rfl, -, -⟩ := halters
  refine ⟨by simpa using hin, ?_⟩
  simp [entityAt, List.getElem?_set_ne hne]

/-- Holding a value under another key. -/
theorem holdAttribute_retains {key : Value} (hplace : key.place = none)
    (hne : key.text? ≠ some name) (v : Value) :
    (holdAttribute ref key v).Obeys (Retains ref name) := by
  refine .bind (retains_of_still (store_still v)) fun placed w hin => ⟨?_, ?_⟩
  · show ref.id < (w.entities.set _ _).length
    rwa [List.length_set]
  rw [updateEntity_entityAt, if_pos ⟨rfl, hin⟩]
  exact Entries.get?_insert_of_text_ne hplace hne _

theorem setAttribute_retains (hne : other.id ≠ ref.id) (column : String) (v : Value) :
    (setAttribute other column v).Obeys (Retains ref name) :=
  retains_of_alters (setAttribute_alters column v) hne

theorem bindTo_retains (hne : other.id ≠ ref.id) (session : String) :
    (bindTo session other).Obeys (Retains ref name) := by
  have hbind : (updateEntity other fun e => { e with session := some session }).Obeys
      (Retains ref name) := retains_of_alters (updateEntity_alters fun _ => rfl) hne
  exact .bind .get fun _ => .ite (.bind (retains_of_still (debug_still _ _)) fun _ => hbind) hbind

theorem insertData_retains (hne : other.id ≠ ref.id) (key : String)
    (columns : List (String × Model.Column)) :
    (insertData other key columns).Obeys (Retains ref name) := by
  induction columns with
  | nil => exact .pure _
  | cons entry rest ih =>
    refine .bind .get fun _ => ?_
    split
    · exact .bind ih fun _ => .pure _
    · exact .bind (retains_of_adds (defaultValue_adds _)) fun _ =>
        .bind (retains_of_alters (holdAttribute_alters _ _) hne) fun _ => .bind ih fun _ => .pure _
    · exact ih

/-- Saving another entity. -/
theorem save_retains (hne : other.id ≠ ref.id) : (save other).Obeys (Retains ref name) := by
  have hrow : (saveRow other).Obeys (Retains ref name) :=
    .bind (retains_of_still (sessionOf_still other)) fun _ =>
      .bind (retains_of_still (reading_still _)) fun mapper => .bind .get fun _ =>
      .bind (insertData_retains hne mapper.key _) fun _ => .bind (.ofExcept _) fun _ =>
      .bind (retains_of_still (query_still _)) fun _ =>
      .bind (retains_of_still (reading_still _)) fun _ =>
      .ite (.bind (.ofExcept _) fun _ => setAttribute_retains hne _ _) (.pure _)
  rw [save_eq]
  exact .bind hrow fun _ =>
    .bind (retains_of_alters (updateEntity_alters fun _ => rfl) hne) fun _ =>
    retains_of_still (reading_still _)

theorem holdLinked_retains {relation : Value} (hplace : relation.place = none)
    (hne : relation.text? ≠ some name) (a : Association) (target : EntityRef) :
    (holdLinked ref a relation target).Obeys (Retains ref name) := by
  intro w
  rw [holdLinked, Action.runOn_bind_ok (Action.runOn_get w)]
  dsimp only
  split
  · exact fun hin => ⟨hin, rfl⟩
  · exact holdAttribute_retains hplace hne _ w
  · exact holdAttribute_retains hplace hne _ w

/-! ## 3. Populating and attaching -/

/-- A relation that an entity has is not called by a name. -/
def Apart (name : String) (ref : EntityRef) (relation : Value) (w : World) : Prop :=
  ∀ a t, (associationOfEntity ref relation).runOn w = (.ok a, t) → relation.text? ≠ some name

/-- What is done with a relation that was looked up may rely on its name. -/
theorem Apart.retains {α : Type} {relation : Value} (h : Apart name ref relation w)
    {next : String → Association → Action World α}
    (hnext : ∀ session a, relation.text? ≠ some name → (next session a).Obeys (Retains ref name)) :
    Retains ref name w ((do
      let session ← sessionOf ref
      let a ← associationOfEntity ref relation
      next session a : Action World α).runOn w).2 := by
  refine Action.after_bind_kept (sessionOf_kept ref w) (refl_of (Retains ref name) w)
    fun session _ => ?_
  have hlookup : (associationOfEntity ref relation).Obeys (Retains ref name) :=
    retains_of_registers (associationOfEntity_registers ref relation)
  rw [Action.runOn_bind]
  rcases hrun : (associationOfEntity ref relation).runOn w with ⟨fault | a, t⟩
  · exact hlookup.of_run hrun
  · exact trans_of (Retains ref name) (hlookup.of_run hrun) (hnext session a (h a t hrun) t)

/-- Populating a relation leaves what is held under any other name. -/
theorem populate_retains {relation : Value} (hplace : relation.place = none)
    (h : Apart name ref relation w) (shape : Shape) :
    Retains ref name w ((populate ref relation shape).runOn w).2 :=
  h.retains fun session a hne =>
    .bind ((load_grows session ref a shape).mono fun _ _ hgrows =>
      retains_of_prefix hgrows.entities_prefix) fun v => holdAttribute_retains hplace hne v

theorem setForeign_retains (hne : other.id ≠ ref.id) (foreignKey v : Value) :
    (setForeign other foreignKey v).Obeys (Retains ref name) := by
  rw [setForeign]
  split
  · exact setAttribute_retains hne _ v
  · exact .throw _

/-- Attaching another entity leaves what is held under any other name than that of the relation. -/
theorem attach_retains {relation target : Value} (hplace : relation.place = none)
    (h : Apart name ref relation w)
    (htarget : ∀ other, target = .entity other → other.id ≠ ref.id) :
    Retains ref name w ((attach ref target relation).runOn w).2 := by
  refine h.retains fun session a hname => .guarded fun _ =>
    .bind_of (retains_of_still (reading_still _)) fun u other hother => ?_
  have hne : other.id ≠ ref.id := htarget other (attachedEntity_ok hother)
  have hhold : (holdLinked ref a relation other).Obeys (Retains ref name) :=
    holdLinked_retains hplace hname a other
  have hwrite : (do
      if (← reading (·.keyValue other)).isNull then discard (save other) else discard (update other)
      holdLinked ref a relation other : Action World Unit).Obeys (Retains ref name) :=
    .bind (retains_of_still (reading_still _)) fun _ =>
      .ite (.bind (.discard (save_retains hne)) fun _ => hhold)
        (.bind (.discard (retains_of_still (update_still other))) fun _ => hhold)
  exact .bind (retains_of_still (ownerKey_still ref a)) fun key =>
    .bind (setForeign_retains hne _ key) fun _ => .bind .get fun _ =>
    .ite (.bind (bindTo_retains hne session) fun _ => hwrite) hwrite

/-- In a reachable world the relations that a model has are not called by its columns, but for names
that are declared twice. -/
theorem Reached.apart (h : Reached left w)
    (hm : w.registry.mapperOf (w.entityAt ref).model.id = .ok m) (hcolumn : name ∈ m.columns.names)
    (honce : ¬w.registry.DeclaredTwice (w.entityAt ref).model.id name) {relation : Value}
    (hplace : relation.place = none) : Apart name ref relation w := by
  intro a t hrun htext
  obtain ⟨hfinalize, m', index, hm', hindex, -⟩ := associationOf_found hrun
  have hreached := h.finalize (w.entityAt ref).model.id
  have hsteady := (finalize_registers (w.entityAt ref).model.id w).toSteady
  rw [hfinalize] at hreached hsteady
  obtain ⟨added, flag, hlater⟩ := hsteady.mapperOf_eq hm
  cases hlater.symm.trans hm'
  obtain rfl : relation = .str name := by
    cases relation <;> cases htext
    cases hplace
    rfl
  -- the name of a column stands in the table of the finalized class
  have htwice := ((hreached.wellNamed.named _ _ (Registry.mapperOf_eq_ok.mp hlater)).shared_iff
    name).mp ⟨hcolumn, Entries.has_of_get? hindex⟩
  rw [Registry.declaredTwice_congr (hsteady.bodies_eq h.wellNamed (lt_of_mapperOf hm))] at htwice
  exact honce htwice

/-! ## 4. Writing -/

/-- Nothing is written or shown under a name: no insertion or change of the row of an entity has a
column of that name, and what is known of the entity has nothing under it. -/
structure Unwritten (name : String) (ref : EntityRef) (m : Mapper) (w : World) : Prop where
  inserted : SendsOne (fun text _ => ∃ table columns, text = Sql.insertionText table columns ∧
    name ∉ columns) w ((save ref).runOn w).2
  changed : SendsOne (fun text _ => ∃ table columns key, text = Sql.changeText table columns key ∧
    name ∉ columns) w ((update ref).runOn w).2
  shown : ∀ entries, toDictionary (w.entityAt ref) m = .ok entries →
    Entries.has entries (.str name) = false

/-- What is held besides columns does not have the names of relations. -/
theorem otherEntries_leaves_out (h : Entries.has m.associations (.str name) = true)
    {entries others : Entries} (hothers : otherEntries m entries = .ok others) :
    Entries.has others (.str name) = false := by
  induction entries generalizing others with
  | nil =>
    cases hothers
    rfl
  | cons entry rest ih =>
    obtain ⟨key, v⟩ := entry
    obtain ⟨hidden, -, hothers⟩ := bind_eq_ok.mp hothers
    obtain ⟨found, hfound, hothers⟩ := bind_eq_ok.mp hothers
    cases hothers
    split
    · exact ih hfound
    · next hshown =>
      have hkey : key.sameKey (.str name) = false := by
        rw [Bool.eq_false_iff]
        intro hsame
        have htext : key.text? = some name := by simpa [Value.sameKey_str] using hsame
        obtain ⟨known, hknown, hkept⟩ := Entries.has_str.mp h
        have hhas : Entries.has m.associations key = true :=
          List.any_eq_true.mpr ⟨known, hknown, Value.sameKey_of_text hkept htext⟩
        exact hshown (by simp [hhas])
      rw [Entries.has, List.any_cons, hkey, Bool.false_or]
      exact ih hfound

theorem toDictionary_leaves_out {e : Entity} (h : Entries.has m.associations (.str name) = true)
    (hname : name ∉ m.columns.names) {entries : Entries}
    (hentries : toDictionary e m = .ok entries) : Entries.has entries (.str name) = false := by
  obtain ⟨others, hothers, hentries⟩ := bind_eq_ok.mp hentries
  cases hentries
  have hheld : Entries.has (Entries.ofNamed (heldColumns e m)) (.str name) = false := by
    rw [Bool.eq_false_iff, Entries.ofNamed, ne_eq, Entries.has_str_map]
    exact fun hmem => hname ((heldColumns_names e m).subset hmem)
  rw [Entries.has, List.any_append, Bool.or_eq_false_iff]
  exact ⟨hheld, otherEntries_leaves_out h hothers⟩

/-- A relation that is no column is never written. -/
theorem unwritten_of_relation (hm : w.mapperOf ref = .ok m)
    (h : Entries.has m.associations (.str name) = true) (hname : name ∉ m.columns.names) :
    Unwritten name ref m w where
  inserted := by
    refine (save_sendsInsertion hm).mono ?_
    rintro _ _ ⟨table, columns, -, -, hcolumns, rfl, -⟩
    exact ⟨table, columns, rfl, fun hmem => hname (hcolumns.subset hmem)⟩
  changed := by
    refine (update_sendsChange hm).mono ?_
    rintro _ _ ⟨table, columns, -, -, hcolumns, rfl, -⟩
    exact ⟨table, columns, m.key, rfl, fun hmem => hname (hcolumns.subset hmem)⟩
  shown _ hentries := toDictionary_leaves_out h hname hentries

/-! ## 5. Shared names -/

/-- **Names are shared only where they are declared twice.**  In every reachable world the names
that a model has for a column and for a relation are those that the bodies of the class and its
ancestors declare as both.  Any other column of an entity stays as it is when a relation is
populated or another entity is attached; and what is held under any other relation is neither
written nor shown. -/
theorem names_are_shared_only_where_declared_twice (h : Reached left w) (hm : w.mapper id = .ok m) :
    (∀ name, (name ∈ m.columns.names ∧ Entries.has m.associations (.str name) = true) ↔
      w.registry.DeclaredTwice id name) ∧
    ∀ name ref, ¬w.registry.DeclaredTwice id name → (w.entityAt ref).model.id = id →
      (name ∈ m.columns.names → ∀ relation : Value, relation.place = none →
        (∀ shape, Retains ref name w ((populate ref relation shape).runOn w).2) ∧
        ∀ target, (∀ other, target = .entity other → other.id ≠ ref.id) →
          Retains ref name w ((attach ref target relation).runOn w).2) ∧
      (Entries.has m.associations (.str name) = true → Unwritten name ref m w) := by
  have hmapper := hm
  obtain ⟨known, hknown, hm⟩ := bind_eq_ok.mp hm
  cases hm
  have hshared := (h.wellNamed.named id known (Registry.mapperOf_eq_ok.mp hknown)).shared_iff
  refine ⟨hshared, fun name ref honce hmodel =>
    ⟨fun hcolumn relation hplace => ?_, fun hrelation => ?_⟩⟩
  · subst hmodel
    have hapart : Apart name ref relation w := h.apart hknown hcolumn honce hplace
    exact ⟨populate_retains hplace hapart, fun target => attach_retains hplace hapart⟩
  · refine unwritten_of_relation (by rw [mapperOf, hmodel, hmapper]) hrelation fun hcolumn => ?_
    exact honce ((hshared name).mp ⟨hcolumn, hrelation⟩)

/-- Whether a model has a name for a column, and whether it has it for a relation. -/
def usesOf (name : String) : Except Fault Mapper → Option (Bool × Bool)
  | .ok m => some (m.columns.names.contains name, Entries.has m.associations (.str name))
  | .error _ => none

theorem usesOf_eq_some {found : Except Fault Mapper} {isColumn isRelation : Bool}
    (h : usesOf name found = some (isColumn, isRelation)) : ∃ m, found = .ok m ∧
      (name ∈ m.columns.names ↔ isColumn = true) ∧
      Entries.has m.associations (.str name) = isRelation := by
  cases found with
  | error fault => cases h
  | ok m =>
    cases h
    exact ⟨m, rfl, List.contains_iff_mem.symm, rfl⟩

/-- Animals and shelters are defined. -/
def sheltersDefined : World := ((defineShared shelters).runOn ((defineShared animals).runOn {}).2).2

theorem sheltersDefined_reached : Reached [] sheltersDefined :=
  ((Reached.start (w := {}) rfl).define animals (animals_usable _)).define shelters
    (shelters_usable _)

/-- A world with one entity that holds some values, and with answers to two statements: the row of
an animal, and the change of one row. -/
def holding (w : World) (model : Nat) (attributes : Entries) : World :=
  let row : List (String × Term) := [("id", .plain (.int 7)), ("name", .plain (.str "Rex"))]
  { w with
    entities := [{ model := (w.registry.classAt model).ref, session := some "session", attributes }]
    replies := [⟨.ok (.rows [row]), none⟩, ⟨.ok (.done (.plain .null) (.plain (.int 1))), none⟩] }

/-- A world with a shelter. -/
def sheltered : World := sheltersDefined.holding 2 [(.str "id", .int 1)]

/-- The key of a shelter stays when its animals are populated, and they are not written with it. -/
theorem animals_are_not_written : Reached [] sheltered ∧ ∃ m, sheltered.mapper 2 = .ok m ∧
    Retains shelter "id" sheltered ((populate shelter (.str "animals") {}).runOn sheltered).2 ∧
    Unwritten "animals" shelter m sheltered := by
  have hreached : Reached [] sheltered := sheltersDefined_reached.elsewhere rfl
  obtain ⟨m, hm, hcolumn, hrelation⟩ := usesOf_eq_some
    (show usesOf "id" (sheltered.mapper 2) = some (true, false) by decide +kernel)
  obtain ⟨m', hm', hcolumn', hrelation'⟩ := usesOf_eq_some
    (show usesOf "animals" (sheltered.mapper 2) = some (false, true) by decide +kernel)
  cases hm.symm.trans hm'
  obtain ⟨hshared, hsafe⟩ := names_are_shared_only_where_declared_twice hreached hm
  have hkey : ¬sheltered.registry.DeclaredTwice 2 "id" := fun htwice =>
    Bool.false_ne_true (hrelation.symm.trans ((hshared "id").mpr htwice).2)
  have hanimals : ¬sheltered.registry.DeclaredTwice 2 "animals" := fun htwice =>
    Bool.false_ne_true (hcolumn'.mp ((hshared "animals").mpr htwice).1)
  have hmodel : (sheltered.entityAt shelter).model.id = 2 := by decide +kernel
  exact ⟨hreached, m, hm,
    ((hsafe "id" shelter hkey hmodel).1 (hcolumn.mpr rfl) (.str "animals") rfl).1 {},
    (hsafe "animals" shelter hanimals hmodel).2 hrelation'⟩

/-- A class of shelters that declares the name of the animals again, as a column for their
number. -/
def sanctuaries : Model.Definition :=
  let places : Model.Column := { name := "animals", spelling := "Number", type := .integer }
  { name := "Sanctuary", key := "Sanctuary", bases := ["Shelter"],
    attributes := [("__tablename__", .plain (.str "sanctuaries")), ("animals", .column places)] }

/-- A world with a sanctuary for 40 animals. -/
def sanctuaried : World :=
  ((defineShared sanctuaries).runOn sheltersDefined).2.holding 3
    [(.str "id", .int 1), (.str "animals", .int 40)]

/-- The sanctuary. -/
def sanctuary : EntityRef := ⟨0, "Sanctuary"⟩

/-- The world after the animals of the sanctuary are populated. -/
def populated : World := ((populate sanctuary (.str "animals") {}).runOn sanctuaried).2

/-- Whether a sanctuary held a number, and then a list. -/
def becomesList : Option Value → Option Value → Bool
  | some (.intAt _ _), some (.shared _) => true
  | _, _ => false

/-- Whether a second call writes animals into a column. -/
def writesAnimals : List Exchange → Bool
  | [_, ⟨.statement text [.listAt [.entity ⟨1, _⟩] _, _], _, _⟩] =>
    text == "UPDATE \"sanctuaries\" SET \"animals\" = ? WHERE \"id\" = ?"
  | _ => false

/-- Where a class declares the name of a relation again as a column, populating the relation
overwrites the column, and the next change writes the related entities as its value. -/
theorem related_entities_are_written_into_a_column : Reached [] sanctuaried ∧
    (∃ m, sanctuaried.mapper 3 = .ok m ∧ "animals" ∈ m.columns.names ∧
      Entries.has m.associations (.str "animals") = true) ∧
    ¬Retains sanctuary "animals" sanctuaried populated ∧
    ∃ selected write name place key,
      ((update sanctuary).runOn populated).2.trace = [selected, write] ∧
      write.call = .statement "UPDATE \"sanctuaries\" SET \"animals\" = ? WHERE \"id\" = ?"
        [.listAt [.entity ⟨1, name⟩] place, key] := by
  have hsanctuaries (r : Registry) : sanctuaries.Usable r :=
    ⟨by simp [sanctuaries, Registry.Has], by rintro _ ⟨⟩⟩
  refine ⟨(sheltersDefined_reached.define sanctuaries (hsanctuaries _)).elsewhere rfl, ?_, ?_, ?_⟩
  · obtain ⟨m, hm, hcolumn, hrelation⟩ := usesOf_eq_some
      (show usesOf "animals" (sanctuaried.mapper 3) = some (true, true) by decide +kernel)
    exact ⟨m, hm, hcolumn.mpr rfl, hrelation⟩
  · intro hretains
    have hin : sanctuary.id < sanctuaried.entities.length := by decide +kernel
    have hover : becomesList
        (Entries.get? (sanctuaried.entityAt sanctuary).attributes (.str "animals"))
        (Entries.get? (populated.entityAt sanctuary).attributes (.str "animals")) = true := by
      decide +kernel
    rw [(hretains hin).2] at hover
    unfold becomesList at hover
    split at hover
    · next hnumber hlist => cases hnumber.symm.trans hlist
    · cases hover
  · have hwrites : writesAnimals ((update sanctuary).runOn populated).2.trace = true := by
      decide +kernel
    unfold writesAnimals at hwrites
    split at hwrites
    · next selected text name place key written result htrace =>
      obtain rfl := beq_iff_eq.mp hwrites
      exact ⟨selected, _, name, place, key, htrace, rfl⟩
    · cases hwrites

end World
end RowMapper
