import RowMapper.Proofs.Entity.Preparation
import RowMapper.Proofs.Entity.Rewrite

/-!
# What linking sends

Linking an entity to an owner writes the entity: whenever it goes well one statement was sent for
the table of the entity, which was answered, and it sets the foreign key to the key of the owner
(`attached_link_is_sent`).  But the statement has the columns that are declared for the entity and
no other, and a change of a row leaves out the key; and nobody looks whether there was a row to
change.  So a link that went well need not be in the database
(`links_that_are_not_in_the_database`).
-/
namespace RowMapper

open Model (Association Mapper Registry)

/-! ## 1. Putting away twice -/

namespace Shelf

/-- A value that exists only once and comes from no shelf is put back as it is. -/
theorem store_unique {v : Value} (hunique : isUnique v = true) (hplace : v.place = none)
    (s : Shelf) : store v s = (v, s) := by
  have hput : put s v = (v, s) := by rw [put, if_pos hunique]
  rw [store.eq_def]
  split
  · cases hunique
  · next items =>
    have hempty : items = [] := by simpa [isUnique] using hunique
    subst hempty
    exact hput
  all_goals first | cases hunique | skip
  rw [hplace]
  exact hput

/-- What was put on the shelf stays where it is when it is put there again. -/
theorem store_stored (v : Value) (s t : Shelf) : store (store v s).1 t = ((store v s).1, t) := by
  have hput {v : Value} (hplace : v.place = none) (s : Shelf) :
      store (put s v).1 t = ((put s v).1, t) := by
    rw [put]
    split
    · next hunique => exact store_unique hunique hplace t
    · rfl
  rw [store.eq_def v s]
  split
  all_goals first | exact hput rfl _ | skip
  split
  · rfl
  · next hplace => exact hput hplace _

theorem Kept.trans {s s' : Shelf} {v held held' : Value} (h : Kept s v held)
    (h' : Kept s' held held') (hshelf : s <+: s') : Kept s' v held' := by
  obtain ⟨before, after, hstore, hafter⟩ := h
  obtain ⟨before', after', hstore', -⟩ := h'
  have hsame := store_stored v before before'
  rw [hstore, hstore'] at hsame
  cases hsame
  exact ⟨before, after, hstore, hafter.trans hshelf⟩

end Shelf

namespace World

variable {ref owner other : EntityRef} {v : Value} {u w t : World}

/-! ## 2. The row of an entity -/

/-- What is held under a name that is left alone stays held. -/
theorem Holds.retains {name : String} (h : Holds ref name v w) (hretains : Retains ref name w t)
    (hin : ref.id < w.entities.length) (hshelf : w.shelf <+: t.shelf) : Holds ref name v t := by
  obtain ⟨held, hget, hkept⟩ := h
  exact ⟨held, (hretains hin).2.trans hget, hkept.mono hshelf⟩

/-- What is held comes into the data of an insertion. -/
theorem insertData_holds {name key : String} {columns : List (String × Model.Column)}
    {data : Dictionary Value} (hin : ref.id < w.entities.length) (h : Holds ref name v w)
    (hrun : (insertData ref key columns).runOn w = (.ok data, t)) :
    w.shelf <+: t.shelf ∧ Conveys t.shelf key (columns.map (·.1)) data name v := by
  induction columns generalizing w data with
  | nil =>
    cases hrun
    exact ⟨List.prefix_rfl, by simp, by simp⟩
  | cons entry rest ih =>
    obtain ⟨column, declared⟩ := entry
    -- a name that is held is set, so that no default is taken for it
    have hset (hnone : Entries.get? (w.entityAt ref).attributes (.str column) = none) :
        name ≠ column := by
      rintro rfl
      obtain ⟨held, hget, -⟩ := h
      cases hget.symm.trans hnone
    rw [insertData, Action.runOn_bind_ok (Action.runOn_get w)] at hrun
    split at hrun
    · next value hvalue =>
      obtain ⟨others, t', hothers, hrun⟩ := Action.runOn_bind_eq_ok.mp hrun
      cases hrun
      obtain ⟨hshelf, hconveys⟩ := ih hin h hothers
      refine ⟨hshelf, ?_⟩
      by_cases hname : name = column
      · subst hname
        obtain ⟨held, hget, hheld⟩ := h
        cases hvalue.symm.trans hget
        exact hconveys.cons_self (hheld.mono hshelf)
      · split
        · exact hconveys.skip hname
        · exact hconveys.cons_other hname value
    · next absent hnone _ =>
      obtain ⟨value, u, hvalue, hrun⟩ := Action.runOn_bind_eq_ok.mp hrun
      obtain ⟨_, u', hheld, hrun⟩ := Action.runOn_bind_eq_ok.mp hrun
      obtain ⟨others, _, hothers, hrun⟩ := Action.runOn_bind_eq_ok.mp hrun
      cases hrun
      have hadds := (defaultValue_adds absent).of_run hvalue
      have haside : Retains ref name w u :=
        (retains_of_adds (defaultValue_adds absent)).of_run hvalue
      have halters : Alters ref u u' := (holdAttribute_alters (.str column) value).of_run hheld
      have hretains : Retains ref name u u' :=
        (holdAttribute_retains rfl (by simpa [Value.text?] using Ne.symm (hset hnone)) value).of_run
          hheld
      have hin' := (haside hin).1
      have hholds := (h.adds hadds hin).retains hretains hin' halters.aside.shelf_prefix
      obtain ⟨hshelf, hconveys⟩ := ih (halters.inside hin') hholds hothers
      exact ⟨(hadds.shelf_prefix.trans halters.aside.shelf_prefix).trans hshelf,
        hconveys.cons_other (hset hnone) value⟩
    · next hnone _ =>
      obtain ⟨hshelf, hconveys⟩ := ih hin h hrun
      exact ⟨hshelf, hconveys.skip (hset hnone)⟩

/-- Columns and what is sent for them: what an entity has set in a column, but for the key, is
among them. -/
structure RowOf (ref : EntityRef) (m : Mapper) (w : World) (columns : List String)
    (values : List Value) : Prop where
  length_eq : columns.length = values.length
  there : ∀ name v, Holds ref name v w → name ∈ m.columns.names → name ≠ m.key → name ∈ columns
  sent : ∀ name v sent, Holds ref name v w → (name, sent) ∈ columns.zip values → SentAs v sent

/-- Data that are sent by name and value. -/
theorem mem_zip_sent {data : Dictionary Value} {look : Value → Value} {name : String}
    {sent : Value} (h : (name, sent) ∈ data.names.zip ((data.map (·.2)).map look)) :
    ∃ held, (name, held) ∈ data ∧ sent = look held := by
  rw [Dictionary.names, List.map_map, List.zip_map'] at h
  obtain ⟨entry, hentry, heq⟩ := List.mem_map.mp h
  obtain ⟨rfl, rfl⟩ := Prod.mk.inj heq
  exact ⟨entry.2, hentry, rfl⟩

theorem rowOf_insertData {m : Mapper} {data : Dictionary Value} (hin : ref.id < w.entities.length)
    (hrun : (insertData ref m.key (w.registry.columnsOf m)).runOn w = (.ok data, t)) :
    RowOf ref m w data.names ((data.map (·.2)).map t.expand) := by
  refine ⟨by simp [Dictionary.names], fun name v h hname hkey => ?_, fun name v sent h hsent => ?_⟩
  · exact (insertData_holds hin h hrun).2.there (columnsOf_names w.registry m ▸ hname)
      fun heq => absurd heq hkey
  · obtain ⟨held, hheld, rfl⟩ := mem_zip_sent hsent
    exact sentAs_of_kept ((insertData_holds hin h hrun).2.kept held hheld)

/-- What is written of an entity under a name is what is set on it. -/
theorem mem_updateData {e : Entity} {m : Mapper} {name : String} {held : Value} :
    (name, held) ∈ updateData e m ↔ name ∈ m.columns.names ∧ name ≠ m.key ∧
      Entries.get? e.attributes (.str name) = some held := by
  simp only [updateData, heldColumns, List.mem_filter, List.mem_filterMap, Option.map_eq_some_iff,
    Prod.mk.injEq, bne_iff_ne]
  constructor
  · rintro ⟨⟨column, hcolumn, value, hvalue, rfl, rfl⟩, hkey⟩
    exact ⟨hcolumn, hkey, hvalue⟩
  · rintro ⟨hcolumn, hkey, hvalue⟩
    exact ⟨⟨name, hcolumn, held, hvalue, rfl, rfl⟩, hkey⟩

theorem rowOf_updateData (ref : EntityRef) (m : Mapper) (w : World) :
    RowOf ref m w (updateData (w.entityAt ref) m).names
      (((updateData (w.entityAt ref) m).map (·.2)).map w.expand) := by
  refine ⟨by simp [Dictionary.names], ?_, ?_⟩
  · rintro name v ⟨held, hget, -⟩ hname hkey
    exact List.mem_map_of_mem (f := (·.1)) (mem_updateData.mpr ⟨hname, hkey, hget⟩)
  · rintro name v sent ⟨held, hget, hkept⟩ hsent
    obtain ⟨held', hheld', rfl⟩ := mem_zip_sent hsent
    cases hget.symm.trans (mem_updateData.mp hheld').2.2
    exact sentAs_of_kept hkept

/-! ## 3. The statement -/

/-- An exchange that writes a row of a table with a key: a row is inserted and the database answers,
or a row is changed and the database answers with a count. -/
inductive WritesRow (tableName : Value) (key : String) (columns : List String)
    (values : List Value) (x : Exchange) : Prop
  | inserted {table : String} {answer : Answer} (htable : Sql.safeName tableName = .ok table)
      (hwell : (Sql.Write.insertion table columns).WellFormed)
      (hcall : x.call = .statement (Sql.insertionText table columns) values)
      (hresult : x.result = .ok answer)
  | changed {table : String} {own : Value} {found : Bool}
      (htable : Sql.safeName tableName = .ok table)
      (hwell : (Sql.Write.change table columns key).WellFormed)
      (hcall : x.call = .statement (Sql.changeText table columns key) (values ++ [own]))
      (hcounts : Counts x found)

/-- From one world to another what is set on an entity is written to its table, and answered. -/
def WritesOwnRow (ref : EntityRef) (w t : World) : Prop :=
  ∃ m columns values x, w.mapperOf ref = .ok m ∧ t.trace = w.trace ++ [x] ∧
    RowOf ref m w columns values ∧ WritesRow m.tableName m.key columns values x

theorem save_writesRow {key : Value} (hin : ref.id < w.entities.length)
    (hrun : (save ref).runOn w = (.ok key, t)) : WritesOwnRow ref w t := by
  rcases save_steps ref w with ⟨fault, u, hfail, -⟩ | ⟨m, data, u, f, hm, hdata, hf, hsteps⟩
  · cases hfail.symm.trans hrun
  rw [hsteps] at hrun
  obtain ⟨answer, u', hquery, hrest⟩ := Action.runOn_bind_eq_ok.mp hrun
  obtain ⟨x, htrace, hcall, hresult⟩ := query_exchanged hquery
  obtain ⟨table, htable, hwell, rfl⟩ := Sql.insertRow_ofNamed hf
  have hbefore : Leads [] w u := (insertData_sends ref m.key _).of_run hdata
  have hafter : Leads [] u' t := (afterInsertion_sends ref m.key answer).of_run hrest
  refine ⟨m, _, _, x, hm, ?_, rowOf_insertData hin hdata, .inserted htable hwell hcall hresult⟩
  rw [hafter.trace_eq, htrace, hbefore.trace_eq]

theorem update_writesRow {found : Bool} (hrun : (update ref).runOn w = (.ok found, t)) :
    WritesOwnRow ref w t := by
  rcases update_steps ref w with ⟨fault, hfail⟩ | ⟨m, key, table, hm, -, htable, hwell, hsteps⟩
  · cases hfail.symm.trans hrun
  rw [hsteps] at hrun
  obtain ⟨x, htrace, hcall, hcounts⟩ := affected_counts hrun
  rw [List.map_append] at hcall
  exact ⟨m, _, _, x, hm, htrace, rowOf_updateData ref m w, .changed htable hwell hcall hcounts⟩

/-- What is linked is written. -/
theorem writeLinked_writesRow (hin : ref.id < w.entities.length)
    (hrun : (writeLinked ref).runOn w = (.ok (), t)) : WritesOwnRow ref w t := by
  obtain ⟨key, _, hread, hrun⟩ := Action.runOn_bind_eq_ok.mp hrun
  obtain ⟨-, rfl⟩ := reading_eq_ok.mp hread
  split at hrun <;> rw [Action.discard_eq] at hrun <;>
    obtain ⟨_, _, hwrite, hpure⟩ := Action.runOn_bind_eq_ok.mp hrun <;> cases hpure
  · exact save_writesRow hin hwrite
  · exact update_writesRow hwrite

/-! ## 4. What linking sends -/

/-- The key of an owner as it is sent: what came of the key that it has, and so of the value that it
was given as its key. -/
structure SentKey (owner : EntityRef) (u : World) (sent : Value) : Prop where
  own : ∃ key, u.keyValue owner = .ok key ∧ key.isNull = false ∧ SentAs key sent
  given : ∀ k, Known owner k u → SentAs k sent

/-- **A link that went well was sent.**  Linking an entity to an owner sends one statement, which
writes a row of the table of the entity, with a value for each column, and is answered.  If the
foreign key is one of the columns that are declared for the entity, and not the key, the statement
sets it to the key of the owner. -/
theorem attached_link_is_sent {relation : Value} (hin : other.id < u.entities.length)
    (hrun : (attach owner (.entity other) relation).runOn u = (.ok (), w)) :
    ∃ (a : Association) (m : Mapper) (s : Shelf) (name : String) (columns : List String)
      (values : List Value) (x : Exchange),
      ((associationOfEntity owner relation).runOn u).1 = .ok a ∧
      a.foreignKey.text? = some name ∧
      u.registry.mapperOf (u.entityAt other).model.id = .ok m ∧ u.shelf <+: s ∧
      w.trace = u.trace ++ [x] ∧ WritesRow (s.expand m.tableName) m.key columns values x ∧
      columns.length = values.length ∧
      (name ∈ m.columns.names → name ≠ m.key → name ∈ columns ∧
        ∀ sent, (name, sent) ∈ columns.zip values → SentKey owner u sent) := by
  rw [attach_parts] at hrun
  obtain ⟨⟨a, found⟩, t, hway, hrun⟩ := Action.runOn_bind_eq_ok.mp hrun
  obtain ⟨_, t', hwrite, hlast⟩ := Action.runOn_bind_eq_ok.mp hrun
  obtain ⟨hentity, _, _, _, _, _, -, hassociation, -⟩ := attachForWrite_eq_ok hway
  obtain rfl := Value.entity.inj hentity
  have hfound : ((associationOfEntity owner relation).runOn u).1 = .ok a := by rw [hassociation]
  have hsends : Leads [] u t := (attachForWrite_sends owner _ relation).of_run hway
  have hafter : Leads [] t' w := (holdLinked_sends owner a relation other).of_run hlast
  obtain ⟨_, name, key, -, hname, hkey, hnull, hheld, hprepares⟩ := attachForWrite_prepares hway
  have hready := hprepares (fun _ => False) hin
  obtain ⟨m', columns, values, x, hm', htrace, hrow, hwrites⟩ :=
    writeLinked_writesRow (Nat.lt_of_lt_of_le hin hready.entities_le) hwrite
  obtain ⟨m, hm, hsameKey, hcolumns, htable⟩ := attachForWrite_mapperOf hin hway hm'
  rw [hsameKey, htable] at hwrites
  refine ⟨a, m, t.shelf, name, columns, values, x, hfound, hname, hm, hready.shelf_prefix, ?_,
    hwrites, hrow.length_eq, fun hcolumn hother => ⟨?_, fun sent hsent =>
      ⟨⟨key, hkey, hnull, ?_⟩, fun k hknown => ?_⟩⟩⟩
  · rw [hafter.trace_eq, htrace, hsends.trace_eq]
  · exact hrow.there name key (hheld hin) (hcolumns ▸ hcolumn) (hsameKey ▸ hother)
  · exact hrow.sent name key sent (hheld hin) hsent
  · obtain ⟨_, hmapper, howns⟩ := hknown.key
    obtain ⟨own, hown, hkept⟩ := howns.keyValue hmapper
    cases hkey.symm.trans hown
    obtain ⟨held, hget, hheld⟩ := hheld hin
    exact hrow.sent name k sent ⟨held, hget, hkept.trans hheld hready.shelf_prefix⟩ hsent

/-! ## 5. Guests of a house -/

/-- A class of guests, who have a room and perhaps a house. -/
def guests : Model.Definition :=
  let name : Model.Column := { name := "name", spelling := "Text", type := .text }
  let room : Model.Column :=
    { name := "room", spelling := "Text", type := .text, absent := some (.fixed (.str "attic")) }
  let house : Model.Column := { name := "house_id", spelling := "Number", type := .integer }
  { name := "Guest", key := "Guest",
    attributes := [("__tablename__", .plain (.str "guests")), ("name", .column name),
      ("room", .column room), ("house_id", .column house)] }

/-- A class of houses: guests know the house that they stay in, but there is no column for the house
that they call at, and its keeper shares its key. -/
def houses : Model.Definition :=
  let staying : Association :=
    { kind := .hasMany, target := .str "Guest", foreignKey := .str "house_id" }
  let calling : Association :=
    { kind := .hasMany, target := .str "Guest", foreignKey := .str "caller_id" }
  let keeping : Association := { kind := .hasOne, target := .str "Guest", foreignKey := .str "id" }
  { name := "House", key := "House",
    attributes := [("__tablename__", .plain (.str "houses")), ("guests", .association staying),
      ("callers", .association calling), ("keeper", .association keeping)] }

/-- A world with a house and a guest that were found. -/
def hosting : World :=
  let row (id : Int) (more : List (String × Term)) : ReplyDraft :=
    ⟨.ok (.rows [("id", .plain (.int id)) :: more]), none⟩
  let replies := [row 1 [], row 7 [("name", .plain (.str "Ida"))]]
  ((do
    let _ ← defineShared guests
    let _ ← defineShared houses
    let _ ← findById "session" 2 (.int 1)
    findById "session" 1 (.int 7) : Action World (Option EntityRef)).runOn { replies }).2

/-- The house. -/
def house : EntityRef := ⟨0, "House"⟩

/-- The guest. -/
def guest : EntityRef := ⟨1, "Guest"⟩

/-- A world in which the next statement affects a number of rows. -/
def affecting (count : Int) (w : World) : World :=
  { w with replies := [⟨.ok (.done (.plain .null) (.plain (.int count))), none⟩] }

/-- The guest is linked to the house under a name, and the statement affects a number of rows. -/
def linking (relation : String) (count : Int) : Except Fault Unit × World :=
  (attach house (.entity guest) (.str relation)).runOn (affecting count hosting)

/-- Linking went well, and in the end it sent a statement that affected a number of rows. -/
def EndsWith (run : Except Fault Unit × World) (text : String) (count : Int) : Prop :=
  run.1 = .ok () ∧ ∃ x params insertId, run.2.trace.getLast? = some x ∧
    x.call = .statement text params ∧ x.result = .ok (.done insertId (.int count))

/-- Whether a run went well, and the last statement and its answer are as given. -/
def endsWith (run : Except Fault Unit × World) (text : String) (count : Int) : Bool :=
  match run.1, run.2.trace.getLast? with
  | .ok (), some ⟨.statement sent _, _, .ok (.done _ (.intAt n none))⟩ => sent == text && n == count
  | _, _ => false

theorem EndsWith.of_eq_true {run : Except Fault Unit × World} {text : String} {count : Int}
    (h : endsWith run text count = true) : EndsWith run text count := by
  unfold endsWith at h
  split at h
  · next hok hlast =>
    rw [Bool.and_eq_true, beq_iff_eq, beq_iff_eq] at h
    obtain ⟨rfl, rfl⟩ := h
    exact ⟨hok, _, _, _, hlast, rfl, rfl⟩
  · cases h

/-- Whether a foreign key is a column of a model, and not the key. -/
def declaresForeign : Except Fault Mapper → Except Fault Association → Bool
  | .ok m, .ok a => m.columns.names.any fun name => a.foreignKey.text? == some name && name != m.key
  | _, _ => false

theorem declaresForeign_eq_true {found : Except Fault Mapper}
    {association : Except Fault Association} (h : declaresForeign found association = true) :
    ∃ m a name, found = .ok m ∧ association = .ok a ∧ a.foreignKey.text? = some name ∧
      name ∈ m.columns.names ∧ name ≠ m.key := by
  unfold declaresForeign at h
  split at h
  · obtain ⟨name, hname, hboth⟩ := List.any_eq_true.mp h
    rw [Bool.and_eq_true, beq_iff_eq, bne_iff_ne] at hboth
    exact ⟨_, _, name, rfl, rfl, hboth.1, hname, hboth.2⟩
  · cases h

/-- The guest who is linked to the house is written with the key of the house. -/
theorem guest_is_sent_with_the_house : ∃ (w : World) (name : String) (columns : List String)
    (values : List Value) (x : Exchange),
    guest.id < (affecting 1 hosting).entities.length ∧
    (attach house (.entity guest) (.str "guests")).runOn (affecting 1 hosting) = (.ok (), w) ∧
    w.trace = (affecting 1 hosting).trace ++ [x] ∧
    columns.length = values.length ∧ name ∈ columns ∧
    ∀ sent, (name, sent) ∈ columns.zip values → SentKey house (affecting 1 hosting) sent := by
  have hends : endsWith ((attach house (.entity guest) (.str "guests")).runOn (affecting 1 hosting))
      "UPDATE \"guests\" SET \"name\" = ?, \"house_id\" = ? WHERE \"id\" = ?" 1 = true := by
    decide +kernel
  have hdeclares : declaresForeign
      ((affecting 1 hosting).registry.mapperOf ((affecting 1 hosting).entityAt guest).model.id)
      ((associationOfEntity house (.str "guests")).runOn (affecting 1 hosting)).1 = true := by
    decide +kernel
  have hin : guest.id < (affecting 1 hosting).entities.length := by decide +kernel
  generalize affecting 1 hosting = u at *
  obtain ⟨m, a, name, hm, ha, hname, hcolumn, hkey⟩ := declaresForeign_eq_true hdeclares
  rcases hrun : (attach house (.entity guest) (.str "guests")).runOn u with ⟨outcome, w⟩
  rw [hrun] at hends
  obtain ⟨rfl, -⟩ := EndsWith.of_eq_true hends
  obtain ⟨a', m', s, name', columns, values, x, ha', hname', hm', -, htrace, -, hlength, hsent⟩ :=
    attached_link_is_sent hin hrun
  cases ha.symm.trans ha'
  cases hm.symm.trans hm'
  cases hname.symm.trans hname'
  obtain ⟨hmem, hkeys⟩ := hsent hcolumn hkey
  exact ⟨w, name, columns, values, x, hin, rfl, htrace, hlength, hmem, hkeys⟩

/-- A link that goes well need not be in the database: the foreign key may be no column, it may be
the key of what is linked, and there may be no row to change any more. -/
theorem links_that_are_not_in_the_database :
    EndsWith (linking "callers" 1) "UPDATE \"guests\" SET \"name\" = ? WHERE \"id\" = ?" 1 ∧
    EndsWith (linking "keeper" 1) "UPDATE \"guests\" SET \"name\" = ? WHERE \"id\" = ?" 1 ∧
    EndsWith (linking "guests" 0)
      "UPDATE \"guests\" SET \"name\" = ?, \"house_id\" = ? WHERE \"id\" = ?" 0 :=
  ⟨.of_eq_true (by decide +kernel), .of_eq_true (by decide +kernel),
    .of_eq_true (by decide +kernel)⟩

end World
end RowMapper
