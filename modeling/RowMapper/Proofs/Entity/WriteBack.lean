import RowMapper.Proofs.Entity.Found
import RowMapper.Proofs.Entity.Write

/-!
# Writing back what was found

The finders that change a row read it first, make an entity of it, set on it what is to be changed,
and then write the entity to the row whose key it holds.  The key is loaded with the row for that.
As long as nothing is set under the name of the key, it is the key of the row that was found.  But a
key that is set takes its place, and then the columns of the row that was found are written over
those of another row.
-/
namespace RowMapper.World

open Model (Mapper Registry)

/-! ## 1. What is sent -/

/-- A value is sent as what came of it on a shelf; a value of a database is sent as it is, perhaps
with its number there. -/
structure SentAs (v sent : Value) : Prop where
  stored : ∃ (s : Shelf) (held : Value), s.Kept v held ∧ sent = s.expand held
  same : v.isDatum = true → sent = v ∨ ∃ number, sent = v.lyingAt number

theorem sentAs_of_kept {s : Shelf} {v held : Value} (h : s.Kept v held) :
    SentAs v (s.expand held) :=
  ⟨⟨s, held, h, rfl⟩, Shelf.expand_kept h⟩

/-- A row of a model was read, and then a row was changed: the row with the key of the first one
that was read, or with the key that the entries give. -/
inductive WroteBack (w : World) (model : Nat) (entries : Entries) : List Exchange → Prop
  | mk {mapper : Mapper} {read write : Exchange} {row : Row} {rest : List Row} {table : String}
      {columns : List String} {values : List Value} {key : Value}
      (hmapper : w.mapper model = .ok mapper) (hread : Asked .selection read.call)
      (found : read.result = .ok (.rows (row :: rest)))
      (hwrite : write.call =
        .statement (Sql.changeText table columns mapper.key) (values ++ [key]))
      (own : Entries.lastGiven mapper.key entries = none →
        ∀ k, (Dictionary.ofList row).get? mapper.key = some k → SentAs k key)
      (given : ∀ k, Entries.lastGiven mapper.key entries = some k → SentAs k key) :
      WroteBack w model entries [read, write]

/-- From one world to another rows are only read, or one is read and then written back. -/
def WritesBack (w : World) (model : Nat) (entries : Entries) (w' : World) : Prop :=
  Leads [.selection] w w' ∨ ∃ sent, w'.trace = w.trace ++ sent ∧ WroteBack w model entries sent

/-! ## 2. From the row to the write -/

variable {w t u : World} {model : Nat} {mapper : Mapper} {ref : EntityRef}

/-- A mapping that lies on the shelf is found there later. -/
theorem look_mapping {data : Value} {entries : Entries} {place : Option Nat}
    (h : w.look data = .mappingAt entries place) (hshelf : w.shelf <+: t.shelf) :
    t.look data = .mappingAt entries place := by
  cases data with
  | shared number =>
    obtain ⟨more, hmore⟩ := hshelf
    have hnumber : w.shelf[number]? = some (.mappingAt entries place) := by
      simp only [look, Shelf.look, Shelf.valueAt] at h
      cases hlies : w.shelf[number]? <;> rw [hlies] at h <;> cases h
      rfl
    have hlater : t.shelf[number]? = some (.mappingAt entries place) := by
      rw [← hmore, List.getElem?_append_left (List.getElem?_eq_some_iff.mp hnumber).1, hnumber]
    simp [look, Shelf.look, Shelf.valueAt, hlater]
  | _ => exact h

/-- The mapper that a row is read with has the key by which an entity of the model is written. -/
theorem key_eq {m : Mapper} (hw : w.Sound) (hregistry : u.registry = w.registry)
    (hmodel : (u.entityAt ref).model = (w.registry.classAt model).ref)
    (hmapper : w.mapper model = .ok mapper)
    (hm : u.registry.mapperOf (u.entityAt ref).model.id = .ok m) : m.key = mapper.key := by
  obtain ⟨m', hm', hmapper⟩ := bind_eq_ok.mp hmapper
  cases hmapper
  rcases Nat.lt_or_ge model w.registry.classes.length with hlt | hout
  · rw [hmodel, hregistry, hw.numbered model hlt, hm'] at hm
    cases hm
    rfl
  · rw [Registry.mapperOf, Registry.classAt, List.getElem?_eq_none hout] at hm'
    cases hm'

/-- What is held under the name of the key is sent as the key. -/
theorem sentAs_key {m : Mapper} {v key : Value}
    (hm : u.registry.mapperOf (u.entityAt ref).model.id = .ok m) (h : Holds ref m.key v u)
    (hkey : u.keyValue ref = .ok key) : SentAs v (u.expand key) := by
  obtain ⟨held, hheld, hkept⟩ := h.keyValue hm
  cases hkey.symm.trans hheld
  exact sentAs_of_kept hkept

/-- Changing the row of an entity sends one change at most, with the key of the entity. -/
theorem update_changed (ref : EntityRef) (hu : u.Sound) :
    ((update ref).runOn u).2.trace = u.trace ∨
    ∃ (x : Exchange) (m : Mapper) (key : Value) (table : String) (columns : List String)
      (values : List Value), ((update ref).runOn u).2.trace = u.trace ++ [x] ∧
      u.mapperOf ref = .ok m ∧ Sql.safeName m.tableName = .ok table ∧ u.keyValue ref = .ok key ∧
      x.call = .statement (Sql.changeText table columns m.key) (values ++ [u.expand key]) := by
  rcases update_wrote ref hu with hnone | ⟨x, hx, hwrite⟩
  · exact .inl hnone
  refine .inr ⟨x, ?_⟩
  obtain ⟨call, seen, result⟩ := x
  cases hwrite with
  | change hmapper hkey key_ne htable safe columns_ne hlength =>
    exact ⟨_, _, _, _, _, hx, hmapper, htable, hkey, rfl⟩
  | removal hmapper hkey key_ne htable safe =>
    -- what `update` asks is a change
    have hasked := Leads.asked (update_sends ref u) hx
    generalize hcall : Call.statement _ _ = call at hasked
    cases hasked with
    | change look h =>
      obtain ⟨_, _, _, _, -, -, -, -, -, -, rfl⟩ := Sql.updateRow_eq_ok h
      exact absurd (Call.statement.inj hcall).1.symm (Sql.changeText_ne_removalText _ _ _ _ _)

/-- What is found is set and written back. -/
theorem writesBack_of_found {α : Type} {excluded : List String} {data : Value}
    {entries : Entries} {place : Option Nat} (hw : w.Sound) (hled : Leads [.selection] w t)
    (hdata : w.look data = .mappingAt entries place) (hmapper : w.mapper model = .ok mapper)
    (hkey : mapper.key ∉ excluded) (hfound : Found model excluded ref w t) (a : α) :
    WritesBack w model entries
      ((do
        setProperties ref data
        let _ ← update ref
        return a : Action World α).runOn t).2 := by
  have hset_led : Leads [] t ((setProperties ref data).runOn t).2 := setProperties_sends ref data t
  rw [Action.runOn_bind]
  rcases hset : (setProperties ref data).runOn t with ⟨fault | _, u⟩ <;> rw [hset] at hset_led
  · exact .inl (trans_of (Leads [.selection]) hled (hset_led.mono (by simp)))
  have hled_u := trans_of (Leads [.selection]) hled (hset_led.mono (by simp))
  show WritesBack w model entries ((update ref >>= fun _ => (pure a : Action World α)).runOn u).2
  rw [Action.after_bind_pure]
  rcases update_changed ref (hled_u.sound hw) with
    hnone | ⟨write, m, key, table, columns, values, htrace, hm, -, hkeyValue, hwrite⟩
  · refine .inl ⟨?_, fun h => (update_sends ref u).sound (hled_u.sound h)⟩
    rw [hnone]
    exact hled_u.calls
  obtain ⟨read, row, rest, hread_trace, hread, hmade⟩ := hfound.asked
  rw [setProperties, Action.runOn_bind_ok (Action.runOn_get t),
    look_mapping hdata hfound.shelf_prefix] at hset
  have halters := (setEntries_alters ref entries).of_run hset
  obtain ⟨m', hm', hm_eq⟩ := bind_eq_ok.mp hm
  cases hm_eq
  have hm_key : m'.key = mapper.key :=
    key_eq hw (halters.registry_eq.trans hfound.registry_eq)
      ((halters.model_eq hmade.inside).trans hmade.model_eq) hmapper hm'
  refine .inr ⟨[read, write], ?_, .mk hmapper (hled.asked hread_trace) hread (hm_key ▸ hwrite) ?_ ?_⟩
  · rw [htrace, hset_led.trace_eq, hread_trace, List.append_assoc]
    rfl
  · intro hnone k hk
    refine sentAs_key hm' (hm_key ▸ ?_) hkeyValue
    exact setEntries_holds hset hmade.inside (.inr ⟨hnone, hmade.holds _ k hkey hk⟩)
  · intro k hk
    exact sentAs_key hm' (hm_key ▸ setEntries_holds hset hmade.inside (.inl hk)) hkeyValue

/-! ## 3. The finders that change a row -/

theorem findOneAndUpdate_writesBack (hw : w.Sound) {session : String} {o : FindOptions}
    {data : Value} {entries : Entries} {place : Option Nat}
    (hdata : w.look data = .mappingAt entries place) :
    WritesBack w model entries ((findOneAndUpdate session model o data).runOn w).2 := by
  have hled := findStrictly_sends session model o w
  rw [findOneAndUpdate, Action.runOn_bind]
  rcases hfind : (findStrictly session model o).runOn w with ⟨fault | ref, t⟩ <;> rw [hfind] at hled
  · exact .inl hled
  · obtain ⟨mapper, hmapper, hfound⟩ := findStrictly_found hfind
    exact writesBack_of_found hw hled hdata hmapper (by simp) hfound ref

theorem findByIdAndUpdate_writesBack (hw : w.Sound) {session : String} {key data : Value}
    {entries : Entries} {place : Option Nat} (hdata : w.look data = .mappingAt entries place) :
    WritesBack w model entries ((findByIdAndUpdate session model key data).runOn w).2 := by
  have hled := findById_sends session model key w
  rw [findByIdAndUpdate, Action.runOn_bind]
  rcases hfind : (findById session model key).runOn w with ⟨fault | found, t⟩ <;> rw [hfind] at hled
  · exact .inl hled
  · cases found with
    | none => exact .inl hled
    | some ref =>
      obtain ⟨mapper, hmapper, hfound⟩ := findById_found hfind
      exact writesBack_of_found hw hled hdata hmapper (by simp) hfound (some ref)

/-- **Which row is written back.**  A finder that changes a row sends nothing but the selection and
one change, of the row with the key of the first row that was selected, unless what is set has the
name of the key: then it changes the row with the key that is set. -/
theorem found_row_is_written_under_its_last_key (hw : w.Sound) {data : Value} {entries : Entries}
    {place : Option Nat} (hdata : w.look data = .mappingAt entries place) (session : String)
    (model : Nat) :
    (∀ o, WritesBack w model entries ((findOneAndUpdate session model o data).runOn w).2) ∧
    ∀ key, WritesBack w model entries ((findByIdAndUpdate session model key data).runOn w).2 :=
  ⟨fun _ => findOneAndUpdate_writesBack hw hdata, fun _ => findByIdAndUpdate_writesBack hw hdata⟩

/-- A class of users. -/
def users : Model.Definition :=
  let name : Model.Column := { name := "name", spelling := "Text", type := .text }
  { name := "User", key := "User",
    attributes := [("__tablename__", .plain (.str "users")), ("name", .column name)] }

/-- A world of users, in which one row of theirs can be read and then changed. -/
def oneUser : World :=
  let found : ReplyDraft :=
    ⟨.ok (.rows [[("id", .plain (.int 1)), ("name", .plain (.str "Ann"))]]), none⟩
  let changed : ReplyDraft := ⟨.ok (.done (.plain .null) (.plain (.int 1))), none⟩
  { ((defineShared users).runOn {}).2 with replies := [found, changed] }

theorem oneUser_sound : oneUser.Sound := by
  have hled : Leads [] {} ((defineShared users).runOn {}).2 := defineShared_sends users {}
  have hsound := hled.sound ⟨by simp [Shelf.Solid], Registry.initial_numbered⟩
  exact ⟨hsound.solid, hsound.numbered⟩

/-- The row with the key 1 is changed, with what it holds. -/
theorem user_1_is_changed :
    let data : Value := .mapping [(.str "name", .str "Bob")]
    let after := ((findByIdAndUpdate "session" 1 (.int 1) data).runOn oneUser).2
    oneUser.Sound ∧ after.trace.length = 2 ∧
      WritesBack oneUser 1 [(.str "name", .str "Bob")] after :=
  ⟨oneUser_sound, by decide +kernel,
    (found_row_is_written_under_its_last_key oneUser_sound rfl "session" 1).2 (.int 1)⟩

/-- A row with the key 1 is read, and the change that follows gives the key 2. -/
theorem key_2_is_sent_after_row_1 :
    (match ((findByIdAndUpdate "session" 1 (.int 1)
        (.mapping [(.str "id", .int 2)])).runOn oneUser).2.trace with
      | [⟨_, _, .ok (.rows [[("id", .intAt 1 none), ("name", .strAt "Ann" none)]])⟩,
          ⟨.statement text [.strAt "Ann" (some 1), .intAt 2 none], _, _⟩] =>
        text == "UPDATE \"users\" SET \"name\" = ? WHERE \"id\" = ?"
      | _ => false) = true := by
  decide +kernel

/-- The row with the key 1 is found, and its name is written to the row with the key 2. -/
theorem user_2_is_changed_for_user_1 :
    let data : Value := .mapping [(.str "id", .int 2)]
    let after := ((findByIdAndUpdate "session" 1 (.int 1) data).runOn oneUser).2
    ∃ read write, after.trace = [read, write] ∧
      read.result = .ok (.rows [[("id", .int 1), ("name", .str "Ann")]]) ∧
      write.call = .statement "UPDATE \"users\" SET \"name\" = ? WHERE \"id\" = ?"
        [.strAt "Ann" (some 1), .int 2] := by
  intro data after
  have hsent := key_2_is_sent_after_row_1
  split at hsent
  · next htrace =>
    rw [beq_iff_eq] at hsent
    exact ⟨_, _, htrace, rfl, by rw [hsent]⟩
  · cases hsent

end RowMapper.World
