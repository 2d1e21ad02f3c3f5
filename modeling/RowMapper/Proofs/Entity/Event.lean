import RowMapper.Proofs.Entity.Lifecycle

/-!
# The events of an action

What being made of a row, being saved and being deleted do to an entity, and what they do to it when
they fail.  `Happens R action w events` says which of these events come about when an action runs in
a world, one after another; whatever the action does besides leads to a world in relation `R`.  If
that leaves the states of the entities alone, then after the action the state of every entity is
that of the latest event that concerns it (`Happens.lives`).
-/
namespace RowMapper.World

open Model (Mapper Registry)

variable {α β : Type} {ref : EntityRef} {w t w' : World}

/-! ## 1. Being made of a row -/

theorem hydrate_ok {model : Nat} {session : String} {excluded : List String} {row : Row}
    (hrun : (hydrate model session excluded row).runOn w = (.ok ref, w')) :
    ref.id = w.entities.length ∧ Lives [.hydrated ref model excluded row] w w' := by
  rw [hydrate_eq, Action.runOn_bind_ok (Action.runOn_get w)] at hrun
  obtain ⟨made, s, hadd, hrun⟩ := Action.runOn_bind_eq_ok.mp hrun
  obtain ⟨_, t, hset, hrun⟩ := Action.runOn_bind_eq_ok.mp hrun
  obtain ⟨_, t', hupdate, hrun⟩ := Action.runOn_bind_eq_ok.mp hrun
  cases hrun
  have hquiet : Quiet w t := trans_of Quiet ((addEntity_quiet rfl).of_run hadd)
    ((setEntries_quiet ref _).of_run hset)
  cases hadd
  have hin : w.entities.length < t.entities.length :=
    Nat.lt_of_lt_of_le (by simp) ((setEntries_quiet _ _).of_run hset).entities_le
  refine ⟨rfl, hquiet.lives.trans ?_⟩
  rw [← (Prod.mk.inj hupdate).2]
  exact updateEntity_lives (.hydrated ⟨w.entities.length, _⟩ model excluded row)
    (fun e => { e with state := .persistent, session := some session }) hin (fun _ => rfl) rfl
    fun _ => rfl

theorem hydrate_error {model : Nat} {session : String} {excluded : List String} {row : Row}
    {fault : Fault} (hrun : (hydrate model session excluded row).runOn w = (.error fault, w')) :
    Quiet w w' := by
  rw [hydrate_eq, Action.runOn_bind_ok (Action.runOn_get w),
    Action.runOn_bind_ok (addEntity_runOn _ w)] at hrun
  have hadded : Quiet w { w with entities := w.entities ++
      [({ model := (w.registry.classAt model).ref } : Entity)] } := addEntity_quiet rfl w
  rw [Action.runOn_bind] at hrun
  split at hrun
  · cases hrun
  · next hset =>
    cases hrun
    exact trans_of Quiet hadded ((setEntries_quiet _ _).of_run hset)

/-! ## 2. Being saved -/

/-- Inserts the row of an entity, and sets the key if the entity has none. -/
def saveRow (ref : EntityRef) : Action World Unit := do
  let _ ← sessionOf ref
  let mapper ← reading (·.mapperOf ref)
  let columns := (← get).registry.columnsOf mapper
  let data ← insertData ref mapper.key columns
  let statement ←
    Action.ofExcept (Sql.insertRow mapper.tableName (.mapping (Entries.ofNamed data)))
  let answer ← query statement
  if (← reading (·.keyValue ref)).isNull then
    setAttribute ref mapper.key (← Action.ofExcept (insertedKey answer))

theorem save_eq (ref : EntityRef) : save ref = (do
    saveRow ref
    setState ref .persistent
    reading (·.keyValue ref)) := by
  have hite {α β : Type} (c : Prop) [Decidable c] (first other : Action World α)
      (next : α → Action World β) : (if c then first else other) >>= next =
        if c then first >>= next else other >>= next := by
    split <;> rfl
  simp only [save, saveRow, bind_assoc, pure_bind, hite]

theorem saveRow_quiet (ref : EntityRef) : (saveRow ref).Obeys Quiet :=
  .bind (quiet_of_still (sessionOf_still ref)) fun _ => .bind (quiet_of_still (reading_still _))
    fun mapper => .bind .get fun _ => .bind (insertData_quiet ref mapper.key _) fun _ =>
    .bind (.ofExcept _) fun _ => .bind (quiet_of_still (query_still _)) fun _ =>
    .bind (quiet_of_still (reading_still _)) fun _ =>
    .ite (.bind (.ofExcept _) fun _ => setAttribute_quiet ref _ _) (.pure _)

/-- A key that can be read can be read as long as nothing is taken from the entity. -/
theorem keyValue_of_kept {key : Value} (hregistry : t.registry = w.registry)
    (hmodel : (t.entityAt ref).model = (w.entityAt ref).model)
    (hkept : ∀ name, Entries.get? (t.entityAt ref).attributes (.str name) = none →
      Entries.get? (w.entityAt ref).attributes (.str name) = none)
    (hkey : w.keyValue ref = .ok key) : ∃ key', t.keyValue ref = .ok key' := by
  obtain ⟨m, hm, hheld⟩ := bind_eq_ok.mp hkey
  rw [keyValue, hmodel, hregistry, hm]
  show ∃ key', t.heldAttribute ref m.key = .ok key'
  rw [heldAttribute] at hheld ⊢
  cases hget : Entries.get? (t.entityAt ref).attributes (.str m.key) with
  | some v => exact ⟨v, rfl⟩
  | none =>
    rw [hkept m.key hget] at hheld
    rw [hmodel, hregistry]
    exact ⟨key, hheld⟩

theorem keyValue_setAttribute {name : String} {value key : Value}
    (hin : ref.id < w.entities.length) (hkey : w.keyValue ref = .ok key)
    (hset : (setAttribute ref name value).runOn w = (.ok (), t)) :
    ∃ key', t.keyValue ref = .ok key' := by
  have halters := (setAttribute_alters name value).of_run hset
  refine keyValue_of_kept halters.registry_eq (halters.model_eq hin) (fun other hnone => ?_) hkey
  rw [setAttribute, Action.runOn_bind_ok (Action.runOn_get w)] at hset
  obtain ⟨-, hset⟩ := Action.runOn_guarded_eq_ok.mp hset
  cases hset
  have hget : Entries.get? (Entries.insert (w.entityAt ref).attributes (.str name)
      (Shelf.store value w.shelf).1) (.str other) = none := by
    rwa [entityAt_set hin] at hnone
  rw [Entries.get?_insert] at hget
  split at hget
  · cases hget
  · exact hget

/-- An entity whose row was inserted is bound, and its key can be read. -/
theorem saveRow_ok (hrun : (saveRow ref).runOn w = (.ok (), t)) :
    (t.entityAt ref).session.isSome ∧ ∃ key, t.keyValue ref = .ok key := by
  have hquiet := (saveRow_quiet ref).of_run hrun
  rw [saveRow] at hrun
  obtain ⟨session, _, hsession, hrun⟩ := Action.runOn_bind_eq_ok.mp hrun
  have hbound := (bound_of_sessionOf hsession).1
  refine ⟨hquiet.bound ref hbound, ?_⟩
  obtain ⟨mapper, _, hmapper, hrun⟩ := Action.runOn_bind_eq_ok.mp hrun
  obtain ⟨_, _, hget, hrun⟩ := Action.runOn_bind_eq_ok.mp hrun
  obtain ⟨data, u, hdata, hrun⟩ := Action.runOn_bind_eq_ok.mp hrun
  obtain ⟨statement, _, hstatement, hrun⟩ := Action.runOn_bind_eq_ok.mp hrun
  obtain ⟨answer, s, hquery, hrun⟩ := Action.runOn_bind_eq_ok.mp hrun
  obtain ⟨key, _, hread, hrun⟩ := Action.runOn_bind_eq_ok.mp hrun
  obtain ⟨hkey, rfl⟩ := reading_eq_ok.mp hread
  split at hrun
  · obtain ⟨inserted, _, hinserted, hset⟩ := Action.runOn_bind_eq_ok.mp hrun
    obtain ⟨-, rfl⟩ := ofExcept_eq_ok.mp hinserted
    have hin := lt_of_bound (hquiet.bound ref hbound)
    obtain ⟨e, shelf, rfl, -⟩ := (setAttribute_alters _ _).of_run hset
    exact keyValue_setAttribute (by simpa using hin) hkey hset
  · cases hrun
    exact ⟨key, hkey⟩

/-- Saving fails before the state is set, or it sets the state and answers the key. -/
theorem save_runOn (ref : EntityRef) (w : World) :
    (∃ fault, (saveRow ref).runOn w = (.error fault, ((save ref).runOn w).2) ∧
      ((save ref).runOn w).1 = .error fault) ∨
    ∃ t key, (saveRow ref).runOn w = (.ok (), t) ∧
      (save ref).runOn w = (.ok key, ((setState ref .persistent).runOn t).2) := by
  rw [save_eq, Action.runOn_bind]
  rcases hrow : (saveRow ref).runOn w with ⟨fault | _, t⟩
  · exact .inl ⟨fault, rfl, rfl⟩
  · obtain ⟨hbound, key, hkey⟩ := saveRow_ok hrow
    have hat : ((setState ref .persistent).runOn t).2.entityAt ref =
        { t.entityAt ref with state := .persistent } := by
      rw [setState, updateEntity_entityAt, if_pos ⟨rfl, lt_of_bound hbound⟩]
    obtain ⟨key', hkey'⟩ := keyValue_of_kept (t := ((setState ref .persistent).runOn t).2) (w := t)
      rfl (by rw [hat]) (fun name h => by rwa [hat] at h) hkey
    refine .inr ⟨t, key', rfl, ?_⟩
    dsimp only
    rw [Action.runOn_bind_ok (show (setState ref .persistent).runOn t =
      (.ok (), ((setState ref .persistent).runOn t).2) from rfl), runOn_reading, hkey']

theorem save_ok {key : Value} (hrun : (save ref).runOn w = (.ok key, w')) :
    Lives [.saved ref] w w' := by
  rcases save_runOn ref w with ⟨fault, -, herror⟩ | ⟨t, key, hrow, hsave⟩
  · rw [hrun] at herror
    cases herror
  · obtain ⟨hbound, -⟩ := saveRow_ok hrow
    cases hrun.symm.trans hsave
    refine ((saveRow_quiet ref).of_run hrow).lives.trans ?_
    exact updateEntity_lives (.saved ref) (fun e => { e with state := .persistent })
      (lt_of_bound hbound) (fun _ => rfl) hbound fun _ => rfl

/-- An entity that could not be saved stays as it was. -/
theorem save_error {fault : Fault} (hrun : (save ref).runOn w = (.error fault, w')) :
    Quiet w w' := by
  rcases save_runOn ref w with ⟨fault, hrow, -⟩ | ⟨t, key, -, hsave⟩
  · rw [hrun] at hrow
    exact (saveRow_quiet ref).of_run hrow
  · cases hrun.symm.trans hsave

/-! ## 3. Being deleted -/

/-- One statement was sent from one world to another, and it affected a row. -/
def Affected (w w' : World) : Prop := ∃ (x : Exchange) (insertId count : Value),
  w'.trace = w.trace ++ [x] ∧ x.result = .ok (.done insertId count) ∧ isPositive count = .ok true

/-- Deletes the row of an entity, and answers whether there was one. -/
def deleteRow (ref : EntityRef) : Action World Bool := do
  let _ ← sessionOf ref
  let mapper ← reading (·.mapperOf ref)
  let key ← reading (·.keyValue ref)
  let statement ← Action.ofExcept (Sql.deleteRow mapper.tableName key (.str mapper.key))
  Action.ofExcept (affected (← query statement))

theorem delete_eq (ref : EntityRef) : delete ref = (do
    let found ← deleteRow ref
    if found then setState ref .deleted
    return found) := by
  simp only [delete, deleteRow, bind_assoc]

theorem deleteRow_still (ref : EntityRef) : (deleteRow ref).Obeys Still :=
  .bind (sessionOf_still ref) fun _ => .bind (reading_still _) fun _ => .bind (reading_still _)
    fun _ => .bind (.ofExcept _) fun _ => .bind (query_still _) fun _ => .ofExcept _

theorem query_of_answer {f : Sql.Fragment} {x : Exchange} {answer : Answer}
    (htrace : ((query f).runOn w).2.trace = w.trace ++ [x]) (hx : x.result = .ok answer) :
    ((query f).runOn w).1 = .ok answer :=
  Engine.query_of_answer (e := w.expectantEngine) htrace hx

/-- The statement that deletes the row of an entity. -/
def deletion (w : World) (ref : EntityRef) : Except Fault Sql.Fragment := do
  if (w.entityAt ref).session.isNone then throw (.unbound ref)
  let mapper ← w.mapperOf ref
  let key ← w.keyValue ref
  Sql.deleteRow mapper.tableName key (.str mapper.key)

theorem deleteRow_runOn (ref : EntityRef) (w : World) :
    (deleteRow ref).runOn w = (Action.ofExcept (w.deletion ref) >>= fun f => do
      Action.ofExcept (affected (← query f))).runOn w := by
  rw [deleteRow, deletion, Action.runOn_bind]
  have hsession : (sessionOf ref).runOn w =
      ((w.entityAt ref).session.elim (.error (.unbound ref)) .ok, w) := by
    rw [sessionOf, Action.runOn_bind_ok (Action.runOn_get w)]
    cases (w.entityAt ref).session <;> rfl
  rw [hsession]
  cases (w.entityAt ref).session with
  | none => rfl
  | some session =>
    refine Action.runOn_read_bind (runOn_reading ..) fun mapper => ?_
    refine Action.runOn_read_bind (runOn_reading ..) fun key => ?_
    rfl

/-- Deleting goes well with a row just when the statement affected one. -/
theorem deleteRow_affected (ref : EntityRef) (w : World) :
    Affected w ((deleteRow ref).runOn w).2 ↔ ((deleteRow ref).runOn w).1 = .ok true := by
  rw [deleteRow_runOn]
  cases hdeletion : w.deletion ref with
  | error fault =>
    refine ⟨?_, nofun⟩
    rintro ⟨x, insertId, count, htrace, -⟩
    exact absurd htrace (by simp [Action.runOn_bind, Action.runOn_ofExcept])
  | ok f =>
    rw [Action.runOn_bind_ok (Action.runOn_ofExcept (.ok f) w), Action.runOn_bind]
    rcases hquery : (query f).runOn w with ⟨fault | answer, t⟩
    · refine ⟨?_, nofun⟩
      rintro ⟨x, insertId, count, htrace, hx, -⟩
      have hanswer := query_of_answer (f := f) (w := w) (by rw [hquery]; exact htrace) hx
      rw [hquery] at hanswer
      cases hanswer
    · obtain ⟨⟨sent, hsent, hresult⟩, -⟩ := query_answered hquery
      dsimp only
      rw [Action.runOn_ofExcept]
      constructor
      · rintro ⟨x, insertId, count, htrace, hx, hcount⟩
        cases List.append_cancel_left (htrace.symm.trans hsent)
        cases hx.symm.trans hresult
        exact hcount
      · intro haffected
        cases answer with
        | rows rows => cases haffected
        | done insertId count => exact ⟨sent, insertId, count, hsent, hresult, haffected⟩

theorem deleteRow_bound {found : Bool} (hrun : (deleteRow ref).runOn w = (.ok found, t)) :
    (t.entityAt ref).session.isSome := by
  have hquiet := quiet_of_still (deleteRow_still ref) |>.of_run hrun
  rw [deleteRow_runOn] at hrun
  obtain ⟨f, _, hf, -⟩ := Action.runOn_bind_eq_ok.mp hrun
  obtain ⟨hdeletion, -⟩ := ofExcept_eq_ok.mp hf
  rw [deletion] at hdeletion
  obtain ⟨hsession, -⟩ := guarded_eq_ok.mp hdeletion
  exact hquiet.bound ref (by simpa [Option.isSome_iff_ne_none] using hsession)

/-- An entity is deleted when its statement affected a row, and only then. -/
theorem delete_runOn (ref : EntityRef) (w : World) :
    ((deleteRow ref).runOn w).1 = .ok true ∧ (delete ref).runOn w =
        (.ok true, ((setState ref .deleted).runOn ((deleteRow ref).runOn w).2).2) ∨
      ((deleteRow ref).runOn w).1 ≠ .ok true ∧ (delete ref).runOn w = (deleteRow ref).runOn w := by
  rw [delete_eq, Action.runOn_bind]
  rcases hrow : (deleteRow ref).runOn w with ⟨fault | found, t⟩
  · exact .inr ⟨nofun, rfl⟩
  · cases found with
    | true => exact .inl ⟨rfl, rfl⟩
    | false => exact .inr ⟨nofun, rfl⟩

theorem delete_affected (ref : EntityRef) (w : World) :
    Affected w ((delete ref).runOn w).2 ↔ ((delete ref).runOn w).1 = .ok true := by
  have haffected := deleteRow_affected ref w
  rcases delete_runOn ref w with ⟨hok, hrun⟩ | ⟨hnot, hrun⟩ <;> rw [hrun]
  · exact ⟨fun _ => rfl, fun _ => haffected.mpr hok⟩
  · exact haffected

theorem delete_some (h : Affected w ((delete ref).runOn w).2) :
    Lives [.deleted ref] w ((delete ref).runOn w).2 := by
  rw [delete_affected] at h
  rcases delete_runOn ref w with ⟨hok, hrun⟩ | ⟨hnot, hrun⟩
  · rcases hrow : (deleteRow ref).runOn w with ⟨outcome, t⟩
    rw [hrow] at hok hrun
    cases hok
    have hbound := deleteRow_bound hrow
    rw [hrun]
    refine ((deleteRow_still ref).of_run hrow).quiet.lives.trans ?_
    exact updateEntity_lives (.deleted ref) (fun e => { e with state := .deleted })
      (lt_of_bound hbound) (fun _ => rfl) hbound fun _ => rfl
  · rw [hrun] at h
    exact absurd h hnot

/-- An entity whose row is not there to be deleted stays as it was. -/
theorem delete_none (h : ¬Affected w ((delete ref).runOn w).2) :
    Still w ((delete ref).runOn w).2 := by
  rw [delete_affected] at h
  rcases delete_runOn ref w with ⟨-, hrun⟩ | ⟨-, hrun⟩
  · rw [hrun] at h
    exact absurd rfl h
  · rw [hrun]
    exact deleteRow_still ref w

/-! ## 4. The events of an action -/

/-- The events that come about when an action runs in a world, in their order.  Without any of them
the action leads to a world in relation `R`. -/
inductive Happens (R : World → World → Prop) :
    {α : Type} → Action World α → World → List Event → Prop
  | nothing {α : Type} {action : Action World α} {w : World} (h : action.Obeys R) :
      Happens R action w []
  | hydrated {model : Nat} {session : String} {excluded : List String} {row : Row}
      {ref : EntityRef} {w t : World}
      (hrun : (hydrate model session excluded row).runOn w = (.ok ref, t)) :
      Happens R (hydrate model session excluded row) w [.hydrated ref model excluded row]
  | unhydrated {model : Nat} {session : String} {excluded : List String} {row : Row}
      {fault : Fault} {w t : World}
      (hrun : (hydrate model session excluded row).runOn w = (.error fault, t)) :
      Happens R (hydrate model session excluded row) w []
  | saved {ref : EntityRef} {key : Value} {w t : World}
      (hrun : (save ref).runOn w = (.ok key, t)) : Happens R (save ref) w [.saved ref]
  | unsaved {ref : EntityRef} {fault : Fault} {w t : World}
      (hrun : (save ref).runOn w = (.error fault, t)) : Happens R (save ref) w []
  | deleted {ref : EntityRef} {w : World} (h : Affected w ((delete ref).runOn w).2) :
      Happens R (delete ref) w [.deleted ref]
  | undeleted {ref : EntityRef} {w : World} (h : ¬Affected w ((delete ref).runOn w).2) :
      Happens R (delete ref) w []
  | stopped {α β : Type} {action : Action World α} {next : α → Action World β} {fault : Fault}
      {w t : World} {events : List Event} (hrun : action.runOn w = (.error fault, t))
      (h : Happens R action w events) : Happens R (action >>= next) w events
  | went {α β : Type} {action : Action World α} {next : α → Action World β} {a : α}
      {w t : World} {events more : List Event} (hrun : action.runOn w = (.ok a, t))
      (h : Happens R action w events) (hnext : Happens R (next a) t more) :
      Happens R (action >>= next) w (events ++ more)

variable {R R' : World → World → Prop} {action : Action World α} {events : List Event}

theorem Happens.mono (hsub : ∀ w w', R w w' → R' w w') (h : Happens R action w events) :
    Happens R' action w events := by
  induction h with
  | nothing h => exact .nothing (h.mono hsub)
  | hydrated hrun => exact .hydrated hrun
  | unhydrated hrun => exact .unhydrated hrun
  | saved hrun => exact .saved hrun
  | unsaved hrun => exact .unsaved hrun
  | deleted h => exact .deleted h
  | undeleted h => exact .undeleted h
  | stopped hrun _ ih => exact .stopped hrun ih
  | went hrun _ _ ih ihnext => exact .went hrun ih ihnext

/-- **The state of an entity is that of its latest event.**  What happens when an action runs leads
from the world before it to the world after it. -/
theorem Happens.lives (hR : ∀ w w', R w w' → Lives [] w w') (h : Happens R action w events) :
    Lives events w (action.runOn w).2 := by
  induction h with
  | nothing h => exact hR _ _ (h _)
  | hydrated hrun => exact hrun ▸ (hydrate_ok hrun).2
  | unhydrated hrun => exact hrun ▸ (hydrate_error hrun).lives
  | saved hrun => exact hrun ▸ save_ok hrun
  | unsaved hrun => exact hrun ▸ (save_error hrun).lives
  | deleted h => exact delete_some h
  | undeleted h => exact (delete_none h).quiet.lives
  | stopped hrun _ ih =>
    rw [hrun] at ih
    rw [Action.runOn_bind_error hrun]
    exact ih
  | went hrun _ _ ih ihnext =>
    rw [hrun] at ih
    rw [Action.runOn_bind_ok hrun]
    exact ih.trans ihnext

/-- An entity that is made of a row is a new one. -/
theorem Happens.made (hR : ∀ w w', R w w' → Lives [] w w') (h : Happens R action w events)
    {ref : EntityRef} {model : Nat} {excluded : List String} {row : Row}
    (hmem : .hydrated ref model excluded row ∈ events) : w.entities.length ≤ ref.id := by
  induction h with
  | hydrated hrun =>
    cases List.mem_singleton.mp hmem
    exact Nat.le_of_eq (hydrate_ok hrun).1.symm
  | stopped _ _ ih => exact ih hmem
  | went hrun hfirst _ ih ihnext =>
    rcases List.mem_append.mp hmem with hmem | hmem
    · exact ih hmem
    · have hlives := hfirst.lives hR
      rw [hrun] at hlives
      exact Nat.le_trans hlives.entities_le (ihnext hmem)
  | saved | deleted => simp at hmem
  | _ => cases hmem

end RowMapper.World
