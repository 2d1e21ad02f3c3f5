import RowMapper.Proofs.Entity.Attachment

/-!
# Links that fail

An entity is linked to an owner in memory before it is written, and nothing is taken back when the
write fails.  All that is checked is checked before, and then nothing was touched; and the owner and
every other entity stay as they were in any case.  But a target whose write failed keeps the foreign
key, a session if it had none, and the defaults that it got for the insertion
(`failed_link_leaves_all_but_the_target`, `failed_link_stays_in_memory`).
-/
namespace RowMapper.World

open Model (Association Mapper Registry)

variable {ref owner other : EntityRef} {u w t : World} {set added : String → Prop}
  {session : String} {fault : Fault}

/-! ## 1. Writes that fail -/

/-- An entity whose row could not be inserted has at most got defaults for columns under which it
held nothing. -/
theorem saveRow_failed (hadded : ∀ m, w.mapperOf ref = .ok m → ∀ name ∈ m.columns.names, added name)
    (hrun : (saveRow ref).runOn w = (.error fault, t)) : Prepares ref set added session w t := by
  have hrefl := refl_of (Prepares ref set added session) w
  rw [saveRow, Action.runOn_bind] at hrun
  rcases hsession : (sessionOf ref).runOn w with ⟨_ | known, v⟩ <;>
    obtain rfl : w = v := (sessionOf_kept ref w).symm.trans (congrArg Prod.snd hsession) <;>
    rw [hsession] at hrun
  · cases hrun
    exact hrefl
  dsimp only at hrun
  rw [Action.runOn_bind, runOn_reading] at hrun
  cases hm : w.mapperOf ref with
  | error why =>
    rw [hm] at hrun
    cases hrun
    exact hrefl
  | ok m =>
    rw [hm] at hrun
    have hnames (r : Registry) : ∀ name ∈ (r.columnsOf m).map (·.1), added name :=
      columnsOf_names r m ▸ hadded m hm
    -- the defaults are all that is set: setting the key is the last step that can fail
    have hrest : (do
        let columns := (← get).registry.columnsOf m
        let data ← insertData ref m.key columns
        let statement ←
          Action.ofExcept (Sql.insertRow m.tableName (.mapping (Entries.ofNamed data)))
        let answer ← query statement
        if (← reading (·.keyValue ref)).isNull then
          setAttribute ref m.key (← Action.ofExcept (insertedKey answer)) :
        Action World Unit).FailsIn (Prepares ref set added session) :=
      .bind .get fun v => .bind (insertData_prepares m.key (hnames v.registry)) fun _ =>
        .bind (.ofExcept _) fun f => .bind (prepares_of_still (query_still f)) fun _ =>
        .bind (prepares_of_still (reading_still _)) fun _ =>
        .ite (.bind (.ofExcept _) fun _ => setAttribute_failsIn ref m.key _) (.of_obeys (.pure _))
    exact hrest w fault t hrun

theorem save_failed (hadded : ∀ m, w.mapperOf ref = .ok m → ∀ name ∈ m.columns.names, added name)
    (hrun : (save ref).runOn w = (.error fault, t)) : Prepares ref set added session w t := by
  rcases save_runOn ref w with ⟨fault', hrow, -⟩ | ⟨_, _, -, hsave⟩
  · rw [hrun] at hrow
    exact saveRow_failed hadded hrow
  · cases hrun.symm.trans hsave

/-- What is linked is not lost where it could not be written. -/
theorem writeLinked_failed
    (hadded : ∀ m, w.mapperOf ref = .ok m → ∀ name ∈ m.columns.names, added name)
    (hrun : (writeLinked ref).runOn w = (.error fault, t)) :
    Prepares ref set added session w t := by
  rw [writeLinked, Action.runOn_bind, runOn_reading] at hrun
  cases hkey : w.keyValue ref with
  | error why =>
    rw [hkey] at hrun
    cases hrun
    exact refl_of (Prepares ref set added session) w
  | ok key =>
    rw [hkey] at hrun
    dsimp only at hrun
    split at hrun <;> rw [Action.discard_eq, Action.runOn_bind_pure] at hrun
    · rcases hsave : (save ref).runOn w with ⟨why | saved, v⟩ <;> rw [hsave] at hrun <;> cases hrun
      exact save_failed hadded hsave
    · obtain ⟨-, rfl⟩ := Prod.mk.inj hrun
      exact prepares_of_still (update_still ref) w

/-! ## 2. Links that fail -/

/-- A name is that of a column which is declared for an entity. -/
def ColumnOf (ref : EntityRef) (w : World) (name : String) : Prop :=
  ∃ m, w.registry.mapperOf (w.entityAt ref).model.id = .ok m ∧ name ∈ m.columns.names

/-- What a link whose write failed has done: it has set the foreign key of the target, and apart
from that it has made the target ready to be written in the session of the owner. -/
structure HalfLinked (owner other : EntityRef) (foreignKey : Value) (u w : World)
    (session name : String) (key : Value) : Prop where
  session_eq : (u.entityAt owner).session = some session
  name_eq : foreignKey.text? = some name
  key_eq : u.keyValue owner = .ok key
  key_ne : key.isNull = false
  holds : Holds other name key w
  readies : Readies other (· = name) (ColumnOf other u) session u w

/-- **A link that fails leaves all but the target as it was.**  If a check fails, no entity is
touched.  If the write fails, the owner and all other entities are as they were; and the target has
its state, its session if it had one, and all that was set on it under any other name than the
foreign key.  Under that it has the key of the owner, and what else is new are columns under which
it held nothing. -/
theorem failed_link_leaves_all_but_the_target {target relation : Value}
    (hrun : (attach owner target relation).runOn u = (.error fault, w)) :
    ((attachForWrite owner target relation).runOn u).1 = .error fault ∧ Unset u w ∨
    ∃ a other t, (attachForWrite owner target relation).runOn u = (.ok (a, other), t) ∧
      ((writeLinked other).runOn t).1 = .error fault ∧ target = .entity other ∧
      (other.id < u.entities.length →
        ∃ session name key, HalfLinked owner other a.foreignKey u w session name key) := by
  rw [attach_parts, Action.runOn_bind] at hrun
  rcases hway : (attachForWrite owner target relation).runOn u with ⟨why | ⟨a, other⟩, t⟩ <;>
    rw [hway] at hrun
  · cases hrun
    exact .inl ⟨rfl, attachForWrite_failsIn owner target relation u fault w hway⟩
  replace hrun : (writeLinked other >>= fun _ => holdLinked owner a relation other).runOn t =
      (.error fault, w) := hrun
  rw [Action.runOn_bind] at hrun
  rcases hwrite : (writeLinked other).runOn t with ⟨why | _, v⟩ <;> rw [hwrite] at hrun
  · cases hrun
    refine .inr ⟨a, other, t, rfl, by rw [hwrite], (attachForWrite_eq_ok hway).1, fun hin => ?_⟩
    obtain ⟨session, name, key, hsession, hname, hkey, hnull, hheld, hprepares⟩ :=
      attachForWrite_prepares hway
    have hready := hprepares (ColumnOf other u) hin
    have hfailed : Readies other (fun _ => False) (ColumnOf other u) session t w := by
      refine writeLinked_failed (fun m' hm' column hcolumn => ?_) hwrite
        (Nat.lt_of_lt_of_le hin hready.entities_le)
      obtain ⟨m, hm, -, hcolumns, -⟩ := attachForWrite_mapperOf hin hway hm'
      exact ⟨m, hm, hcolumns ▸ hcolumn⟩
    obtain ⟨held, hget, hkept⟩ := hheld hin
    have hheld : Holds other name key w :=
      ⟨held, hfailed.target.kept (.str name) held rfl (fun _ _ => id) hget,
        hkept.mono hfailed.shelf_prefix⟩
    exact ⟨session, name, key, hsession, hname, hkey, hnull, hheld,
      hready.trans (hfailed.mono (fun _ => False.elim) fun _ => id)⟩
  -- holding what was linked cannot fail
  · obtain ⟨_, hheld, -⟩ := holdLinked_runOn owner a relation other v
    cases hrun.symm.trans hheld

/-! ## 3. A newcomer -/

/-- One more guest, who is in no session. -/
def newcomer : EntityRef := ⟨2, "Guest"⟩

/-- A world in which the newcomer is made, and the next statement fails. -/
def arriving : World :=
  { ((make 1 [("name", .str "Eve")]).runOn hosting).2 with
    replies := [⟨.error (.database "disk I/O error"), none⟩] }

/-- The newcomer is linked to the house. -/
def arrival : Except Fault Unit × World :=
  (attach house (.entity newcomer) (.str "guests")).runOn arriving

/-- The session of the newcomer, and what is set on it apart from what it was made of. -/
def acquired (w : World) : Option String × Option Value × Option Value :=
  let held (name : String) := Entries.get? (w.entityAt newcomer).attributes (.str name)
  ((w.entityAt newcomer).session, (held "house_id").map w.look, (held "room").map w.look)

/-- Whether a run fails, and the newcomer has got a session, a house and a room by it. -/
def failsLinked (outcome : Except Fault Unit)
    (before after : Option String × Option Value × Option Value) : Bool :=
  match outcome, before, after with
  | .error _, (none, none, none), (some session, some (.intAt 1 none), some (.strAt room none)) =>
    session == "session" && room == "attic"
  | _, _, _ => false

theorem failsLinked_eq_true {outcome : Except Fault Unit}
    {before after : Option String × Option Value × Option Value}
    (h : failsLinked outcome before after = true) : (∃ fault, outcome = .error fault) ∧
      before = (none, none, none) ∧
      after = (some "session", some (.int 1), some (.str "attic")) := by
  unfold failsLinked at h
  split at h
  · rw [Bool.and_eq_true, beq_iff_eq, beq_iff_eq] at h
    obtain ⟨rfl, rfl⟩ := h
    exact ⟨⟨_, rfl⟩, rfl, rfl⟩
  · cases h

theorem arrival_fails_linked :
    failsLinked arrival.1 (acquired arriving) (acquired arrival.2) = true := by
  decide +kernel

/-- The newcomer could not be written, and is linked to the house all the same. -/
theorem newcomer_is_linked_all_the_same : ∃ fault w, newcomer.id < arriving.entities.length ∧
    (attach house (.entity newcomer) (.str "guests")).runOn arriving = (.error fault, w) ∧
    ∃ foreignKey session name key,
      HalfLinked house newcomer foreignKey arriving w session name key := by
  have hfails := arrival_fails_linked
  have hin : newcomer.id < arriving.entities.length := by decide +kernel
  rw [arrival] at hfails
  generalize arriving = u at *
  rcases hrun : (attach house (.entity newcomer) (.str "guests")).runOn u with ⟨outcome, w⟩
  rw [hrun] at hfails
  obtain ⟨⟨fault, rfl⟩, hbefore, hafter⟩ := failsLinked_eq_true hfails
  refine ⟨fault, w, hin, rfl, ?_⟩
  rcases failed_link_leaves_all_but_the_target hrun with
    ⟨-, hunset⟩ | ⟨a, other, t, -, -, hentity, hlinked⟩
  -- the newcomer has got a session, so that it was touched
  · have hsame : (acquired w).1 = (acquired u).1 := by
      rw [acquired, acquired, entityAt, hunset.entities_eq, entityAt]
    rw [hafter, hbefore] at hsame
    cases hsame
  · cases hentity
    exact ⟨a.foreignKey, hlinked hin⟩

/-- A link that fails stays in memory: the target has the foreign key, a session and a default that
it did not have before. -/
theorem failed_link_stays_in_memory : (∃ fault, arrival.1 = .error fault) ∧
    acquired arriving = (none, none, none) ∧
    acquired arrival.2 = (some "session", some (.int 1), some (.str "attic")) :=
  failsLinked_eq_true arrival_fails_linked

end RowMapper.World
