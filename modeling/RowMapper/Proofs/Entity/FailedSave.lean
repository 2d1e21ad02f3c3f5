import RowMapper.Proofs.Entity.Population

/-!
# Insertions that fail

The data of a new row are gathered before its statement is built, and a default that is used is set
on the entity at that point.  When the statement then cannot be built, or the database refuses it,
the state, the session and all that was set on the entity are as before; but the entity keeps the
defaults, one for each column that wanted one (`failed_insertion_leaves_defaults`).  If the key is
such a column, the entity is taken for a stored one (`ticket_keeps_the_key_of_no_row`).
-/
namespace RowMapper

open Model (Column Mapper)

/-! ## 1. Entries under new names -/

/-- A name under which there is nothing is written at the end. -/
theorem Entries.insert_of_get?_eq_none {α : Type} {entries : List (Value × α)} {name : String}
    (h : Entries.get? entries (.str name) = none) (v : α) :
    Entries.insert entries (.str name) v = entries ++ [(.str name, v)] := by
  unfold Entries.get? at h
  induction entries with
  | nil => rfl
  | cons entry rest ih =>
    have hknown := List.find?_eq_none.mp (Option.map_eq_none_iff.mp h) entry List.mem_cons_self
    rw [Entries.insert, if_neg hknown, ih (by simpa [hknown] using h), List.cons_append]

namespace World

variable {ref : EntityRef} {w t u : World} {fault : Fault} {columns : List (String × Column)}

/-! ## 2. Gathering the data -/

/-- Nothing is held under the name of a column, and the column has a default. -/
def Wanting (held : Entries) (c : String × Column) : Prop :=
  Entries.get? held (.str c.1) = none ∧ c.2.absent.isSome

/-- An entity got something under the names of the columns that wanted a default, and is the same
otherwise. -/
def Defaulted (columns : List (String × Column)) (e e' : Entity) : Prop :=
  ∃ made : Dictionary Value, e' = { e with attributes := e.attributes ++ Entries.ofNamed made } ∧
    ∀ name, name ∈ made.names ↔ ∃ c ∈ columns, c.1 = name ∧ Wanting e.attributes c

/-- The entity is the same only if no column wanted a default. -/
theorem Defaulted.eq_iff {e e' : Entity} (h : Defaulted columns e e') :
    e' = e ↔ ∀ c ∈ columns, ¬Wanting e.attributes c := by
  obtain ⟨made, rfl, hmade⟩ := h
  constructor
  · intro heq c hc hwanting
    have hnone : made = [] := by
      simpa [Entries.ofNamed] using congrArg Entity.attributes heq
    have hname := (hmade c.1).mpr ⟨c, hc, rfl, hwanting⟩
    rw [hnone] at hname
    cases hname
  · intro hnone
    have hempty : made = [] := by
      cases made with
      | nil => rfl
      | cons first rest =>
        obtain ⟨c, hc, -, hwanting⟩ := (hmade first.1).mp List.mem_cons_self
        exact absurd hwanting (hnone c hc)
    simp [hempty, Entries.ofNamed]

/-- A column that wants nothing adds nothing. -/
theorem Defaulted.cons {e e' : Entity} {c : String × Column} (h : Defaulted columns e e')
    (hc : ¬Wanting e.attributes c) : Defaulted (c :: columns) e e' := by
  obtain ⟨made, heq, hmade⟩ := h
  refine ⟨made, heq, fun name => (hmade name).trans ?_⟩
  simp [hc]

/-- A column that wants a default gets it before the others. -/
theorem Defaulted.cons_wanting {e e' : Entity} {c : String × Column} {v : Value}
    (hc : Wanting e.attributes c) (h : Defaulted columns
      { e with attributes := Entries.insert e.attributes (.str c.1) v } e') :
    Defaulted (c :: columns) e e' := by
  obtain ⟨made, heq, hmade⟩ := h
  have hwanting (other : String × Column) :
      Wanting (Entries.insert e.attributes (.str c.1) v) other ↔
        c.1 ≠ other.1 ∧ Wanting e.attributes other := by
    rw [Wanting, Wanting, Entries.get?_insert]
    by_cases hname : c.1 = other.1 <;> simp [hname]
  refine ⟨(c.1, v) :: made, ?_, fun name => ?_⟩
  · rw [heq, Entries.insert_of_get?_eq_none hc.1]
    simp [Entries.ofNamed]
  · have hnames : name ∈ Dictionary.names ((c.1, v) :: made) ↔ name = c.1 ∨ name ∈ made.names := by
      simp [Dictionary.names]
    rw [hnames, hmade]
    simp only [hwanting]
    constructor
    · rintro (rfl | ⟨other, hother, hname, -, hwants⟩)
      · exact ⟨c, List.mem_cons_self, rfl, hc⟩
      · exact ⟨other, List.mem_cons_of_mem c hother, hname, hwants⟩
    · rintro ⟨other, hother, rfl, hwants⟩
      by_cases hname : c.1 = other.1
      · exact .inl hname.symm
      · rcases List.mem_cons.mp hother with rfl | hother
        · exact absurd rfl hname
        · exact .inr ⟨other, hother, rfl, hname, hwants⟩

/-- Gathering the data of a new row sets the defaults of the columns that want one. -/
theorem insertData_defaulted {key : String} {data : Dictionary Value}
    (hin : ref.id < w.entities.length)
    (hrun : (insertData ref key columns).runOn w = (.ok data, t)) :
    Defaulted columns (w.entityAt ref) (t.entityAt ref) := by
  induction columns generalizing w data with
  | nil =>
    cases hrun
    exact ⟨[], by simp [Entries.ofNamed], by simp [Dictionary.names]⟩
  | cons c rest ih =>
    obtain ⟨name, column⟩ := c
    rw [insertData, Action.runOn_bind_ok (Action.runOn_get w)] at hrun
    split at hrun
    · next held hheld =>
      obtain ⟨others, u, hothers, hpure⟩ := Action.runOn_bind_eq_ok.mp hrun
      cases hpure
      refine (ih hin hothers).cons fun hwanting => ?_
      cases hheld.symm.trans hwanting.1
    · next absent hnone habsent =>
      obtain ⟨value, v, hvalue, hrest⟩ := Action.runOn_bind_eq_ok.mp hrun
      obtain ⟨_, u, hhold, hrest⟩ := Action.runOn_bind_eq_ok.mp hrest
      obtain ⟨others, u', hothers, hpure⟩ := Action.runOn_bind_eq_ok.mp hrest
      cases hpure
      have hadds := (defaultValue_adds absent).of_run hvalue
      have hin' : ref.id < v.entities.length := Nat.lt_of_lt_of_le hin hadds.length_le
      have hrec := ih (((holdAttribute_alters (.str name) value).of_run hhold).inside hin') hothers
      obtain ⟨placed, hentity⟩ := (holdAttribute_populated hin' hhold).entity_eq
      rw [hentity, hadds.entityAt_eq hin] at hrec
      exact .cons_wanting ⟨hnone, by rw [habsent]; rfl⟩ hrec
    · next hnone habsent =>
      refine (ih hin hrun).cons fun hwanting => ?_
      rw [Wanting, habsent] at hwanting
      cases hwanting.2

/-- Where no column wants a default, gathering the data changes nothing. -/
theorem insertData_unchanged (key : String)
    (h : ∀ c ∈ columns, ¬Wanting (w.entityAt ref).attributes c) :
    ((insertData ref key columns).runOn w).2 = w := by
  induction columns with
  | nil => rfl
  | cons c rest ih =>
    obtain ⟨name, column⟩ := c
    obtain ⟨hfirst, hrest⟩ := List.forall_mem_cons.mp h
    rw [insertData, Action.runOn_bind_ok (Action.runOn_get w)]
    split
    · rw [Action.after_bind_pure]
      exact ih hrest
    · next absent hnone habsent => exact absurd ⟨hnone, by rw [habsent]; rfl⟩ hfirst
    · exact ih hrest

/-! ## 3. Insertions that fail -/

/-- Makes the statement that inserts the data of a new row, and runs it. -/
def sendRow (m : Mapper) (data : Dictionary Value) : Action World Answer := do
  query (← Action.ofExcept (Sql.insertRow m.tableName (.mapping (Entries.ofNamed data))))

/-- Whatever keeps an entity from being inserted once its data are gathered, in the making of the
statement or in the database, `save` raises it.  The entity then has the defaults of the columns
that wanted one on top of all that it had, its state and its session among it.  So it is undisturbed
if and only if there was no such column. -/
theorem failed_insertion_leaves_defaults {m : Mapper} {data : Dictionary Value}
    (hbound : (w.entityAt ref).session.isSome) (hm : w.mapperOf ref = .ok m)
    (hdata : (insertData ref m.key (w.registry.columnsOf m)).runOn w = (.ok data, u))
    (hfails : (sendRow m data).runOn u = (.error fault, t)) :
    (save ref).runOn w = (.error fault, t) ∧
      Defaulted (w.registry.columnsOf m) (w.entityAt ref) (t.entityAt ref) ∧
      (Undisturbed ref w t ↔
        ∀ c ∈ w.registry.columnsOf m, ¬Wanting (w.entityAt ref).attributes c) := by
  have hin := lt_of_bound hbound
  have hstill : Still u t := Action.Obeys.of_run (.bind (.ofExcept _) fun f => query_still f) hfails
  have hdefaulted := insertData_defaulted hin hdata
  rw [← hstill.entityAt_eq] at hdefaulted
  refine ⟨?_, hdefaulted, fun h => hdefaulted.eq_iff.mp h.entity_eq, fun hnone => ?_⟩
  · obtain ⟨session, hsession⟩ := sessionOf_runOn hbound
    have hmapper : (reading (·.mapperOf ref)).runOn w = (.ok m, w) := by rw [runOn_reading, hm]
    rw [save, Action.runOn_bind_ok hsession, Action.runOn_bind_ok hmapper,
      Action.runOn_bind_ok (Action.runOn_get w), Action.runOn_bind_ok hdata, ← bind_assoc]
    exact Action.runOn_bind_error hfails
  · have hsame := insertData_unchanged m.key hnone
    rw [hdata] at hsame
    obtain rfl : u = w := hsame
    exact hstill.widens.undisturbed hin

/-! ## 4. Tickets -/

/-- A class of tickets, which have a code as their key.  A code is made for a ticket that has none,
and so is a severity. -/
def tickets : Model.Definition :=
  let code : Column :=
    { name := "code", spelling := "Text", type := .text, isKey := true,
      absent := some (.fresh (.plain (.str "T-1"))) }
  let title : Column := { name := "title", spelling := "Text", type := .text }
  let severity : Column :=
    { name := "severity", spelling := "Number", type := .integer, absent := some (.fixed (.int 3)) }
  { name := "Ticket", key := "Ticket",
    attributes := [("__tablename__", .plain (.str "tickets")), ("code", .column code),
      ("title", .column title), ("severity", .column severity)] }

/-- The ticket. -/
def ticket : EntityRef := ⟨0, "Ticket"⟩

/-- A world with a new ticket in a session, in which the next statement fails. -/
def ticketing : World :=
  let made := ((do
    let _ ← defineShared tickets
    let ref ← make 1 [("title", .str "Leak")]
    bindTo "session" ref : Action World Unit).runOn {}).2
  { made with replies := [⟨.error (.database "disk I/O error"), none⟩] }

/-- The ticket is saved. -/
def filing : Except Fault Value × World := (save ticket).runOn ticketing

/-- Whether the data of the row of an entity can be gathered and the insertion of the row fails. -/
def failsToInsert (ref : EntityRef) (w : World) : Bool :=
  match w.mapperOf ref with
  | .ok m =>
    match (insertData ref m.key (w.registry.columnsOf m)).runOn w with
    | (.ok data, u) =>
      match (sendRow m data).runOn u with
      | (.error _, _) => true
      | _ => false
    | _ => false
  | _ => false

theorem failsToInsert_eq_true (h : failsToInsert ref w = true) : ∃ m data u fault t,
    w.mapperOf ref = .ok m ∧
    (insertData ref m.key (w.registry.columnsOf m)).runOn w = (.ok data, u) ∧
    (sendRow m data).runOn u = (.error fault, t) := by
  unfold failsToInsert at h
  split at h
  · next m hm =>
    split at h
    · next data u hdata =>
      split at h
      · next fault t hfails => exact ⟨m, data, u, fault, t, hm, hdata, hfails⟩
      · cases h
    · cases h
  · cases h

/-- The ticket has a code and a severity after it could not be filed. -/
theorem ticket_is_left_with_defaults : ∃ (m : Mapper) (data : Dictionary Value) (u t : World)
    (fault : Fault), (ticketing.entityAt ticket).session.isSome ∧
    ticketing.mapperOf ticket = .ok m ∧
    (insertData ticket m.key (ticketing.registry.columnsOf m)).runOn ticketing = (.ok data, u) ∧
    (sendRow m data).runOn u = (.error fault, t) ∧
    (save ticket).runOn ticketing = (.error fault, t) ∧
    Defaulted (ticketing.registry.columnsOf m) (ticketing.entityAt ticket) (t.entityAt ticket) ∧
    (Undisturbed ticket ticketing t ↔ ∀ c ∈ ticketing.registry.columnsOf m,
      ¬Wanting (ticketing.entityAt ticket).attributes c) := by
  have hbound : (ticketing.entityAt ticket).session.isSome := by decide +kernel
  have hfails : failsToInsert ticket ticketing = true := by decide +kernel
  obtain ⟨m, data, u, fault, t, hm, hdata, hfails⟩ := failsToInsert_eq_true hfails
  exact ⟨m, data, u, t, fault, hbound, hm, hdata, hfails,
    failed_insertion_leaves_defaults hbound hm hdata hfails⟩

/-- The key of an entity, looked up. -/
def shownKey (ref : EntityRef) (w : World) : Except Fault Value := (w.keyValue ref).map w.look

/-- Whether a run fails, and an entity without a key has got a text as its key by it. -/
def failsWithKey (outcome : Except Fault Value) (before after : Except Fault Value) : Bool :=
  match outcome, before, after with
  | .error _, .ok .null, .ok (.strAt code none) => code == "T-1"
  | _, _, _ => false

/-- A ticket that could not be filed keeps the code that was made for it, so that it is taken for
a stored one. -/
theorem ticket_keeps_the_key_of_no_row : (∃ fault, filing.1 = .error fault) ∧
    shownKey ticket ticketing = .ok .null ∧ shownKey ticket filing.2 = .ok (.str "T-1") := by
  have hfails : failsWithKey filing.1 (shownKey ticket ticketing)
      (shownKey ticket filing.2) = true := by decide +kernel
  unfold failsWithKey at hfails
  split at hfails
  · next houtcome hbefore hafter =>
    obtain rfl := beq_iff_eq.mp hfails
    exact ⟨⟨_, houtcome⟩, hbefore, hafter⟩
  · cases hfails

end World
end RowMapper
