import RowMapper.Proofs.Entity.Insertion
import RowMapper.Proofs.Entity.Lookup
import RowMapper.Proofs.Where.Equality
import RowMapper.Proofs.World.Scalar

/-!
# Finding again what was made

The filter by which a row is looked for is read a second time when the row is made: its equalities
become the properties of the new entity.  If nothing stands in their way, they come back in the
values of the insertion (`Supplies.matchingRow`), so the row that is made is one that the filter
finds (`created_row_is_found_again`).  In their way would be a default of the same name, a property
that takes the name, or a null for the key.
-/
namespace RowMapper

open Model (Mapper Registry)
open Where (Equalities Matches Pins pins_cons)

/-! ## 1. The properties of a new entity -/

namespace Entries

/-- Entries whose keys are texts can be given by name. -/
theorem named?_of_texts {entries : Entries} (h : ∀ p ∈ entries, ∃ name, p.1.text? = some name) :
    ∃ d, entries.named? = some d ∧
      ∀ name v, (name, v) ∈ d ↔ ∃ key, (key, v) ∈ entries ∧ key.text? = some name := by
  induction entries with
  | nil => exact ⟨[], rfl, by simp⟩
  | cons entry rest ih =>
    obtain ⟨key, value⟩ := entry
    obtain ⟨⟨name, hname⟩, hrest⟩ := List.forall_mem_cons.mp h
    obtain ⟨d, hd, hmem⟩ := ih hrest
    refine ⟨(name, value) :: d, by rw [named?, hname, hd]; rfl, fun other v => ?_⟩
    rw [List.mem_cons, hmem]
    constructor
    · rintro (heq | ⟨known, hknown, htext⟩)
      · cases heq
        exact ⟨key, List.mem_cons_self, hname⟩
      · exact ⟨known, List.mem_cons_of_mem _ hknown, htext⟩
    · rintro ⟨known, hknown, htext⟩
      rcases List.mem_cons.mp hknown with heq | hknown
      · cases heq
        cases hname.symm.trans htext
        exact .inl rfl
      · exact .inr ⟨known, hknown, htext⟩

theorem mem_of_lastGiven {d : Dictionary Value} {name : String} {v : Value}
    (h : lastGiven name (ofNamed d) = some v) : (name, v) ∈ d := by
  induction d with
  | nil => cases h
  | cons entry rest ih =>
    obtain ⟨known, value⟩ := entry
    rw [ofNamed, List.map_cons, lastGiven, Option.or_eq_some_iff] at h
    rcases h with h | ⟨-, h⟩
    · exact List.mem_cons_of_mem _ (ih h)
    · split at h
      · next hknown =>
        cases h
        cases hknown
        exact List.mem_cons_self
      · cases h

theorem lastGiven_ne_none {d : Dictionary Value} {name : String} {u : Value} (h : (name, u) ∈ d) :
    lastGiven name (ofNamed d) ≠ none := by
  induction d with
  | nil => cases h
  | cons entry rest ih =>
    obtain ⟨known, value⟩ := entry
    rw [ofNamed, List.map_cons, lastGiven, Ne, Option.or_eq_none_iff, not_and_or]
    rcases List.mem_cons.mp h with heq | hrest
    · cases heq
      exact .inr (by simp [Value.text?])
    · exact .inl (ih hrest)

theorem update_append (entries writes more : Entries) :
    update (update entries writes) more = update entries (writes ++ more) :=
  (List.foldl_append ..).symm

/-- What is written under texts can be given by name: each name is a text that was written under,
and what is given for it last was written under that text. -/
theorem named?_update {s : Shelf} {writes : Entries}
    (hkey : ∀ p ∈ writes, s.Recalls p.1 ∧ ∃ name, p.1.text? = some name) :
    ∃ d : Dictionary Value, (update [] writes).named? = some d ∧
      (∀ name ∈ d.names, ∃ p ∈ writes, p.1.text? = some name) ∧
      ∀ p ∈ writes, ∀ name, p.1.text? = some name →
        ∃ q ∈ writes, q.1.text? = some name ∧ lastGiven name (ofNamed d) = some q.2 := by
  have hold : ∀ p ∈ update [] writes, ∃ u, (p.1, u) ∈ writes := fun p hp => (mem_update hp).1
  have htexts : ∀ p ∈ update [] writes, ∃ name, p.1.text? = some name := by
    intro p hp
    obtain ⟨u, hu⟩ := hold p hp
    exact (hkey _ hu).2
  obtain ⟨d, hnamed, hmem⟩ := named?_of_texts htexts
  refine ⟨d, hnamed, fun name hname => ?_, fun p hp name hname => ?_⟩
  · obtain ⟨⟨_, v⟩, hentry, rfl⟩ := List.mem_map.mp hname
    obtain ⟨known, hknown, htext⟩ := (hmem _ v).mp hentry
    obtain ⟨u, hu⟩ := hold _ hknown
    exact ⟨_, hu, htext⟩
  · -- something is there, under a key that is the same text
    obtain ⟨known, u, hknown, htakes⟩ := (exists_mem_update [] writes).2 p hp
    obtain ⟨u', hu'⟩ := hold _ hknown
    have htext := (hkey _ hu').1.text?_eq (hkey p hp).1 htakes hname
    obtain ⟨last, hlast⟩ := Option.ne_none_iff_exists'.mp
      (lastGiven_ne_none ((hmem name u).mpr ⟨known, hknown, htext⟩))
    -- and its value was written under a key that is the same text
    obtain ⟨found, hfound, hfoundText⟩ := (hmem name last).mp (mem_of_lastGiven hlast)
    obtain ⟨written, hwritten, htakes'⟩ := (mem_update hfound).2.resolve_left nofun
    obtain ⟨hrecalls, other, hother⟩ := hkey _ hwritten
    obtain ⟨u'', hu''⟩ := hold _ hfound
    have hsame := (hkey _ hu'').1.text?_eq hrecalls htakes' hother
    cases hfoundText.symm.trans hsame
    exact ⟨_, hwritten, hother, hlast⟩

end Entries

namespace World

variable {w t u : World} {session : String} {model : Nat} {m : Mapper} {ref : EntityRef}
  {filter : Dictionary Value} {defaults : Value}

/-- A scalar that is pinned to a column, which can be set on an entity; null is no key. -/
structure Pinnable (w : World) (model : Nat) (m : Mapper) (key v : Value) : Prop where
  named : ∃ name ∈ m.columns.names, key.text? = some name ∧ Open w.registry model name ∧
    (name = m.key → v.isNull = false)
  recalls : w.shelf.Recalls key
  scalar : w.shelf.Scalar v

/-- A key of defaults: a name that can be set, and that no pinned column has. -/
structure Unpinned (w : World) (model : Nat) (filter : Entries) (key : Value) : Prop where
  named : ∃ name, key.text? = some name ∧ Open w.registry model name ∧
    ∀ column v, Pins filter column v → column.text? ≠ some name
  recalls : w.shelf.Recalls key

theorem defaultEntries_congr (h : t.shelf = w.shelf) (defaults : Value) :
    defaultEntries t defaults = defaultEntries w defaults := by
  rw [defaultEntries, defaultEntries, look, look, expand, expand, h]

/-- The properties of a new entity: all can be set, and each pinned column has one of its values. -/
theorem newProperties_of_pins {given : Entries}
    (hpins : ∀ key v, Pins (Entries.ofNamed filter) key v → Pinnable w model m key v)
    (hgiven : defaultEntries w defaults = .ok given)
    (hunpinned : ∀ entry ∈ given, Unpinned w model (Entries.ofNamed filter) entry.1) :
    ∃ properties, newProperties w (asking filter) defaults = .ok properties ∧
      (∀ name ∈ properties.names, Open w.registry model name) ∧
      ∀ key v name, Pins (Entries.ofNamed filter) key v → key.text? = some name →
        ∃ source u, Pins (Entries.ofNamed filter) source u ∧ source.text? = some name ∧
          Entries.lastGiven name (Entries.ofNamed properties) = some u := by
  obtain ⟨writes, hwrites, hmem⟩ := Where.writes_pinEntries (Entries.ofNamed filter)
  have hall : Entries.update (pinEntries (Entries.ofNamed filter) []) given =
      Entries.update [] (writes ++ given) := by rw [hwrites, Entries.update_append]
  have hkey : ∀ p ∈ writes ++ given, w.shelf.Recalls p.1 ∧ ∃ name, p.1.text? = some name ∧
      Open w.registry model name := by
    intro p hp
    rcases List.mem_append.mp hp with hp | hp
    · have hpinnable := hpins _ _ ((hmem p.1 p.2).mp hp)
      obtain ⟨name, -, hname, hopen, -⟩ := hpinnable.named
      exact ⟨hpinnable.recalls, name, hname, hopen⟩
    · obtain ⟨⟨name, hname, hopen, -⟩, hrecalls⟩ := hunpinned p hp
      exact ⟨hrecalls, name, hname, hopen⟩
  obtain ⟨properties, hnamed, hnames, hlast⟩ := Entries.named?_update fun p hp => by
    obtain ⟨hrecalls, name, hname, -⟩ := hkey p hp
    exact ⟨hrecalls, name, hname⟩
  refine ⟨properties, ?_, fun name hname => ?_, fun key v name hpinned hname => ?_⟩
  · rw [newProperties, hgiven]
    show Except.bind (.ok given) _ = _
    dsimp only [Except.bind, asking]
    rw [hall, hnamed]
  · obtain ⟨p, hp, htext⟩ := hnames name hname
    obtain ⟨-, other, hother, hopen⟩ := hkey p hp
    cases htext.symm.trans hother
    exact hopen
  · obtain ⟨⟨source, u⟩, hsource, htext, hgives⟩ :=
      hlast (key, v) (List.mem_append_left _ ((hmem key v).mpr hpinned)) name hname
    -- no default was written under the name of a column that is pinned
    rcases List.mem_append.mp hsource with hsource | hsource
    · exact ⟨source, u, (hmem _ _).mp hsource, htext, hgives⟩
    · obtain ⟨⟨other, hother, -, hnot⟩, -⟩ := hunpinned _ hsource
      cases htext.symm.trans hother
      exact absurd hname (hnot key v hpinned)

/-! ## 2. Finding or creating -/

/-- A row of a model that matches: some columns of the table, and a value for each. -/
structure MatchingRow (m : Mapper) (matching : Sql.RowValues → Prop) (columns : List String)
    (values : List Value) : Prop where
  columns_sublist : columns.Sublist m.columns.names
  length_eq : values.length = columns.length
  holds : ∀ row : Sql.RowValues, (∀ entry ∈ columns.zip values, row entry.1 = entry.2.unplaced) →
    matching row

/-- What finding or creating comes to after it found nothing: one matching row is inserted, and if
the database did so, then the entity is answered as made.  If the statements or the records of the
lowest level are reported, what is to be reported may be impossible to print; then the operation
fails. -/
inductive CreatesMatching (w : World) (m : Mapper) (table : String)
    (matching : Sql.RowValues → Prop) (run : Except Fault (EntityRef × Bool) × World) :
    List Exchange → Prop
  | inserted {columns : List String} {values : List Value} {y : Exchange}
      (hrow : MatchingRow m matching columns values)
      (hcall : y.call = .statement (Sql.insertionText table columns) values)
      (hdone : ∀ insertId count, y.result = .ok (.done insertId count) → ∃ ref,
        run.1 = .ok (ref, true) ∨ w.engine.debugging = true ∧
          ∃ why, run.2.literal (.entity ref) = .error why ∧ run.1 = .error (.ofUnprintable why)) :
      CreatesMatching w m table matching run [y]
  | unsaid {columns : List String} {values : List Value} {why : Unprintable}
      (hrow : MatchingRow m matching columns values) (hlog : w.engine.logStatements = true)
      (hliteral : run.2.literal (.list values) = .error why)
      (houtcome : run.1 = .error (.ofUnprintable why)) : CreatesMatching w m table matching run []

/-- The values that are sent for the data of an insertion. -/
def sentValues (w : World) (data : Dictionary Value) : List Value :=
  (data.map (·.2)).map w.expand

/-- The data of an entity that has the pinned values make a row that matches. -/
theorem Supplies.matchingRow {db : Sql.Comparing} {data properties : Dictionary Value}
    (h : Supplies m (fun name v => Entries.lastGiven name (Entries.ofNamed properties) = some v)
      data u) (hequalities : Equalities (Entries.ofNamed filter))
    (hpins : ∀ key v, Pins (Entries.ofNamed filter) key v → Pinnable w model m key v)
    (hproperties : ∀ key v name, Pins (Entries.ofNamed filter) key v → key.text? = some name →
      ∃ source x, Pins (Entries.ofNamed filter) source x ∧ source.text? = some name ∧
        Entries.lastGiven name (Entries.ofNamed properties) = some x)
    (hshelf : w.shelf <+: u.shelf) (hdb : db.Transitive)
    (hrow : ∃ row, Matches db (.mapping (Entries.ofNamed filter)) row) :
    MatchingRow m (Matches db (.mapping (Entries.ofNamed filter))) data.names
      (u.sentValues data) := by
  refine ⟨h.columns, by simp [sentValues, Dictionary.names], fun row hsent => ?_⟩
  obtain ⟨_, hrow⟩ := hrow
  refine hequalities.matches_of_kept hdb hrow fun key v hpinned => ?_
  obtain ⟨name, hcolumn, hname, -⟩ := (hpins key v hpinned).named
  obtain ⟨source, x, hsource, hsame, hlast⟩ := hproperties key v name hpinned hname
  have hpinnable := hpins source x hsource
  obtain ⟨name', -, hname', -, hnull⟩ := hpinnable.named
  cases hsame.symm.trans hname'
  have htext {key : Value} (h : key.text? = some name) : Sql.nameText key = name := by
    cases key <;> cases h
    rfl
  refine ⟨source, x, hsource, (htext hsame).trans (htext hname).symm, ?_⟩
  obtain ⟨held, hheld⟩ : ∃ held, (name, held) ∈ data := by
    obtain ⟨⟨_, held⟩, hheld, rfl⟩ := List.mem_map.mp (h.there name x hlast hcolumn hnull)
    exact ⟨held, hheld⟩
  have hzip : (name, u.expand held) ∈ data.names.zip (u.sentValues data) := by
    rw [sentValues, List.map_map, Dictionary.names, List.zip_map']
    exact List.mem_map.mpr ⟨_, hheld, rfl⟩
  rw [htext hname, hsent _ hzip]
  exact (hpinnable.scalar.mono hshelf).expand_kept (h.kept _ x held hlast hheld)

/-- What finding or creating does after it found nothing. -/
def creating (session : String) (model : Nat) (o : FindOptions) (defaults : Value) :
    Action World (EntityRef × Bool) := do
  let properties ← reading (newProperties · o defaults)
  let ref ← create session model properties
  debug "mappify.query" fun w => (w.literal (.entity ref)).map ("find_or_create created " ++ ·)
  return (ref, true)

/-- The end of finding or creating: a statement, what follows an insertion, and a record of it. -/
def recordingInsertion (ref : EntityRef) (key : String) (f : Sql.Fragment) :
    Action World (EntityRef × Bool) :=
  query f >>= fun answer => afterInsertion ref key answer >>= fun _ =>
    (debug "mappify.query" fun w =>
      (w.literal (.entity ref)).map ("find_or_create created " ++ ·)) >>= fun _ =>
    pure (ref, true)

theorem recordingInsertion_sent {key : String} {f : Sql.Fragment} {y : Exchange}
    (hsent : ((query f).runOn u).2.trace = u.trace ++ [y]) :
    ((recordingInsertion ref key f).runOn u).2.trace = u.trace ++ [y] := by
  have hrest (answer : Answer) : Sends [] (afterInsertion ref key answer >>= fun _ =>
      (debug "mappify.query" fun w =>
        (w.literal (.entity ref)).map ("find_or_create created " ++ ·)) >>= fun _ =>
      (pure (ref, true) : Action World (EntityRef × Bool))) :=
    .bind (afterInsertion_sends ref key answer) fun _ => .bind (debug_sends _ _) fun _ => .pure _
  rw [recordingInsertion, Action.runOn_bind]
  rcases hquery : (query f).runOn u with ⟨fault | answer, t⟩ <;> rw [hquery] at hsent
  · exact hsent
  · exact ((hrest answer t).trace_eq).trans hsent

/-- After the insertion was done the entity is answered as made, or it has to be printed and cannot
be. -/
theorem recordingInsertion_done {table : String} {known : Mapper} {given : String → Value → Prop}
    {bound : Option String} (hm : Insertable u model known table)
    (h : Ready bound model given ref u) (hreports : w.engine.SameReports u.engine)
    {f : Sql.Fragment} {insertId count : Value}
    (hquery : (query f).runOn u = (.ok (.done insertId count), t)) :
    ((recordingInsertion ref known.key f).runOn u).1 = .ok (ref, true) ∨
      w.engine.debugging = true ∧ ∃ why,
        ((recordingInsertion ref known.key f).runOn u).2.literal (.entity ref) = .error why ∧
        ((recordingInsertion ref known.key f).runOn u).1 = .error (.ofUnprintable why) := by
  have hstill := (query_still f).of_run hquery
  have hqueryReports := query_reports f u
  rw [hquery] at hqueryReports
  obtain ⟨m', hm', -, hkey⟩ := hm.later hstill.registry_eq hstill.shelf_prefix
  obtain ⟨key, hafter⟩ := afterInsertion_ok hm' (h.still hstill) insertId count
  have halters := afterInsertion_alters ref m'.key (.done insertId count) t
  rw [hkey] at hafter halters
  rw [recordingInsertion, Action.runOn_bind_ok hquery, Action.runOn_bind_ok (Prod.ext hafter rfl)]
  rcases debug_ends "mappify.query" (fun w => (w.literal (.entity ref)).map
    ("find_or_create created " ++ ·)) _ with ⟨t, hdebug⟩ | ⟨why, hmessage, hdebugging, hdebug⟩
  · rw [Action.runOn_bind_ok hdebug]
    exact .inl rfl
  · rw [Action.runOn_bind_error hdebug]
    refine .inr ⟨?_, why, ?_, rfl⟩
    · rw [← hreports.debugging_eq, ← hqueryReports.debugging_eq, ← halters.aside.engine_eq]
      exact hdebugging
    · exact map_eq_error.mp hmessage

theorem recordingInsertion_creates {table : String} {matching : Sql.RowValues → Prop}
    {data : Dictionary Value} {known : Mapper} {given : String → Value → Prop}
    {bound : Option String} (hm : Insertable u model known table)
    (h : Ready bound model given ref u) (hreports : w.engine.SameReports u.engine)
    (hrow : MatchingRow m matching data.names (u.sentValues data)) :
    ∃ rest, ((recordingInsertion ref known.key
        ⟨Sql.insertionText table data.names, data.map (·.2)⟩).runOn u).2.trace = u.trace ++ rest ∧
      CreatesMatching w m table matching
        ((recordingInsertion ref known.key
          ⟨Sql.insertionText table data.names, data.map (·.2)⟩).runOn u) rest := by
  let f : Sql.Fragment := ⟨Sql.insertionText table data.names, data.map (·.2)⟩
  rcases query_sent f u with hnone | ⟨y, hsent, hcall⟩
  · obtain ⟨hlog, why, hprint, hquery⟩ := query_unsent hnone
    have hrun : (recordingInsertion ref known.key f).runOn u =
        (.error (.ofUnprintable why), ((query f).runOn u).2) := by
      rw [recordingInsertion, Action.runOn_bind_error hquery]
    refine ⟨[], ?_, ?_⟩
    · rw [hrun, List.append_nil]
      exact hnone
    · rw [hrun]
      exact .unsaid hrow (hreports.logStatements_eq ▸ hlog) ((query_literal f u _).trans hprint) rfl
  · refine ⟨[y], recordingInsertion_sent hsent, .inserted hrow hcall fun insertId count hdone =>
      ⟨ref, ?_⟩⟩
    have hquery : (query f).runOn u = (.ok (.done insertId count), ((query f).runOn u).2) :=
      Prod.ext (query_of_answer hsent hdone) rfl
    exact recordingInsertion_done hm h hreports hquery

/-- The selection of a filter of scalars is sent. -/
theorem firstRow_sent {table : String} {fragment : Sql.Fragment}
    (h : ∀ v ∈ fragment.params, w.shelf.Scalar v) :
    ∃ x : Exchange, ((query (firstRow table fragment)).runOn w).2.trace = w.trace ++ [x] ∧
      x.call = .statement (firstRow table fragment).text
        ((firstRow table fragment).params.map w.expand) := by
  have hparams : ∀ v ∈ (firstRow table fragment).params, w.shelf.Scalar v := by
    intro v hv
    refine h v ?_
    have hv : v ∈ (Sql.wherePart (some fragment)).params := hv
    rw [Sql.wherePart] at hv
    split at hv
    · cases hv
    · exact hv
  obtain ⟨text, htext⟩ := Shelf.literal_scalars hparams w
  exact query_of_printed htext

/-- What equalities bind are scalars, if they are pinned to columns. -/
theorem scalar_params {fragment : Sql.Fragment} (hequalities : Equalities (Entries.ofNamed filter))
    (hpins : ∀ key v, Pins (Entries.ofNamed filter) key v → Pinnable w model m key v)
    (hcompile : Where.compile (.mapping (Entries.ofNamed filter)) = .ok fragment) :
    ∀ v ∈ fragment.params, w.shelf.Scalar v := by
  intro v hv
  rw [← Where.leaves_eq_params hcompile] at hv
  obtain ⟨key, hpinned⟩ := hequalities.pins_of_mem_leaves v hv
  exact (hpins key v hpinned).scalar

section FindOrCreate

variable {table : String} {db : Sql.Comparing}

/-- Where nothing was found, a matching row is made. -/
theorem creating_creates {writes : Entries} (hm : Insertable w model m table)
    (hmodel : (w.registry.classAt model).ref.id = model)
    (hequalities : Equalities (Entries.ofNamed filter))
    (hpins : ∀ key v, Pins (Entries.ofNamed filter) key v → Pinnable w model m key v)
    (hwrites : defaultEntries w defaults = .ok writes)
    (hunpinned : ∀ entry ∈ writes, Unpinned w model (Entries.ofNamed filter) entry.1)
    (hdb : db.Transitive) (hrow : ∃ row, Matches db (.mapping (Entries.ofNamed filter)) row)
    (hstill : Still w t) (hshelf : t.shelf = w.shelf) (hreports : w.engine.SameReports t.engine) :
    ∃ rest,
      ((creating session model (asking filter) defaults).runOn t).2.trace = t.trace ++ rest ∧
      CreatesMatching w m table (Matches db (.mapping (Entries.ofNamed filter)))
        ((creating session model (asking filter) defaults).runOn t) rest := by
  obtain ⟨properties, hnew, hopen, hproperties⟩ := newProperties_of_pins hpins hwrites hunpinned
  have hread : (reading (newProperties · (asking filter) defaults)).runOn t =
      (.ok properties, t) := by
    rw [runOn_reading, newProperties, defaultEntries_congr hshelf]
    exact congrArg (·, t) hnew
  obtain ⟨m', hm', hcolumns, hkey⟩ := hm.later hstill.registry_eq hstill.shelf_prefix
  rw [← hstill.registry_eq] at hmodel hopen
  obtain ⟨ref, data, u, haside, hready, hdata, hcreate⟩ := create_ready hm' hmodel hopen session
  obtain ⟨m'', hm'', -, hkey'⟩ := hm'.later haside.registry_eq haside.shelf_prefix
  have hsupplies : Supplies m (fun name v =>
      Entries.lastGiven name (Entries.ofNamed properties) = some v) data u :=
    ⟨hcolumns ▸ hdata.columns, hdata.kept, hcolumns ▸ hkey ▸ hdata.there⟩
  have hmatching := hsupplies.matchingRow hequalities hpins hproperties
    (hstill.shelf_prefix.trans haside.shelf_prefix) hdb hrow
  have hrun : (creating session model (asking filter) defaults).runOn t =
      (recordingInsertion ref m''.key
        ⟨Sql.insertionText table data.names, data.map (·.2)⟩).runOn u := by
    rw [creating, Action.runOn_bind_ok hread, Action.runOn_bind, hcreate, ← Action.runOn_bind,
      hkey', recordingInsertion]
    simp only [bind_assoc, pure_bind]
  have htrace : u.trace = t.trace := congrArg (·.connection.trace) haside.engine_eq
  rw [hrun, ← htrace]
  exact recordingInsertion_creates hm'' hready (haside.engine_eq ▸ hreports) hmatching

end FindOrCreate

/-! ## 3. Animals that are found again -/

/-- A world of animals, in which none is found at first and one can be inserted. -/
def kennel : World :=
  let inserted : ReplyDraft := ⟨.ok (.done (.plain (.int 8)) (.plain (.int 1))), none⟩
  { ((defineShared animals).runOn {}).2 with replies := [⟨.ok (.rows []), none⟩, inserted] }

theorem kennel_sound : kennel.Sound := by
  have hled : Leads [] {} ((defineShared animals).runOn {}).2 := defineShared_sends animals {}
  have hsound := hled.sound ⟨by simp [Shelf.Solid], Model.Registry.initial_numbered⟩
  exact ⟨hsound.solid, hsound.numbered⟩

/-- A name, and a shelter in a group. -/
def rex : Dictionary Value := [
  ("name", .str "Rex"),
  ("and", .list [.mapping [(.str "shelter_id", .mapping [(.str "eq", .int 3)])]])]

theorem rex_equalities : Equalities (Entries.ofNamed rex) :=
  .plain rfl rfl <| .group rfl rfl
    (fun inner place hitem => by
      cases List.mem_singleton.mp hitem
      exact .operand rfl rfl .nil) .nil

/-- Texts and numbers equal themselves, in whatever column. -/
def plainly : Sql.Comparing
  | _, _, .strAt a _, .strAt b _ => a == b
  | _, _, .intAt a _, .intAt b _ => a == b
  | _, _, _, _ => false

theorem plainly_eq_true {column : String} {comparison : Where.Comparison} {kept v : Value}
    (h : plainly column comparison kept v = true) :
    (∃ text p q, kept = .strAt text p ∧ v = .strAt text q) ∨
      ∃ n p q, kept = .intAt n p ∧ v = .intAt n q := by
  unfold plainly at h
  split at h
  · cases beq_iff_eq.mp h
    exact .inl ⟨_, _, _, rfl, rfl⟩
  · cases beq_iff_eq.mp h
    exact .inr ⟨_, _, _, rfl, rfl⟩
  · cases h

theorem plainly_transitive : plainly.Transitive := by
  intro column kept a b ha hb
  rcases plainly_eq_true ha with ⟨text, p, q, rfl, rfl⟩ | ⟨n, p, q, rfl, rfl⟩ <;>
    rcases plainly_eq_true hb with ⟨text', p', q', hkept, rfl⟩ | ⟨n', p', q', hkept, rfl⟩ <;>
    cases hkept <;> exact beq_self_eq_true _

/-- What the filter pins: a name and a shelter. -/
theorem pins_rex {key v : Value} (h : Pins (Entries.ofNamed rex) key v) :
    key = .str "name" ∧ v = .str "Rex" ∨ key = .str "shelter_id" ∧ v = .int 3 := by
  have hgroup {key v : Value}
      (h : Pins [(.str "shelter_id", .mapping [(.str "eq", .int 3)])] key v) :
      key = .str "shelter_id" ∧ v = .int 3 := by
    cases h with
    | plain hmem _ hv =>
      cases List.mem_singleton.mp hmem
      cases hv
    | operand hmem _ heq =>
      cases List.mem_singleton.mp hmem
      cases heq
      exact ⟨rfl, rfl⟩
    | conjunct hmem hrole =>
      cases List.mem_singleton.mp hmem
      cases hrole
  rcases pins_cons.mp h with h | h
  · cases h with
    | plain hmem =>
      cases List.mem_singleton.mp hmem
      exact .inl ⟨rfl, rfl⟩
    | operand hmem => cases List.mem_singleton.mp hmem
    | conjunct hmem hrole =>
      cases List.mem_singleton.mp hmem
      cases hrole
  · refine .inr ?_
    cases h with
    | plain hmem hrole =>
      cases List.mem_singleton.mp hmem
      cases hrole
    | operand hmem => cases List.mem_singleton.mp hmem
    | conjunct hmem _ hitems hitem hinner =>
      cases List.mem_singleton.mp hmem
      cases hitems
      cases List.mem_singleton.mp hitem
      exact hgroup hinner

theorem rex_matches : ∃ row, Matches plainly (.mapping (Entries.ofNamed rex)) row := by
  let row : Sql.RowValues := fun column => if column == "name" then .str "Rex" else .int 3
  refine ⟨row, Where.matches_mapping.mpr ⟨⟨_, rfl⟩, rex_equalities.holds fun key v hpins => ?_⟩⟩
  rcases pins_rex hpins with ⟨rfl, rfl⟩ | ⟨rfl, rfl⟩
  · exact (Where.hasValue_of_not_null rfl).mpr ⟨rfl, by decide⟩
  · exact (Where.hasValue_of_not_null rfl).mpr ⟨rfl, by decide⟩

/-- Whether animals can be inserted: the columns and the key are those of animals, the table can be
named, the key is a column, and nothing stands for a column that is not set. -/
def storesAnimals (w : World) : Bool :=
  match w.mapper 1, w.registry.attribute? 1 "id" with
  | .ok m, some (.column _) =>
    m.key == "id" && m.columns.names == ["id", "name", "shelter_id"] &&
      (Sql.safeName m.tableName).toOption == some "animals" &&
      (w.registry.columnsOf m).all (·.2.absent.isNone)
  | _, _ => false

theorem insertable_of_storesAnimals (h : storesAnimals w = true) : ∃ m,
    Insertable w 1 m "animals" ∧ m.key = "id" ∧ m.columns.names = ["id", "name", "shelter_id"] := by
  unfold storesAnimals at h
  split at h
  · next m index hm hattribute =>
    simp only [Bool.and_eq_true, beq_iff_eq, List.all_eq_true, Option.isNone_iff_eq_none] at h
    obtain ⟨⟨⟨hkey, hcolumns⟩, htable⟩, habsent⟩ := h
    refine ⟨m, ⟨hm, ⟨?_, ?_⟩, ?_, ?_, ⟨index, hkey ▸ hattribute⟩, ?_⟩, hkey, hcolumns⟩
    · rw [hcolumns]
      decide
    · rw [hcolumns, hkey]
      decide
    · cases hsafe : Sql.safeName m.tableName <;> rw [hsafe] at htable <;> cases htable
      rfl
    · rw [hcolumns]
      decide
    · intro entry hentry absent hsome
      cases (habsent entry hentry).symm.trans hsome
  · cases h

/-- Whether a class has a property of a name. -/
def hasProperty (r : Registry) (model : Nat) (name : String) : Bool :=
  match r.attribute? model name with
  | some (.property _) => true
  | _ => false

theorem open_of_not_hasProperty {r : Registry} {name : String}
    (h : hasProperty r model name = false) : Open r model name := by
  intro p hp
  rw [hasProperty, hp] at h
  cases h

theorem rex_pinnable (hcolumns : m.columns.names = ["id", "name", "shelter_id"])
    (hkey : m.key = "id")
    (hopen : ∀ name ∈ ["name", "shelter_id"], hasProperty w.registry 1 name = false) (key v : Value)
    (h : Pins (Entries.ofNamed rex) key v) : Pinnable w 1 m key v := by
  have hpinnable {name : String} (hname : name ∈ ["name", "shelter_id"]) (hv : v.isDatum = true) :
      Pinnable w 1 m (.str name) v := by
    have hcolumn : name ∈ m.columns.names := hcolumns ▸ List.mem_cons_of_mem _ hname
    have hnot : name ≠ m.key := by
      rw [hkey]
      rintro rfl
      revert hname
      decide
    exact ⟨⟨name, hcolumn, rfl, open_of_not_hasProperty (hopen name hname), fun h => absurd h hnot⟩,
      Shelf.recalls_of_place rfl, Shelf.scalar_of_datum hv⟩
  rcases pins_rex h with ⟨rfl, rfl⟩ | ⟨rfl, rfl⟩
  · exact hpinnable (by decide) rfl
  · exact hpinnable (by decide) rfl

/-- Whether an outcome is that there is no such attribute, after a selection that was answered with
no rows. -/
def refusesAttribute {α : Type} : Except Fault α → List Exchange → List Exchange → Bool
  | .error .noAttribute, [], [⟨_, _, .ok (.rows [])⟩] => true
  | _, _, _ => false

theorem refusesAttribute_sends {α : Type} {outcome : Except Fault α} {before sent : List Exchange}
    (h : refusesAttribute outcome before (before ++ sent) = true) : outcome = .error .noAttribute ∧
      ∃ x : Exchange, sent = [x] ∧ x.result = .ok (.rows []) := by
  unfold refusesAttribute at h
  split at h
  · next hsent => exact ⟨rfl, _, hsent, rfl⟩
  · cases h

end World
end RowMapper
