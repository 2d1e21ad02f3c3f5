import RowMapper.Proofs.Entity.Fresh
import RowMapper.Proofs.Entity.Linking
import RowMapper.Proofs.Entity.Rewrite

/-!
# Writing a part of a row

An entity that was made of a part of a row is written with that part and with what was assigned to
it, and with nothing else: a column that was not loaded and not assigned keeps what the database has
(`only_what_is_known_is_written`).  The finders leave columns out in two ways, by asking for some
columns only and by excluding some of those that were answered; for the write it comes to the same,
since `kept` is what of a row reaches the entity.
-/
namespace RowMapper.World

open Model (Mapper)

variable {w t u w' : World} {ref : EntityRef} {mapper m : Mapper} {row : Row} {entries : Entries}
  {session : String} {model : Nat} {o : FindOptions} {excluded : List String}

/-! ## 1. The columns that are set -/

/-- What is written has the columns but the key that are known, in their order. -/
theorem names_written (m : Mapper) (known : String → Option Value) : (written m known).names =
    m.columns.names.filter fun name => (known name).isSome && name != m.key := by
  have hnames : (written m known).names =
      (Dictionary.names (Dictionary.pick m.columns.names known)).filter (· != m.key) :=
    (List.filter_map (p := (· != m.key))).symm
  rw [hnames, Dictionary.names_pick, List.filter_filter]
  exact List.filter_congr fun name _ => Bool.and_comm _ _

/-- A call changes the row with a key: it sets just those columns but the key that were assigned or
that the row has, in the order of the declaration and each of them once, to what was assigned or
else to what the row has. -/
inductive SetsKnown (mapper : Mapper) (entries : Entries) (row : Row) : Call → Prop
  | mk {table : String} {columns : List String} {values : List Value} {key : Value}
      (htable : Sql.safeName mapper.tableName = .ok table)
      (hcolumns : columns = mapper.columns.names.filter fun name =>
        (known entries row name).isSome && name != mapper.key)
      (columns_ne : columns ≠ [])
      (once : columns.Nodup)
      (hvalues : List.Forall₂ (fun name sent => ∃ v, known entries row name = some v ∧
        SentAs v sent) columns values)
      (hkey : ∀ k, known entries row mapper.key = some k → SentAs k key) :
      SetsKnown mapper entries row
        (.statement (Sql.changeText table columns mapper.key) (values ++ [key]))

theorem Rewrites.setsKnown {call : Call} (h : Rewrites mapper entries row call)
    (hm : mapper.Keyed) : SetsKnown mapper entries row call := by
  obtain ⟨htable, hwell, hvalues, hkey⟩ := h
  have hnames := names_written mapper (known entries row)
  refine .mk htable hnames (hwell.changes _ _ _ rfl) ?_ ?_ hkey
  · rw [hnames]
    exact hm.nodup.filter _
  · rw [List.forall₂_map_left_iff] at hvalues
    rw [Dictionary.names, List.forall₂_map_left_iff]
    have hknown : ∀ entry ∈ written mapper (known entries row),
        known entries row entry.1 = some entry.2 :=
      fun entry hentry => Dictionary.mem_pick (List.mem_filter.mp hentry).1
    exact ((List.forall₂_and_left _ _).mpr ⟨hknown, hvalues⟩).imp
      fun entry sent hsent => ⟨entry.2, hsent⟩

/-! ## 2. What of a row reaches the entity -/

theorem get?_kept (excluded : List String) (row : Row) (name : String) :
    (Dictionary.ofList (kept excluded row)).get? name =
      if name ∈ excluded then none else (Dictionary.ofList row).get? name := by
  have hnodup : (kept excluded row).names.Nodup :=
    (Dictionary.nodup_names_ofList row).sublist (List.filter_sublist.map _)
  rw [Dictionary.ofList_of_nodup hnodup]
  exact Dictionary.get?_without _ excluded name

/-- An entity is left as it is, and so are the classes. -/
structure Leaves (ref : EntityRef) (w w' : World) : Prop where
  entities_le : w.entities.length ≤ w'.entities.length
  entity_eq : w'.entityAt ref = w.entityAt ref
  registry_eq : w'.registry = w.registry
  shelf_prefix : w.shelf <+: w'.shelf

theorem Adds.leaves (h : Adds w w') (hin : ref.id < w.entities.length) : Leaves ref w w' where
  entities_le := h.length_le
  entity_eq := h.entityAt_eq hin
  registry_eq := h.registry_eq
  shelf_prefix := h.shelf_prefix

theorem Brought.keyed (h : Brought model mapper row ref w t) (hw : w.registry.WellKeyed) :
    mapper.Keyed := by
  obtain ⟨known, hknown, hmapper⟩ := bind_eq_ok.mp h.mapper_eq
  cases hmapper
  exact ⟨(hw.keyed hknown).nodup, (hw.keyed hknown).key_mem⟩

theorem Brought.leaves (h : Brought model mapper row ref w t) (hleaves : Leaves ref t u) :
    Brought model mapper row ref w u where
  mapper_eq := h.mapper_eq
  named := h.named
  inside := Nat.lt_of_lt_of_le h.inside hleaves.entities_le
  model_eq := by rw [hleaves.entity_eq, h.model_eq]
  carries := h.carries.mono (by rw [hleaves.entity_eq]) hleaves.shelf_prefix
  registry_eq := hleaves.registry_eq.trans h.registry_eq
  shelf_prefix := h.shelf_prefix.trans hleaves.shelf_prefix

/-- Of rows entities are made that carry them, but for the columns left out. -/
theorem hydrateAll_brought {rows : List Row} {refs : List EntityRef}
    (hm : w.mapper model = .ok mapper) (hnamed : ∃ table, Sql.safeName mapper.tableName = .ok table)
    (hregistry : t.registry = w.registry) (hshelf : w.shelf <+: t.shelf)
    (h : (rows.mapM (hydrate model session excluded)).runOn t = (.ok refs, u)) :
    List.Forall₂ (fun row ref => Brought model mapper (kept excluded row) ref w u) rows refs := by
  induction rows generalizing t refs with
  | nil =>
    cases h
    exact .nil
  | cons row rest ih =>
    rw [List.mapM_cons] at h
    obtain ⟨ref, t', hfirst, h⟩ := Action.runOn_bind_eq_ok.mp h
    obtain ⟨others, u', hothers, h⟩ := Action.runOn_bind_eq_ok.mp h
    cases h
    have hadds : Adds t t' := (hydrate_adds model session excluded row).of_run hfirst
    have hlater : Adds t' u :=
      (Action.Obeys.mapM (hydrate_adds model session excluded)).of_run hothers
    have hmade := hydrate_hydrated hfirst
    have hbrought : Brought model mapper (kept excluded row) ref w t' :=
      ⟨hm, hnamed, hmade.inside, hregistry ▸ hmade.model_eq,
        (hydrate_carries hfirst).congr fun name => (get?_kept excluded row name).symm,
        hadds.registry_eq.trans hregistry, hshelf.trans hadds.shelf_prefix⟩
    exact .cons (hbrought.leaves (hlater.leaves hmade.inside))
      (ih hbrought.registry_eq hbrought.shelf_prefix hothers)

/-- From one world to another one selection was sent, and it was answered with rows. -/
def Reads (rows : List Row) (w t : World) : Prop :=
  ∃ read : Exchange, t.trace = w.trace ++ [read] ∧ Asked .selection read.call ∧
    read.result = .ok (.rows rows)

theorem select_brought {limit offset : Option Int} {f : Sql.Fragment} {refs : List EntityRef}
    (hm : w.mapper model = .ok mapper) (hf : selection mapper o limit offset = .ok f)
    (h : (select session model excluded f).runOn w = (.ok refs, t)) : ∃ rows, Reads rows w t ∧
      List.Forall₂ (fun row ref => Brought model mapper (kept excluded row) ref w t) rows refs := by
  obtain ⟨answer, u, hquery, h⟩ := Action.runOn_bind_eq_ok.mp h
  obtain ⟨read, htrace, hcall, hread⟩ := query_exchanged hquery
  have hstill : Still w u := (query_still f).of_run hquery
  obtain ⟨rows, _, hrows, h⟩ := Action.runOn_bind_eq_ok.mp h
  obtain ⟨hrows, rfl⟩ := ofExcept_eq_ok.mp hrows
  cases answer <;> cases hrows
  have hmade := hydrateAll_brought hm (selection_table hf) hstill.registry_eq hstill.shelf_prefix h
  have hadds : Adds u t := (Action.Obeys.mapM (hydrate_adds model session excluded)).of_run h
  exact ⟨rows, ⟨read, hadds.trace_eq.trans htrace, hcall ▸ selection_asked hf w.expand, hread⟩,
    hmade⟩

theorem findOne_brought (h : (findOne session model o).runOn w = (.ok (some ref), t)) :
    ∃ mapper row rest, Reads (row :: rest) w t ∧
      Brought model mapper (kept o.exclude row) ref w t := by
  obtain ⟨mapper, f, others, hm, hf, hselect⟩ := findOne_selects h
  obtain ⟨_, hreads, hmade⟩ := select_brought hm hf hselect
  cases hmade with
  | cons hfirst hothers => exact ⟨mapper, _, _, hreads, hfirst⟩

theorem findAll_brought {refs : List EntityRef}
    (h : (findAll session model o).runOn w = (.ok refs, t)) :
    ∃ mapper rows, w.mapper model = .ok mapper ∧ Reads rows w t ∧
      List.Forall₂ (fun row ref => Brought model mapper (kept o.exclude row) ref w t) rows refs := by
  obtain ⟨mapper, _, hread, h⟩ := Action.runOn_bind_eq_ok.mp h
  obtain ⟨hm, rfl⟩ := reading_eq_ok.mp hread
  obtain ⟨f, _, hread, h⟩ := Action.runOn_bind_eq_ok.mp h
  obtain ⟨hf, rfl⟩ := ofExcept_eq_ok.mp hread
  obtain ⟨rows, hreads, hmade⟩ := select_brought hm hf h
  exact ⟨mapper, rows, hm, hreads, hmade⟩

/-! ## 3. What is written -/

/-- Whatever is assigned to an entity, at once or later, changing its row sends nothing, and then
there is no answer, or it sends one change of just what is in a row or was assigned. -/
def WritesKnown (mapper : Mapper) (row : Row) (ref : EntityRef) (t : World) : Prop :=
  ∀ t' u data entries place, Leaves ref t t' → t'.look data = .mappingAt entries place →
    (setProperties ref data).runOn t' = (.ok (), u) →
    (((update ref).runOn u).2.trace = u.trace ∧ ∀ found, ((update ref).runOn u).1 ≠ .ok found) ∨
    ∃ write, ((update ref).runOn u).2.trace = u.trace ++ [write] ∧
      SetsKnown mapper entries row write.call

theorem Brought.writesKnown (h : Brought model mapper row ref w t) (hw : w.Sound)
    (hkeyed : w.registry.WellKeyed) : WritesKnown mapper row ref t := by
  intro t' u data entries place hleaves hdata hset
  rw [setProperties_look hdata List.prefix_rfl] at hset
  exact ((h.leaves hleaves).rewrites hw hset).imp_right
    fun ⟨write, htrace, hrewrites⟩ => ⟨write, htrace, hrewrites.setsKnown (h.keyed hkeyed)⟩

/-- Changing the one row that options ask for sends nothing but selections, and then it does not go
well, or it reads rows and changes the first of them, which was loaded with its key. -/
theorem findOneAndUpdate_setsKnown {data : Value} {place : Option Nat}
    {outcome : Except Fault EntityRef} (hw : w.Sound) (hkeyed : w.registry.WellKeyed)
    (hdata : w.look data = .mappingAt entries place)
    (hrun : (findOneAndUpdate session model o data).runOn w = (outcome, w')) :
    (Leads [.selection] w w' ∧ ∀ ref, outcome ≠ .ok ref) ∨
    ∃ mapper row rest t write, w.mapper model = .ok mapper ∧ Reads (row :: rest) w t ∧
      w'.trace = t.trace ++ [write] ∧
      SetsKnown mapper entries (kept (o.exclude.filter (· ≠ mapper.key)) row) write.call := by
  have hled := findStrictly_sends session model o w
  rw [findOneAndUpdate, Action.runOn_bind] at hrun
  rcases hfind : (findStrictly session model o).runOn w with ⟨fault | ref, t⟩ <;>
    rw [hfind] at hled hrun
  · cases hrun
    exact .inl ⟨hled, by simp⟩
  obtain ⟨mapper, hm, hone⟩ := findStrictly_finds hfind
  obtain ⟨_, row, rest, hreads, hbrought⟩ := findOne_brought hone
  cases hm.symm.trans hbrought.mapper_eq
  dsimp only at hrun
  rw [Action.runOn_bind, setProperties_look hdata hbrought.shelf_prefix] at hrun
  have hset_led : Leads [] t ((setEntries ref entries).runOn t).2 := setEntries_sends ref entries t
  rcases hset : (setEntries ref entries).runOn t with ⟨fault | _, u⟩ <;> rw [hset] at hset_led hrun
  · cases hrun
    exact .inl ⟨trans_of (Leads [.selection]) hled (hset_led.mono (by simp)), by simp⟩
  dsimp only at hrun
  rw [Action.runOn_bind_pure] at hrun
  obtain ⟨rfl, rfl⟩ := Prod.mk.inj hrun
  rcases hbrought.rewrites hw hset with ⟨hnone, hfailed⟩ | ⟨write, hwrite, hrewrites⟩
  · refine .inl ⟨⟨?_, fun hsound =>
      (update_sends ref u).sound (hset_led.sound (hled.sound hsound))⟩, fun answer hanswer => ?_⟩
    · rw [hnone, hset_led.trace_eq]
      exact hled.calls
    · cases hchanged : ((update ref).runOn u).1 with
      | error fault =>
        rw [hchanged] at hanswer
        cases hanswer
      | ok found => exact hfailed found hchanged
  · refine .inr ⟨mapper, row, rest, t, write, hm, hreads, ?_,
      hrewrites.setsKnown (hbrought.keyed hkeyed)⟩
    rw [hwrite, hset_led.trace_eq]

/-- **What was neither loaded nor assigned is not written.**  Changing the one row that options ask
for, or changing the entity that one finder answers, or any of those that the other answers, after
any properties were assigned, sends at most one change.  It sets just the columns but the key that
were in the row and were not excluded, or that were assigned, in their order and each of them once:
to what was assigned, or else to what was in the row.  Where there is no such column none is sent,
and no answer is given without the change. -/
theorem only_what_is_known_is_written {left : List (Nat × Nat)} (hw : w.Sound)
    (h : Reached left w) (session : String) (model : Nat) (o : FindOptions) :
    (∀ data entries place outcome w', w.look data = .mappingAt entries place →
      (findOneAndUpdate session model o data).runOn w = (outcome, w') →
      (Leads [.selection] w w' ∧ ∀ ref, outcome ≠ .ok ref) ∨
      ∃ mapper row rest t write, w.mapper model = .ok mapper ∧ Reads (row :: rest) w t ∧
        w'.trace = t.trace ++ [write] ∧
        SetsKnown mapper entries (kept (o.exclude.filter (· ≠ mapper.key)) row) write.call) ∧
    (∀ ref t, (findOne session model o).runOn w = (.ok (some ref), t) →
      ∃ mapper row rest, w.mapper model = .ok mapper ∧ Reads (row :: rest) w t ∧
        WritesKnown mapper (kept o.exclude row) ref t) ∧
    ∀ refs t, (findAll session model o).runOn w = (.ok refs, t) →
      ∃ mapper rows, w.mapper model = .ok mapper ∧ Reads rows w t ∧
        List.Forall₂ (fun row ref => WritesKnown mapper (kept o.exclude row) ref t) rows refs := by
  have hkeyed := h.wellKeyed
  refine ⟨fun data entries place outcome w' hdata hrun =>
    findOneAndUpdate_setsKnown hw hkeyed hdata hrun, fun ref t hrun => ?_, fun refs t hrun => ?_⟩
  · obtain ⟨mapper, row, rest, hreads, hbrought⟩ := findOne_brought hrun
    exact ⟨mapper, row, rest, hbrought.mapper_eq, hreads, hbrought.writesKnown hw hkeyed⟩
  · obtain ⟨mapper, rows, hm, hreads, hmade⟩ := findAll_brought hrun
    exact ⟨mapper, rows, hm, hreads,
      hmade.imp fun row ref hbrought => hbrought.writesKnown hw hkeyed⟩

/-- Options that ask for the animal and leave its name out. -/
def withoutName : FindOptions := { filter := [("name", .str "Rex")], exclude := ["name"] }

/-- The animal is moved to another shelter. -/
def moving : Except Fault EntityRef × World :=
  (findOneAndUpdate "session" 1 withoutName (.mapping [(.str "shelter_id", .int 2)])).runOn housing

/-- Whether a run went well, and the last statement that it sent. -/
def wentWellWith (run : Except Fault EntityRef × World) (text : String) : Bool :=
  match run.1, run.2.trace.getLast? with
  | .ok _, some ⟨.statement sent _, _, _⟩ => sent == text
  | _, _ => false

theorem moving_went_well : wentWellWith moving
    "UPDATE \"animals\" SET \"shelter_id\" = ? WHERE \"id\" = ?" = true := by
  decide +kernel

/-- The animal whose name was left out is moved, and keeps its name. -/
theorem animal_is_moved_without_its_name : housing.Sound ∧ Reached [] housing ∧
    ∃ mapper row write params, moving.2.trace.getLast? = some write ∧ write.call =
      .statement "UPDATE \"animals\" SET \"shelter_id\" = ? WHERE \"id\" = ?" params ∧
    SetsKnown mapper [(.str "shelter_id", .int 2)]
      (kept (withoutName.exclude.filter (· ≠ mapper.key)) row) write.call := by
  have hwell := moving_went_well
  have hsound := housing_sound
  have hreached := housing_reached
  rw [moving] at *
  generalize housing = u at *
  refine ⟨hsound, hreached, ?_⟩
  rcases hrun : (findOneAndUpdate "session" 1 withoutName
    (.mapping [(.str "shelter_id", .int 2)])).runOn u with ⟨outcome, w⟩
  rw [hrun] at hwell
  have hwritten := (only_what_is_known_is_written hsound hreached "session" 1 withoutName).1
    (.mapping [(.str "shelter_id", .int 2)]) _ none outcome w rfl hrun
  unfold wentWellWith at hwell
  split at hwell
  · next ref text params _ _ hok hlast =>
    obtain ⟨-, hfailed⟩ | ⟨mapper, row, rest, t, write, -, -, htrace, hsets⟩ := hwritten
    · exact absurd hok (hfailed ref)
    · rw [htrace, List.getLast?_concat] at hlast ⊢
      cases hlast
      exact ⟨mapper, row, _, params, rfl, by rw [beq_iff_eq.mp hwell], hsets⟩
  · cases hwell

end RowMapper.World
