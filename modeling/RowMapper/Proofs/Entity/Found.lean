import RowMapper.Proofs.Dictionary
import RowMapper.Proofs.Entity.Write
import RowMapper.Proofs.World.Holding

/-!
# The entity of a row

The finders read one row and make an entity of it.  `Found` says what is known of it when it was
found: which row was read, that nothing was asked besides, that the entity is of the class that was
asked for, and that it holds what the row has in each column that is not left out.  There is one
lemma for each finder on the way from a selection to the strict finders.
-/
namespace RowMapper

/-! ## 1. Rows -/

namespace Dictionary

variable {α : Type}

/-- Leaving out other names does not matter. -/
theorem get?_filter (d : Dictionary α) (keep : String → Bool) {name : String}
    (h : keep name = true) : get? (d.filter fun entry => keep entry.1) name = get? d name := by
  induction d with
  | nil => rfl
  | cons entry rest ih =>
    obtain ⟨known, value⟩ := entry
    by_cases hname : known = name
    · subst hname
      simp [h, get?]
    · cases hkeep : keep known <;> simp [hkeep, get?, hname, ih]

theorem get?_without (d : Dictionary α) (excluded : List String) (name : String) :
    get? (d.filter fun entry => !excluded.contains entry.1) name =
      if name ∈ excluded then none else get? d name := by
  split
  · next hname =>
    refine get?_eq_none fun hmem => ?_
    obtain ⟨entry, hentry, rfl⟩ := List.mem_map.mp hmem
    simp [hname] at hentry
  · next hname => exact get?_filter d (fun known => !excluded.contains known) (by simpa)

end Dictionary

/-- Where names are written once, the last value given for a name is the one under it. -/
theorem Entries.lastGiven_ofNamed {d : Dictionary Value} (h : d.names.Nodup) (name : String) :
    Entries.lastGiven name (Entries.ofNamed d) = d.get? name := by
  induction d with
  | nil => rfl
  | cons entry rest ih =>
    obtain ⟨known, value⟩ := entry
    simp only [Dictionary.names, List.map_cons, List.nodup_cons] at h
    have hrest := ih h.2
    simp only [Entries.ofNamed, List.map_cons, Entries.lastGiven, Value.text?, Option.some.injEq,
      Dictionary.get?] at hrest ⊢
    by_cases hname : known = name
    · subst hname
      simp [hrest, Dictionary.get?_eq_none h.1]
    · simp [hrest, hname]

namespace World

open Model (Mapper)

variable {α : Type} {w w' : World}

/-! ## 2. Making entities of rows -/

theorem addEntity_runOn (e : Entity) (w : World) : (addEntity e).runOn w =
    (.ok ⟨w.entities.length, e.model.name⟩, { w with entities := w.entities ++ [e] }) := rfl

/-- What is done to the entity that was just made only adds to the world before. -/
theorem addEntity_bind_adds (e : Entity) {next : EntityRef → Action World α}
    (h : ∀ ref, (next ref).Obeys (Alters ref)) : (addEntity e >>= next).Obeys Adds := by
  intro w
  rw [Action.runOn_bind_ok (addEntity_runOn e w)]
  obtain ⟨e', shelf, hw', hshelf, -⟩ := h ⟨w.entities.length, e.model.name⟩
    { w with entities := w.entities ++ [e] }
  exact ⟨[e'], shelf, by rw [hw']; simp, hshelf⟩

theorem hydrate_eq (model : Nat) (session : String) (excluded : List String) (row : Row) :
    hydrate model session excluded row = (do
      let w ← get
      let ref ← addEntity { model := (w.registry.classAt model).ref }
      setEntries ref (Entries.ofNamed
        ((Dictionary.ofList row).filter fun entry => !excluded.contains entry.1))
      updateEntity ref fun e => { e with state := .persistent, session := some session }
      return ref) := by
  simp only [hydrate, make, bind_assoc, pure_bind]

theorem hydrate_adds (model : Nat) (session : String) (excluded : List String) (row : Row) :
    (hydrate model session excluded row).Obeys Adds := by
  rw [hydrate_eq]
  exact .bind .get fun _ => addEntity_bind_adds _ fun ref =>
    .bind (setEntries_alters ref _) fun _ =>
    .bind (updateEntity_alters fun _ => rfl) fun _ => .pure ref

/-- An entity of a class that exists, and what it holds of a row. -/
structure Hydrated (r : Model.Registry) (model : Nat) (excluded : List String) (row : Row)
    (ref : EntityRef) (w : World) : Prop where
  inside : ref.id < w.entities.length
  model_eq : (w.entityAt ref).model = (r.classAt model).ref
  holds : ∀ name v, name ∉ excluded → (Dictionary.ofList row).get? name = some v →
    Holds ref name v w

theorem Hydrated.adds {r : Model.Registry} {model : Nat} {excluded : List String} {row : Row}
    {ref : EntityRef} (h : Hydrated r model excluded row ref w) (hadds : Adds w w') :
    Hydrated r model excluded row ref w' where
  inside := Nat.lt_of_lt_of_le h.inside hadds.length_le
  model_eq := by rw [hadds.entityAt_eq h.inside, h.model_eq]
  holds name v hname hv := (h.holds name v hname hv).adds hadds h.inside

theorem Hydrated.updateEntity {r : Model.Registry} {model : Nat} {excluded : List String} {row : Row}
    {ref : EntityRef} (h : Hydrated r model excluded row ref w) {change : Entity → Entity}
    {outcome : Except Fault Unit} (hrun : (World.updateEntity ref change).runOn w = (outcome, w'))
    (hmodel : ∀ e, (change e).model = e.model)
    (hattributes : ∀ e, (change e).attributes = e.attributes) :
    Hydrated r model excluded row ref w' := by
  have halters := (updateEntity_alters hmodel).of_run hrun
  refine ⟨halters.inside h.inside, (halters.model_eq h.inside).trans h.model_eq,
    fun name v hname hv => ?_⟩
  have hholds := (h.holds name v hname hv).updateEntity h.inside hattributes
  rwa [hrun] at hholds

/-- The entity of a row holds what the row has. -/
theorem hydrate_hydrated {model : Nat} {session : String} {excluded : List String} {row : Row}
    {ref : EntityRef} (hrun : (hydrate model session excluded row).runOn w = (.ok ref, w')) :
    Hydrated w.registry model excluded row ref w' := by
  rw [hydrate_eq, Action.runOn_bind_ok (Action.runOn_get w),
    Action.runOn_bind_ok (addEntity_runOn _ w)] at hrun
  obtain ⟨_, t, hset, hrun⟩ := Action.runOn_bind_eq_ok.mp hrun
  obtain ⟨_, t', hupdate, hrun⟩ := Action.runOn_bind_eq_ok.mp hrun
  cases hrun
  have hin : w.entities.length <
      (w.entities ++ [({ model := (w.registry.classAt model).ref } : Entity)]).length := by simp
  have halters := (setEntries_alters _ _).of_run hset
  have hmade : Hydrated w.registry model excluded row
      ⟨w.entities.length, (w.registry.classAt model).ref.name⟩ t := by
    refine ⟨halters.inside hin, ?_, fun name v hname hv => ?_⟩
    · rw [halters.model_eq hin]
      simp [entityAt]
    · have hkeep : (!excluded.contains name) = true := by simpa using hname
      have hnodup : Dictionary.names
          ((Dictionary.ofList row).filter fun entry => !excluded.contains entry.1) |>.Nodup :=
        (Dictionary.nodup_names_ofList row).sublist (List.filter_sublist.map _)
      have hlast := Entries.lastGiven_ofNamed hnodup name
      rw [Dictionary.get?_filter _ (fun known => !excluded.contains known) hkeep, hv] at hlast
      exact setEntries_holds hset hin (.inl hlast)
  exact hmade.updateEntity hupdate (fun _ => rfl) fun _ => rfl

/-! ## 3. Reading rows -/

/-- A row of a model was read from one world to another, and an entity made of it; nothing else was
asked of the database, and no class was changed. -/
structure Found (model : Nat) (excluded : List String) (ref : EntityRef) (w w' : World) : Prop where
  asked : ∃ read row rest, w'.trace = w.trace ++ [read] ∧ read.result = .ok (.rows (row :: rest)) ∧
    Hydrated w.registry model excluded row ref w'
  registry_eq : w'.registry = w.registry
  shelf_prefix : w.shelf <+: w'.shelf

theorem query_answered {f : Sql.Fragment} {answer : Answer}
    (h : (query f).runOn w = (.ok answer, w')) :
    (∃ x : Exchange, w'.trace = w.trace ++ [x] ∧ x.result = .ok answer) ∧
      ∃ e, w' = w.withEngine e := by
  rw [query, Action.runOn_bind_ok (Action.runOn_get w), onEngine_runOn] at h
  rcases hengine : (Engine.query w.observer f.text (f.params.map w.expand)).runOn w.expectantEngine
    with ⟨outcome, e⟩
  rw [hengine] at h
  cases h
  obtain ⟨x, htrace, hresult⟩ := Engine.query_answered hengine
  exact ⟨⟨x, htrace, hresult⟩, e, rfl⟩

/-- An answer of a query is the answer to the statement that it sends. -/
theorem query_exchanged {f : Sql.Fragment} {answer : Answer}
    (h : (query f).runOn w = (.ok answer, w')) : ∃ x : Exchange, w'.trace = w.trace ++ [x] ∧
      x.call = .statement f.text (f.params.map w.expand) ∧ x.result = .ok answer := by
  obtain ⟨⟨x, htrace, hresult⟩, -⟩ := query_answered h
  refine ⟨x, htrace, ?_, hresult⟩
  rcases query_sent f w with hnone | ⟨sent, hsent, hcall⟩ <;> rw [h] at *
  · exact absurd (htrace.symm.trans hnone) (by simp)
  · cases List.append_cancel_left (htrace.symm.trans hsent)
    exact hcall

/-- Making entities of the rows asks for nothing more. -/
theorem select_trace (session : String) (model : Nat) (excluded : List String) (f : Sql.Fragment)
    (w : World) : ((select session model excluded f).runOn w).2.trace =
      ((query f).runOn w).2.trace := by
  have hmakes (answer : Answer) : (Action.ofExcept (rowsOf answer) >>= fun rows =>
      rows.mapM (hydrate model session excluded)).Obeys Adds :=
    .bind (.ofExcept _) fun _ => .mapM (hydrate_adds model session excluded)
  rw [select, Action.runOn_bind]
  rcases (query f).runOn w with ⟨fault | answer, t⟩
  · rfl
  · exact (hmakes answer t).trace_eq

/-- The first of the entities that a selection makes is made of the first row, and then only others
are made. -/
theorem select_first {session : String} {model : Nat} {excluded : List String} {f : Sql.Fragment}
    {ref : EntityRef} {others : List EntityRef}
    (h : (select session model excluded f).runOn w = (.ok (ref :: others), w')) :
    ∃ read row rest u t, w'.trace = w.trace ++ [read] ∧
      read.call = .statement f.text (f.params.map w.expand) ∧
      read.result = .ok (.rows (row :: rest)) ∧ u.registry = w.registry ∧ u.shelf = w.shelf ∧
      (hydrate model session excluded row).runOn u = (.ok ref, t) ∧ Adds t w' := by
  obtain ⟨answer, u, hquery, h⟩ := Action.runOn_bind_eq_ok.mp h
  obtain ⟨read, htrace, hcall, hread⟩ := query_exchanged hquery
  obtain ⟨-, e, rfl⟩ := query_answered hquery
  obtain ⟨rows, _, hrows, h⟩ := Action.runOn_bind_eq_ok.mp h
  rw [Action.runOn_ofExcept] at hrows
  obtain ⟨hrows, rfl⟩ := Prod.mk.inj hrows
  cases answer <;> cases hrows
  cases rows with
  | nil => cases h
  | cons row rest =>
    replace h : ((row :: rest).mapM (hydrate model session excluded)).runOn _ = _ := h
    rw [List.mapM_cons] at h
    obtain ⟨first, t, hfirst, h⟩ := Action.runOn_bind_eq_ok.mp h
    obtain ⟨more, t', hmore, h⟩ := Action.runOn_bind_eq_ok.mp h
    cases h
    have hmade := (hydrate_adds model session excluded row).of_run hfirst
    have hothers : Adds t w' :=
      (Action.Obeys.mapM fun row => hydrate_adds model session excluded row).of_run hmore
    refine ⟨read, row, rest, w.withEngine e, t, ?_, hcall, hread, rfl, rfl, hfirst, hothers⟩
    rw [hothers.trace_eq, hmade.trace_eq, htrace]

theorem select_found {session : String} {model : Nat} {excluded : List String} {f : Sql.Fragment}
    {ref : EntityRef} {others : List EntityRef}
    (h : (select session model excluded f).runOn w = (.ok (ref :: others), w')) :
    Found model excluded ref w w' := by
  obtain ⟨read, row, rest, u, t, htrace, -, hread, hregistry, hshelf, hmade, hothers⟩ :=
    select_first h
  have hadds := trans_of Adds ((hydrate_adds model session excluded row).of_run hmade) hothers
  have hhydrated := (hydrate_hydrated hmade).adds hothers
  rw [hregistry] at hhydrated
  refine ⟨⟨read, row, rest, htrace, hread, hhydrated⟩, ?_, ?_⟩
  · rw [hadds.registry_eq, hregistry]
  · rw [← hshelf]
    exact hadds.shelf_prefix

theorem reading_eq_ok {α : Type} {read : World → Except Fault α} {a : α} :
    (reading read).runOn w = (.ok a, w') ↔ read w = .ok a ∧ w = w' := by
  rw [runOn_reading, Prod.mk.injEq]

theorem ofExcept_eq_ok {α : Type} {outcome : Except Fault α} {a : α} :
    (Action.ofExcept outcome : Action World α).runOn w = (.ok a, w') ↔
      outcome = .ok a ∧ w = w' := by
  rw [Action.runOn_ofExcept, Prod.mk.injEq]

/-- The entity of the first row is answered. -/
theorem findOne_selects {session : String} {model : Nat} {o : FindOptions} {ref : EntityRef}
    (h : (findOne session model o).runOn w = (.ok (some ref), w')) :
    ∃ mapper f others, w.mapper model = .ok mapper ∧ selection mapper o (some 1) none = .ok f ∧
      (select session model o.exclude f).runOn w = (.ok (ref :: others), w') := by
  obtain ⟨mapper, _, hread, h⟩ := Action.runOn_bind_eq_ok.mp h
  obtain ⟨hmapper, rfl⟩ := reading_eq_ok.mp hread
  dsimp only at h
  split at h
  · obtain ⟨_, _, -, h⟩ := Action.runOn_bind_eq_ok.mp h
    obtain ⟨_, _, hthrow, -⟩ := Action.runOn_bind_eq_ok.mp h
    cases hthrow
  · obtain ⟨f, _, hf, h⟩ := Action.runOn_bind_eq_ok.mp h
    obtain ⟨hselection, rfl⟩ := ofExcept_eq_ok.mp hf
    obtain ⟨found, t, hselect, h⟩ := Action.runOn_bind_eq_ok.mp h
    obtain ⟨hhead, rfl⟩ := Prod.mk.inj h
    cases found with
    | nil => cases hhead
    | cons first others =>
      cases hhead
      exact ⟨mapper, f, others, hmapper, hselection, hselect⟩

theorem findOne_found {session : String} {model : Nat} {o : FindOptions} {ref : EntityRef}
    (h : (findOne session model o).runOn w = (.ok (some ref), w')) :
    Found model o.exclude ref w w' := by
  obtain ⟨-, f, others, -, -, hselect⟩ := findOne_selects h
  exact select_found hselect

/-- Options that name no columns to leave out leave none out. -/
theorem exclude_eq_nil {arguments : Dictionary Value} {o : FindOptions}
    (hnone : (arguments.get? OptionName.exclude.text).getD .null = .null)
    (h : FindOptions.parse .nothing arguments = .ok o) : o.exclude = [] := by
  obtain ⟨⟨options, problems⟩, hread, h⟩ := bind_eq_ok.mp h
  obtain ⟨-, h⟩ := guarded_eq_ok.mp h
  obtain ⟨-, h⟩ := guarded_eq_ok.mp h
  obtain rfl := pure_eq_ok.mp h
  simp only [FindOptions.readAll, StateT.run_bind] at hread
  obtain ⟨filter, -, hread⟩ := bind_eq_ok.mp hread
  obtain ⟨attributes, -, hread⟩ := bind_eq_ok.mp hread
  obtain ⟨exclude, hexclude, hread⟩ := bind_eq_ok.mp hread
  obtain ⟨limit, -, hread⟩ := bind_eq_ok.mp hread
  obtain ⟨offset, -, hread⟩ := bind_eq_ok.mp hread
  obtain ⟨order, -, hread⟩ := bind_eq_ok.mp hread
  obtain ⟨group, -, hread⟩ := bind_eq_ok.mp hread
  cases hread
  cases hgiven : arguments.get? OptionName.exclude.text with
  | none =>
    rw [FindOptions.readOption, hgiven] at hexclude
    cases hexclude
    rfl
  | some v =>
    rw [hgiven] at hnone
    obtain rfl : v = .null := hnone
    rw [FindOptions.readOption, hgiven] at hexclude
    cases hexclude
    rfl

/-- Options that only ask for the rows of a filter leave no columns out. -/
theorem exclude_of_filter {filter : Value} {o : FindOptions}
    (h : FindOptions.parse .nothing [("where", filter)] = .ok o) : o.exclude = [] :=
  exclude_eq_nil rfl h

theorem keyOptions_exclude {m : Mapper} {key : Value} {o : FindOptions}
    (h : keyOptions m key = .ok o) : o.exclude = [] := exclude_of_filter h

/-- Finding by a key is finding with the options that ask for it. -/
theorem findById_finds {session : String} {model : Nat} {key : Value} {ref : EntityRef}
    (h : (findById session model key).runOn w = (.ok (some ref), w')) :
    ∃ mapper o, w.mapper model = .ok mapper ∧ keyOptions mapper key = .ok o ∧
      (findOne session model o).runOn w = (.ok (some ref), w') := by
  obtain ⟨mapper, _, hread, h⟩ := Action.runOn_bind_eq_ok.mp h
  obtain ⟨hmapper, rfl⟩ := reading_eq_ok.mp hread
  dsimp only at h
  split at h
  · obtain ⟨_, _, -, h⟩ := Action.runOn_bind_eq_ok.mp h
    obtain ⟨_, _, hthrow, -⟩ := Action.runOn_bind_eq_ok.mp h
    cases hthrow
  · obtain ⟨o, _, ho, h⟩ := Action.runOn_bind_eq_ok.mp h
    obtain ⟨hoptions, rfl⟩ := ofExcept_eq_ok.mp ho
    exact ⟨mapper, o, hmapper, hoptions, h⟩

theorem findById_found {session : String} {model : Nat} {key : Value} {ref : EntityRef}
    (h : (findById session model key).runOn w = (.ok (some ref), w')) :
    ∃ mapper, w.mapper model = .ok mapper ∧ Found model [] ref w w' := by
  obtain ⟨mapper, o, hmapper, hoptions, hfind⟩ := findById_finds h
  exact ⟨mapper, hmapper, keyOptions_exclude hoptions ▸ findOne_found hfind⟩

/-- Finding strictly is finding with the key. -/
theorem findStrictly_finds {session : String} {model : Nat} {o : FindOptions} {ref : EntityRef}
    (h : (findStrictly session model o).runOn w = (.ok ref, w')) :
    ∃ mapper, w.mapper model = .ok mapper ∧
      (findOne session model (withKey mapper o)).runOn w = (.ok (some ref), w') := by
  obtain ⟨mapper, _, hread, h⟩ := Action.runOn_bind_eq_ok.mp h
  obtain ⟨hmapper, rfl⟩ := reading_eq_ok.mp hread
  obtain ⟨found, t, hfound, h⟩ := Action.runOn_bind_eq_ok.mp h
  cases found with
  | none =>
    obtain ⟨_, _, -, h⟩ := Action.runOn_bind_eq_ok.mp h
    cases h
  | some found =>
    cases h
    exact ⟨mapper, hmapper, hfound⟩

theorem findStrictly_found {session : String} {model : Nat} {o : FindOptions} {ref : EntityRef}
    (h : (findStrictly session model o).runOn w = (.ok ref, w')) :
    ∃ mapper, w.mapper model = .ok mapper ∧
      Found model (o.exclude.filter (· ≠ mapper.key)) ref w w' := by
  obtain ⟨mapper, hmapper, hfind⟩ := findStrictly_finds h
  exact ⟨mapper, hmapper, findOne_found hfind⟩

end World
end RowMapper
