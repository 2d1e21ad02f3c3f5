import RowMapper.Proofs.Entity.Course
import RowMapper.Proofs.Entity.WriteBack

/-!
# Loaded entities

`Delivers w ref S w'` says that an entity is one of those that a finder answers, or that `populate`
loads, on the way from one world to another: each was made of a row that the database answered on
that way, without columns that are left out (`Delivers.loaded`).  Whatever else such an operation
does only adds to the world (`Grows`), so at its end the entity still holds what the row has.
-/
namespace RowMapper.World

open Model (Association Mapper)

variable {α β γ : Type} {S : List String → Prop} {ref : EntityRef} {w t w' : World}

/-! ## 1. Worlds that grow -/

/-- The classes are the same; the entities, the shelf and the trace have more behind what they
had. -/
structure Grows (w w' : World) : Prop where
  entities_prefix : w.entities <+: w'.entities
  registry_eq : w'.registry = w.registry
  shelf_prefix : w.shelf <+: w'.shelf
  trace_prefix : w.trace <+: w'.trace

instance : IsPreorder World Grows where
  refl _ := ⟨List.prefix_rfl, rfl, List.prefix_rfl, List.prefix_rfl⟩
  trans _ _ _ h h' := ⟨h.entities_prefix.trans h'.entities_prefix,
    h'.registry_eq.trans h.registry_eq, h.shelf_prefix.trans h'.shelf_prefix,
    h.trace_prefix.trans h'.trace_prefix⟩

theorem Adds.grows (h : Adds w w') : Grows w w' := by
  refine ⟨?_, h.registry_eq, h.shelf_prefix, h.trace_eq ▸ List.prefix_rfl⟩
  obtain ⟨made, shelf, rfl, -⟩ := h
  exact List.prefix_append ..

theorem Still.grows (h : Still w w') (htrace : w.trace <+: w'.trace) : Grows w w' :=
  ⟨h.entities_eq ▸ List.prefix_rfl, h.registry_eq, h.shelf_prefix, htrace⟩

/-- What touches neither entities nor classes. -/
theorem grows_of_still {action : Action World α} {kinds : List CallKind}
    (h : action.Obeys Still) (hsends : Sends kinds action) : action.Obeys Grows := by
  intro w
  obtain ⟨sent, hsent, -⟩ := (hsends w).calls
  exact (h w).grows ⟨sent, hsent.symm⟩

theorem grows_of_quiet {action : Action World α} (h : action.Obeys Still)
    (hsends : Sends [] action) : action.Obeys Grows := grows_of_still h hsends

theorem reading_grows (read : World → Except Fault α) : (reading read).Obeys Grows :=
  grows_of_quiet (reading_still read) (reading_sends read)

theorem query_grows (f : Sql.Fragment) : (query f).Obeys Grows := fun w => by
  refine (query_still f w).grows ?_
  rcases query_sent f w with htrace | ⟨x, htrace, -⟩
  · exact htrace ▸ List.prefix_rfl
  · exact htrace ▸ List.prefix_append ..

theorem hydrate_grows (model : Nat) (session : String) (excluded : List String) (row : Row) :
    (hydrate model session excluded row).Obeys Grows :=
  (hydrate_adds model session excluded row).mono fun _ _ => Adds.grows

theorem select_grows (session : String) (model : Nat) (excluded : List String) (f : Sql.Fragment) :
    (select session model excluded f).Obeys Grows :=
  .bind (query_grows f) fun _ => .bind (.ofExcept _) fun _ =>
    .mapM fun row => hydrate_grows model session excluded row

theorem findAll_grows (session : String) (model : Nat) (o : FindOptions) :
    (findAll session model o).Obeys Grows :=
  .bind (reading_grows _) fun _ => .bind (.ofExcept _) fun f => select_grows session model _ f

theorem findOne_grows (session : String) (model : Nat) (o : FindOptions) :
    (findOne session model o).Obeys Grows := by
  have hfind (mapper : Mapper) : (do
      let statement ← Action.ofExcept (selection mapper o (some 1) none)
      return (← select session model o.exclude statement).head?).Obeys Grows :=
    .bind (.ofExcept _) fun f => .bind (select_grows session model o.exclude f) fun _ => .pure _
  exact .bind (reading_grows _) fun mapper => .ite
    (.bind .get fun _ => .bind (.throw _) fun _ => hfind mapper) (hfind mapper)

theorem findById_grows (session : String) (model : Nat) (key : Value) :
    (findById session model key).Obeys Grows := by
  have hfind (mapper : Mapper) : (do
      findOne session model (← Action.ofExcept (keyOptions mapper key))).Obeys Grows :=
    .bind (.ofExcept _) fun o => findOne_grows session model o
  exact .bind (reading_grows _) fun mapper => .ite
    (.bind .get fun _ => .bind (.throw _) fun _ => hfind mapper) (hfind mapper)

/-! ## 2. Entities of rows -/

/-- What an entity of a row is, it stays while the world grows. -/
theorem Hydrated.grows {model : Nat} {excluded : List String} {row : Row}
    (h : Hydrated t.registry model excluded row ref t) (hgrows : Grows t w') :
    Hydrated w'.registry model excluded row ref w' := by
  have hat : w'.entityAt ref = t.entityAt ref := by
    obtain ⟨made, hmade⟩ := hgrows.entities_prefix
    rw [entityAt, ← hmade, List.getElem?_append_left h.inside, entityAt]
  refine ⟨Nat.lt_of_lt_of_le h.inside hgrows.entities_prefix.length_le, ?_,
    fun name v hname hv => ?_⟩
  · rw [hat, h.model_eq, hgrows.registry_eq]
  · obtain ⟨held, hget, hkept⟩ := h.holds name v hname hv
    exact ⟨held, hat ▸ hget, hkept.mono hgrows.shelf_prefix⟩

/-- The database answered a row between two worlds. -/
def Answered (row : Row) (w w' : World) : Prop := ∃ (sent : List Exchange) (x : Exchange)
  (rows : List Row), w'.trace = w.trace ++ sent ∧ x ∈ sent ∧ x.result = .ok (.rows rows) ∧ row ∈ rows

/-- An entity was made between two worlds, of a row that the database answered there. -/
structure Loaded (S : List String → Prop) (ref : EntityRef) (w w' : World) : Prop where
  new : w.entities.length ≤ ref.id
  made : ∃ row model excluded, Answered row w w' ∧ S excluded ∧
    Hydrated w'.registry model excluded row ref w'

theorem Loaded.before (h : Loaded S ref t w') (hlength : w.entities.length ≤ t.entities.length)
    (htrace : w.trace <+: t.trace) : Loaded S ref w w' := by
  obtain ⟨row, model, excluded, ⟨sent, x, rows, hsent, hx, hrow⟩, hmade⟩ := h.made
  obtain ⟨earlier, hearlier⟩ := htrace
  refine ⟨Nat.le_trans hlength h.new, row, model, excluded, ⟨earlier ++ sent, x, rows, ?_,
    List.mem_append_right _ hx, hrow⟩, hmade⟩
  rw [hsent, ← hearlier, List.append_assoc]

theorem Loaded.after_grows (h : Loaded S ref t w') (hgrows : Grows w t) : Loaded S ref w w' :=
  h.before hgrows.entities_prefix.length_le hgrows.trace_prefix

theorem Loaded.then_grows (h : Loaded S ref w t) (hgrows : Grows t w') : Loaded S ref w w' := by
  obtain ⟨row, model, excluded, ⟨sent, x, rows, hsent, hx, hrow⟩, hS, hmade⟩ := h.made
  obtain ⟨later, hlater⟩ := hgrows.trace_prefix
  refine ⟨h.new, row, model, excluded, ⟨sent ++ later, x, rows, ?_,
    List.mem_append_left _ hx, hrow⟩, hS, hmade.grows hgrows⟩
  rw [← hlater, hsent, List.append_assoc]

theorem Loaded.mono {S' : List String → Prop} (hsub : ∀ excluded, S excluded → S' excluded)
    (h : Loaded S ref w w') : Loaded S' ref w w' := by
  obtain ⟨row, model, excluded, hanswered, hS, hmade⟩ := h.made
  exact ⟨h.new, row, model, excluded, hanswered, hsub _ hS, hmade⟩

/-- What is known of each answer where it is given is known of all of them at the end. -/
theorem mapM_answers {Q : α → World → World → Prop} {items : List γ}
    {action : γ → Action World α} {answers : List α}
    (hbefore : ∀ {a w t w'}, Grows w t → Q a t w' → Q a w w')
    (hafter : ∀ {a w t w'}, Q a w t → Grows t w' → Q a w w')
    (hgrows : ∀ item, (action item).Obeys Grows)
    (heach : ∀ item ∈ items, ∀ w a w', (action item).runOn w = (.ok a, w') → Q a w w')
    (h : (items.mapM action).runOn w = (.ok answers, w')) : ∀ a ∈ answers, Q a w w' := by
  induction items generalizing w answers with
  | nil =>
    cases h
    exact nofun
  | cons item rest ih =>
    rw [List.mapM_cons] at h
    obtain ⟨first, t, hfirst, h⟩ := Action.runOn_bind_eq_ok.mp h
    obtain ⟨others, u, hothers, h⟩ := Action.runOn_bind_eq_ok.mp h
    cases h
    obtain ⟨hitem, hrest⟩ := List.forall_mem_cons.mp heach
    refine List.forall_mem_cons.mpr ⟨?_, fun a ha => ?_⟩
    · exact hafter (hitem w first t hfirst) ((Action.Obeys.mapM hgrows).of_run hothers)
    · exact hbefore ((hgrows item).of_run hfirst) (ih hrest hothers a ha)

theorem select_loaded {session : String} {model : Nat} {excluded : List String} {f : Sql.Fragment}
    {refs : List EntityRef}
    (h : (select session model excluded f).runOn w = (.ok refs, w')) (hmem : ref ∈ refs) :
    Loaded (· = excluded) ref w w' := by
  obtain ⟨answer, t, hquery, h⟩ := Action.runOn_bind_eq_ok.mp h
  have hasked := (query_grows f).of_run hquery
  obtain ⟨⟨read, htrace, hread⟩, -⟩ := query_answered hquery
  obtain ⟨rows, _, hrows, h⟩ := Action.runOn_bind_eq_ok.mp h
  obtain ⟨hrows, rfl⟩ := ofExcept_eq_ok.mp hrows
  cases answer <;> cases hrows
  have hgrows := hydrate_grows model session excluded
  have hmade := mapM_answers (Q := fun ref t w' => t.entities.length ≤ ref.id ∧
      ∃ row ∈ rows, Hydrated w'.registry model excluded row ref w')
    (fun hgrows hmade =>
      ⟨Nat.le_trans hgrows.entities_prefix.length_le hmade.1, hmade.2⟩)
    (fun ⟨hnew, row, hrow, hmade⟩ hgrows => ⟨hnew, row, hrow, hmade.grows hgrows⟩)
    hgrows
    (fun row hrow u ref u' hrun => ⟨Nat.le_of_eq (hydrate_ok hrun).1.symm, row, hrow,
      ((hgrows row).of_run hrun).registry_eq ▸ hydrate_hydrated hrun⟩) h ref hmem
  obtain ⟨hnew, row, hrow, hmade⟩ := hmade
  have hgrown := (Action.Obeys.mapM hgrows).of_run h
  obtain ⟨later, hlater⟩ := hgrown.trace_prefix
  refine ⟨Nat.le_trans hasked.entities_prefix.length_le hnew, row, model, excluded,
    ⟨[read] ++ later, read, rows, ?_, List.mem_cons_self, hread, hrow⟩, rfl, hmade⟩
  rw [← hlater, htrace, List.append_assoc]

/-! ## 3. Finding -/

theorem findAll_loaded {session : String} {model : Nat} {o : FindOptions} {refs : List EntityRef}
    (h : (findAll session model o).runOn w = (.ok refs, w')) (hmem : ref ∈ refs) :
    Loaded (· = o.exclude) ref w w' := by
  obtain ⟨mapper, _, hmapper, h⟩ := Action.runOn_bind_eq_ok.mp h
  obtain ⟨-, rfl⟩ := reading_eq_ok.mp hmapper
  obtain ⟨f, _, hf, h⟩ := Action.runOn_bind_eq_ok.mp h
  obtain ⟨-, rfl⟩ := ofExcept_eq_ok.mp hf
  exact select_loaded h hmem

theorem fetch_loaded {session : String} {model : Nat} {refs : List EntityRef}
    (h : (fetch session model).runOn w = (.ok refs, w')) (hmem : ref ∈ refs) :
    Loaded (· = []) ref w w' := by
  obtain ⟨mapper, _, hmapper, h⟩ := Action.runOn_bind_eq_ok.mp h
  obtain ⟨-, rfl⟩ := reading_eq_ok.mp hmapper
  obtain ⟨f, _, hf, h⟩ := Action.runOn_bind_eq_ok.mp h
  obtain ⟨-, rfl⟩ := ofExcept_eq_ok.mp hf
  exact select_loaded h hmem

theorem findOne_loaded {session : String} {model : Nat} {o : FindOptions}
    (h : (findOne session model o).runOn w = (.ok (some ref), w')) :
    Loaded (· = o.exclude) ref w w' := by
  obtain ⟨-, f, others, -, -, hselect⟩ := findOne_selects h
  exact select_loaded hselect List.mem_cons_self

theorem findById_loaded {session : String} {model : Nat} {key : Value}
    (h : (findById session model key).runOn w = (.ok (some ref), w')) :
    Loaded (· = []) ref w w' := by
  obtain ⟨mapper, o, -, hoptions, hfind⟩ := findById_finds h
  exact keyOptions_exclude hoptions ▸ findOne_loaded hfind

/-- What a strict finder leaves out never has the key. -/
theorem findStrictly_loaded {session : String} {model : Nat} {o : FindOptions} {m : Mapper}
    (hm : w.mapper model = .ok m) (h : (findStrictly session model o).runOn w = (.ok ref, w')) :
    Loaded (· = o.exclude.filter (· ≠ m.key)) ref w w' := by
  obtain ⟨mapper, hmapper, hfind⟩ := findStrictly_finds h
  cases hm.symm.trans hmapper
  exact findOne_loaded hfind

/-- An entity that was not created was found. -/
theorem findOrCreate_loaded {session : String} {model : Nat} {o : FindOptions} {defaults : Value}
    (h : (findOrCreate session model o defaults).runOn w = (.ok (ref, false), w')) :
    Loaded (· = o.exclude) ref w w' := by
  obtain ⟨found, t, hfind, h⟩ := Action.runOn_bind_eq_ok.mp h
  cases found with
  | some found =>
    cases h
    exact findOne_loaded hfind
  | none =>
    obtain ⟨_, _, -, h⟩ := Action.runOn_bind_eq_ok.mp h
    obtain ⟨_, _, -, h⟩ := Action.runOn_bind_eq_ok.mp h
    obtain ⟨_, _, -, h⟩ := Action.runOn_bind_eq_ok.mp h
    cases h

/-! ## 4. Finding to change -/

/-- The names that entries give values for. -/
def givenNames (entries : Entries) : List String := entries.filterMap fun entry => entry.1.text?

theorem lastGiven_eq_none {entries : Entries} {name : String} (h : name ∉ givenNames entries) :
    Entries.lastGiven name entries = none := by
  induction entries with
  | nil => rfl
  | cons entry rest ih =>
    have hname : entry.1.text? ≠ some name := fun heq => h (by simp [givenNames, heq])
    have hrest : name ∉ givenNames rest := fun hmem => h (by
      obtain ⟨given, hgiven, heq⟩ := List.mem_filterMap.mp hmem
      exact List.mem_filterMap.mpr ⟨given, List.mem_cons_of_mem entry hgiven, heq⟩)
    simp [Entries.lastGiven, ih hrest, hname]

/-- An entity whose attributes are set holds what its row has under the other names. -/
theorem Loaded.set {excluded : List String} {entries : Entries}
    (h : Loaded (· = excluded) ref w t) (hset : (setEntries ref entries).runOn t = (.ok (), w')) :
    Loaded (· = excluded ++ givenNames entries) ref w w' := by
  obtain ⟨row, model, _, hanswered, rfl, hmade⟩ := h.made
  have halters := (setEntries_alters ref entries).of_run hset
  have hsends : Leads [] t w' := (setEntries_sends ref entries).of_run hset
  rw [Answered, ← hsends.trace_eq] at hanswered
  refine ⟨h.new, row, model, _, hanswered, rfl, halters.inside hmade.inside, ?_,
    fun name v hname hv => ?_⟩
  · rw [halters.model_eq hmade.inside, hmade.model_eq, halters.registry_eq]
  · rw [List.mem_append, not_or] at hname
    exact setEntries_holds hset hmade.inside
      (.inr ⟨lastGiven_eq_none hname.2, hmade.holds name v hname.1 hv⟩)

/-- An entity that is changed and written back holds what its row has under the other names. -/
theorem Loaded.change {data : Value} {entries : Entries} {place : Option Nat}
    {excluded : List String} {answer : α} {answered : α}
    (h : Loaded (· = excluded) ref w t) (hdata : t.look data = .mappingAt entries place)
    (hrun : (do
      setProperties ref data
      let _ ← update ref
      return answer : Action World α).runOn t = (.ok answered, w')) :
    Loaded (· = excluded ++ givenNames entries) ref w w' := by
  obtain ⟨_, u, hset, hrest⟩ := Action.runOn_bind_eq_ok.mp hrun
  obtain ⟨found, u', hupdate, hlast⟩ := Action.runOn_bind_eq_ok.mp hrest
  cases hlast
  rw [setProperties, Action.runOn_bind_ok (Action.runOn_get t), hdata] at hset
  exact (h.set hset).then_grows
    ((grows_of_still (update_still ref) (update_sends ref)).of_run hupdate)

theorem findOneAndUpdate_loaded {session : String} {model : Nat} {o : FindOptions} {data : Value}
    {entries : Entries} {place : Option Nat} {m : Mapper} (hm : w.mapper model = .ok m)
    (hdata : w.look data = .mappingAt entries place)
    (h : (findOneAndUpdate session model o data).runOn w = (.ok ref, w')) :
    Loaded (· = o.exclude.filter (· ≠ m.key) ++ givenNames entries) ref w w' := by
  obtain ⟨found, t, hfind, hrest⟩ := Action.runOn_bind_eq_ok.mp h
  obtain ⟨mapper, -, hfound⟩ := findStrictly_found hfind
  have hlast := hrest
  obtain ⟨_, _, -, hlast⟩ := Action.runOn_bind_eq_ok.mp hlast
  obtain ⟨_, _, -, hlast⟩ := Action.runOn_bind_eq_ok.mp hlast
  cases hlast
  exact (findStrictly_loaded hm hfind).change (look_mapping hdata hfound.shelf_prefix) hrest

theorem findByIdAndUpdate_loaded {session : String} {model : Nat} {key data : Value}
    {entries : Entries} {place : Option Nat} (hdata : w.look data = .mappingAt entries place)
    (h : (findByIdAndUpdate session model key data).runOn w = (.ok (some ref), w')) :
    Loaded (· = givenNames entries) ref w w' := by
  obtain ⟨found, t, hfind, hrest⟩ := Action.runOn_bind_eq_ok.mp h
  cases found with
  | none => cases hrest
  | some found =>
    obtain ⟨mapper, -, hfound⟩ := findById_found hfind
    have hlast := hrest
    obtain ⟨_, _, -, hlast⟩ := Action.runOn_bind_eq_ok.mp hlast
    obtain ⟨_, _, -, hlast⟩ := Action.runOn_bind_eq_ok.mp hlast
    cases hlast
    exact (findById_loaded hfind).change (look_mapping hdata hfound.shelf_prefix) hrest

/-! ## 5. Loading -/

/-- The values that a relation may have, each with its entities. -/
inductive OfEntities : Value → List EntityRef → Prop
  | missing : OfEntities .null []
  | one (ref : EntityRef) : OfEntities (.entity ref) [ref]
  | many (refs : List EntityRef) : OfEntities (.list (refs.map .entity)) refs

theorem ofEntities_entityOrNull (found : Option EntityRef) :
    OfEntities (entityOrNull found) found.toList := by
  cases found with
  | none => exact .missing
  | some ref => exact .one ref

/-- A value of a relation whose entities are all loaded between two worlds. -/
def LoadedValue (S : List String → Prop) (value : Value) (w w' : World) : Prop :=
  ∃ refs, OfEntities value refs ∧ ∀ ref ∈ refs, Loaded S ref w w'

theorem LoadedValue.after_grows {value : Value} (h : LoadedValue S value t w')
    (hgrows : Grows w t) : LoadedValue S value w w' := by
  obtain ⟨refs, hrefs, hloaded⟩ := h
  exact ⟨refs, hrefs, fun ref hmem => (hloaded ref hmem).after_grows hgrows⟩

theorem ownedFilter_grows (ref : EntityRef) (a : Association) : (ownedFilter ref a).Obeys Grows :=
  grows_of_quiet (ownedFilter_still ref a) (ownedFilter_sends ref a)

theorem findRelated_loaded {session : String} {model : Nat} {filter value : Value} {shape : Shape}
    (h : (findRelated session model filter shape).runOn w = (.ok value, w')) :
    LoadedValue (LeftOut shape) value w w' := by
  obtain ⟨o, _, ho, h⟩ := Action.runOn_bind_eq_ok.mp h
  obtain ⟨hoptions, rfl⟩ := ofExcept_eq_ok.mp ho
  obtain ⟨found, t, hfind, h⟩ := Action.runOn_bind_eq_ok.mp h
  cases h
  refine ⟨_, ofEntities_entityOrNull found, fun ref hmem => ?_⟩
  cases Option.mem_toList.mp hmem
  exact (findOne_loaded hfind).mono fun _ h => .inr ⟨filter, o, hoptions, h⟩

theorem findRelated_grows (session : String) (model : Nat) (filter : Value) (shape : Shape) :
    (findRelated session model filter shape).Obeys Grows :=
  .bind (.ofExcept _) fun o => .bind (findOne_grows session model o) fun _ => .pure _

theorem joined_grows (session : String) (target : Nat) (otherKey key : Value) (shape : Shape)
    (row : EntityRef) : (joined session target otherKey key shape row).Obeys Grows :=
  .bind (reading_grows _) fun _ => .ite (.pure _) (.bind (reading_grows _) fun _ =>
    .bind (.ofExcept _) fun o => findOne_grows session target o)

theorem loadThrough_grows (session : String) (ref : EntityRef) (a : Association)
    (otherKey key : Value) (shape : Shape) :
    (loadThrough session ref a otherKey key shape).Obeys Grows :=
  .bind (.ofExcept _) fun through => .bind (ownedFilter_grows ref a) fun _ =>
    .bind (.ofExcept _) fun o => .bind (findAll_grows session through o) fun _ =>
    .bind (.ofExcept _) fun target =>
    .bind (.mapM fun row => joined_grows session target otherKey key shape row) fun _ =>
    .bind (grows_of_quiet (debug_still _ _) (debug_sends _ _)) fun _ => .pure _

/-- Loading only adds to the world. -/
theorem load_grows (session : String) (ref : EntityRef) (a : Association) (shape : Shape) :
    (load session ref a shape).Obeys Grows := by
  rw [load]
  split
  · exact .bind (ownedFilter_grows ref a) fun filter => .bind (.ofExcept _) fun model =>
      findRelated_grows session model filter shape
  · exact .bind (ownedFilter_grows ref a) fun _ => .bind (.ofExcept _) fun model =>
      .bind (.ofExcept _) fun o => .bind (findAll_grows session model o) fun _ => .pure _
  · exact .bind (reading_grows _) fun _ => .ite (.pure _) (.bind (.ofExcept _) fun model =>
      .bind (reading_grows _) fun filter => findRelated_grows session model filter shape)
  · exact loadThrough_grows session ref a _ _ shape

theorem joined_loaded {session : String} {target : Nat} {otherKey key : Value} {shape : Shape}
    {row : EntityRef}
    (h : (joined session target otherKey key shape row).runOn w = (.ok (some ref), w')) :
    Loaded (LeftOut shape) ref w w' := by
  obtain ⟨other, _, hother, h⟩ := Action.runOn_bind_eq_ok.mp h
  obtain ⟨-, rfl⟩ := reading_eq_ok.mp hother
  split at h
  · cases h
  · obtain ⟨filter, _, hfilter, h⟩ := Action.runOn_bind_eq_ok.mp h
    obtain ⟨-, rfl⟩ := reading_eq_ok.mp hfilter
    obtain ⟨o, _, ho, h⟩ := Action.runOn_bind_eq_ok.mp h
    obtain ⟨hoptions, rfl⟩ := ofExcept_eq_ok.mp ho
    exact (findOne_loaded h).mono fun _ h => .inr ⟨filter, o, hoptions, h⟩

theorem loadThrough_loaded {session : String} {owner : EntityRef} {a : Association}
    {otherKey key value : Value} {shape : Shape}
    (h : (loadThrough session owner a otherKey key shape).runOn w = (.ok value, w')) :
    LoadedValue (LeftOut shape) value w w' := by
  obtain ⟨through, _, hthrough, h⟩ := Action.runOn_bind_eq_ok.mp h
  obtain ⟨-, rfl⟩ := ofExcept_eq_ok.mp hthrough
  obtain ⟨filter, t, hfilter, h⟩ := Action.runOn_bind_eq_ok.mp h
  obtain ⟨options, _, hoptions, h⟩ := Action.runOn_bind_eq_ok.mp h
  obtain ⟨-, rfl⟩ := ofExcept_eq_ok.mp hoptions
  obtain ⟨rows, u, hrows, h⟩ := Action.runOn_bind_eq_ok.mp h
  obtain ⟨target, _, htarget, h⟩ := Action.runOn_bind_eq_ok.mp h
  obtain ⟨-, rfl⟩ := ofExcept_eq_ok.mp htarget
  obtain ⟨found, s, hfound, h⟩ := Action.runOn_bind_eq_ok.mp h
  obtain ⟨_, s', hreport, h⟩ := Action.runOn_bind_eq_ok.mp h
  cases h
  refine ⟨_, .many _, fun ref hmem => ?_⟩
  have hloaded := mapM_answers (Q := fun answer w w' => answer = some ref →
      Loaded (LeftOut shape) ref w w')
    (fun hgrows h heq => (h heq).after_grows hgrows)
    (fun h hgrows heq => (h heq).then_grows hgrows)
    (joined_grows session target otherKey key shape)
    (fun row _ _ _ _ hrun heq => joined_loaded (heq ▸ hrun)) hfound _ (by simpa using hmem) rfl
  have hbefore := trans_of Grows ((ownedFilter_grows owner a).of_run hfilter)
    ((findAll_grows session through options).of_run hrows)
  exact (hloaded.after_grows hbefore).then_grows
    ((grows_of_quiet (debug_still _ _) (debug_sends _ _)).of_run hreport)

/-- What an association leads to is loaded. -/
theorem load_loaded {session : String} {owner : EntityRef} {a : Association} {shape : Shape}
    {value : Value} (h : (load session owner a shape).runOn w = (.ok value, w')) :
    LoadedValue (LeftOut shape) value w w' := by
  rw [load] at h
  split at h
  · obtain ⟨filter, t, hfilter, h⟩ := Action.runOn_bind_eq_ok.mp h
    obtain ⟨model, _, hmodel, h⟩ := Action.runOn_bind_eq_ok.mp h
    obtain ⟨-, rfl⟩ := ofExcept_eq_ok.mp hmodel
    exact (findRelated_loaded h).after_grows ((ownedFilter_grows owner a).of_run hfilter)
  · obtain ⟨filter, t, hfilter, h⟩ := Action.runOn_bind_eq_ok.mp h
    obtain ⟨model, _, hmodel, h⟩ := Action.runOn_bind_eq_ok.mp h
    obtain ⟨-, rfl⟩ := ofExcept_eq_ok.mp hmodel
    obtain ⟨o, _, ho, h⟩ := Action.runOn_bind_eq_ok.mp h
    obtain ⟨hoptions, rfl⟩ := ofExcept_eq_ok.mp ho
    obtain ⟨found, u, hfound, h⟩ := Action.runOn_bind_eq_ok.mp h
    cases h
    refine LoadedValue.after_grows ⟨_, .many found, fun ref hmem => ?_⟩
      ((ownedFilter_grows owner a).of_run hfilter)
    exact (findAll_loaded hfound hmem).mono fun _ h => .inr ⟨filter, o, hoptions, h⟩
  · obtain ⟨found, _, hfound, h⟩ := Action.runOn_bind_eq_ok.mp h
    obtain ⟨-, rfl⟩ := reading_eq_ok.mp hfound
    split at h
    · cases h
      exact ⟨[], .missing, List.forall_mem_nil _⟩
    · obtain ⟨model, _, hmodel, h⟩ := Action.runOn_bind_eq_ok.mp h
      obtain ⟨-, rfl⟩ := ofExcept_eq_ok.mp hmodel
      obtain ⟨filter, _, hfilter, h⟩ := Action.runOn_bind_eq_ok.mp h
      obtain ⟨-, rfl⟩ := reading_eq_ok.mp hfilter
      exact findRelated_loaded h
  · exact loadThrough_loaded h

/-! ## 6. Holding a relation -/

/-- What is under a key after something was written there is what was written. -/
theorem get?_insert_self {entries : Entries} {key v held : Value}
    (h : Entries.get? (Entries.insert entries key v) key = some held) : held = v := by
  unfold Entries.get? at h
  induction entries with
  | nil =>
    rw [Entries.insert, List.find?_singleton] at h
    split at h <;> cases h
    rfl
  | cons entry rest ih =>
    obtain ⟨known, old⟩ := entry
    rw [Entries.insert] at h
    split at h
    · next hknown =>
      simp only [List.find?_cons, hknown] at h
      cases h
      rfl
    · next hknown =>
      simp only [List.find?_cons, hknown] at h
      exact ih h

/-- A list of entities lies on the shelf as it is. -/
theorem store_entities (refs : List EntityRef) (s : Shelf) :
    Shelf.store (.list (refs.map .entity)) s =
      (.shared s.length, s ++ [.list (refs.map .entity)]) := by
  have hall (refs : List EntityRef) :
      Shelf.storeAll (refs.map .entity) s = (refs.map .entity, s) := by
    induction refs with
    | nil => rfl
    | cons ref rest ih =>
      rw [List.map_cons, Shelf.storeAll]
      show ((.entity ref :: (Shelf.storeAll (rest.map .entity) s).1),
        (Shelf.storeAll (rest.map .entity) s).2) = _
      rw [ih]
  rw [Shelf.store, hall]
  rfl

/-- The value of a relation is had back from the shelf. -/
theorem look_ofEntities {value : Value} {refs : List EntityRef} (h : OfEntities value refs)
    (s : Shelf) : (Shelf.store value s).2.look (Shelf.store value s).1 = value := by
  cases h with
  | missing => rfl
  | one ref => rfl
  | many =>
    rw [store_entities]
    simp [Shelf.look, Shelf.valueAt]

/-- An entity is the value of a relation, or one of those in it. -/
inductive Related (ref : EntityRef) : Value → Prop
  | one : Related ref (.entity ref)
  | many {items : List Value} (h : .entity ref ∈ items) : Related ref (.list items)

theorem Related.mem {value : Value} {refs : List EntityRef} (h : Related ref value)
    (hrefs : OfEntities value refs) : ref ∈ refs := by
  cases hrefs with
  | missing => cases h
  | one known =>
    cases h
    exact List.mem_singleton_self ref
  | many =>
    cases h with
    | many h =>
      obtain ⟨known, hknown, heq⟩ := List.mem_map.mp h
      cases heq
      exact hknown

/-- Changing one entity leaves the others as they are. -/
theorem Hydrated.alters {owner : EntityRef} {model : Nat} {excluded : List String} {row : Row}
    (h : Hydrated t.registry model excluded row ref t) (halters : Alters owner t w')
    (hne : owner.id ≠ ref.id) : Hydrated w'.registry model excluded row ref w' := by
  have hregistry := halters.registry_eq
  obtain ⟨e, shelf, rfl, hshelf, -⟩ := halters
  have hat : ({ t with entities := t.entities.set owner.id e, shelf } : World).entityAt ref =
      t.entityAt ref := by
    simp [entityAt, List.getElem?_set_ne hne]
  refine ⟨by simpa using h.inside, by rw [hat, h.model_eq], fun name v hname hv => ?_⟩
  obtain ⟨held, hget, hkept⟩ := h.holds name v hname hv
  exact ⟨held, hat ▸ hget, hkept.mono hshelf⟩

/-- What `populate` lets an entity hold was loaded. -/
theorem populate_loaded {owner : EntityRef} {relation held : Value} {shape : Shape}
    (h : (populate owner relation shape).runOn w = (.ok (), w'))
    (hheld : Entries.get? (w'.entityAt owner).attributes relation = some held)
    (hrelated : Related ref (w'.look held)) : Loaded (LeftOut shape) ref w w' := by
  obtain ⟨session, s, hsession, hrest⟩ := Action.runOn_bind_eq_ok.mp h
  obtain ⟨hbound, hsame⟩ := bound_of_sessionOf hsession
  rw [hsame] at hrest
  obtain ⟨a, t, hassociation, hrun⟩ := Action.runOn_bind_eq_ok.mp hrest
  obtain ⟨value, u, hload, hhold⟩ := Action.runOn_bind_eq_ok.mp hrun
  have hentities := ((associationOfEntity_registers owner relation).of_run hassociation).entities_eq
  have hfound : Leads [] w t := (associationOfEntity_sends owner relation).of_run hassociation
  have hheld' : Leads [] u w' := (holdAttribute_sends owner relation value).of_run hhold
  have halters := (holdAttribute_alters relation value).of_run hhold
  obtain ⟨refs, hrefs, hloaded⟩ := load_loaded hload
  have hin : owner.id < w.entities.length := lt_of_bound hbound
  have hin_u : owner.id < u.entities.length := by
    obtain ⟨events, hhappens, -⟩ := (load_hydrates session owner a shape).lives t
    have hlives := hhappens.lives fun _ _ h => h
    rw [hload] at hlives
    exact Nat.lt_of_lt_of_le (hentities ▸ hin) hlives.entities_le
  have hvalue : w'.look held = value := by
    cases hhold
    rw [entityAt_set hin_u] at hheld
    rw [get?_insert_self hheld]
    exact look_ofEntities hrefs u.shelf
  obtain ⟨hnew, row, model, excluded, hanswered, hS, hmade⟩ :=
    hloaded ref ((hvalue ▸ hrelated).mem hrefs)
  rw [hentities] at hnew
  rw [Answered, hfound.trace_eq, ← hheld'.trace_eq] at hanswered
  exact ⟨hnew, row, model, excluded, hanswered, hS,
    hmade.alters halters (Nat.ne_of_lt (Nat.lt_of_lt_of_le hin hnew))⟩

/-! ## 7. Delivering -/

/-- On the way from one world to another a finder answers an entity, or `populate` lets one be held
as a related one.  The names for which `S` holds are those that the entity may lack of its row. -/
inductive Delivers (w : World) (ref : EntityRef) : (List String → Prop) → World → Prop
  | fetched {session : String} {model : Nat} {refs : List EntityRef} {w' : World}
      (h : (fetch session model).runOn w = (.ok refs, w')) (hmem : ref ∈ refs) :
      Delivers w ref (· = []) w'
  | foundAmong {session : String} {model : Nat} {o : FindOptions} {refs : List EntityRef}
      {w' : World} (h : (findAll session model o).runOn w = (.ok refs, w')) (hmem : ref ∈ refs) :
      Delivers w ref (· = o.exclude) w'
  | foundOne {session : String} {model : Nat} {o : FindOptions} {w' : World}
      (h : (findOne session model o).runOn w = (.ok (some ref), w')) :
      Delivers w ref (· = o.exclude) w'
  | foundById {session : String} {model : Nat} {key : Value} {w' : World}
      (h : (findById session model key).runOn w = (.ok (some ref), w')) :
      Delivers w ref (· = []) w'
  | notCreated {session : String} {model : Nat} {o : FindOptions} {defaults : Value} {w' : World}
      (h : (findOrCreate session model o defaults).runOn w = (.ok (ref, false), w')) :
      Delivers w ref (· = o.exclude) w'
  | foundStrictly {session : String} {model : Nat} {o : FindOptions} {m : Mapper} {w' : World}
      (hm : w.mapper model = .ok m) (h : (findStrictly session model o).runOn w = (.ok ref, w')) :
      Delivers w ref (· = o.exclude.filter (· ≠ m.key)) w'
  | foundAndChanged {session : String} {model : Nat} {o : FindOptions} {data : Value}
      {entries : Entries} {place : Option Nat} {m : Mapper} {w' : World}
      (hm : w.mapper model = .ok m) (hdata : w.look data = .mappingAt entries place)
      (h : (findOneAndUpdate session model o data).runOn w = (.ok ref, w')) :
      Delivers w ref (· = o.exclude.filter (· ≠ m.key) ++ givenNames entries) w'
  | foundByIdAndChanged {session : String} {model : Nat} {key data : Value} {entries : Entries}
      {place : Option Nat} {w' : World} (hdata : w.look data = .mappingAt entries place)
      (h : (findByIdAndUpdate session model key data).runOn w = (.ok (some ref), w')) :
      Delivers w ref (· = givenNames entries) w'
  | populated {owner : EntityRef} {relation held : Value} {shape : Shape} {w' : World}
      (h : (populate owner relation shape).runOn w = (.ok (), w'))
      (hheld : Entries.get? (w'.entityAt owner).attributes relation = some held)
      (hrelated : Related ref (w'.look held)) : Delivers w ref (LeftOut shape) w'

theorem Delivers.loaded (h : Delivers w ref S w') : Loaded S ref w w' := by
  cases h with
  | fetched h hmem => exact fetch_loaded h hmem
  | foundAmong h hmem => exact findAll_loaded h hmem
  | foundOne h => exact findOne_loaded h
  | foundById h => exact findById_loaded h
  | notCreated h => exact findOrCreate_loaded h
  | foundStrictly hm h => exact findStrictly_loaded hm h
  | foundAndChanged hm hdata h => exact findOneAndUpdate_loaded hm hdata h
  | foundByIdAndChanged hdata h => exact findByIdAndUpdate_loaded hdata h
  | populated h hheld hrelated => exact populate_loaded h hheld hrelated

theorem Delivers.sound (h : Delivers w ref S w') (hw : w.Sound) : w'.Sound := by
  cases h with
  | fetched h => exact ((fetch_sends _ _).of_run h).sound hw
  | foundAmong h => exact ((findAll_sends _ _ _).of_run h).sound hw
  | foundOne h => exact ((findOne_sends _ _ _).of_run h).sound hw
  | foundById h => exact ((findById_sends _ _ _).of_run h).sound hw
  | notCreated h => exact ((findOrCreate_sends _ _ _ _).of_run h).sound hw
  | foundStrictly _ h => exact ((findStrictly_sends _ _ _).of_run h).sound hw
  | foundAndChanged _ _ h => exact ((findOneAndUpdate_sends _ _ _ _).of_run h).sound hw
  | foundByIdAndChanged _ h => exact ((findByIdAndUpdate_sends _ _ _ _).of_run h).sound hw
  | populated h => exact ((populate_sends _ _ _).of_run h).sound hw

end RowMapper.World
