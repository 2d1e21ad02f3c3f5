import RowMapper.Proofs.Entity.Found
import RowMapper.Proofs.Entity.Event
import RowMapper.Proofs.Value.Plain

/-!
# Fresh entities

The entity of a row has just the columns of the row as attributes, in their order (`Mirrors`).  It
can be made of every row that has no column of a name that a property of the class takes
(`hydrate_mirrors`), so of such rows a selection makes one entity each (`hydrateAll_ofRow`).
-/
namespace RowMapper.World

open Model (Mapper)

variable {w t w' : World} {ref : EntityRef} {d : Dictionary Value}

/-! ## 1. Attributes in order -/

/-- The attributes of an entity are entries in their order, with what came of their values on the
shelf. -/
def Mirrors (d : Dictionary Value) (ref : EntityRef) (w : World) : Prop :=
  ∃ held, (w.entityAt ref).attributes = Entries.ofNamed held ∧
    Dictionary.Alike (fun _ => Shelf.Kept w.shelf) d held

theorem Mirrors.mono (h : Mirrors d ref w)
    (hattributes : (w'.entityAt ref).attributes = (w.entityAt ref).attributes)
    (hshelf : w.shelf <+: w'.shelf) : Mirrors d ref w' := by
  obtain ⟨held, hheld, halike⟩ := h
  exact ⟨held, hattributes.trans hheld, halike.imp fun _ _ _ hkept => hkept.mono hshelf⟩

theorem Mirrors.adds (h : Mirrors d ref w) (hadds : Adds w w') (hin : ref.id < w.entities.length) :
    Mirrors d ref w' :=
  h.mono (congrArg Entity.attributes (hadds.entityAt_eq hin)) hadds.shelf_prefix

theorem Mirrors.updateEntity (h : Mirrors d ref w) (hin : ref.id < w.entities.length)
    {change : Entity → Entity} (hchange : ∀ e, (change e).attributes = e.attributes) :
    Mirrors d ref ((World.updateEntity ref change).runOn w).2 := by
  refine h.mono ?_ List.prefix_rfl
  rw [updateEntity_entityAt, if_pos ⟨rfl, hin⟩, hchange]

theorem Alters.property?_eq (h : Alters ref w w') (hin : ref.id < w.entities.length)
    (name : String) : w'.property? ref name = w.property? ref name := by
  rw [property?, property?, h.model_eq hin, h.registry_eq]

theorem holdAttribute_mirrors (hin : ref.id < w.entities.length) (h : Mirrors d ref w)
    (name : String) (value : Value) : ∃ w', (holdAttribute ref (.str name) value).runOn w =
      (.ok (), w') ∧ Mirrors (d.insert name value) ref w' := by
  obtain ⟨held, hheld, halike⟩ := h
  refine ⟨_, rfl, Dictionary.insert held name (Shelf.store value w.shelf).1, ?_, ?_⟩
  · rw [entityAt_set hin]
    show Entries.insert (w.entityAt ref).attributes (.str name) (Shelf.store value w.shelf).1 = _
    rw [hheld, Entries.insert_ofNamed]
  · have hshelf := (Shelf.store_grows value w.shelf).isPrefix
    exact (halike.imp fun _ _ _ hkept => hkept.mono hshelf).insert (Shelf.kept_store value w.shelf)

/-- A name that no property has can be set. -/
theorem setAttribute_mirrors (hin : ref.id < w.entities.length) (h : Mirrors d ref w)
    {name : String} (hfree : w.property? ref name = none) (value : Value) :
    ∃ w', (setAttribute ref name value).runOn w = (.ok (), w') ∧
      Mirrors (d.insert name value) ref w' := by
  rw [setAttribute, Action.runOn_bind_ok (Action.runOn_get w), hfree]
  exact holdAttribute_mirrors hin h name value

theorem setEntries_mirrors {entries : Dictionary Value} (hin : ref.id < w.entities.length)
    (h : Mirrors d ref w) (hfree : ∀ name ∈ entries.names, w.property? ref name = none) :
    ∃ w', (setEntries ref (Entries.ofNamed entries)).runOn w = (.ok (), w') ∧
      Mirrors (d.update entries) ref w' := by
  induction entries generalizing w d with
  | nil => exact ⟨w, rfl, h⟩
  | cons entry rest ih =>
    obtain ⟨name, value⟩ := entry
    obtain ⟨hname, hrest⟩ := List.forall_mem_cons.mp hfree
    obtain ⟨t, hset, hmirrors⟩ := setAttribute_mirrors hin h hname value
    have halters : Alters ref w t := (setAttribute_alters name value).of_run hset
    obtain ⟨w', hothers, hlast⟩ := ih (halters.inside hin) hmirrors fun other hother =>
      (halters.property?_eq hin other).trans (hrest other hother)
    refine ⟨w', ?_, hlast⟩
    show (setAttribute ref name value >>= fun _ => setEntries ref (Entries.ofNamed rest)).runOn w = _
    rw [Action.runOn_bind_ok hset, hothers]

/-! ## 2. Entities of rows -/

/-- What an entity of a row has as attributes. -/
def kept (excluded : List String) (row : Row) : Dictionary Value :=
  (Dictionary.ofList row).filter fun entry => !excluded.contains entry.1

/-- A row without a column of a name that a property of a class takes. -/
def Free (r : Model.Registry) (model : Nat) (row : Row) : Prop :=
  ∀ name ∈ (Dictionary.ofList row).names, ∀ p,
    r.attribute? (r.classAt model).ref.id name ≠ some (.property p)

instance (r : Model.Registry) (model : Nat) (row : Row) : Decidable (Free r model row) :=
  decidable_of_iff (∀ name ∈ (Dictionary.ofList row).names,
    (match r.attribute? (r.classAt model).ref.id name with
      | some (.property _) => false
      | _ => true) = true) <| by
    refine forall_congr' fun name => imp_congr_right fun _ => ?_
    split
    · next p hproperty => exact ⟨nofun, fun h => absurd hproperty (h p)⟩
    · next hother => exact ⟨fun _ p => hother p, fun _ => rfl⟩

variable {model : Nat} {row : Row}

theorem nodup_names_kept (excluded : List String) (row : Row) : (kept excluded row).names.Nodup :=
  (Dictionary.nodup_names_ofList row).sublist (List.filter_sublist.map _)

/-- What is left out of a row takes no name. -/
theorem Free.kept {r : Model.Registry} (h : Free r model row) (excluded : List String) :
    Free r model (kept excluded row) := by
  intro name hname
  rw [Dictionary.ofList_of_nodup (nodup_names_kept excluded row)] at hname
  exact h name ((List.filter_sublist.map _).subset hname)

theorem hydrate_mirrors (session : String) (excluded : List String)
    (hfree : Free w.registry model (kept excluded row)) : ∃ ref w',
      (hydrate model session excluded row).runOn w = (.ok ref, w') ∧
      Mirrors (kept excluded row) ref w' := by
  have hin : w.entities.length <
      (w.entities ++ [({ model := (w.registry.classAt model).ref } : Entity)]).length := by simp
  have hnew : Mirrors [] ⟨w.entities.length, (w.registry.classAt model).ref.name⟩
      { w with entities := w.entities ++ [{ model := (w.registry.classAt model).ref }] } := by
    refine ⟨[], ?_, .nil⟩
    simp only [entityAt, List.getElem?_concat_length, Option.getD_some]
    exact List.map_nil.symm
  have hlisted : Dictionary.ofList (kept excluded row) = kept excluded row :=
    Dictionary.ofList_of_nodup (nodup_names_kept excluded row)
  have hnames (name : String) (hname : name ∈ (kept excluded row).names) : ({ w with
      entities := w.entities ++ [{ model := (w.registry.classAt model).ref }] } : World).property?
        ⟨w.entities.length, (w.registry.classAt model).ref.name⟩ name = none := by
    -- that no property has the name is the side condition of the last case of `property?`
    have hproperty := hfree name (hlisted.symm ▸ hname)
    simp only [property?, entityAt, List.getElem?_concat_length, Option.getD_some]
  obtain ⟨t, hset, hmirrors⟩ := setEntries_mirrors hin hnew hnames
  have hall : Dictionary.update [] (kept excluded row) = kept excluded row := hlisted
  rw [hall] at hmirrors
  let loaded (e : Entity) : Entity := { e with state := .persistent, session := some session }
  have hkeeps : ∀ e, (loaded e).attributes = e.attributes := fun _ => rfl
  have hlast := hmirrors.updateEntity (((setEntries_alters _ _).of_run hset).inside hin) hkeeps
  refine ⟨_, _, ?_, hlast⟩
  rw [hydrate_eq, Action.runOn_bind_ok (Action.runOn_get w),
    Action.runOn_bind_ok (addEntity_runOn _ w)]
  exact Action.runOn_bind_ok hset

/-- Entries that were set have no name that a property takes. -/
theorem setEntries_free {entries : Entries} (hin : ref.id < w.entities.length)
    (hrun : (setEntries ref entries).runOn w = (.ok (), w')) :
    ∀ entry ∈ entries, ∀ name, entry.1.text? = some name → w.property? ref name = none := by
  induction entries generalizing w with
  | nil => exact nofun
  | cons entry rest ih =>
    obtain ⟨key, value⟩ := entry
    rw [setEntries] at hrun
    cases hkey : key.text? with
    | none =>
      rw [hkey] at hrun
      cases hrun
    | some known =>
      rw [hkey] at hrun
      obtain ⟨_, t, hset, hrest⟩ := Action.runOn_bind_eq_ok.mp hrun
      have halters : Alters ref w t := (setAttribute_alters known value).of_run hset
      rw [setAttribute, Action.runOn_bind_ok (Action.runOn_get w)] at hset
      obtain ⟨hfree, -⟩ := Action.runOn_guarded_eq_ok.mp hset
      refine List.forall_mem_cons.mpr ⟨fun name hname => ?_, fun entry hentry name hname => ?_⟩
      · cases hkey.symm.trans hname
        simpa using hfree
      · rw [← halters.property?_eq hin]
        exact ih (halters.inside hin) hrest entry hentry name hname

/-- An entity can only be made of a row without a column of a name that a property takes. -/
theorem hydrate_free {session : String} {excluded : List String}
    (hrun : (hydrate model session excluded row).runOn w = (.ok ref, w')) :
    Free w.registry model (kept excluded row) := by
  rw [hydrate_eq, Action.runOn_bind_ok (Action.runOn_get w),
    Action.runOn_bind_ok (addEntity_runOn _ w)] at hrun
  obtain ⟨_, t, hset, -⟩ := Action.runOn_bind_eq_ok.mp hrun
  have hin : w.entities.length <
      (w.entities ++ [({ model := (w.registry.classAt model).ref } : Entity)]).length := by simp
  intro name hname p hproperty
  rw [Dictionary.ofList_of_nodup (nodup_names_kept excluded row)] at hname
  obtain ⟨entry, hentry, rfl⟩ := List.mem_map.mp hname
  have hfree := setEntries_free hin hset _ (List.mem_map_of_mem hentry) entry.1 rfl
  simp only [property?, entityAt, List.getElem?_concat_length, Option.getD_some, hproperty] at hfree
  cases hfree

/-- An entity made of a row for a session, later than a number of others: it is of the class that
the row was read for, and it has the columns of the row that are not left out and nothing else. -/
structure OfRow (start : Nat) (session : String) (model : Nat) (excluded : List String) (row : Row)
    (ref : EntityRef) (w : World) : Prop where
  new : start ≤ ref.id
  hydrated : Hydrated w.registry model excluded row ref w
  mirrors : Mirrors (kept excluded row) ref w
  state_eq : (w.entityAt ref).state = .persistent
  session_eq : (w.entityAt ref).session = some session

variable {start : Nat} {session : String} {excluded : List String}

theorem OfRow.adds (h : OfRow start session model excluded row ref w) (hadds : Adds w w') :
    OfRow start session model excluded row ref w' := by
  have hentity := hadds.entityAt_eq h.hydrated.inside
  exact ⟨h.new, hadds.registry_eq ▸ h.hydrated.adds hadds, h.mirrors.adds hadds h.hydrated.inside,
    hentity ▸ h.state_eq, hentity ▸ h.session_eq⟩

theorem hydrate_bound (hrun : (hydrate model session excluded row).runOn w = (.ok ref, w')) :
    (w'.entityAt ref).state = .persistent ∧ (w'.entityAt ref).session = some session := by
  rw [hydrate_eq, Action.runOn_bind_ok (Action.runOn_get w)] at hrun
  obtain ⟨made, s, hadd, hfrom₁⟩ := Action.runOn_bind_eq_ok.mp hrun
  obtain ⟨_, t, hset, hfrom₂⟩ := Action.runOn_bind_eq_ok.mp hfrom₁
  obtain ⟨_, t', hupdate, hlast⟩ := Action.runOn_bind_eq_ok.mp hfrom₂
  cases hlast
  have hin : ref.id < t.entities.length := by
    cases hadd
    exact ((setEntries_alters _ _).of_run hset).inside (by simp)
  have hentity := updateEntity_entityAt ref
    (fun e => { e with state := .persistent, session := some session }) t ref
  rw [hupdate, if_pos ⟨rfl, hin⟩] at hentity
  exact ⟨congrArg Entity.state hentity, congrArg Entity.session hentity⟩

/-- An entity that was made of a row is one of the row. -/
theorem hydrate_ofRow (hrun : (hydrate model session excluded row).runOn w = (.ok ref, w')) :
    OfRow w.entities.length session model excluded row ref w' := by
  have hadds := (hydrate_adds model session excluded row).of_run hrun
  obtain ⟨made, t, hmade, hmirrors⟩ := hydrate_mirrors session excluded (hydrate_free hrun)
  cases hrun.symm.trans hmade
  obtain ⟨hstate, hsession⟩ := hydrate_bound hrun
  exact ⟨Nat.le_of_eq (hydrate_ok hrun).1.symm, hadds.registry_eq ▸ hydrate_hydrated hrun,
    hmirrors, hstate, hsession⟩

/-- Of rows that can be set, entities are made. -/
theorem hydrateAll_ofRow (session : String) (excluded : List String) {rows : List Row}
    (hfree : ∀ row ∈ rows, Free w.registry model (kept excluded row)) : ∃ refs w',
      (rows.mapM (hydrate model session excluded)).runOn w = (.ok refs, w') ∧
      List.Forall₂ (OfRow w.entities.length session model excluded · · w') rows refs := by
  induction rows generalizing w with
  | nil => exact ⟨[], w, rfl, .nil⟩
  | cons row rest ih =>
    obtain ⟨hrow, hrest⟩ := List.forall_mem_cons.mp hfree
    obtain ⟨ref, t, hfirst, -⟩ := hydrate_mirrors session excluded hrow
    have hadds := (hydrate_adds model session excluded row).of_run hfirst
    obtain ⟨refs, w', hothers, hmade⟩ := ih (hadds.registry_eq ▸ hrest)
    have hlater := (Action.Obeys.mapM (hydrate_adds model session excluded)).of_run hothers
    refine ⟨ref :: refs, w', ?_, .cons ((hydrate_ofRow hfirst).adds hlater) (hmade.imp fun _ _ h =>
      { h with new := Nat.le_trans hadds.length_le h.new })⟩
    rw [List.mapM_cons, Action.runOn_bind_ok hfirst, Action.runOn_bind_ok hothers]
    rfl

/-! ## 3. Selecting -/

/-- A query with plain parameters sends its statement. -/
theorem query_of_plain {f : Sql.Fragment} (h : ∀ x ∈ f.params, x.IsPlain) (w : World) :
    ∃ x : Exchange, ((query f).runOn w).2.trace = w.trace ++ [x] ∧
      x.call = .statement f.text f.params := by
  have hparams : f.params.map w.expand = f.params := by
    rw [List.map_congr_left fun x hx => (h x hx).expand_eq w, List.map_id']
  obtain ⟨printed, hprinted⟩ := (Value.IsPlain.list h).literal_isOk w
  rw [← hparams] at hprinted
  obtain ⟨x, hsent, hcall⟩ := query_of_printed hprinted
  exact ⟨x, hsent, hparams ▸ hcall⟩

/-- A selection that is answered with rows that can be set answers their entities. -/
theorem select_ofRow {f : Sql.Fragment} {x : Exchange} {rows : List Row} (session : String)
    (excluded : List String) (hsent : ((query f).runOn w).2.trace = w.trace ++ [x])
    (hrows : x.result = .ok (.rows rows))
    (hfree : ∀ row ∈ rows, Free w.registry model (kept excluded row)) :
    ∃ refs w', (select session model excluded f).runOn w = (.ok refs, w') ∧
      w'.registry = w.registry ∧
      List.Forall₂ (OfRow w.entities.length session model excluded · · w') rows refs := by
  have hstill := query_still f w
  have hanswer : (query f).runOn w = (.ok (.rows rows), ((query f).runOn w).2) :=
    Prod.ext (query_of_answer hsent hrows) rfl
  rw [← hstill.registry_eq] at hfree
  obtain ⟨refs, w', hmade, hrefs⟩ := hydrateAll_ofRow session excluded hfree
  rw [hstill.entities_eq] at hrefs
  have hadds := (Action.Obeys.mapM (hydrate_adds model session excluded)).of_run hmade
  refine ⟨refs, w', ?_, hadds.registry_eq.trans hstill.registry_eq, hrefs⟩
  rw [select, Action.runOn_bind_ok hanswer]
  exact hmade

/-- A selection that is answered with rows of which entities can be made answers the entities. -/
theorem select_answered {f : Sql.Fragment} {x : Exchange} {rows : List Row} (session : String)
    (excluded : List String) (hsent : ((query f).runOn w).2.trace = w.trace ++ [x])
    (hrows : x.result = .ok (.rows rows)) (hfree : ∀ row ∈ rows, Free w.registry model row) :
    ∃ refs w', (select session model excluded f).runOn w = (.ok refs, w') ∧
      w'.registry = w.registry ∧
      List.Forall₂ (fun row ref => Hydrated w.registry model excluded row ref w' ∧
        Mirrors (kept excluded row) ref w') rows refs := by
  obtain ⟨refs, w', hselect, hregistry, hrefs⟩ := select_ofRow session excluded hsent hrows
    fun row hrow => (hfree row hrow).kept excluded
  exact ⟨refs, w', hselect, hregistry, hrefs.imp fun _ _ h => ⟨hregistry ▸ h.hydrated, h.mirrors⟩⟩

/-- A selection with plain parameters sends its statement.  If that is answered with rows of which
entities can be made, then the answer are the entities. -/
theorem select_of_plain {f : Sql.Fragment} (h : ∀ x ∈ f.params, x.IsPlain) (session : String)
    (model : Nat) (excluded : List String) (w : World) :
    ∃ x : Exchange, ((select session model excluded f).runOn w).2.trace = w.trace ++ [x] ∧
      x.call = .statement f.text f.params ∧ ∀ rows, x.result = .ok (.rows rows) →
        (∀ row ∈ rows, Free w.registry model row) → ∃ refs w',
          (select session model excluded f).runOn w = (.ok refs, w') ∧ w'.registry = w.registry ∧
          List.Forall₂ (fun row ref => Hydrated w.registry model excluded row ref w' ∧
            Mirrors (kept excluded row) ref w') rows refs := by
  obtain ⟨x, hsent, hcall⟩ := query_of_plain h w
  exact ⟨x, (select_trace session model excluded f w).trans hsent, hcall,
    fun _ hrows hfree => select_answered session excluded hsent hrows hfree⟩

/-! ## 4. What is known of an entity -/

/-- Whether a name besides the columns is kept back: a private one, or that of a relation. -/
def isKeptBack (m : Mapper) (name : String) : Bool :=
  "_".isPrefixOf name || (m.columns.names.contains name || Entries.has m.associations (.str name))

/-- What is shown of named values: the columns in their order, and then the other names, but for
those that are kept back. -/
def shown (m : Mapper) (d : Dictionary Value) : Dictionary Value :=
  Dictionary.pick m.columns.names d.get? ++ d.filter fun entry => !isKeptBack m entry.1

theorem shown_alike {P : Value → Value → Prop} {d d' : Dictionary Value}
    (h : Dictionary.Alike (fun _ => P) d d') (m : Mapper) :
    Dictionary.Alike (fun _ => P) (shown m d) (shown m d') :=
  (Dictionary.Alike.pick h.get? m.columns.names).append (h.filter fun name => !isKeptBack m name)

theorem mem_shown {m : Mapper} {entry : String × Value} (h : entry ∈ shown m d) : entry ∈ d := by
  rcases List.mem_append.mp h with h | h
  · exact Dictionary.mem_of_get? (Dictionary.mem_pick h)
  · exact (List.mem_filter.mp h).1

theorem otherEntries_ofNamed (m : Mapper) (d : Dictionary Value) :
    otherEntries m (Entries.ofNamed d) =
      .ok (Entries.ofNamed (d.filter fun entry => !isKeptBack m entry.1)) := by
  induction d with
  | nil => rfl
  | cons entry rest ih =>
    obtain ⟨name, value⟩ := entry
    have hcolumn : m.columns.names.any (fun column => (Value.str name).sameKey (.str column)) =
        m.columns.names.contains name := by
      rw [List.contains_eq_any_beq]
      rfl
    show otherEntries m ((.str name, value) :: Entries.ofNamed rest) = _
    rw [otherEntries, ih, hcolumn, List.filter_cons]
    show Except.ok (if isKeptBack m name then _ else _) = _
    cases isKeptBack m name <;> rfl

/-- What is known of an entity is what is shown of its attributes. -/
theorem toDictionary_ofNamed (m : Mapper) {e : Entity} (h : e.attributes = Entries.ofNamed d) :
    toDictionary e m = .ok (Entries.ofNamed (shown m d)) := by
  have hcolumns : heldColumns e m = Dictionary.pick m.columns.names d.get? := by
    rw [heldColumns, Dictionary.pick, h]
    congr 1
    funext name
    rw [Entries.get?_ofNamed]
  rw [toDictionary, hcolumns, h, otherEntries_ofNamed]
  simp [shown, Entries.ofNamed]

end RowMapper.World
