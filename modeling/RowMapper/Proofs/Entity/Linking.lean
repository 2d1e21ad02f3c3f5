import RowMapper.Proofs.Entity.Loaded
import RowMapper.Proofs.World.Unresolved

/-!
# Linking what was loaded

An entity is taken for a new one just as long as it has no key.  One that holds the key of a row
(`Known`) is therefore not new, and linking it to an owner changes that row and inserts none, unless
the foreign key takes the place of the key.  A finder or `populate` delivers an entity that is known
whenever the row was answered with its key and the key was not left out.
-/
namespace RowMapper

namespace World

open Model (Association Mapper)

variable {S : List String → Prop} {ref owner : EntityRef} {v : Value} {u w t w' : World}

/-! ## 1. Being known -/

/-- An entity that is there holds the key of a row, which is not null. -/
structure Known (ref : EntityRef) (v : Value) (w : World) : Prop where
  inside : ref.id < w.entities.length
  key : ∃ m, w.registry.mapperOf (w.entityAt ref).model.id = .ok m ∧ Holds ref m.key v w
  not_null : v.isNull = false

/-- The entity of a row with a key is known. -/
theorem Hydrated.known {r : Model.Registry} {model : Nat} {excluded : List String} {row : Row}
    {m : Mapper} (h : Hydrated r model excluded row ref w)
    (hm : w.registry.mapperOf (w.entityAt ref).model.id = .ok m) (hkey : m.key ∉ excluded)
    (hrow : (Dictionary.ofList row).get? m.key = some v) (hv : v.isNull = false) :
    Known ref v w := ⟨h.inside, ⟨m, hm, h.holds m.key v hkey hrow⟩, hv⟩

theorem Known.keyValue (h : Known ref v w) :
    ∃ key, w.keyValue ref = .ok key ∧ key.isNull = false := by
  obtain ⟨m, hm, hholds⟩ := h.key
  obtain ⟨held, hheld, hkept⟩ := hholds.keyValue hm
  exact ⟨held, hheld, hkept.isNull_eq.trans h.not_null⟩

/-- An entity is not new: so says the property of its class that tells. -/
def NotNew (ref : EntityRef) (w : World) : Prop :=
  ∀ name, w.property? ref name = some .isNew → w.readAttribute ref name = .ok (.bool false)

theorem Known.notNew (h : Known ref v w) : NotNew ref w := by
  intro name hname
  obtain ⟨key, hkey, hnull⟩ := h.keyValue
  rw [readAttribute, hname, hkey]
  show Except.ok (Value.bool key.isNull) = _
  rw [hnull]

/-! ## 2. Linking -/

/-- From one world to another one statement is sent.  It changes a row of the table of an entity:
the one that has a value as its key. -/
def ChangesRow (ref : EntityRef) (v : Value) (u w' : World) : Prop :=
  ∃ (x : Exchange) (m : Mapper) (s : Shelf) (table : String) (columns : List String)
    (values : List Value) (sent : Value), w'.trace = u.trace ++ [x] ∧
    u.registry.mapperOf (u.entityAt ref).model.id = .ok m ∧ u.shelf <+: s ∧
    Sql.safeName (s.expand m.tableName) = .ok table ∧
    x.call = .statement (Sql.changeText table columns m.key) (values ++ [sent]) ∧ SentAs v sent

/-- The association that an owner has under a name, if there is one, does not set the key of an
entity. -/
def SparesKey (owner : EntityRef) (relation : Value) (ref : EntityRef) (u : World) : Prop :=
  ∀ m a t, u.registry.mapperOf (u.entityAt ref).model.id = .ok m →
    (associationOfEntity owner relation).runOn u = (.ok a, t) → a.foreignKey.text? ≠ some m.key

theorem Holds.of_entities {name : String} (h : Holds ref name v w)
    (hentities : t.entities = w.entities) (hshelf : w.shelf <+: t.shelf) : Holds ref name v t := by
  obtain ⟨held, hget, hkept⟩ := h
  refine ⟨held, ?_, hkept.mono hshelf⟩
  rw [entityAt, hentities]
  exact hget

theorem Holds.still {name : String} (h : Holds ref name v w) (hstill : Still w t) :
    Holds ref name v t := h.of_entities hstill.entities_eq hstill.shelf_prefix

theorem associationOfEntity_shelves (ref : EntityRef) (name : Value) :
    (associationOfEntity ref name).Obeys Shelves :=
  .bind .get fun _ => associationOf_along along_shelves _ name

/-- What is linked is the entity that was given. -/
theorem attachedEntity_ok {a : Association} {relation target : Value} {other : EntityRef}
    (h : attachedEntity w a relation target = .ok other) : target = .entity other := by
  rw [attachedEntity] at h
  split at h
  · dsimp only at h
    split at h
    · split at h <;> cases h
      rfl
    · cases h
  · cases h

/-- On its way to being written an entity gets the key of the owner, and a session if it has
none. -/
theorem attachForWrite_eq_ok {relation target : Value} {a : Association} {other : EntityRef}
    (hrun : (attachForWrite owner target relation).runOn u = (.ok (a, other), w)) :
    target = .entity other ∧ ∃ session key t₁ t₂ t₃, (u.entityAt owner).session = some session ∧
      (associationOfEntity owner relation).runOn u = (.ok a, t₁) ∧
      (ownerKey owner a).runOn t₁ = (.ok key, t₂) ∧
      (setForeign other a.foreignKey key).runOn t₂ = (.ok (), t₃) ∧
      (w = t₃ ∨ (t₃.entityAt other).session = none ∧
        (bindTo session other).runOn t₃ = (.ok (), w)) := by
  obtain ⟨session, s, hsession, hfrom₀⟩ := Action.runOn_bind_eq_ok.mp hrun
  obtain ⟨hbound, hs⟩ := sessionOf_eq_ok hsession
  obtain ⟨found, t₁, hassociation, hfrom₁⟩ := Action.runOn_bind_eq_ok.mp hfrom₀
  obtain ⟨-, hfrom₂⟩ := Action.runOn_guarded_eq_ok.mp hfrom₁
  obtain ⟨accepted, s₁, htarget, hfrom₃⟩ := Action.runOn_bind_eq_ok.mp hfrom₂
  obtain ⟨hattached, hs₁⟩ := reading_eq_ok.mp htarget
  obtain ⟨key, t₂, hkey, hfrom₄⟩ := Action.runOn_bind_eq_ok.mp hfrom₃
  obtain ⟨_, t₃, hset, hfrom₅⟩ := Action.runOn_bind_eq_ok.mp hfrom₄
  replace hfrom₅ := (Action.runOn_bind_ok (Action.runOn_get t₃)).symm.trans hfrom₅
  rw [hs] at hassociation
  rw [← hs₁] at hkey
  have hentity := attachedEntity_ok hattached
  split at hfrom₅
  · next hnone =>
    obtain ⟨_, t, hbind, hlast⟩ := Action.runOn_bind_eq_ok.mp hfrom₅
    cases hlast
    exact ⟨hentity, session, key, t₁, t₂, t₃, hbound, hassociation, hkey, hset,
      .inr ⟨Option.isNone_iff_eq_none.mp hnone, hbind⟩⟩
  · cases hfrom₅
    exact ⟨hentity, session, key, t₁, t₂, w, hbound, hassociation, hkey, hset, .inl rfl⟩

theorem setForeign_holds {name : String} {foreignKey key : Value}
    (hrun : (setForeign ref foreignKey key).runOn u = (.ok (), w)) (hin : ref.id < u.entities.length)
    (h : Holds ref name v u) (hforeign : foreignKey.text? ≠ some name) :
    Alters ref u w ∧ Holds ref name v w := by
  rw [setForeign] at hrun
  split at hrun
  · next foreign htext =>
    have hne : name ≠ foreign := fun heq => hforeign (heq ▸ htext)
    exact ⟨(setAttribute_alters foreign key).of_run hrun,
      (setAttribute_holds hrun hin).2 name v hne h⟩
  · cases hrun

theorem bindTo_holds {name session : String}
    (hrun : (bindTo session ref).runOn u = (.ok (), w)) (hin : ref.id < u.entities.length)
    (h : Holds ref name v u) : Holds ref name v w ∧ u.shelf <+: w.shelf := by
  have hbind {t : World} (hstill : Still u t)
      (hrun : (updateEntity ref fun e => { e with session := some session }).runOn t =
        (.ok (), w)) : Holds ref name v w ∧ u.shelf <+: w.shelf := by
    have hheld : Holds ref name v
        ((updateEntity ref fun e => { e with session := some session }).runOn t).2 :=
      (h.still hstill).updateEntity (hstill.entities_eq ▸ hin) fun _ => rfl
    rw [hrun] at hheld
    cases hrun
    exact ⟨hheld, hstill.shelf_prefix⟩
  rw [bindTo, Action.runOn_bind_ok (Action.runOn_get u)] at hrun
  split at hrun
  · obtain ⟨_, t, hreport, hlast⟩ := Action.runOn_bind_eq_ok.mp hrun
    exact hbind ((debug_still _ _).of_run hreport) hlast
  · exact hbind (refl_of Still u) hrun

/-- An entity keeps its key on the way to being written. -/
theorem attachForWrite_holds {relation : Value} {name : String} {a : Association}
    {other : EntityRef} (hin : ref.id < u.entities.length) (h : Holds ref name v u)
    (hforeign : ∀ a t, (associationOfEntity owner relation).runOn u = (.ok a, t) →
      a.foreignKey.text? ≠ some name)
    (hrun : (attachForWrite owner (.entity ref) relation).runOn u = (.ok (a, other), w)) :
    other = ref ∧ Holds ref name v w ∧ u.shelf <+: w.shelf := by
  obtain ⟨hentity, session, key, t₁, t₂, t₃, -, hassociation, hkey, hset, hlast⟩ :=
    attachForWrite_eq_ok hrun
  obtain rfl := Value.entity.inj hentity
  have hentities := ((associationOfEntity_registers owner relation).of_run hassociation).entities_eq
  have hshelf : u.shelf <+: t₁.shelf :=
    (associationOfEntity_shelves owner relation).of_run hassociation
  have hstill := (ownerKey_still owner a).of_run hkey
  have hin₂ : ref.id < t₂.entities.length := by rwa [hstill.entities_eq, hentities]
  obtain ⟨halters, hheld⟩ := setForeign_holds hset hin₂
    ((h.of_entities hentities hshelf).still hstill) (hforeign a t₁ hassociation)
  have hgrown : u.shelf <+: t₃.shelf := by
    obtain ⟨e, shelf, rfl, hset, -⟩ := halters
    exact (hshelf.trans hstill.shelf_prefix).trans hset
  rcases hlast with rfl | ⟨-, hbind⟩
  · exact ⟨rfl, hheld, hgrown⟩
  · obtain ⟨hheld', hshelf'⟩ := bindTo_holds hbind (halters.inside hin₂) hheld
    exact ⟨rfl, hheld', hgrown.trans hshelf'⟩

/-! ## 3. The write -/

/-- A change that went well was sent. -/
theorem update_sent {found : Bool} (hrun : (update ref).runOn u = (.ok found, w)) :
    w.trace ≠ u.trace := by
  obtain ⟨session, t₁, hsession, h₁⟩ := Action.runOn_bind_eq_ok.mp hrun
  obtain ⟨-, hsame⟩ := bound_of_sessionOf hsession
  obtain ⟨mapper, t₂, hmapper, h₂⟩ := Action.runOn_bind_eq_ok.mp h₁
  obtain ⟨-, hsame₂⟩ := reading_eq_ok.mp hmapper
  obtain ⟨now, t₃, hget, h₃⟩ := Action.runOn_bind_eq_ok.mp h₂
  obtain ⟨key, t₄, hkey, h₄⟩ := Action.runOn_bind_eq_ok.mp h₃
  obtain ⟨-, hsame₄⟩ := reading_eq_ok.mp hkey
  obtain ⟨f, t₅, hf, h₅⟩ := Action.runOn_bind_eq_ok.mp h₄
  obtain ⟨-, hsame₅⟩ := ofExcept_eq_ok.mp hf
  obtain ⟨answer, t₆, hquery, h₆⟩ := Action.runOn_bind_eq_ok.mp h₅
  obtain ⟨-, hsame₆⟩ := ofExcept_eq_ok.mp h₆
  cases hget
  obtain ⟨⟨x, htrace, -⟩, -⟩ := query_answered hquery
  rw [← hsame₆, htrace, ← hsame₅, ← hsame₄, ← hsame₂, hsame]
  simp

/-- The row of a known entity is changed by one statement, unless nothing is sent. -/
theorem update_changesRow (hu : u.Sound) (h : Known ref v u) :
    ((update ref).runOn u).2.trace = u.trace ∨ ChangesRow ref v u ((update ref).runOn u).2 := by
  rcases update_changed ref hu with
    hnone | ⟨x, m', key, table, columns, values, htrace, hm', htable, hkey, hcall⟩
  · exact .inl hnone
  obtain ⟨m, hm, hholds⟩ := h.key
  obtain ⟨known, hknown, hsame⟩ := bind_eq_ok.mp hm'
  cases hm.symm.trans hknown
  cases hsame
  exact .inr ⟨x, m, u.shelf, table, columns, values, u.expand key, htrace, hm,
    List.prefix_rfl, htable,
    hcall, sentAs_key hm hholds hkey⟩

/-- What is known of an entity that is changed stays known where an earlier world is meant. -/
theorem ChangesRow.before (h : ChangesRow ref v t w) (hlives : Lives [] u t)
    (hin : ref.id < u.entities.length) (hshelf : u.shelf <+: t.shelf) (htrace : t.trace = u.trace)
    (hkey : ∃ m, u.registry.mapperOf (u.entityAt ref).model.id = .ok m) : ChangesRow ref v u w := by
  obtain ⟨x, m, s, table, columns, values, sent, hsent, hm, hs, htable, hcall, hv⟩ := h
  obtain ⟨m', hm'⟩ := hkey
  obtain ⟨added, flag, hlater⟩ := hlives.steady.mapperOf_eq hm'
  rw [hlives.model_eq ref hin, hlater] at hm
  cases hm
  exact ⟨x, m', s, table, columns, values, sent, htrace ▸ hsent, hm', hshelf.trans hs,
    htable, hcall, hv⟩

/-- A known entity is not inserted. -/
theorem writeLinked_changesRow (hu : u.Sound) (h : Known ref v u) {outcome : Except Fault Unit}
    (hrun : (writeLinked ref).runOn u = (outcome, w)) :
    outcome ≠ .ok () ∧ w.trace = u.trace ∨ ChangesRow ref v u w := by
  obtain ⟨key, hkey, hnull⟩ := h.keyValue
  rw [writeLinked, Action.runOn_bind_ok (reading_eq_ok.mpr ⟨hkey, rfl⟩), hnull,
    if_neg (by decide), Action.discard_eq, Action.runOn_bind_pure] at hrun
  cases hrun
  rcases hupdate : (update ref).runOn u with ⟨outcome, t⟩
  have hchanges := update_changesRow hu h
  rw [hupdate] at hchanges
  refine hchanges.imp_left fun htrace => ⟨?_, htrace⟩
  cases outcome with
  | error fault => rintro ⟨⟩
  | ok found => exact absurd htrace (update_sent hupdate)

/-- **A known entity is not taken for a new one**: linking it to an owner sends the change of its
row and nothing else, or it sends nothing and fails. -/
theorem attach_changesRow (hu : u.Sound) (h : Known ref v u) {relation : Value}
    (hkey : SparesKey owner relation ref u) {outcome : Except Fault Unit}
    (hrun : (attach owner (.entity ref) relation).runOn u = (outcome, w)) :
    outcome ≠ .ok () ∧ w.trace = u.trace ∨ ChangesRow ref v u w := by
  rw [attach_parts, Action.runOn_bind] at hrun
  have hsends : Leads [] u _ := attachForWrite_sends owner (.entity ref) relation u
  have hlives := attachForWrite_lives owner (.entity ref) relation u
  rcases hway : (attachForWrite owner (.entity ref) relation).runOn u with
    ⟨fault | ⟨a, other⟩, t⟩ <;> rw [hway] at hrun hsends hlives
  · cases hrun
    exact .inl ⟨nofun, hsends.trace_eq⟩
  obtain ⟨m, hm, hholds⟩ := h.key
  obtain ⟨rfl, hholds', hshelf⟩ := attachForWrite_holds h.inside hholds
    (fun a t => hkey m a t hm) hway
  obtain ⟨added, flag, hlater⟩ := hlives.steady.mapperOf_eq hm
  have hmodel : t.registry.mapperOf (t.entityAt other).model.id =
      .ok { m with associations := m.associations ++ added, finalized := m.finalized || flag } := by
    rw [← hlater, ← hlives.model_eq other h.inside]
  have hknown : Known other v t :=
    ⟨Nat.lt_of_lt_of_le h.inside hlives.entities_le, ⟨_, hmodel, hholds'⟩, h.not_null⟩
  replace hrun :
      (writeLinked other >>= fun _ => holdLinked owner a relation other).runOn t = (outcome, w) := hrun
  rw [Action.runOn_bind] at hrun
  have hwritten {written : Except Fault Unit} {s : World}
      (hwrite : (writeLinked other).runOn t = (written, s)) :
      written ≠ .ok () ∧ s.trace = u.trace ∨ ChangesRow other v u s :=
    (writeLinked_changesRow (hsends.sound hu) hknown hwrite).imp
      (fun ⟨hfailed, htrace⟩ => ⟨hfailed, htrace.trans hsends.trace_eq⟩)
      fun hchanges => hchanges.before hlives h.inside hshelf hsends.trace_eq ⟨m, hm⟩
  rcases hwrite : (writeLinked other).runOn t with ⟨fault | _, s⟩ <;> rw [hwrite] at hrun
  · cases hrun
    exact hwritten hwrite
  · have hsends' : Leads [] s w := (holdLinked_sends owner a relation other).of_run hrun
    rcases hwritten hwrite with ⟨hfailed, -⟩ | hchanges
    · exact absurd rfl hfailed
    · obtain ⟨x, m, rest⟩ := hchanges
      exact .inr ⟨x, m, hsends'.trace_eq ▸ rest⟩

/-- **When a loaded row is not taken for a new one.**  Every entity that a finder answers, or that
`populate` loads, is made of a row that the database answered.  If that row has a key and the key is
not left out, the entity is known by it.  As long as it is, it is not new, and linking it to an
owner sends the change of that row and nothing else, or it sends nothing and fails; only a foreign
key that takes the place of the key is not covered. -/
theorem row_loaded_with_its_key_is_not_new (h : Delivers w ref S w') :
    ∃ row excluded, Answered row w w' ∧ S excluded ∧ ∀ m v,
      w'.registry.mapperOf (w'.entityAt ref).model.id = .ok m → m.key ∉ excluded →
      (Dictionary.ofList row).get? m.key = some v → v.isNull = false →
      Known ref v w' ∧ ∀ u, u.Sound → Known ref v u → NotNew ref u ∧
        ∀ owner relation, SparesKey owner relation ref u →
          let attached := (attach owner (.entity ref) relation).runOn u
          attached.1 ≠ .ok () ∧ attached.2.trace = u.trace ∨ ChangesRow ref v u attached.2 := by
  obtain ⟨row, model, excluded, hanswered, hS, hmade⟩ := h.loaded.made
  refine ⟨row, excluded, hanswered, hS, fun m v hm hkey hrow hv =>
    ⟨hmade.known hm hkey hrow hv, ?_⟩⟩
  intro u hu hknown
  exact ⟨hknown.notNew, fun owner relation hspares => attach_changesRow hu hknown hspares rfl⟩

/-- A class of animals, each housed in a shelter. -/
def animals : Model.Definition :=
  let name : Model.Column := { name := "name", spelling := "Text", type := .text }
  let shelter : Model.Column := { name := "shelter_id", spelling := "Number", type := .integer }
  { name := "Animal", key := "Animal",
    attributes := [("__tablename__", .plain (.str "animals")), ("name", .column name),
      ("shelter_id", .column shelter)] }

/-- A class of shelters with their animals. -/
def shelters : Model.Definition :=
  let housed : Association :=
    { kind := .hasMany, target := .str "Animal", foreignKey := .str "shelter_id" }
  { name := "Shelter", key := "Shelter",
    attributes := [("__tablename__", .plain (.str "shelters")), ("animals", .association housed)] }

/-- A world with a shelter that was found; next an animal can be found, and then written. -/
def housing : World :=
  let row (id : Int) (more : List (String × Term)) : ReplyDraft :=
    ⟨.ok (.rows [("id", .plain (.int id)) :: more]), none⟩
  let written : ReplyDraft := ⟨.ok (.done (.plain (.int 8)) (.plain (.int 1))), none⟩
  let replies := [row 1 [], row 7 [("name", .plain (.str "Rex"))], written]
  ((do
    let _ ← defineShared animals
    let _ ← defineShared shelters
    findById "session" 2 (.int 1) : Action World (Option EntityRef)).runOn { replies }).2

theorem housing_sound : housing.Sound := by
  have hsends : Sends [.selection] (do
      let _ ← defineShared animals
      let _ ← defineShared shelters
      findById "session" 2 (.int 1) : Action World (Option EntityRef)) :=
    .bind (defineShared_sends animals) fun _ => .bind (defineShared_sends shelters) fun _ =>
      findById_sends "session" 2 (.int 1)
  exact (hsends _).sound ⟨by simp [Shelf.Solid], Model.Registry.initial_numbered⟩

theorem animals_usable (r : Model.Registry) : animals.Usable r :=
  ⟨by simp [animals, Model.Registry.Has], by rintro _ ⟨⟩⟩

theorem shelters_usable (r : Model.Registry) : shelters.Usable r :=
  ⟨by simp [shelters, Model.Registry.Has], by rintro _ ⟨⟩⟩

theorem housing_reached : Reached [] housing := by
  have hrun (w : World) (hw : Reached [] w) : Reached [] ((do
      let _ ← defineShared animals
      let _ ← defineShared shelters
      findById "session" 2 (.int 1) : Action World (Option EntityRef)).runOn w).2 := by
    have hanimals := hw.define animals (animals_usable _)
    rw [Action.runOn_bind]
    rcases h₁ : (defineShared animals).runOn w with ⟨_ | _, t⟩ <;> rw [h₁] at hanimals
    · exact hanimals
    have hshelters := hanimals.define shelters (shelters_usable _)
    dsimp only at hshelters ⊢
    rw [Action.runOn_bind]
    rcases h₂ : (defineShared shelters).runOn t with ⟨_ | _, u⟩ <;> rw [h₂] at hshelters
    · exact hshelters
    · exact hshelters.elsewhere (findById_grows "session" 2 (.int 1) u).registry_eq
  exact hrun _ (.start rfl)

/-- The shelter that was found. -/
def shelter : EntityRef := ⟨0, "Shelter"⟩

/-- The animal that can be found. -/
def animal : EntityRef := ⟨1, "Animal"⟩

/-- The world after the animal is found by its key. -/
def animalFound : World := ((findById "session" 1 (.int 7)).runOn housing).2

/-- Whether an outcome is the animal. -/
def isAnimal : Except Fault (Option EntityRef) → Bool
  | .ok (some ⟨1, name⟩) => name == "Animal"
  | _ => false

theorem isAnimal_iff {outcome : Except Fault (Option EntityRef)} :
    isAnimal outcome = true ↔ outcome = .ok (some animal) := by
  unfold isAnimal
  split
  · simp [animal]
  · next hnot =>
    refine iff_of_false Bool.false_ne_true fun h => ?_
    subst h
    exact hnot _ rfl

theorem animal_is_found :
    (findById "session" 1 (.int 7)).runOn housing = (.ok (some animal), animalFound) := by
  have hrun : isAnimal ((findById "session" 1 (.int 7)).runOn housing).1 = true := by
    decide +kernel
  rw [animalFound]
  generalize (findById "session" 1 (.int 7)).runOn housing = run at hrun ⊢
  exact Prod.ext (isAnimal_iff.mp hrun) rfl

/-- Whether a second trace is the first one and a call that was answered with the animal's row. -/
def answersAnimal : List Exchange → List Exchange → Bool
  | [_], [_, ⟨_, _, .ok (.rows [[("id", .intAt 7 none), ("name", .strAt name none)]])⟩] =>
    name == "Rex"
  | _, _ => false

/-- The row of the animal is all that is answered then. -/
theorem animal_row {row : Row} (h : Answered row housing animalFound) :
    row = [("id", .int 7), ("name", .str "Rex")] := by
  have htraces : answersAnimal housing.trace animalFound.trace = true := by decide +kernel
  obtain ⟨sent, x, rows, hsent, hx, hresult, hrow⟩ := h
  unfold answersAnimal at htraces
  split at htraces
  · next hbefore hafter =>
    rw [hbefore, hafter] at hsent
    obtain ⟨-, rfl⟩ := List.cons.inj hsent
    cases List.mem_singleton.mp hx
    cases hresult
    cases List.mem_singleton.mp hrow
    rw [beq_iff_eq.mp htraces]
  · cases htraces

/-- Whether a class has the key `id`, and an association the foreign key `shelter_id`. -/
def keysApart : Except Fault Mapper → Except Fault Association → Bool
  | .ok m, .ok a => m.key == "id" && a.foreignKey.text? == some "shelter_id"
  | _, _ => false

/-- The key of animals is not what shelters set on them. -/
theorem shelter_spares_animal : SparesKey shelter (.str "animals") animal animalFound ∧
    ∃ m, animalFound.registry.mapperOf (animalFound.entityAt animal).model.id = .ok m ∧
      m.key = "id" := by
  have hnames : keysApart
      (animalFound.registry.mapperOf (animalFound.entityAt animal).model.id)
      ((associationOfEntity shelter (.str "animals")).runOn animalFound).1 = true := by
    decide +kernel
  unfold keysApart at hnames
  split at hnames
  · next m a hm ha =>
    rw [Bool.and_eq_true, beq_iff_eq, beq_iff_eq] at hnames
    refine ⟨fun m' a' t hm' ha' => ?_, m, hm, hnames.1⟩
    rw [ha'] at ha
    cases hm.symm.trans hm'
    cases ha
    rw [hnames.1, hnames.2]
    decide
  · cases hnames

/-- The animal that was found by its key is changed when it is linked to the shelter. -/
theorem animal_found_by_its_key_is_changed :
    Delivers housing animal (· = []) animalFound ∧ animalFound.Sound ∧
      Known animal (.int 7) animalFound ∧ NotNew animal animalFound ∧
      ChangesRow animal (.int 7) animalFound
        ((attach shelter (.entity animal) (.str "animals")).runOn animalFound).2 := by
  have hdelivers : Delivers housing animal (· = []) animalFound := .foundById animal_is_found
  have hsound := hdelivers.sound housing_sound
  obtain ⟨hspares, m, hm, hkey⟩ := shelter_spares_animal
  obtain ⟨row, excluded, hanswered, rfl, hloaded⟩ := row_loaded_with_its_key_is_not_new hdelivers
  obtain rfl := animal_row hanswered
  obtain ⟨hknown, hlater⟩ := hloaded m (.int 7) hm nofun (by rw [hkey]; rfl) rfl
  obtain ⟨hnew, hlinked⟩ := hlater animalFound hsound hknown
  refine ⟨hdelivers, hsound, hknown, hnew, (hlinked shelter (.str "animals") hspares).resolve_left ?_⟩
  rintro ⟨-, htrace⟩
  have hlonger : ((attach shelter (.entity animal) (.str "animals")).runOn animalFound).2.trace.length ≠
      animalFound.trace.length := by decide +kernel
  exact hlonger (congrArg List.length htrace)

/-- Options that ask for the animal and leave its key out. -/
def withoutKey : FindOptions := { filter := [("name", .str "Rex")], exclude := ["id"] }

/-- The world after the animal is found without its key. -/
def keylessFound : World := ((findOne "session" 1 withoutKey).runOn housing).2

/-- After the animal was found without its key an insertion is sent. -/
theorem insertion_follows_selection :
    (match ((findOne "session" 1 withoutKey).runOn housing).1, keylessFound.keyValue animal,
        ((attach shelter (.entity animal) (.str "animals")).runOn keylessFound).2.trace with
      | .ok (some ⟨1, "Animal"⟩), .ok .null,
          [_, ⟨_, _, .ok (.rows [[("id", .intAt 7 none), ("name", .strAt "Rex" none)]])⟩,
            ⟨.statement text _, _, _⟩] =>
        text == "INSERT INTO \"animals\" (\"name\", \"shelter_id\") VALUES (?, ?)"
      | _, _, _ => false) = true := by
  decide +kernel

/-- The animal is found without its key; then it has none, and its row is inserted once more. -/
theorem animal_without_its_key_is_inserted_again :
    ((findOne "session" 1 withoutKey).runOn housing).1 = .ok (some animal) ∧
    keylessFound.keyValue animal = .ok .null ∧ ∃ selected read write,
      ((attach shelter (.entity animal) (.str "animals")).runOn keylessFound).2.trace =
        [selected, read, write] ∧
      read.result = .ok (.rows [[("id", .int 7), ("name", .str "Rex")]]) ∧
      ∃ params, write.call =
        .statement "INSERT INTO \"animals\" (\"name\", \"shelter_id\") VALUES (?, ?)" params := by
  have hsent := insertion_follows_selection
  split at hsent
  · next hfound hkey htrace =>
    exact ⟨hfound, hkey, _, _, _, htrace, rfl, _, by rw [beq_iff_eq.mp hsent]⟩
  · cases hsent

end World
end RowMapper
