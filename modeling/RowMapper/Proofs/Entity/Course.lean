import RowMapper.Proofs.Entity.Event

/-!
# The course of operations on entities

Which events come about in the operations on entities, wherever they run.  The finders and
`populate` only make entities of rows.  An entity that was there before is saved or deleted by an
operation that goes well, and no operation that fails changes its state (`Sparing`).
-/
namespace RowMapper.World

open Model (Association Mapper)

variable {α β γ : Type} {R R' : World → World → Prop} {P Q : Event → Prop} {w t w' : World}

/-! ## 1. Kinds of events -/

/-- Wherever an action runs, only events of a kind come about, and without them it leads to a world
in relation `R`. -/
def Yields (R : World → World → Prop) (P : Event → Prop) (action : Action World α) : Prop :=
  ∀ w, ∃ events, Happens R action w events ∧ ∀ e ∈ events, P e

namespace Yields

theorem of_obeys {action : Action World α} (h : action.Obeys R) : Yields R P action :=
  fun _ => ⟨[], .nothing h, List.forall_mem_nil _⟩

theorem mono (hR : ∀ w w', R w w' → R' w w') (hP : ∀ e, P e → Q e) {action : Action World α}
    (h : Yields R P action) : Yields R' Q action := by
  intro w
  obtain ⟨events, hhappens, hevents⟩ := h w
  exact ⟨events, hhappens.mono hR, fun e he => hP e (hevents e he)⟩

/-- The second action may rely on what the first one can answer. -/
theorem bind_of {first : Action World α} {next : α → Action World β} (hfirst : Yields R P first)
    (hnext : ∀ w a, (first.runOn w).1 = .ok a → Yields R P (next a)) :
    Yields R P (first >>= next) := by
  intro w
  obtain ⟨events, hhappens, hevents⟩ := hfirst w
  have hanswer := hnext w
  rcases hrun : first.runOn w with ⟨fault | a, t⟩ <;> rw [hrun] at hanswer
  · exact ⟨events, .stopped hrun hhappens, hevents⟩
  · obtain ⟨more, hmore, hevents'⟩ := hanswer a rfl t
    exact ⟨events ++ more, .went hrun hhappens hmore,
      List.forall_mem_append.mpr ⟨hevents, hevents'⟩⟩

theorem bind {first : Action World α} {next : α → Action World β} (hfirst : Yields R P first)
    (hnext : ∀ a, Yields R P (next a)) : Yields R P (first >>= next) :=
  hfirst.bind_of fun _ a _ => hnext a

theorem ite {condition : Prop} [Decidable condition] {first other : Action World α}
    (hfirst : Yields R P first) (hother : Yields R P other) :
    Yields R P (if condition then first else other) := by
  split
  · exact hfirst
  · exact hother

variable [IsPreorder World R]

theorem pure (a : α) : Yields R P (Pure.pure a) := of_obeys (.pure a)

theorem throw (fault : Fault) : Yields R P (MonadExcept.throw fault : Action World α) :=
  of_obeys (.throw fault)

theorem bind_ofExcept {outcome : Except Fault α} {next : α → Action World β}
    (hnext : ∀ a, outcome = .ok a → Yields R P (next a)) :
    Yields R P (Action.ofExcept outcome >>= next) :=
  (of_obeys (.ofExcept outcome)).bind_of fun w a h => hnext a (by rwa [Action.runOn_ofExcept] at h)

theorem discard {action : Action World α} (h : Yields R P action) :
    Yields R P (Functor.discard action) := by
  rw [Action.discard_eq]
  exact h.bind fun _ => pure _

theorem mapM {items : List γ} {action : γ → Action World α}
    (h : ∀ item, Yields R P (action item)) : Yields R P (items.mapM action) := by
  induction items with
  | nil => exact pure _
  | cons item rest ih =>
    rw [List.mapM_cons]
    exact (h item).bind fun _ => ih.bind fun _ => pure _

end Yields

/-! ## 2. Reading -/

/-- An entity is made of a row, without columns that are left out. -/
def FromRow (S : List String → Prop) (e : Event) : Prop :=
  ∃ ref model excluded row, e = .hydrated ref model excluded row ∧ S excluded

/-- An action that makes entities of rows, and nothing else. -/
abbrev Hydrates (S : List String → Prop) (action : Action World α) : Prop :=
  Yields Still (FromRow S) action

variable {S : List String → Prop}

theorem hydrate_hydrates (model : Nat) (session : String) {excluded : List String}
    (h : S excluded) (row : Row) : Hydrates S (hydrate model session excluded row) := by
  intro w
  rcases hrun : (hydrate model session excluded row).runOn w with ⟨fault | ref, t⟩
  · exact ⟨[], .unhydrated hrun, List.forall_mem_nil _⟩
  · refine ⟨_, .hydrated hrun, fun e he => ?_⟩
    exact ⟨ref, model, excluded, row, List.mem_singleton.mp he, h⟩

theorem select_hydrates (session : String) (model : Nat) {excluded : List String}
    (h : S excluded) (f : Sql.Fragment) : Hydrates S (select session model excluded f) :=
  .bind (.of_obeys (query_still f)) fun _ => .bind_ofExcept fun _ _ =>
    .mapM fun row => hydrate_hydrates model session h row

theorem fetch_hydrates (session : String) (model : Nat) (h : S []) :
    Hydrates S (fetch session model) :=
  .bind (.of_obeys (reading_still _)) fun _ => .bind_ofExcept fun f _ =>
    select_hydrates session model h f

theorem findAll_hydrates (session : String) (model : Nat) {o : FindOptions} (h : S o.exclude) :
    Hydrates S (findAll session model o) :=
  .bind (.of_obeys (reading_still _)) fun _ => .bind_ofExcept fun f _ =>
    select_hydrates session model h f

theorem findOne_hydrates (session : String) (model : Nat) {o : FindOptions} (h : S o.exclude) :
    Hydrates S (findOne session model o) := by
  have hfind (mapper : Mapper) : Hydrates S (do
      let statement ← Action.ofExcept (selection mapper o (some 1) none)
      return (← select session model o.exclude statement).head?) :=
    .bind_ofExcept fun f _ => .bind (select_hydrates session model h f) fun _ => .pure _
  exact .bind (.of_obeys (reading_still _)) fun mapper => .ite
    (.bind (.of_obeys .get) fun _ => .bind (.throw _) fun _ => hfind mapper) (hfind mapper)

theorem findById_hydrates (session : String) (model : Nat) (key : Value) (h : S []) :
    Hydrates S (findById session model key) := by
  have hfind (mapper : Mapper) : Hydrates S (do
      findOne session model (← Action.ofExcept (keyOptions mapper key))) :=
    .bind_ofExcept fun o ho => findOne_hydrates session model (keyOptions_exclude ho ▸ h)
  exact .bind (.of_obeys (reading_still _)) fun mapper => .ite
    (.bind (.of_obeys .get) fun _ => .bind (.throw _) fun _ => hfind mapper) (hfind mapper)

theorem findStrictly_hydrates (session : String) (model : Nat) {o : FindOptions}
    (h : ∀ m, S (withKey m o).exclude) : Hydrates S (findStrictly session model o) := by
  refine .bind (.of_obeys (reading_still _)) fun mapper =>
    .bind (findOne_hydrates session model (h mapper)) fun found => ?_
  cases found with
  | some ref => exact .pure ref
  | none => exact .bind (.of_obeys .get) fun _ => .throw _

/-! ## 3. Loading -/

theorem ownerKey_still (ref : EntityRef) (a : Association) : (ownerKey ref a).Obeys Still :=
  .bind (reading_still _) fun _ => .guarded fun _ => .pure _

theorem ownedFilter_still (ref : EntityRef) (a : Association) : (ownedFilter ref a).Obeys Still :=
  .bind (ownerKey_still ref a) fun _ => reading_still _

/-- What the rows of a relation are made without: nothing for the rows of a joining table, and for
the others what the shape says. -/
def LeftOut (shape : Shape) (excluded : List String) : Prop :=
  excluded = [] ∨ ∃ filter o, relatedOptions filter shape = .ok o ∧ excluded = o.exclude

theorem findRelated_hydrates (session : String) (model : Nat) (filter : Value) (shape : Shape) :
    Hydrates (LeftOut shape) (findRelated session model filter shape) :=
  .bind_ofExcept fun o ho => .bind (findOne_hydrates session model (.inr ⟨filter, o, ho, rfl⟩))
    fun _ => .pure _

theorem joined_hydrates (session : String) (target : Nat) (otherKey key : Value) (shape : Shape)
    (row : EntityRef) : Hydrates (LeftOut shape) (joined session target otherKey key shape row) :=
  .bind (.of_obeys (reading_still _)) fun _ => .ite (.pure _)
    (.bind (.of_obeys (reading_still _)) fun filter => .bind_ofExcept fun o ho =>
      findOne_hydrates session target (.inr ⟨filter, o, ho, rfl⟩))

theorem loadThrough_hydrates (session : String) (ref : EntityRef) (a : Association)
    (otherKey key : Value) (shape : Shape) :
    Hydrates (LeftOut shape) (loadThrough session ref a otherKey key shape) :=
  .bind_ofExcept fun through _ => .bind (.of_obeys (ownedFilter_still ref a)) fun _ =>
    .bind_ofExcept fun _ ho =>
    .bind (findAll_hydrates session through (.inl (exclude_of_filter ho))) fun _ =>
    .bind_ofExcept fun target _ =>
    .bind (.mapM fun row => joined_hydrates session target otherKey key shape row) fun _ =>
    .bind (.of_obeys (debug_still _ _)) fun _ => .pure _

theorem load_hydrates (session : String) (ref : EntityRef) (a : Association) (shape : Shape) :
    Hydrates (LeftOut shape) (load session ref a shape) := by
  rw [load]
  split
  · exact .bind (.of_obeys (ownedFilter_still ref a)) fun _ => .bind_ofExcept fun model _ =>
      findRelated_hydrates session model _ shape
  · exact .bind (.of_obeys (ownedFilter_still ref a)) fun filter => .bind_ofExcept fun model _ =>
      .bind_ofExcept fun o ho =>
      .bind (findAll_hydrates session model (.inr ⟨filter, o, ho, rfl⟩)) fun _ => .pure _
  · exact .bind (.of_obeys (reading_still _)) fun _ => .ite (.pure _)
      (.bind_ofExcept fun model _ => .bind (.of_obeys (reading_still _)) fun _ =>
        findRelated_hydrates session model _ shape)
  · exact loadThrough_hydrates session ref a _ _ shape

/-! ## 4. Writing and linking -/

/-- An action whose events are known, wherever it runs. -/
abbrev Told (action : Action World α) : Prop := Yields (Lives []) (fun _ => True) action

theorem Yields.told {action : Action World α} (hR : ∀ w w', R w w' → Lives [] w w')
    (h : Yields R P action) : Told action := h.mono hR fun _ _ => trivial

theorem Hydrates.lives {action : Action World α} (h : Hydrates S action) :
    Yields (Lives []) (FromRow S) action :=
  Yields.mono (fun _ _ hstill => hstill.quiet.lives) (fun _ he => he) h

theorem Hydrates.told {action : Action World α} (h : Hydrates S action) : Told action :=
  Yields.told (fun _ _ h => h) h.lives

theorem told_of_quiet {action : Action World α} (h : action.Obeys Quiet) : Told action :=
  .of_obeys (lives_of_quiet h)

theorem told_of_still {action : Action World α} (h : action.Obeys Still) : Told action :=
  told_of_quiet (quiet_of_still h)

theorem save_yields (ref : EntityRef) : Yields (Lives []) (· = .saved ref) (save ref) := by
  intro w
  rcases hrun : (save ref).runOn w with ⟨fault | key, t⟩
  · exact ⟨[], .unsaved hrun, List.forall_mem_nil _⟩
  · exact ⟨[.saved ref], .saved hrun, fun e he => List.mem_singleton.mp he⟩

theorem save_told (ref : EntityRef) : Told (save ref) := (save_yields ref).told fun _ _ h => h

theorem delete_told (ref : EntityRef) : Told (delete ref) := by
  intro w
  by_cases h : Affected w ((delete ref).runOn w).2
  · exact ⟨[.deleted ref], .deleted h, fun _ _ => trivial⟩
  · exact ⟨[], .undeleted h, List.forall_mem_nil _⟩

theorem create_told (session : String) (model : Nat) (properties : Dictionary Value) :
    Told (create session model properties) :=
  .bind (told_of_quiet (make_quiet model properties)) fun ref =>
    .bind (told_of_quiet (bindTo_quiet session ref)) fun _ =>
      .bind (save_told ref) fun _ => .pure ref

theorem findOneAndDelete_told (session : String) (model : Nat) (o : FindOptions) :
    Told (findOneAndDelete session model o) :=
  .bind (findStrictly_hydrates (S := fun _ => True) session model fun _ => trivial).told delete_told

theorem findOneAndUpdate_yields (session : String) (model : Nat) (o : FindOptions) (data : Value) :
    Yields (Lives []) (FromRow fun _ => True) (findOneAndUpdate session model o data) :=
  .bind (findStrictly_hydrates session model fun _ => trivial).lives fun ref =>
    .bind (.of_obeys (lives_of_quiet (setProperties_quiet ref data))) fun _ =>
    .bind (.of_obeys (lives_of_quiet (quiet_of_still (update_still ref)))) fun _ => .pure ref

theorem findByIdAndDelete_told (session : String) (model : Nat) (key : Value) :
    Told (findByIdAndDelete session model key) := by
  refine .bind (told_of_still (reading_still _)) fun _ =>
    .bind (findById_hydrates (S := fun _ => True) session model key trivial).told fun found => ?_
  cases found with
  | some ref => exact delete_told ref
  | none => exact .bind (told_of_still .get) fun _ => .throw _

theorem findByIdAndUpdate_yields (session : String) (model : Nat) (key data : Value) :
    Yields (Lives []) (FromRow fun _ => True) (findByIdAndUpdate session model key data) := by
  refine .bind (findById_hydrates session model key trivial).lives fun found => ?_
  cases found with
  | none => exact .pure _
  | some ref =>
    exact .bind (.of_obeys (lives_of_quiet (setProperties_quiet ref data))) fun _ =>
      .bind (.of_obeys (lives_of_quiet (quiet_of_still (update_still ref)))) fun _ => .pure _

theorem findOrCreate_told (session : String) (model : Nat) (o : FindOptions) (defaults : Value) :
    Told (findOrCreate session model o defaults) := by
  refine .bind (findOne_hydrates (S := fun _ => True) session model trivial).told fun found => ?_
  cases found with
  | some ref => exact .pure _
  | none =>
    exact .bind (told_of_still (reading_still _)) fun properties =>
      .bind (create_told session model properties) fun _ =>
      .bind (told_of_still (debug_still _ _)) fun _ => .pure _

theorem associationOfEntity_registers (ref : EntityRef) (name : Value) :
    (associationOfEntity ref name).Obeys Registers :=
  .bind .get fun _ => associationOf_registers _ name

theorem populate_yields (ref : EntityRef) (relation : Value) (shape : Shape) :
    Yields (Lives []) (FromRow (LeftOut shape)) (populate ref relation shape) :=
  .bind (.of_obeys (lives_of_quiet (quiet_of_still (sessionOf_still ref)))) fun session =>
    .bind (.of_obeys (lives_of_registers (associationOfEntity_registers ref relation))) fun a =>
    .bind (load_hydrates session ref a shape).lives fun _ =>
    .of_obeys (lives_of_quiet (holdAttribute_quiet ref relation _))

theorem setForeign_quiet (ref : EntityRef) (foreignKey value : Value) :
    (setForeign ref foreignKey value).Obeys Quiet := by
  rw [setForeign]
  split
  · exact setAttribute_quiet ref _ value
  · exact .throw _

theorem attachForWrite_lives (ref : EntityRef) (target relation : Value) :
    (attachForWrite ref target relation).Obeys (Lives []) :=
  .bind (lives_of_quiet (quiet_of_still (sessionOf_still ref))) fun session =>
    .bind (lives_of_registers (associationOfEntity_registers ref relation)) fun a => .guarded fun _ =>
    .bind (lives_of_quiet (quiet_of_still (reading_still _))) fun other =>
    .bind (lives_of_quiet (quiet_of_still (ownerKey_still ref a))) fun key =>
    .bind (lives_of_quiet (setForeign_quiet other a.foreignKey key)) fun _ => .bind .get fun _ =>
    .ite (.bind (lives_of_quiet (bindTo_quiet session other)) fun _ => .pure _) (.pure _)

/-- Holding a linked entity cannot fail. -/
theorem holdLinked_runOn (ref : EntityRef) (a : Association) (relation : Value)
    (target : EntityRef) (w : World) :
    ∃ t, (holdLinked ref a relation target).runOn w = (.ok (), t) ∧ Quiet w t := by
  have hhold (value : Value) : ∃ t, (holdAttribute ref relation value).runOn w = (.ok (), t) ∧
      Quiet w t := ⟨_, rfl, holdAttribute_quiet ref relation value w⟩
  rw [holdLinked, Action.runOn_bind_ok (Action.runOn_get w)]
  dsimp only
  split
  · exact ⟨_, rfl, Nat.le_refl _, fun _ => rfl, fun _ h => h, fun _ _ => rfl, rfl⟩
  · exact hhold _
  · exact hhold _

/-- Writes an entity: as a new row if it has no key. -/
def writeLinked (ref : EntityRef) : Action World Unit := do
  if (← reading (·.keyValue ref)).isNull then discard (save ref) else discard (update ref)

theorem attach_parts (ref : EntityRef) (target relation : Value) :
    attach ref target relation = (do
      let (a, other) ← attachForWrite ref target relation
      writeLinked other
      holdLinked ref a relation other) := by
  have hite {α β : Type} (c : Prop) [Decidable c] (first other : Action World α)
      (next : α → Action World β) : (if c then first else other) >>= next =
        if c then first >>= next else other >>= next := by
    split <;> rfl
  simp only [attach_eq, writeLinked, bind_assoc, hite]

theorem writeLinked_told (ref : EntityRef) : Told (writeLinked ref) :=
  .bind (told_of_still (reading_still _)) fun _ =>
    .ite (.discard (save_told ref)) (.discard (told_of_still (update_still ref)))

theorem attach_told (ref : EntityRef) (target relation : Value) :
    Told (attach ref target relation) := by
  rw [attach_parts]
  refine .bind (.of_obeys (attachForWrite_lives ref target relation)) fun (a, other) =>
    .bind (writeLinked_told other) fun _ => told_of_quiet fun w => ?_
  obtain ⟨t, hrun, hquiet⟩ := holdLinked_runOn ref a relation other w
  rw [hrun]
  exact hquiet

/-! ## 5. Failing -/

/-- The entities that were there have the states that they had. -/
structure Spares (w w' : World) : Prop where
  entities_le : w.entities.length ≤ w'.entities.length
  state_eq : ∀ ref, ref.id < w.entities.length → (w'.entityAt ref).state = (w.entityAt ref).state

instance : IsPreorder World Spares where
  refl _ := ⟨Nat.le_refl _, fun _ _ => rfl⟩
  trans _ _ _ h h' := ⟨Nat.le_trans h.entities_le h'.entities_le, fun ref hin =>
    (h'.state_eq ref (Nat.lt_of_lt_of_le hin h.entities_le)).trans (h.state_eq ref hin)⟩

/-- Events of new entities leave the others alone. -/
theorem Lives.spares {events : List Event} (h : Lives events w w')
    (hnew : ∀ e ∈ events, w.entities.length ≤ e.entity.id) : Spares w w' where
  entities_le := h.entities_le
  state_eq ref hin := by
    rw [h.state_eq, stateAfter_of_others]
    intro e he heq
    exact absurd hin (Nat.not_lt_of_le (heq ▸ hnew e he))

theorem spares_of_quiet {action : Action World α} (h : action.Obeys Quiet) :
    action.Obeys Spares := h.mono fun _ _ hquiet => hquiet.lives.spares (List.forall_mem_nil _)

/-- Making entities of rows leaves the others alone. -/
theorem Yields.spares {action : Action World α} (h : Yields (Lives []) (FromRow S) action) :
    action.Obeys Spares := by
  intro w
  obtain ⟨events, hhappens, hevents⟩ := h w
  refine (hhappens.lives fun _ _ h => h).spares fun e he => ?_
  obtain ⟨ref, model, excluded, row, rfl, -⟩ := hevents e he
  exact hhappens.made (fun _ _ h => h) he

theorem Hydrates.spares {action : Action World α} (h : Hydrates S action) : action.Obeys Spares :=
  Yields.spares h.lives

theorem make_runOn {model : Nat} {properties : Dictionary Value} {ref : EntityRef}
    (hrun : (make model properties).runOn w = (.ok ref, t)) : ref.id = w.entities.length := by
  rw [make, Action.runOn_bind_ok (Action.runOn_get w),
    Action.runOn_bind_ok (addEntity_runOn _ w)] at hrun
  obtain ⟨_, _, -, hrun⟩ := Action.runOn_bind_eq_ok.mp hrun
  cases hrun
  rfl

/-- What is created is a new entity, and no other is touched. -/
theorem create_spares (session : String) (model : Nat) (properties : Dictionary Value) :
    (create session model properties).Obeys Spares := by
  intro w
  rw [create, Action.runOn_bind]
  rcases hmake : (make model properties).runOn w with ⟨fault | ref, t⟩
  · exact ((make_quiet model properties).of_run hmake).lives.spares (List.forall_mem_nil _)
  have hwrite : Yields (Lives []) (· = .saved ref) (do
      bindTo session ref
      let _ ← save ref
      return ref : Action World EntityRef) :=
    .bind (.of_obeys (lives_of_quiet (bindTo_quiet session ref))) fun _ =>
      .bind (save_yields ref) fun _ => .pure ref
  obtain ⟨events, hhappens, hevents⟩ := hwrite t
  have hlives := ((make_quiet model properties).of_run hmake).lives.trans
    (hhappens.lives fun _ _ h => h)
  refine hlives.spares fun e he => ?_
  rw [hevents e he]
  exact Nat.le_of_eq (make_runOn hmake).symm

theorem findOrCreate_spares (session : String) (model : Nat) (o : FindOptions) (defaults : Value) :
    (findOrCreate session model o defaults).Obeys Spares := by
  refine .bind (findOne_hydrates (S := fun _ => True) session model trivial).spares fun found => ?_
  cases found with
  | some ref => exact .pure _
  | none =>
    exact .bind (spares_of_quiet (quiet_of_still (reading_still _))) fun properties =>
      .bind (create_spares session model properties) fun _ =>
      .bind (spares_of_quiet (quiet_of_still (debug_still _ _))) fun _ => .pure _

/-- An action that leaves the states of entities that were there alone where it fails. -/
def Sparing (action : Action World α) : Prop :=
  ∀ w fault t, action.runOn w = (.error fault, t) → Spares w t

theorem Sparing.of_obeys {action : Action World α} (h : action.Obeys Spares) : Sparing action :=
  Action.FailsIn.of_obeys h

theorem Sparing.bind {first : Action World α} {next : α → Action World β}
    (hfirst : first.Obeys Spares) (hnext : ∀ a, Sparing (next a)) : Sparing (first >>= next) :=
  Action.FailsIn.bind hfirst hnext

/-- What cannot fail may follow. -/
theorem Sparing.then_safe {first : Action World α} {next : α → Action World β}
    (hfirst : Sparing first) (hnext : ∀ a w, ∃ b t, (next a).runOn w = (.ok b, t)) :
    Sparing (first >>= next) := Action.FailsIn.then_safe hfirst hnext

theorem Sparing.then_pure {action : Action World α} {answer : α → β} (h : Sparing action) :
    Sparing (action >>= fun a => pure (answer a)) := h.then_safe fun _ _ => ⟨_, _, rfl⟩

theorem save_sparing (ref : EntityRef) : Sparing (save ref) :=
  fun _ _ _ hrun => (save_error hrun).lives.spares (List.forall_mem_nil _)

theorem delete_sparing (ref : EntityRef) : Sparing (delete ref) := by
  intro w fault t hrun
  have hnone : ¬Affected w ((delete ref).runOn w).2 := by
    rw [delete_affected, hrun]
    rintro ⟨⟩
  have hstill := delete_none hnone
  rw [hrun] at hstill
  exact hstill.quiet.lives.spares (List.forall_mem_nil _)

theorem findOneAndDelete_sparing (session : String) (model : Nat) (o : FindOptions) :
    Sparing (findOneAndDelete session model o) :=
  .bind (findStrictly_hydrates (S := fun _ => True) session model fun _ => trivial).spares
    delete_sparing

theorem findByIdAndDelete_sparing (session : String) (model : Nat) (key : Value) :
    Sparing (findByIdAndDelete session model key) := by
  refine .bind (spares_of_quiet (quiet_of_still (reading_still _))) fun _ =>
    .bind (findById_hydrates (S := fun _ => True) session model key trivial).spares fun found => ?_
  cases found with
  | some ref => exact delete_sparing ref
  | none => exact .of_obeys (.bind .get fun _ => .throw _)

theorem writeLinked_sparing (ref : EntityRef) : Sparing (writeLinked ref) := by
  refine .bind (spares_of_quiet (quiet_of_still (reading_still _))) fun key => ?_
  split
  · rw [Action.discard_eq]
    exact (save_sparing ref).then_pure
  · exact .of_obeys (spares_of_quiet (quiet_of_still (.discard (update_still ref))))

/-- When an entity was written, linking it cannot fail any more. -/
theorem attach_sparing (ref : EntityRef) (target relation : Value) :
    Sparing (attach ref target relation) := by
  rw [attach_parts]
  refine .bind ((attachForWrite_lives ref target relation).mono fun _ _ h =>
    h.spares (List.forall_mem_nil _))
    fun way => (writeLinked_sparing way.2).then_safe fun _ w => ?_
  obtain ⟨t, hrun, -⟩ := holdLinked_runOn ref way.1 relation way.2 w
  exact ⟨(), t, hrun⟩

/-! ## 6. Columns -/

theorem keepsColumns_of_still {action : Action World α} (h : action.Obeys Still) :
    action.Obeys KeepsColumns := h.mono along_keepsColumns.still

theorem keepsColumns_of_quiet {action : Action World α} (h : action.Obeys Quiet) :
    action.Obeys KeepsColumns := h.mono fun _ _ hquiet => congrArg _ hquiet.registry_eq

theorem setState_keepsColumns (ref : EntityRef) (state : Lifecycle) :
    (setState ref state).Obeys KeepsColumns := fun _ => rfl

theorem save_keepsColumns (ref : EntityRef) : (save ref).Obeys KeepsColumns := by
  have hread {α : Type} (read : World → Except Fault α) : (reading read).Obeys KeepsColumns :=
    reading_along along_keepsColumns read
  have hend : (do
      setState ref .persistent
      reading (·.keyValue ref)).Obeys KeepsColumns :=
    .bind (setState_keepsColumns ref _) fun _ => hread _
  refine .bind (keepsColumns_of_still (sessionOf_still ref)) fun _ => .bind (hread _) fun mapper =>
    .bind .get fun w => .bind (keepsColumns_of_quiet (insertData_quiet ref mapper.key _)) fun _ =>
    .bind (.ofExcept _) fun f => .bind (keepsColumns_of_still (query_still f)) fun _ =>
    .bind (hread _) fun key => .ite ?_ hend
  exact .bind (.ofExcept _) fun _ =>
    .bind (keepsColumns_of_quiet (setAttribute_quiet ref _ _)) fun _ => hend

theorem delete_keepsColumns (ref : EntityRef) : (delete ref).Obeys KeepsColumns :=
  .bind (keepsColumns_of_still (sessionOf_still ref)) fun _ =>
    .bind (reading_along along_keepsColumns _) fun _ =>
    .bind (reading_along along_keepsColumns _) fun _ => .bind (.ofExcept _) fun f =>
    .bind (keepsColumns_of_still (query_still f)) fun _ => .bind (.ofExcept _) fun _ =>
    .ite (.bind (setState_keepsColumns ref _) fun _ => .pure _) (.pure _)

theorem Happens.keepsColumns {action : Action World α} {events : List Event}
    (h : Happens Still action w events) : KeepsColumns w (action.runOn w).2 := by
  induction h with
  | nothing h => exact keepsColumns_of_still h _
  | hydrated hrun => exact congrArg _ (hydrate_adds _ _ _ _ _).registry_eq
  | unhydrated hrun => exact congrArg _ (hydrate_adds _ _ _ _ _).registry_eq
  | saved hrun => exact save_keepsColumns _ _
  | unsaved hrun => exact save_keepsColumns _ _
  | deleted h => exact delete_keepsColumns _ _
  | undeleted h => exact delete_keepsColumns _ _
  | stopped hrun _ ih =>
    rw [Action.runOn_bind_error hrun]
    rwa [hrun] at ih
  | went hrun _ _ ih ihnext =>
    rw [Action.runOn_bind_ok hrun]
    rw [hrun] at ih
    exact trans_of KeepsColumns ih ihnext

theorem Hydrates.keepsColumns {action : Action World α} (h : Hydrates S action) :
    action.Obeys KeepsColumns := by
  intro w
  obtain ⟨events, hhappens, -⟩ := h w
  exact hhappens.keepsColumns

theorem create_keepsColumns (session : String) (model : Nat) (properties : Dictionary Value) :
    (create session model properties).Obeys KeepsColumns :=
  .bind (keepsColumns_of_quiet (make_quiet model properties)) fun ref =>
    .bind (keepsColumns_of_quiet (bindTo_quiet session ref)) fun _ =>
    .bind (save_keepsColumns ref) fun _ => .pure ref

theorem findByIdAndDelete_keepsColumns (session : String) (model : Nat) (key : Value) :
    (findByIdAndDelete session model key).Obeys KeepsColumns := by
  refine .bind (reading_along along_keepsColumns _) fun _ =>
    .bind (findById_hydrates (S := fun _ => True) session model key trivial).keepsColumns
    fun found => ?_
  cases found with
  | some ref => exact delete_keepsColumns ref
  | none => exact .bind .get fun _ => .throw _

theorem findByIdAndUpdate_keepsColumns (session : String) (model : Nat) (key data : Value) :
    (findByIdAndUpdate session model key data).Obeys KeepsColumns := by
  refine .bind (findById_hydrates (S := fun _ => True) session model key trivial).keepsColumns
    fun found => ?_
  cases found with
  | none => exact .pure _
  | some ref =>
    exact .bind (keepsColumns_of_quiet (setProperties_quiet ref data)) fun _ =>
      .bind (keepsColumns_of_still (update_still ref)) fun _ => .pure _

theorem findOrCreate_keepsColumns (session : String) (model : Nat) (o : FindOptions)
    (defaults : Value) : (findOrCreate session model o defaults).Obeys KeepsColumns := by
  refine .bind (findOne_hydrates (S := fun _ => True) session model trivial).keepsColumns
    fun found => ?_
  cases found with
  | some ref => exact .pure _
  | none =>
    exact .bind (reading_along along_keepsColumns _) fun properties =>
      .bind (create_keepsColumns session model properties) fun _ =>
      .bind (keepsColumns_of_still (debug_still _ _)) fun _ => .pure _

theorem populate_keepsColumns (ref : EntityRef) (relation : Value) (shape : Shape) :
    (populate ref relation shape).Obeys KeepsColumns :=
  .bind (keepsColumns_of_still (sessionOf_still ref)) fun session =>
    .bind (.bind .get fun _ => associationOf_along along_keepsColumns _ relation) fun a =>
    .bind (load_hydrates session ref a shape).keepsColumns fun _ =>
    keepsColumns_of_quiet (holdAttribute_quiet ref relation _)

end RowMapper.World
