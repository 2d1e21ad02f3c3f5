import RowMapper.Proofs.Entity.Course
import RowMapper.Proofs.Script.Visit

/-!
# The lives of entities in a run

A run goes from one operation to the next, and between them neither the entities nor the classes
change (`runSteps_passes`).  The events of each operation are known (`Operation.run_orderly`), so in
every run, whatever the database replies, an entity is transient until its first event and has the
state of its latest event from then on (`states_follow_events`).
-/
namespace RowMapper.World

variable {α β : Type} {S : List String → Prop} {w t w' : World}

/-! ## 1. Operations -/

/-- An action whose events are known, and that leaves the states of entities that were there alone
where it fails. -/
structure Orderly (action : Action World α) : Prop where
  told : Told action
  sparing : Sparing action

namespace Orderly

theorem of_yields {action : Action World α} (h : Yields (Lives []) (FromRow S) action) :
    Orderly action := ⟨h.told fun _ _ hl => hl, .of_obeys h.spares⟩

theorem of_lives {action : Action World α} (h : action.Obeys (Lives [])) : Orderly action :=
  ⟨.of_obeys h, .of_obeys (h.mono fun _ _ hl => hl.spares (List.forall_mem_nil _))⟩

theorem of_quiet {action : Action World α} (h : action.Obeys Quiet) : Orderly action :=
  of_lives (lives_of_quiet h)

theorem of_registers {action : Action World α} (h : action.Obeys Registers) : Orderly action :=
  of_lives (lives_of_registers h)

theorem of_still {action : Action World α} (h : action.Obeys Still) : Orderly action :=
  of_quiet (quiet_of_still h)

/-- What only reads comes first. -/
theorem read {first : Action World α} {next : α → Action World β} (hfirst : first.Obeys Still)
    (hnext : ∀ a, Orderly (next a)) : Orderly (first >>= next) where
  told := .bind (told_of_still hfirst) fun a => (hnext a).told
  sparing := .bind (spares_of_quiet (quiet_of_still hfirst)) fun a => (hnext a).sparing

theorem then_pure {action : Action World α} {answer : α → β} (h : Orderly action) :
    Orderly (action >>= fun a => pure (answer a)) where
  told := .bind h.told fun _ => .pure _
  sparing := h.sparing.then_pure

theorem ite {condition : Prop} [Decidable condition] {first other : Action World α}
    (hfirst : Orderly first) (hother : Orderly other) :
    Orderly (if condition then first else other) := by
  split
  · exact hfirst
  · exact hother

end Orderly

end RowMapper.World

namespace RowMapper.Script

open World (Happens Hydrates Lives Orderly Quiet Registers Spares Steady Still Told Yields onEngine
  reading reading_still stateAfter)

theorem options_still (model : Nat) (source more : Term) : (options model source more).Obeys Still :=
  .bind (reading_still _) fun _ => .bind (reading_still _) fun _ =>
    .bind (.discard (reading_still _)) fun _ => .ofExcept _

theorem createEntity_orderly (session : String) (id : Nat) (properties : Dictionary Value) :
    Orderly (createEntity session id properties) := by
  have hcreate : Orderly (do return Value.entity (← World.create session id properties)) :=
    .then_pure ⟨World.create_told session id properties,
      .of_obeys (World.create_spares session id properties)⟩
  have hrest : Orderly (do
      if (← get).registry.descends id 0 then
        return Value.entity (← World.create session id properties)
      if properties.isEmpty then throw .noAttribute else throw .wrongType : Action World Value) :=
    .read .get fun _ => .ite hcreate (.of_still (.ite (.throw _) (.throw _)))
  exact .ite (.read (.throw _) fun _ => hrest) hrest

theorem defineClass_registers (d : Draft) : (defineClass d).Obeys Registers :=
  .bind (World.registers_of_still (reading_still _)) fun _ => World.defineShared_registers _

/-- The events of every operation are known, and an operation that fails leaves the entities that
were there in their states. -/
theorem Operation.run_orderly (session : String) (operation : Operation) :
    Orderly (operation.run session) := by
  cases operation with
  | findOne key source more =>
    exact .read (reading_still _) fun id => .read (options_still id source more) fun o =>
      .then_pure (.of_yields (World.findOne_hydrates (S := fun _ => True) session id trivial).lives)
  | findAll key source more =>
    exact .read (reading_still _) fun id => .read (options_still id source more) fun o =>
      .then_pure (.of_yields (World.findAll_hydrates (S := fun _ => True) session id trivial).lives)
  | findOneAndDelete key source more =>
    exact .read (reading_still _) fun id => .read (options_still id source more) fun o =>
      .then_pure ⟨World.findOneAndDelete_told session id o,
        World.findOneAndDelete_sparing session id o⟩
  | findOrCreate key source defaults =>
    exact .read (reading_still _) fun id => .read (reading_still _) fun _ =>
      .read (options_still id source noMore) fun o =>
      .then_pure ⟨World.findOrCreate_told session id o _,
        .of_obeys (World.findOrCreate_spares session id o _)⟩
  | findOneAndUpdate key source data =>
    exact .read (reading_still _) fun id => .read (reading_still _) fun _ =>
      .read (options_still id source noMore) fun o =>
      .then_pure (.of_yields (World.findOneAndUpdate_yields session id o _))
  | findById key id =>
    exact .read (reading_still _) fun number => .read (reading_still _) fun id =>
      .then_pure (.of_yields
        (World.findById_hydrates (S := fun _ => True) session number id trivial).lives)
  | findByIdAndDelete key id =>
    exact .read (reading_still _) fun number => .read (reading_still _) fun id =>
      .then_pure ⟨World.findByIdAndDelete_told session number id,
        World.findByIdAndDelete_sparing session number id⟩
  | findByIdAndUpdate key id data =>
    exact .read (reading_still _) fun number => .read (reading_still _) fun id =>
      .read (reading_still _) fun data =>
      .then_pure (.of_yields (World.findByIdAndUpdate_yields session number id data))
  | fetch key =>
    exact .read (reading_still _) fun id =>
      .then_pure (.of_yields (World.fetch_hydrates (S := fun _ => True) session id trivial).lives)
  | describeQuery key =>
    exact .of_still (.bind (reading_still _) fun _ => .bind (.discard (reading_still _)) fun _ =>
      .bind .get fun _ => .pure _)
  | make key given =>
    exact .read (reading_still _) fun id => .read (reading_still _) fun properties =>
      .of_quiet (World.instantiate_quiet id properties)
  | create key given =>
    exact .read (reading_still _) fun id => .read (reading_still _) fun properties =>
      createEntity_orderly session id properties
  | add path =>
    exact .read (reading_still _) fun ref => .then_pure (.of_quiet (World.bindTo_quiet session ref))
  | save path =>
    exact .read (reading_still _) fun ref => ⟨World.save_told ref, World.save_sparing ref⟩
  | update path =>
    exact .read (reading_still _) fun ref => .then_pure (.of_still (World.update_still ref))
  | delete path =>
    exact .read (reading_still _) fun ref =>
      .then_pure ⟨World.delete_told ref, World.delete_sparing ref⟩
  | toDictionary path =>
    exact .of_still (.bind (reading_still _) fun _ => .bind (reading_still _) fun _ =>
      .bind (reading_still _) fun _ => .pure _)
  | set path name given =>
    exact .read (reading_still _) fun ref => .read (reading_still _) fun value =>
      .then_pure (.of_quiet (World.setEntries_quiet ref [(name, value)]))
  | setProperties path given =>
    exact .read (reading_still _) fun ref => .read (reading_still _) fun given =>
      .then_pure (.of_quiet (World.setProperties_quiet ref given))
  | read path => exact .of_still (reading_still _)
  | same path other =>
    exact .of_still (.bind (reading_still _) fun _ => .bind (reading_still _) fun _ => .pure _)
  | inspect path => exact .of_still (.bind (reading_still _) fun _ => reading_still _)
  | populate path relation attributes exclude =>
    exact .read (reading_still _) fun ref => .read (reading_still _) fun attributes =>
      .read (reading_still _) fun exclude =>
      .then_pure (.of_yields (World.populate_yields ref relation ⟨attributes, exclude⟩))
  | attach path target relation =>
    exact .read (reading_still _) fun ref => .read (reading_still _) fun target =>
      .then_pure ⟨World.attach_told ref target relation, World.attach_sparing ref target relation⟩
  | define d =>
    exact .of_registers (.bind (defineClass_registers d) fun _ =>
      World.registers_of_still (reading_still _))
  | declare key word arguments =>
    exact .read (reading_still _) fun id => .of_registers
      (.bind (World.registers_of_still (reading_still _)) fun _ =>
        .bind (World.registers_of_still (reading_still _)) fun arguments =>
        .bind (World.declare_registers id word arguments) fun _ =>
        World.registers_of_still (reading_still _))
  | finalize key =>
    exact .read (reading_still _) fun id => .then_pure (.of_registers (World.finalize_registers id))
  | describeMapper key => exact .of_still (.bind (reading_still _) fun _ => reading_still _)
  | association key name =>
    exact .read (reading_still _) fun id => .read (reading_still _) fun name => .of_registers
      (.bind (World.associationOf_registers id name) fun _ =>
        World.registers_of_still (reading_still _))
  | joiningModel key name =>
    exact .read (reading_still _) fun id => .read (reading_still _) fun name => .of_registers
      (.bind (World.associationOf_registers id name) fun _ => .ofExcept _)
  | classAttribute key name => exact .of_still (.bind (reading_still _) fun _ => reading_still _)
  | tableDefinition key =>
    exact .of_still (.bind (reading_still _) fun _ => .bind (reading_still _) fun _ =>
      .bind (reading_still _) fun _ => .pure _)
  | createTables keys dropFirst =>
    exact .of_still (.bind (.mapM fun _ => reading_still _) fun ids =>
      .bind (World.createTables_still dropFirst ids) fun _ => .pure _)
  | query text params =>
    have hquery (bound : List Value) : (do
        return answerValue (← World.query ⟨text, bound⟩) : Action World Value).Obeys Still :=
      .bind (World.query_still _) fun _ => .pure _
    exact .of_still (.bind (reading_still _) fun _ =>
      .ite (.bind (.ofExcept _) hquery) (.bind (.pure _) hquery))
  | executeScript text =>
    exact .of_still (.bind (World.onEngine_still _) fun _ => .pure _)
  | begin => exact .of_still (.bind (World.onEngine_still _) fun _ => .pure _)
  | commit => exact .of_still (.bind (World.onEngine_still _) fun _ => .pure _)
  | rollback => exact .of_still (.bind (World.onEngine_still _) fun _ => .pure _)
  | close => exact .of_still (.bind (World.onEngine_still _) fun _ => .pure _)

/-! ## 2. Runs -/

theorem keep_still (w : World) (name : Option String) (outcome : Except Fault Value) :
    Still w (keep w name outcome) := by
  cases name with
  | none => exact refl_of Still w
  | some name =>
    cases outcome with
    | ok v => exact World.bind_still name v w
    | error fault => exact refl_of Still w

/-- A run from one world to another that comes to operations one after another.  Between them the
entities and the classes stay as they are. -/
inductive Passes : List Visit → World → World → Prop
  | nothing {w w' : World} (h : Still w w') : Passes [] w w'
  | visit {v : Visit} {vs : List Visit} {w w' : World} (h : Still w v.world)
      (rest : Passes vs v.after w') : Passes (v :: vs) w w'

section Passes

variable {vs vs' : List Visit} {w t w' : World}

theorem Passes.after_still (h : Still w t) (h' : Passes vs t w') : Passes vs w w' := by
  cases h' with
  | nothing hstill => exact .nothing (trans_of Still h hstill)
  | visit hstill rest => exact .visit (trans_of Still h hstill) rest

theorem Passes.append (h : Passes vs w t) (h' : Passes vs' t w') : Passes (vs ++ vs') w w' := by
  induction h with
  | nothing hstill => exact h'.after_still hstill
  | visit hstill _ ih => exact .visit hstill (ih h')

theorem Passes.then_still (h : Passes vs w t) (h' : Still t w') : Passes vs w w' := by
  simpa using h.append (.nothing h')

theorem still_replies (w : World) (replies : List ReplyDraft) : Still w { w with replies } :=
  ⟨rfl, rfl, List.prefix_rfl⟩

end Passes

mutual

/-- A step passes through the operations that it comes to. -/
theorem step_passes : ∀ (step : Step) (w : World), Passes (step.visits w) w (step.run w).2.2
  | .single frame operation, w => by
    rw [Step.visits, Step.run]
    exact .visit (v := ⟨frame.session, operation, _⟩) (still_replies w frame.replies)
      (.nothing (keep_still _ frame.keepAs _))
  | .block frame kind steps abort endReplies, w => by
    have hreplies : Still w { w with replies := frame.replies } := still_replies w _
    have henter := World.onEngine_still kind.enter { w with replies := frame.replies }
    rw [Step.visits, Step.run]
    rcases hentered : (onEngine kind.enter).runOn { w with replies := frame.replies } with
      ⟨fault | _, entered⟩ <;> rw [hentered] at henter
    · exact .nothing (trans_of Still hreplies henter)
    · have hbody := (body_passes steps entered).after_still (trans_of Still hreplies henter)
      have hleave := World.onEngine_still (kind.leave (abortWith abort (runBody steps entered).1))
        { (runBody steps entered).2.2 with replies := endReplies }
      exact ((hbody.then_still (still_replies _ endReplies)).then_still hleave).then_still
        (keep_still _ frame.keepAs _)

/-- The body of a block passes through the operations that it comes to. -/
theorem body_passes : ∀ (steps : List Step) (w : World),
    Passes (bodyVisits steps w) w (runBody steps w).2.2
  | [], w => .nothing (refl_of Still w)
  | step :: rest, w => by
    have hstep := step_passes step w
    rw [bodyVisits, runBody]
    rcases hrun : step.run w with ⟨outcome, report, after⟩
    rw [hrun] at hstep
    have hrest := hstep.append (body_passes rest after)
    cases outcome with
    | ok v => exact hrest
    | error fault =>
      cases step.frame.caught with
      | true => exact hrest
      | false => exact hstep

end

/-- **Nothing changes behind the back of the operations**: a run passes through the operations that
it comes to, and between them the entities and the classes stay as they are. -/
theorem runSteps_passes (steps : List Step) (w : World) :
    Passes (visits steps w) w (runSteps steps w).2 := by
  rw [runSteps_world]
  induction steps generalizing w with
  | nil => exact .nothing (refl_of Still w)
  | cons step rest ih => exact (step_passes step w).append (ih _)

/-- The worlds of a run: the first one, those around each operation, and the last one. -/
def moments (steps : List Step) (w : World) : List World :=
  w :: (visits steps w).flatMap (fun v => [v.world, v.after]) ++ [(runSteps steps w).2]

/-- What holds from before to after each operation holds from any moment to any later one. -/
theorem moments_pairwise {Q : World → World → Prop} [IsPreorder World Q]
    (hstill : ∀ w w', Still w w' → Q w w')
    (hrun : ∀ session (operation : Operation), (operation.run session).Obeys Q)
    (steps : List Step) (w : World) : (moments steps w).Pairwise Q := by
  have hcons {w t : World} {later : List World} (h : Q w t) (hlater : (t :: later).Pairwise Q) :
      (w :: t :: later).Pairwise Q := by
    refine List.pairwise_cons.mpr ⟨List.forall_mem_cons.mpr ⟨h, fun u hu => ?_⟩, hlater⟩
    exact trans_of Q h ((List.pairwise_cons.mp hlater).1 u hu)
  have hpasses : ∀ {vs : List Visit} {w w' : World}, Passes vs w w' →
      (w :: vs.flatMap (fun v => [v.world, v.after]) ++ [w']).Pairwise Q := by
    intro vs w w' h
    induction h with
    | nothing h => simpa using hstill _ _ h
    | @visit v _ _ _ h _ ih =>
      exact hcons (hstill _ _ h) (hcons (hrun v.session v.operation v.world) ih)
  exact hpasses (runSteps_passes steps w)

/-- A run starts without entities. -/
theorem start_entities (logStatements : Bool) (drafts : List Draft) :
    (start logStatements drafts).entities = [] := by
  have hdefine (d : Draft) : (defineClass d >>= definedValue d.isMixin).Obeys Registers := by
    refine .bind (defineClass_registers d) fun id => ?_
    cases d.isMixin with
    | true => exact .pure _
    | false => exact World.registers_of_still (reading_still _)
  have hall : ∀ (drafts : List Draft) (w : World), (defineAll drafts w).2.entities = w.entities := by
    intro drafts
    induction drafts with
    | nil => exact fun _ => rfl
    | cons d rest ih =>
      intro w
      have hrest := ih ((defineClass d >>= definedValue d.isMixin).runOn w).2
      rw [defineAll_world] at hrest ⊢
      exact hrest.trans (hdefine d w).entities_eq
  exact hall drafts _

end RowMapper.Script
