import RowMapper.Proofs.Entity.Call
import RowMapper.Proofs.Script.Block

/-!
# Who asked

A run comes to operations one after another, inside blocks and outside; `visits` lists them, each
with the world in which it starts.  Whatever a run asks of the database was asked by one of them or
is a command with which a block is entered or left (`runSteps_accounted`).  So what holds of each
operation in every world holds of every run, and since each visited world is sound, it is enough
that it holds in sound worlds.
-/
namespace RowMapper.Script

open Connection (beginText commitText rollbackText)
open World (Asked CallKind Leads Sends onEngine reading reading_sends)

/-! ## 1. Single operations -/

/-- What an operation may ask for. -/
def Operation.kinds : Operation → List CallKind
  | .findOne _ _ _ | .findAll _ _ _ | .findById _ _ | .fetch _ | .populate _ _ _ _ => [.selection]
  | .findOneAndDelete _ _ _ | .findByIdAndDelete _ _ => [.selection, .removal]
  | .findOneAndUpdate _ _ _ | .findByIdAndUpdate _ _ _ => [.selection, .change]
  | .findOrCreate _ _ _ => [.selection, .insertion]
  | .create _ _ | .save _ => [.insertion]
  | .update _ => [.change]
  | .delete _ => [.removal]
  | .attach _ _ _ => [.insertion, .change]
  | .createTables _ _ => [.definition]
  | .query text _ => [.given text]
  | .executeScript _ => [.script]
  | .begin | .commit | .rollback | .close => [.control]
  | _ => []

/-- Commands for transactions are calls of control. -/
theorem controls (text : String) (h : text ∈ [beginText, commitText, rollbackText]) :
    ∃ kind ∈ [CallKind.control], Asked kind (.statement text []) :=
  ⟨.control, List.mem_singleton_self _, .control h⟩

variable {kinds : List CallKind}

theorem options_sends (model : Nat) (source more : Term) :
    Sends kinds (options model source more) :=
  .bind (reading_sends _) fun _ => .bind (reading_sends _) fun _ =>
    .bind (.discard (reading_sends _)) fun _ => .ofExcept _

theorem createEntity_sends (session : String) (id : Nat) (properties : Dictionary Value) :
    Sends [.insertion] (createEntity session id properties) :=
  .guarded fun _ => .bind .get fun _ => .ite
    (.bind (World.create_sends session id properties) fun _ => .pure _)
    (.ite (.throw _) (.throw _))

/-- An operation asks for nothing but what it is there for. -/
theorem Operation.run_sends (session : String) (operation : Operation) :
    Sends operation.kinds (operation.run session) := by
  cases operation with
  | findOne key source more =>
    exact .bind (reading_sends _) fun id => .bind (options_sends id source more) fun o =>
      .bind (World.findOne_sends session id o) fun _ => .pure _
  | findAll key source more =>
    exact .bind (reading_sends _) fun id => .bind (options_sends id source more) fun o =>
      .bind (World.findAll_sends session id o) fun _ => .pure _
  | findOneAndDelete key source more =>
    exact .bind (reading_sends _) fun id => .bind (options_sends id source more) fun o =>
      .bind (World.findOneAndDelete_sends session id o) fun _ => .pure _
  | findOrCreate key source defaults =>
    exact .bind (reading_sends _) fun id => .bind (reading_sends _) fun _ =>
      .bind (options_sends id source noMore) fun o =>
      .bind (World.findOrCreate_sends session id o _) fun _ => .pure _
  | findOneAndUpdate key source data =>
    exact .bind (reading_sends _) fun id => .bind (reading_sends _) fun _ =>
      .bind (options_sends id source noMore) fun o =>
      .bind (World.findOneAndUpdate_sends session id o _) fun _ => .pure _
  | findById key id =>
    exact .bind (reading_sends _) fun number => .bind (reading_sends _) fun id =>
      .bind (World.findById_sends session number id) fun _ => .pure _
  | findByIdAndDelete key id =>
    exact .bind (reading_sends _) fun number => .bind (reading_sends _) fun id =>
      .bind (World.findByIdAndDelete_sends session number id) fun _ => .pure _
  | findByIdAndUpdate key id data =>
    exact .bind (reading_sends _) fun number => .bind (reading_sends _) fun id =>
      .bind (reading_sends _) fun data =>
      .bind (World.findByIdAndUpdate_sends session number id data) fun _ => .pure _
  | fetch key =>
    exact .bind (reading_sends _) fun id => .bind (World.fetch_sends session id) fun _ => .pure _
  | describeQuery key =>
    exact .bind (reading_sends _) fun _ => .bind (.discard (reading_sends _)) fun _ =>
      .bind .get fun _ => .pure _
  | make key given =>
    exact .bind (reading_sends _) fun id => .bind (reading_sends _) fun properties =>
      World.instantiate_sends id properties
  | create key given =>
    exact .bind (reading_sends _) fun id => .bind (reading_sends _) fun properties =>
      createEntity_sends session id properties
  | add path =>
    exact .bind (reading_sends _) fun ref => .bind (World.bindTo_sends session ref) fun _ => .pure _
  | save path => exact .bind (reading_sends _) fun ref => World.save_sends ref
  | update path =>
    exact .bind (reading_sends _) fun ref => .bind (World.update_sends ref) fun _ => .pure _
  | delete path =>
    exact .bind (reading_sends _) fun ref => .bind (World.delete_sends ref) fun _ => .pure _
  | toDictionary path =>
    exact .bind (reading_sends _) fun _ => .bind (reading_sends _) fun _ =>
      .bind (reading_sends _) fun _ => .pure _
  | set path name given =>
    exact .bind (reading_sends _) fun ref => .bind (reading_sends _) fun value =>
      .bind (World.setEntries_sends ref [(name, value)]) fun _ => .pure _
  | setProperties path given =>
    exact .bind (reading_sends _) fun ref => .bind (reading_sends _) fun given =>
      .bind (World.setProperties_sends ref given) fun _ => .pure _
  | read path => exact reading_sends _
  | same path other =>
    exact .bind (reading_sends _) fun _ => .bind (reading_sends _) fun _ => .pure _
  | inspect path => exact .bind (reading_sends _) fun _ => reading_sends _
  | populate path relation attributes exclude =>
    exact .bind (reading_sends _) fun ref => .bind (reading_sends _) fun attributes =>
      .bind (reading_sends _) fun exclude =>
      .bind (World.populate_sends ref relation ⟨attributes, exclude⟩) fun _ => .pure _
  | attach path target relation =>
    exact .bind (reading_sends _) fun ref => .bind (reading_sends _) fun target =>
      .bind (World.attach_sends ref target relation) fun _ => .pure _
  | define d =>
    exact .bind (.bind (reading_sends _) fun _ => World.defineShared_sends _) fun _ =>
      reading_sends _
  | declare key word arguments =>
    exact .bind (reading_sends _) fun id => .bind (reading_sends _) fun _ =>
      .bind (reading_sends _) fun arguments =>
      .bind (World.declare_sends id word arguments) fun _ => reading_sends _
  | finalize key =>
    exact .bind (reading_sends _) fun id => .bind (World.finalize_sends id) fun _ => .pure _
  | describeMapper key => exact .bind (reading_sends _) fun _ => reading_sends _
  | association key name =>
    exact .bind (reading_sends _) fun id => .bind (reading_sends _) fun name =>
      .bind (World.associationOf_sends id name) fun _ => reading_sends _
  | joiningModel key name =>
    exact .bind (reading_sends _) fun id => .bind (reading_sends _) fun name =>
      .bind (World.associationOf_sends id name) fun _ => .ofExcept _
  | classAttribute key name => exact .bind (reading_sends _) fun _ => reading_sends _
  | tableDefinition key =>
    exact .bind (reading_sends _) fun _ => .bind (reading_sends _) fun _ =>
      .bind (reading_sends _) fun _ => .pure _
  | createTables keys dropFirst =>
    exact .bind (.mapM fun _ => reading_sends _) fun ids =>
      .bind (World.createTables_sends dropFirst ids) fun _ => .pure _
  | query text params =>
    have hquery (bound : List Value) : Sends [.given text] (do
        return answerValue (← World.query ⟨text, bound⟩)) :=
      .bind (World.query_sends (List.mem_singleton_self _) fun look => .given text _) fun _ =>
        .pure _
    exact .bind (reading_sends _) fun _ => .ite (.bind (.ofExcept _) hquery) (.bind (.pure _) hquery)
  | executeScript text =>
    exact .bind (World.onEngine_sends
      (Engine.executeScript_makes ⟨.script, List.mem_singleton_self _, .script text⟩)) fun _ =>
      .pure _
  | begin => exact .bind (World.onEngine_sends (Engine.begin_makes controls)) fun _ => .pure _
  | commit => exact .bind (World.onEngine_sends (Engine.commit_makes controls)) fun _ => .pure _
  | rollback => exact .bind (World.onEngine_sends (Engine.rollback_makes controls)) fun _ => .pure _
  | close =>
    exact .bind (World.onEngine_sends
      (Engine.close_makes ⟨.control, List.mem_singleton_self _, .closing⟩)) fun _ => .pure _

theorem BlockKind.enter_sends (kind : BlockKind) : Sends [.control] (onEngine kind.enter) := by
  refine World.onEngine_sends ?_
  cases kind with
  | transaction => exact Engine.begin_makes controls
  | engine => exact .pure _
  | session => exact .pure _

theorem BlockKind.leave_sends (kind : BlockKind) (outcome : Except Fault Unit) :
    Sends [.control] (onEngine (kind.leave outcome)) := by
  have hclose : ∃ kind ∈ [CallKind.control], Asked kind .close :=
    ⟨.control, List.mem_singleton_self _, .closing⟩
  refine World.onEngine_sends ?_
  cases kind with
  | transaction => exact Engine.leaveTransaction_makes controls outcome
  | engine => exact Engine.leave_makes controls hclose outcome
  | session => exact Engine.leaveSession_makes controls hclose outcome

theorem keep_leads (w : World) (name : Option String) (outcome : Except Fault Value) :
    Leads kinds w (keep w name outcome) := by
  cases name with
  | none => exact refl_of (Leads kinds) w
  | some name =>
    cases outcome with
    | ok v => exact World.bind_sends name v w
    | error fault => exact refl_of (Leads kinds) w

theorem define_leads (d : Draft) :
    Sends kinds (defineClass d >>= definedValue d.isMixin) := by
  refine .bind (.bind (reading_sends _) fun _ => World.defineShared_sends _) fun id => ?_
  cases d.isMixin with
  | true => exact .pure _
  | false => exact reading_sends _

/-- The world after definitions, without the reports on them. -/
theorem defineAll_world (drafts : List Draft) (w : World) : (defineAll drafts w).2 =
    drafts.foldl (fun w d => ((defineClass d >>= definedValue d.isMixin).runOn w).2) w :=
  (List.foldl_hom Prod.snd fun _ _ => rfl).symm

theorem defineAll_leads (drafts : List Draft) (w : World) :
    Leads kinds w (defineAll drafts w).2 := by
  rw [defineAll_world]
  induction drafts generalizing w with
  | nil => exact refl_of (Leads kinds) w
  | cons d rest ih => exact trans_of (Leads kinds) (define_leads d w) (ih _)

/-! ## 2. Visits -/

/-- An operation that a run comes to: its session, and the world in which it starts. -/
structure Visit where
  session : String
  operation : Operation
  world : World

namespace Visit

/-- The world after the operation. -/
def after (v : Visit) : World := ((v.operation.run v.session).runOn v.world).2

/-- The exchanges that the operation makes. -/
def sent (v : Visit) : List Exchange := v.after.trace.drop v.world.trace.length

theorem leads (v : Visit) : Leads v.operation.kinds v.world v.after :=
  v.operation.run_sends v.session v.world

theorem after_trace (v : Visit) : v.after.trace = v.world.trace ++ v.sent := by
  obtain ⟨sent, hsent, -⟩ := v.leads.calls
  rw [Visit.sent, hsent, List.drop_left]

/-- An operation makes only exchanges of its kinds. -/
theorem asked_of_mem_sent {v : Visit} {x : Exchange} (hx : x ∈ v.sent) :
    ∃ kind ∈ v.operation.kinds, Asked kind x.call := by
  obtain ⟨sent, hsent, hasked⟩ := v.leads.calls
  rw [Visit.sent, hsent, List.drop_left] at hx
  exact hasked x hx

end Visit

mutual

/-- The operations that a step comes to. -/
def Step.visits : Step → World → List Visit
  | .single frame operation, w => [⟨frame.session, operation, { w with replies := frame.replies }⟩]
  | .block frame kind steps _ _, w =>
    match (onEngine kind.enter).runOn { w with replies := frame.replies } with
    | (.error _, _) => []
    | (.ok _, entered) => bodyVisits steps entered

/-- The operations that the body of a block comes to. -/
def bodyVisits : List Step → World → List Visit
  | [], _ => []
  | step :: rest, w =>
    match step.run w, step.frame.caught with
    | (.error _, _, _), false => step.visits w
    | (_, _, after), _ => step.visits w ++ bodyVisits rest after

end

/-- The operations that a list of steps comes to. -/
def visits : List Step → World → List Visit
  | [], _ => []
  | step :: rest, w => step.visits w ++ visits rest (step.run w).2.2

/-- The world in which the steps of a script start: classes are defined, and nothing is asked. -/
def start (logStatements : Bool) (drafts : List Draft) : World :=
  (defineAll drafts { engine := { logStatements, debugging := logStatements } }).2

theorem start_leads (logStatements : Bool) (drafts : List Draft) :
    Leads [] { engine := { logStatements, debugging := logStatements } }
      (start logStatements drafts) := defineAll_leads drafts _

/-! ## 3. Accounts -/

/-- A world that another one leads to through operations.  They made all exchanges but the commands
of blocks, and worlds stay sound. -/
structure Accounted (vs : List Visit) (w w' : World) : Prop where
  calls : ∃ sent, w'.trace = w.trace ++ sent ∧
    ∀ x ∈ sent, (∃ v ∈ vs, x ∈ v.sent) ∨ Asked .control x.call
  sound : w.Sound → w'.Sound ∧ ∀ v ∈ vs, v.world.Sound

section Accounted

variable {vs vs' : List Visit} {w w' w'' : World}

theorem Accounted.trans (h : Accounted vs w w') (h' : Accounted vs' w' w'') :
    Accounted (vs ++ vs') w w'' := by
  obtain ⟨⟨sent, htrace, hsent⟩, hsound⟩ := h
  obtain ⟨⟨more, hmore_trace, hmore⟩, hsound'⟩ := h'
  refine ⟨⟨sent ++ more, by rw [hmore_trace, htrace, List.append_assoc], fun x hx => ?_⟩,
    fun hw => ?_⟩
  · rcases List.mem_append.mp hx with hx | hx
    · refine (hsent x hx).imp_left ?_
      rintro ⟨v, hv, hx⟩
      exact ⟨v, List.mem_append_left _ hv, hx⟩
    · refine (hmore x hx).imp_left ?_
      rintro ⟨v, hv, hx⟩
      exact ⟨v, List.mem_append_right _ hv, hx⟩
  · obtain ⟨hw', hvs⟩ := hsound hw
    obtain ⟨hw'', hvs'⟩ := hsound' hw'
    exact ⟨hw'', List.forall_mem_append.mpr ⟨hvs, hvs'⟩⟩

/-- The commands of blocks need no operation. -/
theorem accounted_of_leads (h : Leads [.control] w w') : Accounted [] w w' := by
  obtain ⟨⟨sent, htrace, hsent⟩, hsound⟩ := h
  refine ⟨⟨sent, htrace, fun x hx => .inr ?_⟩, fun hw => ⟨hsound hw, by simp⟩⟩
  simpa using hsent x hx

theorem Accounted.after_leads (h : Leads [.control] w w') (h' : Accounted vs w' w'') :
    Accounted vs w w'' := (accounted_of_leads h).trans h'

theorem Accounted.then_leads (h : Accounted vs w w') (h' : Leads [.control] w' w'') :
    Accounted vs w w'' := by
  simpa using h.trans (accounted_of_leads h')

theorem accounted_visit (v : Visit) : Accounted [v] v.world v.after where
  calls := ⟨v.sent, v.after_trace, fun _ hx => .inl ⟨v, List.mem_singleton_self v, hx⟩⟩
  sound hw := ⟨v.leads.sound hw, by simpa using hw⟩

/-- New replies are no exchange. -/
theorem leads_replies (w : World) (replies : List ReplyDraft) :
    Leads kinds w { w with replies } := .quiet rfl fun hw => ⟨hw.solid, hw.numbered⟩

end Accounted

mutual

/-- A step makes the exchanges of the operations that it comes to. -/
theorem step_accounted : ∀ (step : Step) (w : World),
    Accounted (step.visits w) w (step.run w).2.2
  | .single frame operation, w => by
    have hvisit := accounted_visit ⟨frame.session, operation, { w with replies := frame.replies }⟩
    rw [Step.visits, Step.run]
    exact (hvisit.after_leads (leads_replies w frame.replies)).then_leads
      (keep_leads _ frame.keepAs _)
  | .block frame kind steps abort endReplies, w => by
    have hreplies : Leads [.control] w { w with replies := frame.replies } := leads_replies w _
    have henter := kind.enter_sends { w with replies := frame.replies }
    rw [Step.visits, Step.run]
    rcases hentered : (onEngine kind.enter).runOn { w with replies := frame.replies } with
      ⟨fault | _, entered⟩
    · rw [hentered] at henter
      exact accounted_of_leads (trans_of (Leads [.control]) hreplies henter)
    · rw [hentered] at henter
      have hbody := (body_accounted steps entered).after_leads
        (trans_of (Leads [.control]) hreplies henter)
      have hleave := kind.leave_sends (abortWith abort (runBody steps entered).1)
        { (runBody steps entered).2.2 with replies := endReplies }
      exact ((hbody.then_leads (leads_replies _ endReplies)).then_leads hleave).then_leads
        (keep_leads _ frame.keepAs _)

/-- The body of a block makes the exchanges of the operations that it comes to. -/
theorem body_accounted : ∀ (steps : List Step) (w : World),
    Accounted (bodyVisits steps w) w (runBody steps w).2.2
  | [], w => accounted_of_leads (refl_of (Leads [.control]) w)
  | step :: rest, w => by
    have hstep := step_accounted step w
    rw [bodyVisits, runBody]
    rcases hrun : step.run w with ⟨outcome, report, after⟩
    rw [hrun] at hstep
    have hrest := hstep.trans (body_accounted rest after)
    cases outcome with
    | ok v => exact hrest
    | error fault =>
      cases step.frame.caught with
      | true => exact hrest
      | false => exact hstep

end

/-- The world after steps, without the reports on them. -/
theorem runSteps_world (steps : List Step) (w : World) :
    (runSteps steps w).2 = steps.foldl (fun w step => (step.run w).2.2) w :=
  (List.foldl_hom Prod.snd fun _ _ => rfl).symm

/-- **Nothing is sent behind the back of the operations**: a run makes the exchanges of the
operations that it comes to, and the commands of blocks. -/
theorem runSteps_accounted (steps : List Step) (w : World) :
    Accounted (visits steps w) w (runSteps steps w).2 := by
  rw [runSteps_world]
  induction steps generalizing w with
  | nil => exact accounted_of_leads (refl_of (Leads [.control]) w)
  | cons step rest ih => exact (step_accounted step w).trans (ih _)

end RowMapper.Script
