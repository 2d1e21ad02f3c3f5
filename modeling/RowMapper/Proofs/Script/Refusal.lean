import RowMapper.Proofs.Entity.Refusal
import RowMapper.Proofs.Script.Visit

/-!
# When a run refuses

The operations on rows check their input before they send anything.  The exceptions are the finders
that write the row they have found or create one, and the loading of what a joining table relates:
they check the rest of their input after they have selected rows, and then nothing but selections
has been sent (`late_refusals_follow_selections`).  So a refusal leaves every row as it was, but it
does not always come before the first statement (`populate_is_refused_after_a_selection`).
-/
namespace RowMapper.Script

open World (Asked CallKind Early Late Refuses reading_sends)

/-- The kinds of call that read and write rows. -/
def rowKinds : List CallKind := [.selection, .insertion, .change, .removal]

/-- What an operation may refuse after it has selected rows. -/
inductive Operation.RefusedLate (w : World) : Operation → Fault → Prop
  | findOneAndUpdate {key : String} {source data : Term} {fault : Fault} (h : ChangeRefused fault) :
      RefusedLate w (.findOneAndUpdate key source data) fault
  | findByIdAndUpdate {key : String} {id data : Term} {fault : Fault} (h : ChangeRefused fault) :
      RefusedLate w (.findByIdAndUpdate key id data) fault
  | findOneAndDelete {key : String} {source more : Term} {fault : Fault}
      (h : RemovalRefused fault) : RefusedLate w (.findOneAndDelete key source more) fault
  | findByIdAndDelete {key : String} {id : Term} {fault : Fault} (h : RemovalRefused fault) :
      RefusedLate w (.findByIdAndDelete key id) fault
  | findOrCreate {key : String} {source defaults : Term} {fault : Fault} (h : NameRefused fault) :
      RefusedLate w (.findOrCreate key source defaults) fault
  | populate {path : List String} {relation : Value} {attributes exclude : Term} {fault : Fault}
      {ref : EntityRef} {shape : World.Shape} (href : (entity path).runOn w = (.ok ref, w))
      (hattributes : (plainValue attributes).runOn w = (.ok shape.attributes, w))
      (hexclude : (plainValue exclude).runOn w = (.ok shape.exclude, w))
      (h : World.RelationRefused w ref relation shape fault) :
      RefusedLate w (.populate path relation attributes exclude) fault

/-! ## 1. Single operations -/

theorem createEntity_early (session : String) (id : Nat) (properties : Dictionary Value)
    (w : World) : Early w (createEntity session id properties) := by
  have hthrow {α : Type} (fault : Fault) (w : World) : Early w (throw fault : Action World α) :=
    .of_quiet (.throw fault) w
  have hmake (w : World) : Early w (do
      if (← get).registry.descends id 0 then
        return .entity (← World.create session id properties)
      if properties.isEmpty then throw .noAttribute else throw .wrongType : Action World Value) :=
    .after_quiet .get fun _ u => .ite
      (.bind_settled (World.create_earlyAs session id properties u).early fun _ => .pure _)
      (.ite (hthrow _ u) (hthrow _ u))
  exact .ite (.after_quiet (.throw _) fun _ u => hmake u) (hmake w)

/-- An operation on rows refuses late only what it checks after it has selected rows. -/
theorem Operation.run_late (session : String) (operation : Operation)
    (hkinds : operation.kinds ⊆ rowKinds) (w : World) :
    Late (operation.RefusedLate w) w (operation.run session) := by
  have hsends := operation.run_sends session
  cases operation with
  | findOne key source more =>
    exact .of_early <| .after_quiet (reading_sends _) fun id _ =>
      .after_quiet (options_sends id source more) fun o u =>
      .bind_settled (World.findOne_early session id o u) fun _ => .pure _
  | findAll key source more =>
    exact .of_early <| .after_quiet (reading_sends _) fun id _ =>
      .after_quiet (options_sends id source more) fun o u =>
      .bind_settled (World.findAll_early session id o u) fun _ => .pure _
  | findById key id =>
    exact .of_early <| .after_quiet (reading_sends _) fun number _ =>
      .after_quiet (reading_sends _) fun id u =>
      .bind_settled (World.findById_early session number id u) fun _ => .pure _
  | fetch key =>
    exact .of_early <| .after_quiet (reading_sends _) fun id u =>
      .bind_settled (World.fetch_early session id u) fun _ => .pure _
  | findOneAndDelete key source more =>
    refine Refuses.late_mono ?_ fun _ => .findOneAndDelete
    exact .late_after_quiet (reading_sends _) fun id _ =>
      .late_after_quiet (options_sends id source more) fun o u =>
      .bind_settled (World.findOneAndDelete_late session id o u) fun _ => .pure _
  | findOneAndUpdate key source data =>
    refine Refuses.late_mono ?_ fun _ => .findOneAndUpdate
    exact .late_after_quiet (reading_sends _) fun id _ => .late_after_quiet (reading_sends _)
      fun data _ => .late_after_quiet (options_sends id source noMore) fun o u =>
      .bind_settled (World.findOneAndUpdate_late session id o data u) fun _ => .pure _
  | findByIdAndDelete key id =>
    refine Refuses.late_mono ?_ fun _ => .findByIdAndDelete
    exact .late_after_quiet (reading_sends _) fun number _ =>
      .late_after_quiet (reading_sends _) fun id u =>
      .bind_settled (World.findByIdAndDelete_late session number id u) fun _ => .pure _
  | findByIdAndUpdate key id data =>
    refine Refuses.late_mono ?_ fun _ => .findByIdAndUpdate
    exact .late_after_quiet (reading_sends _) fun number _ => .late_after_quiet (reading_sends _)
      fun id _ => .late_after_quiet (reading_sends _) fun data u =>
      .bind_settled (World.findByIdAndUpdate_late session number id data u) fun _ => .pure _
  | findOrCreate key source defaults =>
    refine Refuses.late_mono ?_ fun _ => .findOrCreate
    exact .late_after_quiet (reading_sends _) fun id _ => .late_after_quiet (reading_sends _)
      fun defaults _ => .late_after_quiet (options_sends id source noMore) fun o u =>
      .bind_settled (World.findOrCreate_late session id o defaults u) fun _ => .pure _
  | create key given =>
    exact .of_early <| .after_quiet (reading_sends _) fun id _ =>
      .after_quiet (reading_sends _) fun properties u =>
      createEntity_early session id properties u
  | save path =>
    exact .of_early <| .after_quiet (reading_sends _) fun ref u => (World.save_earlyAs ref u).early
  | update path =>
    exact .of_early <| .after_quiet (reading_sends _) fun ref u =>
      .bind_settled (World.update_earlyAs ref u).early fun _ => .pure _
  | delete path =>
    exact .of_early <| .after_quiet (reading_sends _) fun ref u =>
      .bind_settled (World.delete_earlyAs ref u).early fun _ => .pure _
  | populate path relation attributes exclude =>
    refine .late_reading_bind fun ref href => .late_reading_bind fun shown hattributes =>
      .late_reading_bind fun hidden hexclude => ?_
    let shape : World.Shape := ⟨shown, hidden⟩
    refine .bind_settled ((World.populate_late ref relation shape w).late_mono fun _ => ?_)
      fun _ => .pure _
    exact .populate (congrArg (·, w) href) (congrArg (·, w) hattributes) (congrArg (·, w) hexclude)
  | attach path target relation =>
    exact .of_early <| .after_quiet (reading_sends _) fun ref _ =>
      .after_quiet (reading_sends _) fun target u =>
      .bind_settled (World.attach_early ref target relation u) fun _ => .pure _
  | createTables keys dropFirst => simp [kinds, rowKinds] at hkinds
  | query text params => simp [kinds, rowKinds] at hkinds
  | executeScript text => simp [kinds, rowKinds] at hkinds
  | begin => simp [kinds, rowKinds] at hkinds
  | commit => simp [kinds, rowKinds] at hkinds
  | rollback => simp [kinds, rowKinds] at hkinds
  | close => simp [kinds, rowKinds] at hkinds
  | _ => exact .of_early (.of_quiet hsends w)

/-! ## 2. Visits -/

namespace Visit

/-- How the operation ends. -/
def outcome (v : Visit) : Except Fault Value := ((v.operation.run v.session).runOn v.world).1

/-- Whether the operation refuses its input. -/
def isRefused (v : Visit) : Bool :=
  match v.outcome with
  | .ok _ => false
  | .error fault => fault.isRefusal

theorem isRefused_iff {v : Visit} :
    v.isRefused = true ↔ ∃ fault, v.outcome = .error fault ∧ fault.isRefusal = true := by
  unfold isRefused
  cases v.outcome <;> simp

end Visit

/-- A run in which an operation refuses its input after it has sent something. -/
theorem exists_refused_late (steps : List Step) (w : World)
    (h : ((visits steps w).any fun v => v.isRefused && !v.sent.isEmpty) = true) :
    ∃ v ∈ visits steps w, (∃ fault, v.outcome = .error fault ∧ fault.isRefusal = true) ∧
      v.sent ≠ [] := by
  simp only [List.any_eq_true, Bool.and_eq_true, Bool.not_eq_true'] at h
  obtain ⟨v, hv, hrefused, hsent⟩ := h
  exact ⟨v, hv, Visit.isRefused_iff.mp hrefused, List.isEmpty_eq_false_iff.mp hsent⟩

/-- **Late refusals follow selections.**  When an operation on rows refuses its input, wherever it
runs and whatever is replied, then it has sent nothing; or the driver failed with this fault by
itself; or it is an operation that finds rows first, the refusal is one that it has left for
later, and all that it has sent is selections. -/
theorem late_refusals_follow_selections (v : Visit) (hkinds : v.operation.kinds ⊆ rowKinds)
    {fault : Fault} (hfault : v.outcome = .error fault) (hrefusal : fault.isRefusal = true) :
    v.sent = [] ∨ Raised fault v.sent ∨
      v.operation.RefusedLate v.world fault ∧ ∀ x ∈ v.sent, Asked .selection x.call := by
  obtain ⟨sent, htrace, hlate⟩ := v.operation.run_late v.session hkinds v.world
  obtain rfl : v.sent = sent := List.append_cancel_left (v.after_trace.symm.trans htrace)
  obtain hraised | hnone | hlast := hlate fault hfault hrefusal
  · exact .inr (.inl hraised)
  · exact .inl hnone
  · exact .inr (.inr hlast)

/-- A row is found by its key, and then there is nothing to change in it. -/
theorem change_of_nothing_is_refused_late :
    let draft : Draft :=
      { name := "User", key := "User", settings := some [("table_name", .plain (.str "users"))] }
    let found : ReplyDraft := ⟨.ok (.rows [[("id", .plain (.int 7))]]), none⟩
    let steps : List Step :=
      [.single { replies := [found] } (.findByIdAndUpdate "User" (.plain (.int 7)) (.mapping []))]
    ∃ v ∈ visits steps (start false [draft]), v.operation.kinds ⊆ rowKinds ∧ ∃ fault,
      v.outcome = .error fault ∧ fault.isRefusal = true ∧ v.sent ≠ [] ∧
        (v.sent = [] ∨ Raised fault v.sent ∨
          v.operation.RefusedLate v.world fault ∧ ∀ x ∈ v.sent, Asked .selection x.call) := by
  intro draft found steps
  have hkinds : ∀ v ∈ visits steps (start false [draft]), v.operation.kinds ⊆ rowKinds := by
    simp [steps, visits, Step.visits, Operation.kinds, rowKinds]
  obtain ⟨v, hv, ⟨fault, hfault, hrefusal⟩, hsent⟩ :=
    exists_refused_late steps (start false [draft]) (by decide +kernel)
  exact ⟨v, hv, hkinds v hv, fault, hfault, hrefusal, hsent,
    late_refusals_follow_selections v (hkinds v hv) hfault hrefusal⟩

/-- What a joining table relates is looked up with options that are refused only after the joining
table is read. -/
theorem populate_is_refused_after_a_selection :
    let named (name : String) : Option (List (String × Term)) :=
      some [("table_name", .plain (.str name))]
    let many : AttributeDraft := .association "belongsToMany"
      [("target", .plain (.str "Course")), ("through", .plain (.str "Enrollment")),
       ("foreign_key", .plain (.str "student_id")), ("other_key", .plain (.str "course_id"))]
    let drafts : List Draft :=
      [{ name := "Student", key := "Student", settings := named "students",
         attributes := [("courses", many)] },
       { name := "Course", key := "Course", settings := named "courses" },
       { name := "Enrollment", key := "Enrollment", settings := named "enrollments" }]
    let inserted : ReplyDraft := ⟨.ok (.done (.plain (.int 1)) (.plain (.int 1))), none⟩
    let joining : ReplyDraft :=
      ⟨.ok (.rows [[("student_id", .plain (.int 1)), ("course_id", .plain (.int 2))]]), none⟩
    let steps : List Step :=
      [.single { replies := [inserted], keepAs := some "s" } (.create "Student" (.mapping [])),
       .single { replies := [joining] }
         (.populate ["s"] (.str "courses") (.plain (.int 5)) (.plain .null))]
    ∃ v ∈ visits steps (start false drafts), v.operation.kinds ⊆ rowKinds ∧
      (∃ fault, v.outcome = .error fault ∧ fault.isRefusal = true) ∧ v.sent ≠ [] := by
  intro named many drafts inserted joining steps
  have hkinds : ∀ v ∈ visits steps (start false drafts), v.operation.kinds ⊆ rowKinds := by
    simp [steps, visits, Step.visits, Operation.kinds, rowKinds]
  obtain ⟨v, hv, hrefused, hsent⟩ :=
    exists_refused_late steps (start false drafts) (by decide +kernel)
  exact ⟨v, hv, hkinds v hv, hrefused, hsent⟩

end RowMapper.Script
