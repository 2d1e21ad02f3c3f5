import RowMapper.Proofs.Script.Course
import RowMapper.Proofs.Script.Refusal

/-!
# The life of an entity in a run

A run with the events of each of its operations tells the state of every entity at every moment
(`states_follow_events`).  Operations that fail, changes of rows, rollbacks and deletions that find
no row bring no event to the entities that are there, and an entity that was saved, deleted or made
of a row belongs to a session for good.
-/
namespace RowMapper.Script

open World (Affected Event Happens Lives Spares Still reading_still stateAfter)

variable {vs : List Visit} {w w' : World}

/-! ## 1. Stories -/

/-- The events of operations one after another. -/
def happened (story : List (Visit × List Event)) : List Event := story.flatMap Prod.snd

/-- A run has a story: the operations that it comes to, each with its events. -/
theorem Passes.story (h : Passes vs w w') : ∃ story : List (Visit × List Event),
    story.map Prod.fst = vs ∧
    (∀ told ∈ story,
      Happens (Lives []) (told.1.operation.run told.1.session) told.1.world told.2) ∧
    (∀ before told later, story = before ++ told :: later →
      Lives (happened before) w told.1.world ∧ Lives (happened before ++ told.2) w told.1.after) ∧
    Lives (happened story) w w' := by
  induction h with
  | nothing hstill => exact ⟨[], rfl, by simp, by simp, hstill.quiet.lives⟩
  | @visit v vs w w' hstill rest ih =>
    obtain ⟨story, hvisits, hhappens, hstates, hlast⟩ := ih
    obtain ⟨events, hevents, -⟩ := (v.operation.run_orderly v.session).told v.world
    have hfirst : Lives events w v.after :=
      hstill.quiet.lives.trans (hevents.lives fun _ _ h => h)
    refine ⟨(v, events) :: story, by rw [List.map_cons, hvisits],
      List.forall_mem_cons.mpr ⟨hevents, hhappens⟩, fun before told later hsplit => ?_,
      hfirst.trans hlast⟩
    cases before with
    | nil =>
      cases hsplit
      exact ⟨hstill.quiet.lives, hfirst⟩
    | cons head before =>
      obtain ⟨rfl, hrest⟩ := List.cons.inj hsplit
      obtain ⟨hbefore, hafter⟩ := hstates before told later hrest
      refine ⟨hfirst.trans hbefore, ?_⟩
      simpa [happened] using hfirst.trans hafter

/-! ## 2. Sessions -/

/-- Entities that were saved, deleted or made of rows are bound. -/
def Settled (w : World) : Prop :=
  ∀ ref, (w.entityAt ref).state ≠ .transient → (w.entityAt ref).session.isSome

/-- No entity loses its session, and entities that have got a state have one. -/
structure Ties (w w' : World) : Prop where
  bound : ∀ ref, (w.entityAt ref).session.isSome → (w'.entityAt ref).session.isSome
  settled : Settled w → Settled w'

instance : IsPreorder World Ties where
  refl _ := ⟨fun _ h => h, id⟩
  trans _ _ _ h h' := ⟨fun ref hb => h'.bound ref (h.bound ref hb), h'.settled ∘ h.settled⟩

theorem ties_of_lives {events : List Event} (h : Lives events w w') : Ties w w' where
  bound := h.bound
  settled hw ref hstate := by
    by_cases hconcerned : ∃ e ∈ events, e.entity.id = ref.id
    · obtain ⟨e, he, hid⟩ := hconcerned
      have hheld := h.held e he
      rwa [World.entityAt, hid] at hheld
    · rw [h.state_eq, World.stateAfter_of_others fun e he heq => hconcerned ⟨e, he, heq⟩] at hstate
      exact h.bound ref (hw ref hstate)

theorem Operation.run_ties (session : String) (operation : Operation) :
    (operation.run session).Obeys Ties := by
  intro w
  obtain ⟨events, hhappens, -⟩ := (operation.run_orderly session).told w
  exact ties_of_lives (hhappens.lives fun _ _ h => h)

/-! ## 3. Operations without events -/

/-- An operation that is to leave the states of entities alone: it fails, it changes a row, it rolls
back, or it deletes and the statement affected no row. -/
inductive Idle (v : Visit) : Prop
  | failing {fault : Fault} (h : v.outcome = .error fault)
  | update {path : List String} (h : v.operation = .update path)
  | rollback (h : v.operation = .rollback)
  | nothingDeleted {path : List String} (h : v.operation = .delete path)
      (hnone : ¬Affected v.world v.after)

theorem spares_of_still (h : Still w w') : Spares w w' := h.quiet.lives.spares (List.forall_mem_nil _)

theorem Idle.spares {v : Visit} (h : Idle v) : Spares v.world v.after := by
  obtain ⟨session, operation, w⟩ := v
  cases h with
  | @failing fault h =>
    exact (operation.run_orderly session).sparing w fault _ (Prod.ext h rfl)
  | @update path h =>
    cases h
    exact spares_of_still ((.bind (reading_still _) fun ref =>
      .bind (World.update_still ref) fun _ => .pure _ :
        ((Operation.update path).run session).Obeys Still) w)
  | rollback h =>
    cases h
    exact spares_of_still ((.bind (World.onEngine_still _) fun _ => .pure _ :
      (Operation.rollback.run session).Obeys Still) w)
  | @nothingDeleted path h hnone =>
    cases h
    change ¬Affected w (((Operation.delete path).run session).runOn w).2 at hnone
    show Spares w (((Operation.delete path).run session).runOn w).2
    rw [Operation.run, Action.runOn_bind] at hnone ⊢
    rcases hread : (entity path).runOn w with ⟨fault | ref, t⟩ <;> rw [hread] at hnone
    · exact spares_of_still ((reading_still _).of_run hread)
    · obtain ⟨-, rfl⟩ := World.reading_eq_ok.mp hread
      dsimp only at hnone ⊢
      rw [Action.after_bind_pure] at hnone ⊢
      exact spares_of_still (World.delete_none hnone)

end RowMapper.Script
