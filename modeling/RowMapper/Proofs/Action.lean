import Mathlib.Order.Defs.Unbundled
import RowMapper.Action

/-!
# Runs of actions

How an action runs, by the way it is put together.  An action that fails keeps the state that it has
made, and the rest of the actions is left out.  `Obeys` says that a relation holds between the state
before an action and the state after it, however the action ends; for a relation that composes it is
enough to look at the parts of an action.  `FailsIn` says so only where the action fails.
-/
namespace RowMapper.Action

variable {σ α β γ : Type}

/-! ## 1. How actions run -/

theorem runOn_throw (fault : Fault) (s : σ) :
    (throw fault : Action σ α).runOn s = (.error fault, s) := rfl

theorem runOn_get (s : σ) : (get : Action σ σ).runOn s = (.ok s, s) := rfl

theorem runOn_attempt (action : Action σ α) (s : σ) :
    action.attempt.runOn s = (.ok (action.runOn s).1, (action.runOn s).2) := rfl

/-- The next action runs in the state after the first, if that did not fail. -/
theorem runOn_bind (action : Action σ α) (next : α → Action σ β) (s : σ) :
    (action >>= next).runOn s =
      match action.runOn s with
      | (.ok a, t) => (next a).runOn t
      | (.error fault, t) => (.error fault, t) := by
  have hstep : (action >>= next).runOn s =
      ExceptT.bindCont next (action.runOn s).1 (action.runOn s).2 := rfl
  rw [hstep]
  rcases action.runOn s with ⟨_ | _, t⟩ <;> rfl

theorem runOn_bind_ok {action : Action σ α} {next : α → Action σ β} {s t : σ} {a : α}
    (h : action.runOn s = (.ok a, t)) : (action >>= next).runOn s = (next a).runOn t := by
  rw [runOn_bind, h]

theorem runOn_bind_error {action : Action σ α} {next : α → Action σ β} {s t : σ} {fault : Fault}
    (h : action.runOn s = (.error fault, t)) :
    (action >>= next).runOn s = (.error fault, t) := by
  rw [runOn_bind, h]

/-- When two actions went well, each of them did. -/
theorem runOn_bind_eq_ok {action : Action σ α} {next : α → Action σ β} {s t : σ} {b : β} :
    (action >>= next).runOn s = (.ok b, t) ↔
      ∃ a r, action.runOn s = (.ok a, r) ∧ (next a).runOn r = (.ok b, t) := by
  constructor
  · intro h
    rw [runOn_bind] at h
    rcases hrun : action.runOn s with ⟨fault | a, r⟩ <;> rw [hrun] at h
    · cases h
    · exact ⟨a, r, rfl, h⟩
  · rintro ⟨a, r, hrun, h⟩
    rw [runOn_bind_ok hrun, h]

/-- A check that went well has found nothing. -/
theorem runOn_guarded_eq_ok {condition : Prop} [Decidable condition] {fault : Fault}
    {next : PUnit → Action σ α} {s t : σ} {a : α} :
    (if condition then MonadExcept.throw fault >>= next else next ⟨⟩ : Action σ α).runOn s =
        (.ok a, t) ↔ ¬condition ∧ (next ⟨⟩).runOn s = (.ok a, t) := by
  by_cases h : condition
  · rw [if_pos h]
    exact ⟨fun hrun => (nomatch (Prod.mk.inj hrun).1), fun hnot => absurd h hnot.1⟩
  · rw [if_neg h]
    exact ⟨fun hrun => ⟨h, hrun⟩, fun hrun => hrun.2⟩

theorem runOn_ofExcept (outcome : Except Fault α) (s : σ) :
    (ofExcept outcome : Action σ α).runOn s = (outcome, s) := by
  cases outcome <;> rfl

/-- An action that only reads comes first in everything that is read before the last action. -/
theorem runOn_read_bind {action : Action σ α} {next : α → Action σ γ} {last : β → Action σ γ}
    {found : Except Fault α} {rest : α → Except Fault β} {s : σ}
    (hread : action.runOn s = (found, s))
    (hrest : ∀ a, (next a).runOn s = (ofExcept (rest a) >>= last).runOn s) :
    (action >>= next).runOn s = (ofExcept (found >>= rest) >>= last).runOn s := by
  rw [runOn_bind, hread]
  cases found with
  | error fault => rfl
  | ok a => exact hrest a

theorem runOn_bind_pure (action : Action σ α) (answer : α → β) (s : σ) :
    (action >>= fun a => pure (answer a)).runOn s =
      ((action.runOn s).1.map answer, (action.runOn s).2) := by
  rw [runOn_bind]
  rcases action.runOn s with ⟨_ | _, _⟩ <;> rfl

/-- Another answer leaves the state as it is. -/
theorem after_bind_pure (action : Action σ α) (answer : α → β) (s : σ) :
    ((action >>= fun a => pure (answer a)).runOn s).2 = (action.runOn s).2 := by
  rw [runOn_bind_pure]

/-- What comes after an action whose failure is known rests on how it ended. -/
theorem runOn_attempt_bind (action : Action σ α) (next : Except Fault α → Action σ β) (s : σ) :
    (action.attempt >>= next).runOn s = (next (action.runOn s).1).runOn (action.runOn s).2 := by
  rw [runOn_bind_ok (runOn_attempt action s)]

/-- Dropping an answer is going on with nothing. -/
theorem discard_eq (action : Action σ α) :
    Functor.discard action = action >>= fun _ => (pure ⟨⟩ : Action σ PUnit) := by
  have hmap : Functor.discard action = (fun _ => ⟨⟩) <$> action :=
    congrFun (congrFun LawfulFunctor.map_const PUnit.unit) action
  rw [hmap, map_eq_pure_bind]

/-- Where the first action keeps the state, what holds before both holds after both if it holds
after the next. -/
theorem after_bind_kept {P : σ → Prop} {action : Action σ α} {next : α → Action σ β} {s : σ}
    (hkept : (action.runOn s).2 = s) (hs : P s)
    (hnext : ∀ a, (action.runOn s).1 = .ok a → P ((next a).runOn s).2) :
    P ((action >>= next).runOn s).2 := by
  rw [runOn_bind]
  rcases hrun : action.runOn s with ⟨_ | a, t⟩ <;> rw [hrun] at hkept hnext <;> cases hkept
  · exact hs
  · exact hnext a rfl

/-! ## 2. What actions lead to -/

/-- The state after an action is in a relation to the state before it, wherever the action runs and
however it ends. -/
def Obeys (R : σ → σ → Prop) (action : Action σ α) : Prop := ∀ s, R s (action.runOn s).2

namespace Obeys

variable {R : σ → σ → Prop}

theorem of_run {action : Action σ α} (h : action.Obeys R) {s t : σ} {outcome : Except Fault α}
    (hrun : action.runOn s = (outcome, t)) : R s t := by
  have hs := h s
  rwa [hrun] at hs

theorem mono {Q : σ → σ → Prop} (hsub : ∀ s t, R s t → Q s t) {action : Action σ α}
    (h : action.Obeys R) : action.Obeys Q := fun s => hsub _ _ (h s)

theorem attempt {action : Action σ α} (h : action.Obeys R) : action.attempt.Obeys R := by
  intro s
  rw [runOn_attempt]
  exact h s

theorem ite {condition : Prop} [Decidable condition] {first other : Action σ α}
    (hfirst : first.Obeys R) (hother : other.Obeys R) :
    (if condition then first else other).Obeys R := by
  split
  · exact hfirst
  · exact hother

variable [IsPreorder σ R]

theorem pure (a : α) : (Pure.pure a : Action σ α).Obeys R := fun s => refl_of R s

theorem throw (fault : Fault) : (MonadExcept.throw fault : Action σ α).Obeys R :=
  fun s => refl_of R s

theorem get : (MonadState.get : Action σ σ).Obeys R := fun s => refl_of R s

theorem ofExcept (outcome : Except Fault α) : (Action.ofExcept outcome : Action σ α).Obeys R := by
  intro s
  rw [runOn_ofExcept]
  exact refl_of R s

/-- The second action may rely on what the first one can answer. -/
theorem bind_of {first : Action σ α} {next : α → Action σ β} (hfirst : first.Obeys R)
    (hnext : ∀ s a, (first.runOn s).1 = .ok a → (next a).Obeys R) :
    (first >>= next).Obeys R := by
  intro s
  have hled := hfirst s
  have hanswer := hnext s
  rw [runOn_bind]
  rcases hrun : first.runOn s with ⟨_ | a, t⟩ <;> rw [hrun] at hled hanswer
  · exact hled
  · exact trans_of R hled (hanswer a rfl t)

/-- What comes after an action goes on from the state that it left. -/
theorem after_bind {next : α → Action σ β} (hnext : ∀ a, (next a).Obeys R) (first : Action σ α)
    (s : σ) : R (first.runOn s).2 ((first >>= next).runOn s).2 := by
  rw [runOn_bind]
  rcases first.runOn s with ⟨_ | a, t⟩
  · exact refl_of R t
  · exact hnext a t

theorem bind {first : Action σ α} {next : α → Action σ β} (hfirst : first.Obeys R)
    (hnext : ∀ a, (next a).Obeys R) : (first >>= next).Obeys R :=
  hfirst.bind_of fun _ a _ => hnext a

theorem bind_ofExcept {outcome : Except Fault α} {next : α → Action σ β}
    (hnext : ∀ a, outcome = .ok a → (next a).Obeys R) :
    (Action.ofExcept outcome >>= next).Obeys R :=
  (ofExcept outcome).bind_of fun s a h => hnext a (by rwa [runOn_ofExcept] at h)

theorem discard {action : Action σ α} (h : action.Obeys R) :
    (Functor.discard action).Obeys R := by
  rw [discard_eq]
  exact h.bind fun _ => pure _

/-- A check that may stop an action. -/
theorem guarded {condition : Prop} [Decidable condition] {fault : Fault}
    {next : PUnit → Action σ α} (h : ∀ u, (next u).Obeys R) :
    (if condition then MonadExcept.throw fault >>= next else next ⟨⟩).Obeys R :=
  .ite ((throw fault).bind h) (h ⟨⟩)

theorem forM {items : List γ} {action : γ → Action σ PUnit}
    (h : ∀ item, (action item).Obeys R) : (items.forM action).Obeys R := by
  induction items with
  | nil => exact pure _
  | cons item rest ih => exact (h item).bind fun _ => ih

theorem mapM {items : List γ} {action : γ → Action σ α}
    (h : ∀ item, (action item).Obeys R) : (items.mapM action).Obeys R := by
  induction items with
  | nil => exact pure _
  | cons item rest ih =>
    rw [List.mapM_cons]
    exact (h item).bind fun _ => ih.bind fun _ => pure _

end Obeys

/-! ## 3. Failing -/

/-- Wherever an action fails, it has led to a state in a relation to the one before it. -/
def FailsIn (R : σ → σ → Prop) (action : Action σ α) : Prop :=
  ∀ s fault t, action.runOn s = (.error fault, t) → R s t

namespace FailsIn

variable {R : σ → σ → Prop}

theorem of_obeys {action : Action σ α} (h : action.Obeys R) : action.FailsIn R :=
  fun _ _ _ hrun => h.of_run hrun

theorem ite {condition : Prop} [Decidable condition] {first other : Action σ α}
    (hfirst : first.FailsIn R) (hother : other.FailsIn R) :
    (if condition then first else other).FailsIn R := by
  split
  · exact hfirst
  · exact hother

/-- What cannot fail may follow. -/
theorem then_safe {first : Action σ α} {next : α → Action σ β} (hfirst : first.FailsIn R)
    (hnext : ∀ a s, ∃ b t, (next a).runOn s = (.ok b, t)) : (first >>= next).FailsIn R := by
  intro s fault t hrun
  rw [runOn_bind] at hrun
  rcases hfirst_run : first.runOn s with ⟨fault' | a, u⟩ <;> rw [hfirst_run] at hrun
  · cases hrun
    exact hfirst s fault t hfirst_run
  · obtain ⟨b, u', hsafe⟩ := hnext a u
    cases hrun.symm.trans hsafe

variable [IsPreorder σ R]

theorem bind {first : Action σ α} {next : α → Action σ β} (hfirst : first.Obeys R)
    (hnext : ∀ a, (next a).FailsIn R) : (first >>= next).FailsIn R := by
  intro s fault t hrun
  rw [runOn_bind] at hrun
  rcases hfirst_run : first.runOn s with ⟨fault' | a, u⟩ <;> rw [hfirst_run] at hrun
  · cases hrun
    exact hfirst.of_run hfirst_run
  · exact trans_of R (hfirst.of_run hfirst_run) (hnext a u fault t hrun)

theorem guarded {condition : Prop} [Decidable condition] {fault : Fault}
    {next : PUnit → Action σ α} (h : ∀ u, (next u).FailsIn R) :
    (if condition then MonadExcept.throw fault >>= next else next ⟨⟩).FailsIn R :=
  .ite (.bind (.throw fault) h) (h ⟨⟩)

end FailsIn

end RowMapper.Action
