import RowMapper.Fault

/-!
# Outcomes

When a computation that can fail goes well, each of its steps went well.  When it fails, the steps
before one of them went well and that one failed.  Two computations are alike if both go well with
related results, or both fail with the same failure.
-/
namespace RowMapper

variable {ε α β : Type}

/-! ## 1. Outcomes that are no failure -/

theorem bind_eq_ok {x : Except ε α} {f : α → Except ε β} {b : β} :
    x >>= f = .ok b ↔ ∃ a, x = .ok a ∧ f a = .ok b := by
  cases x with
  | error e => exact ⟨fun h => (nomatch h), fun ⟨_, h, _⟩ => (nomatch h)⟩
  | ok a => exact ⟨fun h => ⟨a, rfl, h⟩, fun ⟨_, h, hf⟩ => (Except.ok.inj h) ▸ hf⟩

theorem map_eq_ok {x : Except ε α} {f : α → β} {b : β} :
    x.map f = .ok b ↔ ∃ a, x = .ok a ∧ f a = b := by
  cases x with
  | error e => exact ⟨fun h => (nomatch h), fun ⟨_, h, _⟩ => (nomatch h)⟩
  | ok a =>
    constructor
    · intro h
      exact ⟨a, rfl, Except.ok.inj h⟩
    · rintro ⟨_, h, rfl⟩
      rw [Except.ok.inj h]
      rfl

theorem pure_eq_ok {a b : α} : (pure a : Except ε α) = .ok b ↔ a = b :=
  ⟨Except.ok.inj, congrArg Except.ok⟩

/-- A check that went well has found nothing. -/
theorem guarded_eq_ok {condition : Prop} [Decidable condition] {e : ε} {next : PUnit → Except ε α}
    {a : α} : (if condition then throw e >>= next else next ⟨⟩) = .ok a ↔
      ¬condition ∧ next ⟨⟩ = .ok a := by
  by_cases h : condition
  · rw [if_pos h]
    exact ⟨fun h => (nomatch h), fun hnot => absurd h hnot.1⟩
  · rw [if_neg h]
    exact ⟨fun hnext => ⟨h, hnext⟩, fun hnext => hnext.2⟩

theorem orFault_eq_ok {x : Except Rejection α} {a : α} : orFault x = .ok a ↔ x = .ok a := by
  cases x with
  | error why => exact ⟨fun h => (nomatch h), fun h => (nomatch h)⟩
  | ok b => exact ⟨fun h => congrArg Except.ok (Except.ok.inj h), congrArg orFault⟩

/-! ## 2. Failures -/

theorem bind_eq_error {x : Except ε α} {f : α → Except ε β} {e : ε} :
    x >>= f = .error e ↔ x = .error e ∨ ∃ a, x = .ok a ∧ f a = .error e := by
  cases x with
  | error e' =>
    constructor
    · intro h
      exact .inl (congrArg Except.error (Except.error.inj h))
    · rintro (h | ⟨_, h, _⟩)
      · exact congrArg Except.error (Except.error.inj h)
      · cases h
  | ok a =>
    constructor
    · intro h
      exact .inr ⟨a, rfl, h⟩
    · rintro (h | ⟨_, h, hf⟩)
      · cases h
      · exact (Except.ok.inj h) ▸ hf

theorem map_eq_error {x : Except ε α} {f : α → β} {e : ε} :
    x.map f = .error e ↔ x = .error e := by
  cases x <;> simp [Except.map]

/-- If the outcome is a failure, then it is one of the given ones. -/
def FailsOnly (P : ε → Prop) (outcome : Except ε α) : Prop := ∀ e, outcome = .error e → P e

namespace FailsOnly

variable {P Q : ε → Prop}

theorem ok (a : α) : FailsOnly P (.ok a) := fun _ h => nomatch h

theorem error {e : ε} (h : P e) : FailsOnly P (.error e : Except ε α) := by
  intro other heq
  cases heq
  exact h

theorem imp {outcome : Except ε α} (h : FailsOnly P outcome) (himp : ∀ e, P e → Q e) :
    FailsOnly Q outcome := fun e heq => himp e (h e heq)

theorem bind {outcome : Except ε α} {next : α → Except ε β} (h : FailsOnly P outcome)
    (hnext : ∀ a, FailsOnly P (next a)) : FailsOnly P (outcome >>= next) := by
  cases outcome with
  | ok a => exact hnext a
  | error e => exact error (h e rfl)

theorem map {outcome : Except ε α} (f : α → β) (h : FailsOnly P outcome) :
    FailsOnly P (outcome.map f) := by
  cases outcome with
  | ok a => exact ok _
  | error e => exact error (h e rfl)

/-- A check that may fail. -/
theorem guarded {condition : Prop} [Decidable condition] {e : ε} {next : PUnit → Except ε α}
    (he : P e) (h : ∀ u, FailsOnly P (next u)) :
    FailsOnly P (if condition then throw e >>= next else next ⟨⟩) := by
  split
  · exact bind (error he) h
  · exact h ⟨⟩

theorem mapM {items : List β} {f : β → Except ε α} (h : ∀ item, FailsOnly P (f item)) :
    FailsOnly P (items.mapM f) := by
  induction items with
  | nil => exact ok _
  | cons item rest ih =>
    rw [List.mapM_cons]
    exact (h item).bind fun _ => ih.bind fun _ => ok _

end FailsOnly

/-! ## 3. Two outcomes -/

/-- Two outcomes with related results, or with the same failure. -/
inductive OutcomesAlike {γ : Type} (R : α → γ → Prop) : Except ε α → Except ε γ → Prop
  | ok {a : α} {c : γ} (h : R a c) : OutcomesAlike R (.ok a) (.ok c)
  | error (e : ε) : OutcomesAlike R (.error e) (.error e)

theorem OutcomesAlike.bind {γ δ : Type} {R : α → γ → Prop} {Q : β → δ → Prop} {x : Except ε α}
    {y : Except ε γ} {f : α → Except ε β} {g : γ → Except ε δ} (h : OutcomesAlike R x y)
    (hnext : ∀ a c, R a c → OutcomesAlike Q (f a) (g c)) :
    OutcomesAlike Q (x >>= f) (y >>= g) := by
  cases h with
  | ok hR => exact hnext _ _ hR
  | error e => exact .error e

end RowMapper
