import Mathlib.Data.List.Induction
import RowMapper.Proofs.Engine.Program

/-!
# When the engine and its connection agree

The engine keeps a flag of its own, and the connection keeps another.  They agree if the connection
is in no transaction whenever the engine counts as in none, so that a transaction can be begun.

The engine gives a transaction up when it rolls back, whatever becomes of the `ROLLBACK`; it gives
it up after a `COMMIT` that succeeds, and it has none after a `BEGIN` that fails.  These are the
turns that can part it from the connection: `engine_agrees_unless_parted` says that there are no
others, and that with a connection that does what it answers only a refused `ROLLBACK` does so.
-/
namespace RowMapper.Engine

open Connection (beginText commitText rollbackText)

/-! ## 1. Agreement -/

/-- The connection is in no transaction if the engine counts as in none. -/
def Agrees (e : Engine) : Prop := e.inTransaction = false → e.connection.inTransaction = false

/-- A turn after which the connection is in a transaction of which the engine does not know. -/
structure Turn.Parts (t : Turn) : Prop where
  agreed : Agrees t.before
  parted : ¬Agrees t.after
  /-- It gave a transaction up by `ROLLBACK` or by a `COMMIT` that succeeded, or began none by a
  `BEGIN` that failed. -/
  how : (t.use = .rollback ∧ ∃ reply, t.sent = [asked rollbackText reply]) ∨
    (t.use = .commit ∧ ∃ answer, t.sent = [asked commitText (.ok answer)]) ∨
    (t.use = .begin ∧ ∃ refusal, t.sent = [asked beginText (.error refusal)])

/-- The connection does what it answers: it leaves its transaction by a `COMMIT` or a `ROLLBACK`
that succeeds, and enters none by a `BEGIN` that fails. -/
structure Turn.Faithful (t : Turn) : Prop where
  ended : ∀ text ∈ [commitText, rollbackText], ∀ answer, t.sent = [asked text (.ok answer)] →
    t.after.connection.inTransaction = false
  notBegun : ∀ refusal, t.sent = [asked beginText (.error refusal)] →
    t.after.connection.inTransaction = t.before.connection.inTransaction

/-- A query does not move the connection into a transaction or out of one. -/
def Turn.QuerySteady (t : Turn) : Prop := ∀ o text params, t.use = .query o text params →
  t.after.connection.inTransaction = t.before.connection.inTransaction

/-! ## 2. One turn -/

/-- Disagreement is there before a turn, or the turn parts the engine from its connection. -/
theorem Turn.parts_of_disagreement {t : Turn} (hquery : t.QuerySteady) (hbefore : Agrees t.before)
    (hafter : ¬Agrees t.after) : t.Parts := by
  refine ⟨hbefore, hafter, ?_⟩
  obtain ⟨-, hdoes⟩ := t.does
  generalize t.sent = sent at hdoes ⊢
  cases hdoes with
  | queried use flag calls =>
    refine absurd (fun hclosed => ?_) hafter
    rw [hquery _ _ _ use]
    exact hbefore (flag ▸ hclosed)
  | refused use same => exact absurd (same ▸ hbefore) hafter
  | began use outside flag =>
    rename_i reply
    cases reply with
    | ok answer =>
      refine absurd (fun hclosed => ?_) hafter
      rw [flag.mpr ⟨answer, rfl⟩] at hclosed
      cases hclosed
    | error refusal => exact .inr (.inr ⟨use, refusal, rfl⟩)
  | committed use inside flag =>
    rename_i reply
    cases reply with
    | ok answer => exact .inr (.inl ⟨use, answer, rfl⟩)
    | error refusal =>
      -- after an error of the database the engine asks the connection; otherwise it stays inside
      refine absurd (fun hclosed => ?_) hafter
      rw [flag] at hclosed
      cases hfault : refusalFault commitText refusal <;>
        simp only [ending, hfault, openAfter, reduceCtorEq] at hclosed
      exact hclosed
  | rolledBack use inside flag => exact .inl ⟨use, _, rfl⟩

/-- Something is sent for a beginning only outside a transaction. -/
theorem Turn.Does.outside_of_begin {t : Turn} {sent : List Exchange} (h : t.Does sent)
    (huse : t.use = .begin) (hsent : sent ≠ []) : t.before.inTransaction = false := by
  cases h with
  | queried use => cases huse.symm.trans use
  | refused => exact absurd rfl hsent
  | began use outside => exact outside
  | committed use => cases huse.symm.trans use
  | rolledBack use => cases huse.symm.trans use

/-- With a faithful connection the turn is a rollback that was refused. -/
theorem Turn.Parts.of_faithful {t : Turn} (h : t.Parts) (hfaithful : t.Faithful) :
    t.use = .rollback ∧ ∃ refusal, t.sent = [asked rollbackText (.error refusal)] := by
  have hconnection : t.after.connection.inTransaction ≠ false := fun hclosed =>
    h.parted fun _ => hclosed
  rcases h.how with ⟨huse, reply, hsent⟩ | ⟨-, answer, hsent⟩ | ⟨huse, refusal, hsent⟩
  · cases reply with
    | ok answer => exact absurd (hfaithful.ended _ (by simp) answer hsent) hconnection
    | error refusal => exact ⟨huse, refusal, hsent⟩
  · exact absurd (hfaithful.ended _ (by simp) answer hsent) hconnection
  · -- nothing was begun before, and the connection agreed with that
    have hbefore := t.does.2.outside_of_begin huse (by simp [hsent])
    exact absurd ((hfaithful.notBegun refusal hsent).trans (h.agreed hbefore)) hconnection

/-! ## 3. Runs -/

/-- Along turns that follow on each other, a disagreement goes back to a turn that parts. -/
theorem Chain.parted {e e' : Engine} {earlier : List Turn} {t : Turn}
    (hchain : Chain e (earlier ++ [t]) e') (hagrees : Agrees e)
    (hquery : ∀ u ∈ earlier ++ [t], u.QuerySteady) (hparted : ¬Agrees t.after) :
    ∃ agreed s since, earlier ++ [t] = agreed ++ s :: since ∧ s.Parts ∧
      ∀ u ∈ since, ¬Agrees u.after := by
  induction earlier using List.reverseRecOn generalizing t e' with
  | nil =>
    have hparts := Turn.parts_of_disagreement (hquery t (by simp)) (hchain.1 ▸ hagrees) hparted
    exact ⟨[], t, [], rfl, hparts, by simp⟩
  | append_singleton init u ih =>
    obtain ⟨e₁, hinit, hlast⟩ := hchain.split
    have hbefore : t.before = u.after := by
      obtain ⟨e₀, -, hu⟩ := hinit.split
      exact hlast.1.trans hu.2
    by_cases hagreed : Agrees u.after
    · have hparts := Turn.parts_of_disagreement (hquery t (by simp)) (hbefore ▸ hagreed) hparted
      exact ⟨init ++ [u], t, [], rfl, hparts, by simp⟩
    · obtain ⟨agreed, s, since, hsplit, hparts, hsince⟩ :=
        ih hinit (fun v hv => hquery v (List.mem_append_left _ hv)) hagreed
      refine ⟨agreed, s, since ++ [t], by rw [hsplit]; simp, hparts, fun v hv => ?_⟩
      rcases List.mem_append.mp hv with hv | hv
      · exact hsince v hv
      · rwa [List.mem_singleton.mp hv]

/-- **The engine and its connection agree unless they were parted**: if the engine counts as in no
transaction after a turn of a program, then the connection is in none, or they disagree since a turn
that parted them.  With a faithful connection that turn is a rollback that was refused. -/
theorem engine_agrees_unless_parted (p : Program) (e : Engine) (hagrees : Agrees e)
    (hquery : ∀ t ∈ p.turns e, t.QuerySteady) (earlier : List Turn) (t : Turn) (later : List Turn)
    (hturns : p.turns e = earlier ++ t :: later) (hflag : t.after.inTransaction = false) :
    t.after.connection.inTransaction = false ∨
      ∃ agreed s since, earlier ++ [t] = agreed ++ s :: since ∧ s.Parts ∧
        (∀ u ∈ since, ¬Agrees u.after) ∧
        (s.Faithful → s.use = .rollback ∧ ∃ refusal,
          s.sent = [asked rollbackText (.error refusal)]) := by
  by_cases hagreed : Agrees t.after
  · exact .inl (hagreed hflag)
  · have hchain := turns_chain p e
    rw [hturns, List.append_cons] at hchain
    rw [hturns, List.append_cons] at hquery
    obtain ⟨e₁, hchain, -⟩ := hchain.split
    obtain ⟨agreed, s, since, hsplit, hparts, hsince⟩ :=
      hchain.parted hagrees (fun u hu => hquery u (List.mem_append_left _ hu)) hagreed
    exact .inr ⟨agreed, s, since, hsplit, hparts, hsince, hparts.of_faithful⟩

/-- A rollback that is refused while the connection stays in its transaction. -/
theorem refused_rollback_parts :
    let done : Reply := ⟨.ok (.done .null .null), none⟩
    let refused : Reply := ⟨.error (.database "disk I/O error"), none⟩
    let e : Engine := { connection := { replies := [done, refused] } }
    let p : Program := .call .begin fun _ => .call .rollback fun _ => .done (.ok ())
    ∃ began rolledBack, p.turns e = [began, rolledBack] ∧ Agrees e ∧
      (∀ t ∈ p.turns e, t.QuerySteady) ∧ rolledBack.after.inTransaction = false ∧
      ∃ agreed s since, [began, rolledBack] = agreed ++ s :: since ∧ s.Parts ∧
        (s.Faithful → s.use = .rollback) := by
  intro done refused e p
  have hagrees : Agrees e := fun _ => rfl
  have hquery : ∀ t ∈ p.turns e, t.QuerySteady := by
    intro t ht o text params huse
    simp only [p, Program.turns, List.mem_cons, List.not_mem_nil, or_false] at ht
    rcases ht with rfl | rfl <;> cases huse
  rcases engine_agrees_unless_parted p e hagrees hquery [_] _ [] rfl rfl with
    hclosed | ⟨agreed, s, since, hsplit, hparts, -, hfaithful⟩
  · cases hclosed
  · exact ⟨_, _, rfl, hagrees, hquery, rfl, agreed, s, since, hsplit, hparts,
      fun h => (hfaithful h).1⟩

/-- The engine does not always agree with its connection. -/
theorem engine_disagrees_after_refused_rollback :
    let done : Reply := ⟨.ok (.done .null .null), none⟩
    let refused : Reply := ⟨.error (.database "disk I/O error"), none⟩
    let e : Engine := { connection := { replies := [done, refused] } }
    let p : Program := .call .begin fun _ => .call .rollback fun _ => .done (.ok ())
    Agrees e ∧ (∀ t ∈ p.turns e, ∀ o text params, t.use ≠ .query o text params) ∧
      ∃ t ∈ p.turns e, t.after.inTransaction = false ∧
        t.after.connection.inTransaction = true := by
  intro done refused e p
  refine ⟨fun _ => rfl, ?_, _, List.mem_cons_of_mem _ (List.mem_singleton_self _), rfl, rfl⟩
  intro t ht o text params huse
  simp only [p, Program.turns, List.mem_cons, List.not_mem_nil, or_false] at ht
  rcases ht with rfl | rfl <;> cases huse

end RowMapper.Engine
