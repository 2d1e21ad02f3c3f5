import RowMapper.Proofs.Engine.Program

/-!
# Transactions are bracketed

A `BEGIN` that succeeds opens a bracket, and `ROLLBACK` closes it.  So does a `COMMIT` that succeeds
or that fails with an error of the database while the connection is in no transaction.  After a
`COMMIT` that fails in another way the bracket stays open, as the engine still counts as in a
transaction.

`Walk` reads what a program exchanges as the walk of an automaton whose state says whether a bracket
is open.  Each turn walks from the flag of the engine before it to the flag after it, so a whole run
does, and `transactions_are_bracketed` is read off the walk.
-/
namespace RowMapper.Engine

open Connection (beginText commitText rollbackText)

/-! ## 1. Brackets -/

/-- An exchange, and whether the connection was in a transaction after it. -/
structure Event where
  exchange : Exchange
  inside : Bool

namespace Event

/-- The statement of the event. -/
def Asks (x : Event) (text : String) : Prop := ∃ params, x.exchange.call = .statement text params

/-- The statement was answered. -/
def Succeeds (x : Event) : Prop := ∃ answer, x.exchange.result = .ok answer

/-- A transaction was begun. -/
def Opens (x : Event) : Prop := x.Asks beginText ∧ x.Succeeds

/-- The changes of a transaction were kept. -/
def Commits (x : Event) : Prop := x.Asks commitText ∧ x.Succeeds

/-- The failure is one of the database, and not of a value or of reading the answer. -/
def FailsInDatabase (x : Event) : Prop :=
  ∃ message statement params, ending commitText x.exchange.result =
    .error (.database message statement params)

/-- A transaction counts as ended. -/
def Ends (x : Event) : Prop :=
  x.Asks rollbackText ∨ x.Asks commitText ∧ (x.Succeeds ∨ x.FailsInDatabase ∧ x.inside = false)

theorem Asks.unique {x : Event} {text other : String} (h : x.Asks text) (h' : x.Asks other) :
    text = other := by
  obtain ⟨params, hcall⟩ := h
  obtain ⟨params', hcall'⟩ := h'
  exact (Call.statement.inj (hcall.symm.trans hcall')).1

theorem Ends.not_begin {x : Event} (h : x.Ends) : ¬x.Asks beginText := by
  intro hbegin
  rcases h with h | ⟨h, -⟩
  · exact absurd (h.unique hbegin) (by decide)
  · exact absurd (h.unique hbegin) (by decide)

end Event

/-- The statements for transactions stand in brackets, of which the given events are the ends. -/
structure Bracketed (ends : Event → Prop) (events : List Event) : Prop where
  /-- After a transaction was begun, none is begun before it has ended. -/
  begin_after_end : ∀ before x between y after, events = before ++ x :: between ++ y :: after →
    x.Opens → y.Asks beginText → ∃ z ∈ between, ends z
  /-- For each transaction that was begun, the changes are kept once at most. -/
  one_commit : ∀ before x between y after, events = before ++ x :: between ++ y :: after →
    x.Commits → y.Commits → ∃ z ∈ between, z.Opens
  /-- What ends a transaction or tries to is sent after one was begun that has not ended. -/
  inside : ∀ before y after, events = before ++ y :: after →
    y.Asks commitText ∨ y.Asks rollbackText →
    ∃ earlier x since, before = earlier ++ x :: since ∧ x.Opens ∧ ∀ z ∈ since, ¬ends z

/-! ## 2. The automaton -/

/-- What may be sent while a bracket is open or not, and whether one is open then. -/
inductive Event.Moves : Bool → Event → Bool → Prop
  | opens {x : Event} (h : x.Opens) : Moves false x true
  | refused {x : Event} (h : x.Asks beginText) (hnot : ¬x.Succeeds) : Moves false x false
  | ends {x : Event} (h : x.Ends) : Moves true x false
  | stays {x : Event} (h : x.Asks commitText) (hnot : ¬x.Ends) : Moves true x true
  | other {x : Event} (b : Bool)
      (h : ∀ text ∈ [beginText, commitText, rollbackText], ¬x.Asks text) : Moves b x b

/-- The events lead from one state to another. -/
inductive Walk : Bool → List Event → Bool → Prop
  | nil (b : Bool) : Walk b [] b
  | cons {b c d : Bool} {x : Event} {rest : List Event} (move : x.Moves b c)
      (walk : Walk c rest d) : Walk b (x :: rest) d

namespace Walk

variable {b c d : Bool} {x : Event} {xs ys : List Event}

theorem one (move : x.Moves b c) : Walk b [x] c := .cons move (.nil c)

theorem append (h : Walk b xs c) (h' : Walk c ys d) : Walk b (xs ++ ys) d := by
  induction h with
  | nil => exact h'
  | cons move _ ih => exact .cons move (ih h')

theorem split (h : Walk b (xs ++ ys) d) : ∃ c, Walk b xs c ∧ Walk c ys d := by
  induction xs generalizing b with
  | nil => exact ⟨b, .nil b, h⟩
  | cons x rest ih =>
    cases h with
    | cons move walk =>
      obtain ⟨c, hrest, hys⟩ := ih walk
      exact ⟨c, .cons move hrest, hys⟩

/-- A walk past an event. -/
theorem at_event (h : Walk b (xs ++ x :: ys) d) :
    ∃ before after, Walk b xs before ∧ x.Moves before after ∧ Walk after ys d := by
  obtain ⟨before, hxs, hrest⟩ := h.split
  cases hrest with
  | cons move walk => exact ⟨before, _, hxs, move, walk⟩

end Walk

namespace Event.Moves

variable {b c : Bool} {x : Event}

theorem of_opens (h : x.Moves b c) (hopens : x.Opens) : c = true := by
  cases h with
  | opens => rfl
  | refused _ hnot => exact absurd hopens.2 hnot
  | ends hends => exact absurd hopens.1 hends.not_begin
  | stays => rfl
  | other b hnot => exact absurd hopens.1 (hnot _ (by simp))

theorem of_begin (h : x.Moves b c) (hbegin : x.Asks beginText) : b = false := by
  cases h with
  | opens => rfl
  | refused => rfl
  | ends hends => exact absurd hbegin hends.not_begin
  | stays hcommit => exact absurd (hbegin.unique hcommit) (by decide)
  | other b hnot => exact absurd hbegin (hnot _ (by simp))

theorem of_ending (h : x.Moves b c) (hending : x.Asks commitText ∨ x.Asks rollbackText) :
    b = true := by
  have hbegin : ¬x.Asks beginText := by
    intro hbegin
    rcases hending with h | h
    · exact absurd (hbegin.unique h) (by decide)
    · exact absurd (hbegin.unique h) (by decide)
  cases h with
  | opens hopens => exact absurd hopens.1 hbegin
  | refused hasks => exact absurd hasks hbegin
  | ends => rfl
  | stays => rfl
  | other b hnot =>
    rcases hending with h | h
    · exact absurd h (hnot _ (by simp))
    · exact absurd h (hnot _ (by simp))

theorem of_commits (h : x.Moves b c) (hcommits : x.Commits) : c = false := by
  cases h with
  | opens hopens => exact absurd (hopens.1.unique hcommits.1) (by decide)
  | refused => rfl
  | ends => rfl
  | stays _ hnot => exact absurd (.inr ⟨hcommits.1, .inl hcommits.2⟩) hnot
  | other b hnot => exact absurd hcommits.1 (hnot _ (by simp))

/-- No bracket is closed by an event after which one is open. -/
theorem not_ends (h : x.Moves true true) : ¬x.Ends := by
  cases h with
  | stays _ hnot => exact hnot
  | other _ hnot =>
    rintro (h | ⟨h, -⟩)
    · exact hnot _ (by simp) h
    · exact hnot _ (by simp) h

end Event.Moves

/-- A bracket that was open and is not any more was closed. -/
theorem Walk.closed {xs : List Event} (h : Walk true xs false) : ∃ z ∈ xs, z.Ends := by
  induction xs with
  | nil => cases h
  | cons x rest ih =>
    cases h with
    | @cons _ c _ _ _ move walk =>
      cases c with
      | true =>
        obtain ⟨z, hz, hends⟩ := ih walk
        exact ⟨z, List.mem_cons_of_mem x hz, hends⟩
      | false =>
        cases move with
        | ends hends => exact ⟨x, by simp, hends⟩

/-- A bracket that is open was open at first, or it was opened since, and was not closed then. -/
theorem Walk.opened {b : Bool} {xs : List Event} (h : Walk b xs true) :
    (b = true ∧ ∀ z ∈ xs, ¬z.Ends) ∨
      ∃ earlier x since, xs = earlier ++ x :: since ∧ x.Opens ∧ ∀ z ∈ since, ¬z.Ends := by
  induction xs generalizing b with
  | nil =>
    cases h
    exact .inl ⟨rfl, by simp⟩
  | cons x rest ih =>
    cases h with
    | @cons _ c _ _ _ move walk =>
      rcases ih walk with ⟨rfl, hrest⟩ | ⟨earlier, y, since, rfl, hopens, hsince⟩
      · cases b with
        | false =>
          cases move with
          | opens hopens => exact .inr ⟨[], x, rest, rfl, hopens, hrest⟩
        | true =>
          refine .inl ⟨rfl, fun z hz => ?_⟩
          rcases List.mem_cons.mp hz with rfl | hz
          · exact move.not_ends
          · exact hrest z hz
      · exact .inr ⟨x :: earlier, y, since, rfl, hopens, hsince⟩

/-- A walk that starts outside brackets goes through brackets. -/
theorem Walk.bracketed {events : List Event} {b : Bool} (h : Walk false events b) :
    Bracketed Event.Ends events where
  begin_after_end := by
    rintro before x between y after rfl hopens hbegin
    rw [List.append_assoc] at h
    obtain ⟨_, _, -, hx, hrest⟩ := h.at_event
    obtain ⟨_, _, hbetween, hy, -⟩ := hrest.at_event
    rw [hx.of_opens hopens, hy.of_begin hbegin] at hbetween
    exact hbetween.closed
  one_commit := by
    rintro before x between y after rfl hx hy
    rw [List.append_assoc] at h
    obtain ⟨_, _, -, hmove, hrest⟩ := h.at_event
    obtain ⟨_, _, hbetween, hmove', -⟩ := hrest.at_event
    rw [hmove.of_commits hx, hmove'.of_ending (.inl hy.1)] at hbetween
    rcases hbetween.opened with ⟨hfalse, -⟩ | ⟨earlier, z, since, rfl, hopens, -⟩
    · cases hfalse
    · exact ⟨z, by simp, hopens⟩
  inside := by
    rintro before y after rfl hending
    obtain ⟨_, _, hbefore, hy, -⟩ := h.at_event
    rw [hy.of_ending hending] at hbefore
    rcases hbefore.opened with ⟨hfalse, -⟩ | hopened
    · cases hfalse
    · exact hopened

/-! ## 3. Runs of programs -/

/-- What is exchanged in a turn. -/
def Turn.events (t : Turn) : List Event :=
  t.sent.map fun x => ⟨x, t.after.connection.inTransaction⟩

/-- What is exchanged by a program. -/
def Program.events (p : Program) (e : Engine) : List Event := (p.turns e).flatMap Turn.events

/-- No query of the turn is a statement for transactions. -/
def Turn.QueryPlain (t : Turn) : Prop := ∀ o text params, t.use = .query o text params →
  text ∉ [beginText, commitText, rollbackText]

theorem Walk.of_others {events : List Event} (b : Bool)
    (h : ∀ x ∈ events, ∀ text ∈ [beginText, commitText, rollbackText], ¬x.Asks text) :
    Walk b events b := by
  induction events with
  | nil => exact .nil b
  | cons x rest ih =>
    exact .cons (.other b (h x (by simp))) (ih fun y hy => h y (List.mem_cons_of_mem x hy))

/-- A commit ends the bracket exactly if the engine does not count as in a transaction after it. -/
theorem ends_commit_iff (reply : Except Refusal Answer) (c : Connection) :
    (Event.mk (asked commitText reply) c.inTransaction).Ends ↔
      openAfter c (ending commitText reply) = false := by
  have hasks : (Event.mk (asked commitText reply) c.inTransaction).Asks commitText := ⟨[], rfl⟩
  have hrollback : ¬(Event.mk (asked commitText reply) c.inTransaction).Asks rollbackText :=
    fun h => absurd (hasks.unique h) (by decide)
  simp only [Event.Ends, hasks, hrollback, true_and, false_or]
  cases reply with
  | ok answer =>
    simp only [ending, openAfter, iff_true]
    exact .inl ⟨answer, rfl⟩
  | error refusal =>
    have hfails : ¬(Event.mk (asked commitText (.error refusal)) c.inTransaction).Succeeds :=
      fun ⟨_, h⟩ => nomatch h
    simp only [hfails, false_or, Event.FailsInDatabase]
    show (∃ m s p, ending commitText (.error refusal) = .error (.database m s p)) ∧ _ ↔ _
    simp only [ending]
    cases refusalFault commitText refusal <;> simp [openAfter]

/-- A turn walks from the flag of the engine before it to the flag after it. -/
theorem Turn.walk {t : Turn} (hquery : t.QueryPlain) :
    Walk t.before.inTransaction t.events t.after.inTransaction := by
  obtain ⟨-, hdoes⟩ := t.does
  rw [Turn.events]
  generalize t.sent = sent at hdoes
  cases hdoes with
  | queried use flag calls =>
    rw [flag]
    refine .of_others _ fun x hx text htext => ?_
    obtain ⟨y, hy, rfl⟩ := List.mem_map.mp hx
    rintro ⟨params, hcall⟩
    rw [calls y hy] at hcall
    cases hcall
    exact hquery _ _ _ use htext
  | refused use same =>
    rw [same]
    exact .nil _
  | @began reply use outside flag =>
    rw [outside]
    refine .one ?_
    cases reply with
    | ok answer =>
      rw [flag.mpr ⟨answer, rfl⟩]
      exact .opens ⟨⟨[], rfl⟩, answer, rfl⟩
    | error refusal =>
      have hclosed : t.after.inTransaction = false := by
        rw [Bool.eq_false_iff]
        intro hopen
        obtain ⟨answer, h⟩ := flag.mp hopen
        cases h
      rw [hclosed]
      exact .refused ⟨[], rfl⟩ fun ⟨_, h⟩ => nomatch h
  | @committed reply use inside flag =>
    rw [inside]
    refine .one ?_
    have hends := ends_commit_iff reply t.after.connection
    rw [flag]
    cases hopen : openAfter t.after.connection (ending commitText reply) with
    | false => exact .ends (hends.mpr hopen)
    | true => exact .stays ⟨[], rfl⟩ fun h => by rw [hends.mp h] at hopen; cases hopen
  | @rolledBack reply use inside flag =>
    rw [inside, flag]
    exact .one (.ends (.inl ⟨[], rfl⟩))

theorem Chain.walk {e e' : Engine} {ts : List Turn} (h : Chain e ts e')
    (hquery : ∀ t ∈ ts, t.QueryPlain) :
    Walk e.inTransaction (ts.flatMap Turn.events) e'.inTransaction := by
  induction ts generalizing e with
  | nil =>
    cases h
    exact .nil _
  | cons t rest ih =>
    obtain ⟨rfl, hrest⟩ := h
    rw [List.flatMap_cons]
    exact (Turn.walk (hquery t (by simp))).append
      (ih hrest fun u hu => hquery u (List.mem_cons_of_mem t hu))

/-- The trace grows by what is exchanged in the turns. -/
theorem Chain.trace {e e' : Engine} {ts : List Turn} (h : Chain e ts e') :
    e'.connection.trace =
      e.connection.trace ++ (ts.flatMap Turn.events).map Event.exchange := by
  induction ts generalizing e with
  | nil =>
    cases h
    simp
  | cons t rest ih =>
    obtain ⟨rfl, hrest⟩ := h
    rw [ih hrest, t.does.1]
    simp [Turn.events, Function.comp_def]

/-- **Transactions are bracketed**: what a program adds to the trace are the events of its turns,
and if none of its queries is a statement for transactions, these stand in brackets. -/
theorem transactions_are_bracketed (p : Program) (e : Engine) (hflag : e.inTransaction = false)
    (hquery : ∀ t ∈ p.turns e, t.QueryPlain) :
    (p.run.runOn e).2.connection.trace =
        e.connection.trace ++ (p.events e).map Event.exchange ∧
      Bracketed Event.Ends (p.events e) := by
  have hchain := turns_chain p e
  have hwalk := hchain.walk hquery
  rw [hflag] at hwalk
  exact ⟨hchain.trace, hwalk.bracketed⟩

/-- A block whose commit is refused while the connection stays in its transaction: the bracket is
open until the rollback. -/
theorem refused_commit_keeps_bracket_open :
    let done : Reply := ⟨.ok (.done .null .null), none⟩
    let refused : Reply := ⟨.error (.database "FOREIGN KEY constraint failed"), some true⟩
    let e : Engine := { connection := { replies := [done, refused, done] } }
    let p : Program := .transaction (.done (.ok ())) fun _ => .done (.ok ())
    e.inTransaction = false ∧ (∀ t ∈ p.turns e, t.QueryPlain) ∧
      (p.events e).map (·.exchange.call) =
        [.statement beginText [], .statement commitText [], .statement rollbackText []] ∧
      Bracketed Event.Ends (p.events e) := by
  intro done refused e p
  have hquery : ∀ t ∈ p.turns e, t.QueryPlain := by
    intro t ht o text params huse
    have hturns : p.turns e = [⟨.begin, e⟩, ⟨.commit, _⟩, ⟨.rollback, _⟩] := rfl
    simp only [hturns, List.mem_cons, List.not_mem_nil, or_false] at ht
    rcases ht with rfl | rfl | rfl <;> cases huse
  exact ⟨rfl, hquery, rfl, (transactions_are_bracketed p e rfl hquery).2⟩

/-- If every failed `COMMIT` that leaves the connection in no transaction counted as an end, the
brackets would not hold: after one that fails for another reason than an error of the database the
engine still counts as in a transaction, and the rollback is sent. -/
theorem rollback_outside_after_overflowing_commit :
    let done : Reply := ⟨.ok (.done .null .null), none⟩
    let overflowing : Reply := ⟨.error (.overflow "too large"), some false⟩
    let e : Engine := { connection := { replies := [done, overflowing, done] } }
    let p : Program :=
      .call .begin fun _ => .call .commit fun _ => .call .rollback fun _ => .done (.ok ())
    e.inTransaction = false ∧ (∀ t ∈ p.turns e, ∀ o text params, t.use ≠ .query o text params) ∧
      ¬Bracketed (fun x => x.Asks rollbackText ∨
        x.Asks commitText ∧ (x.Succeeds ∨ x.inside = false)) (p.events e) := by
  intro done overflowing e p
  refine ⟨rfl, ?_, fun h => ?_⟩
  · intro t ht o text params huse
    simp only [p, Program.turns, List.mem_cons, List.not_mem_nil, or_false] at ht
    rcases ht with rfl | rfl | rfl <;> cases huse
  · let began : Event := ⟨asked beginText (.ok (.done .null .null)), true⟩
    let overflowed : Event := ⟨asked commitText (.error (.overflow "too large")), false⟩
    let rolledBack : Event := ⟨asked rollbackText (.ok (.done .null .null)), false⟩
    have hevents : p.events e = [began, overflowed] ++ rolledBack :: [] := rfl
    obtain ⟨earlier, x, since, hsplit, ⟨hbegin, -⟩, hsince⟩ :=
      h.inside _ _ _ hevents (.inr ⟨[], rfl⟩)
    rcases earlier with _ | ⟨_, _ | ⟨_, _⟩⟩
    · obtain ⟨rfl, rfl⟩ := List.cons.inj hsplit
      exact hsince overflowed (by simp) (.inr ⟨⟨[], rfl⟩, .inr rfl⟩)
    · obtain ⟨rfl, -⟩ := List.cons.inj (List.cons.inj hsplit).2
      have hcommit : overflowed.Asks commitText := ⟨[], rfl⟩
      exact absurd (hbegin.unique hcommit) (by decide)
    · simp at hsplit

end RowMapper.Engine
