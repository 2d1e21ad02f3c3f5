import RowMapper.Proofs.World.Call

/-!
# When operations refuse

An operation refuses its input with a fault that says what is wrong with the input: an option, a
filter, a name or a key.  `Refuses late w action` says of the run of an action in a world that a
refusal comes only where `late` allows it, given what was sent until then.  Most actions check all
of their input before they send anything (`Early`), and what they do afterwards refuses nothing
(`Settled`).  The actions that find rows first and check the rest of their input then refuse it
amid selections (`Amid`), and what comes before that is early, so as a whole they are `Late`.

A driver that fails with a fault of its own can fail with any; this is `Raised`.
-/
namespace RowMapper

/-! ## 1. Refusals -/

/-- The fault says that an input was refused. -/
def Fault.isRefusal : Fault → Bool
  | .rejected _ => true
  | .badOptions _ => true
  | _ => false

/-- If the outcome is a refusal, then it is one of the given ones. -/
abbrev RefusesOnly {α : Type} (P : Fault → Prop) (outcome : Except Fault α) : Prop :=
  FailsOnly (fun fault => fault.isRefusal = true → P fault) outcome

/-- The outcome is no refusal. -/
abbrev Unrefused {α : Type} (outcome : Except Fault α) : Prop :=
  RefusesOnly (fun _ => False) outcome

section

variable {α : Type} {P Q : Fault → Prop}

/-- A fault that is no refusal. -/
theorem FailsOnly.failure {fault : Fault} (h : fault.isRefusal = false) :
    RefusesOnly P (.error fault : Except Fault α) := by
  refine .error fun hrefusal => ?_
  rw [h] at hrefusal
  cases hrefusal

theorem RefusesOnly.mono {outcome : Except Fault α} (h : RefusesOnly P outcome)
    (himp : ∀ fault, P fault → Q fault) : RefusesOnly Q outcome :=
  h.imp fun fault hP hrefusal => himp fault (hP hrefusal)

end

/-- What cannot be printed is not refused for it. -/
theorem inWords_unrefused (p : Printed) : Unrefused (World.inWords p) := by
  cases p with
  | ok text => exact .ok text
  | error why => cases why <;> exact .failure rfl

theorem Engine.reportStatement_unrefused (message : Printed) (e : Engine) :
    Unrefused ((reportStatement message).runOn e).1 := by
  rw [reportStatement, Action.runOn_bind_ok (Action.runOn_get e)]
  split
  · cases message with
    | ok text => exact .ok _
    | error why => cases why <;> exact .failure rfl
  · exact .ok _

/-- The driver failed with the fault by itself. -/
def Raised (fault : Fault) (sent : List Exchange) : Prop :=
  ∃ x ∈ sent, x.result = .error (.unreadable fault)

/-- A query refuses nothing: only the driver can fail with a refusal. -/
theorem Engine.query_raised {o : Observer} {text : String} {params : List Value} {e e' : Engine}
    {fault : Fault} (h : (Engine.query o text params).runOn e = (.error fault, e'))
    (hrefusal : fault.isRefusal = true) :
    ∃ x : Exchange, e'.connection.trace = e.connection.trace ++ [x] ∧
      x.result = .error (.unreadable fault) := by
  rw [query, Action.runOn_bind] at h
  rcases hreported : (reportStatement (statementMessage o text params)).runOn e with
    ⟨unprintable | _, e₁⟩ <;> rw [hreported] at h
  · cases h
    have hnot := reportStatement_unrefused (statementMessage o text params) e
    rw [hreported] at hnot
    exact (hnot fault rfl hrefusal).elim
  · have hreport := ((reportStatement_makes _).of_run hreported).eq_of_none
    have hsent := execute_trace e₁.connection text params (params.map o.view)
    rw [hreport] at hsent
    dsimp only at h
    rw [Action.runOn_bind_ok (send_runOn text params _ e₁)] at h
    cases hreply : (e₁.connection.execute text params (params.map o.view)).1 with
    | ok answer =>
      rw [hreply] at h
      cases h
    | error refusal =>
      rw [hreply] at h hsent
      cases refusal with
      | unreadable why =>
        cases h
        exact ⟨_, hsent, rfl⟩
      | overflow message =>
        cases h
        cases hrefusal
      | database message =>
        cases h
        cases hrefusal

namespace World

open Model (Association Mapper Registry)

variable {α β : Type}

theorem registry_mapperOf_unrefused (r : Registry) (id : Nat) : Unrefused (r.mapperOf id) := by
  unfold Registry.mapperOf
  split
  · exact .ok _
  · exact .failure rfl

theorem mapper_unrefused (w : World) (model : Nat) : Unrefused (w.mapper model) :=
  .bind (registry_mapperOf_unrefused _ _) fun _ => .ok _

theorem mapperOf_unrefused (w : World) (ref : EntityRef) : Unrefused (w.mapperOf ref) :=
  mapper_unrefused w _

theorem inherited_unrefused (r : Registry) (model : ModelRef) (name : String) :
    Unrefused (inherited r model name) := by
  unfold inherited
  split
  · exact .ok _
  · exact .ok _
  · exact .ok _
  · exact .failure rfl

theorem heldAttribute_unrefused (w : World) (ref : EntityRef) (name : String) :
    Unrefused (w.heldAttribute ref name) := by
  unfold heldAttribute
  dsimp only
  split
  · exact .ok _
  · exact inherited_unrefused _ _ _

theorem keyValue_unrefused (w : World) (ref : EntityRef) : Unrefused (w.keyValue ref) :=
  .bind (registry_mapperOf_unrefused _ _) fun _ => heldAttribute_unrefused w ref _

/-! ## 2. Refusals of actions -/

/-- In a world an action refuses its input only where `late` allows it, by what was sent. -/
def Refuses (late : List Exchange → Fault → Prop) (w : World) (action : Action World α) : Prop :=
  ∃ sent, (action.runOn w).2.trace = w.trace ++ sent ∧
    ∀ fault, (action.runOn w).1 = .error fault → fault.isRefusal = true →
      Raised fault sent ∨ late sent fault

/-- The input is refused before anything is sent. -/
abbrev Early (w : World) (action : Action World α) : Prop :=
  Refuses (fun sent _ => sent = []) w action

/-- No input is refused. -/
abbrev Settled (action : Action World α) : Prop := ∀ w, Refuses (fun _ _ => False) w action

/-- The input is refused before anything is sent, and only in one of the given ways. -/
abbrev EarlyAs (P : Fault → Prop) (w : World) (action : Action World α) : Prop :=
  Refuses (fun sent fault => sent = [] ∧ P fault) w action

/-- The input is refused in one of the given ways, and with nothing sent but selections. -/
abbrev Amid (P : Fault → Prop) (w : World) (action : Action World α) : Prop :=
  Refuses (fun sent fault => P fault ∧ ∀ x ∈ sent, Asked .selection x.call) w action

/-- The input is refused before anything is sent, or in one of the given ways amid selections. -/
abbrev Late (P : Fault → Prop) (w : World) (action : Action World α) : Prop :=
  Refuses (fun sent fault => sent = [] ∨ P fault ∧ ∀ x ∈ sent, Asked .selection x.call) w action

namespace Refuses

variable {late other : List Exchange → Fault → Prop} {w : World}

theorem mono {action : Action World α} (h : Refuses late w action)
    (himp : ∀ sent fault, late sent fault → other sent fault) : Refuses other w action := by
  obtain ⟨sent, htrace, hfault⟩ := h
  exact ⟨sent, htrace, fun fault hrun hrefusal => (hfault fault hrun hrefusal).imp_right (himp _ _)⟩

/-- An action that sends nothing is early. -/
theorem of_quiet {action : Action World α} (h : Sends [] action) (w : World) : Early w action :=
  ⟨[], by rw [(h w).trace_eq, List.append_nil], fun _ _ _ => .inr rfl⟩

/-- What follows an action is judged with what the action sent before it. -/
theorem bind_of {first : Action World α} {next : α → Action World β} (hfirst : Refuses late w first)
    (hstop : ∀ sent fault, late sent fault → other sent fault)
    (hnext : ∀ a u sent, first.runOn w = (.ok a, u) → u.trace = w.trace ++ sent →
      Refuses (fun more => other (sent ++ more)) u (next a)) :
    Refuses other w (first >>= next) := by
  obtain ⟨sent, htrace, hfault⟩ := hfirst
  rw [Refuses, Action.runOn_bind]
  rcases hrun : first.runOn w with ⟨fault | a, u⟩ <;> rw [hrun] at htrace hfault
  · refine ⟨sent, htrace, fun fault' heq hrefusal => ?_⟩
    cases Except.error.inj heq
    exact (hfault fault rfl hrefusal).imp_right (hstop sent fault)
  · obtain ⟨more, hmore, hlast⟩ := hnext a u sent hrun htrace
    refine ⟨sent ++ more, by rw [hmore, htrace, List.append_assoc], fun fault heq hrefusal => ?_⟩
    refine (hlast fault heq hrefusal).imp_left ?_
    rintro ⟨x, hx, hraised⟩
    exact ⟨x, List.mem_append_right _ hx, hraised⟩

/-- What follows an action that sends nothing decides. -/
theorem quiet_bind {first : Action World α} {next : α → Action World β} (hquiet : Sends [] first)
    (hfirst : Refuses late w first)
    (hnext : ∀ a u, first.runOn w = (.ok a, u) → Refuses late u (next a)) :
    Refuses late w (first >>= next) := by
  refine .bind_of hfirst (fun _ _ => id) fun a u sent hrun htrace => ?_
  have hsame := (hquiet w).trace_eq
  rw [hrun, htrace, List.append_right_eq_self] at hsame
  cases hsame
  exact hnext a u hrun

/-- What sends nothing and refuses nothing may come before. -/
theorem after {first : Action World α} {next : α → Action World β} (hquiet : Sends [] first)
    (hsettled : Settled first) (hnext : ∀ a u, Refuses late u (next a)) :
    Refuses late w (first >>= next) :=
  .quiet_bind hquiet ((hsettled w).mono fun _ _ hfalse => hfalse.elim) fun a u _ => hnext a u

theorem ite {condition : Prop} [Decidable condition] {first second : Action World α}
    (hfirst : Refuses late w first) (hsecond : Refuses late w second) :
    Refuses late w (if condition then first else second) := by
  split
  · exact hfirst
  · exact hsecond

/-- What is settled may follow. -/
theorem bind_settled {first : Action World α} {next : α → Action World β}
    (hfirst : Refuses late w first) (hnext : ∀ a, Settled (next a)) :
    Refuses late w (first >>= next) :=
  .bind_of hfirst (fun _ _ => id) fun a u _ _ _ => (hnext a u).mono fun _ _ hfalse => hfalse.elim

theorem discard {action : Action World α} (h : Refuses late w action) :
    Refuses late w (Functor.discard action) := by
  rw [Action.discard_eq]
  exact h.bind_settled fun _ _ => ⟨[], (List.append_nil _).symm, fun _ hrun => nomatch hrun⟩

/-- What sends nothing may come before what is early. -/
theorem after_quiet {first : Action World α} {next : α → Action World β} (hquiet : Sends [] first)
    (hnext : ∀ a u, Early u (next a)) : Early w (first >>= next) :=
  .quiet_bind hquiet (.of_quiet hquiet w) fun a u _ => hnext a u

/-- What is early is not late. -/
theorem of_early {P : Fault → Prop} {action : Action World α} (h : Early w action) :
    Late P w action := h.mono fun _ _ => .inl

theorem late_mono {P Q : Fault → Prop} {action : Action World α} (h : Late P w action)
    (himp : ∀ fault, P fault → Q fault) : Late Q w action :=
  h.mono fun _ fault hlate => hlate.imp_right (.imp_left (himp fault))

/-- What sends nothing may come before what is late. -/
theorem late_after_quiet {P : Fault → Prop} {first : Action World α} {next : α → Action World β}
    (hquiet : Sends [] first) (hnext : ∀ a u, Late P u (next a)) : Late P w (first >>= next) :=
  .quiet_bind hquiet (.of_early (.of_quiet hquiet w)) fun a u _ => hnext a u

/-- What is read before what is late may be relied on. -/
theorem late_reading_bind {P : Fault → Prop} {read : World → Except Fault α}
    {next : α → Action World β} (hnext : ∀ a, read w = .ok a → Late P w (next a)) :
    Late P w (reading read >>= next) := by
  have hquiet : Sends [] (reading read) := reading_sends read
  refine .quiet_bind hquiet (.of_early (.of_quiet hquiet w)) fun a u hrun => ?_
  obtain ⟨hread, rfl⟩ := Prod.mk.inj hrun
  exact hnext a hread

/-- What is checked in an action that sends nothing is refused as it is there. -/
theorem of_ofExcept {P : Fault → Prop} {outcome : Except Fault α} (h : RefusesOnly P outcome)
    (w : World) : EarlyAs P w (Action.ofExcept outcome) := by
  refine ⟨[], by rw [Action.runOn_ofExcept, List.append_nil], fun fault hrun hrefusal => .inr ?_⟩
  rw [Action.runOn_ofExcept] at hrun
  exact ⟨rfl, h fault hrun hrefusal⟩

theorem of_throw {P : Fault → Prop} {fault : Fault} (h : P fault) (w : World) :
    EarlyAs P w (throw fault : Action World α) := by
  have hrefuses : RefusesOnly P (.error fault : Except Fault α) := .error fun _ => h
  exact of_ofExcept hrefuses w

/-- What is refused before anything is sent is refused with nothing sent but selections. -/
theorem amid {P : Fault → Prop} {action : Action World α} (h : EarlyAs P w action) :
    Amid P w action := by
  refine h.mono fun sent fault hlate => ⟨hlate.2, ?_⟩
  rw [hlate.1]
  simp

/-- Selections may come before what is refused amid selections. -/
theorem select_bind {P : Fault → Prop} {first : Action World α} {next : α → Action World β}
    (hfirst : Refuses late w first) (hselects : Sends [.selection] first)
    (hstop : ∀ sent fault, late sent fault → other sent fault)
    (hnext : ∀ a u, Amid P u (next a))
    (hamid : ∀ sent fault, P fault → (∀ x ∈ sent, Asked .selection x.call) → other sent fault) :
    Refuses other w (first >>= next) := by
  refine .bind_of hfirst hstop fun a u sent hrun htrace => ?_
  have hled := hselects w
  rw [hrun] at hled
  exact (hnext a u).mono fun more fault hlate => hamid _ _ hlate.1
    (List.forall_mem_append.mpr ⟨hled.asked_of_mem htrace, hlate.2⟩)

theorem bind_amid {P : Fault → Prop} {first : Action World α} {next : α → Action World β}
    (hfirst : Early w first) (hselects : Sends [.selection] first)
    (hnext : ∀ a u, Amid P u (next a)) : Late P w (first >>= next) :=
  .select_bind hfirst hselects (fun _ _ => .inl) hnext fun _ _ hP hcalls => .inr ⟨hP, hcalls⟩

theorem amid_bind {P : Fault → Prop} {first : Action World α} {next : α → Action World β}
    (hfirst : Amid P w first) (hselects : Sends [.selection] first)
    (hnext : ∀ a u, Amid P u (next a)) : Amid P w (first >>= next) :=
  .select_bind hfirst hselects (fun _ _ => id) hnext fun _ _ hP hcalls => ⟨hP, hcalls⟩

end Refuses

/-! ## 3. What is settled -/

namespace Settled

theorem refuses {late : List Exchange → Fault → Prop} {action : Action World α} (h : Settled action)
    (w : World) : Refuses late w action := (h w).mono fun _ _ hfalse => hfalse.elim

theorem bind {first : Action World α} {next : α → Action World β} (hfirst : Settled first)
    (hnext : ∀ a, Settled (next a)) : Settled (first >>= next) :=
  fun w => (hfirst w).bind_settled hnext

/-- An action that sends nothing and does not refuse. -/
theorem of_quiet {action : Action World α} (hquiet : Sends [] action)
    (h : ∀ w, Unrefused (action.runOn w).1) : Settled action :=
  fun w => ⟨[], by rw [(hquiet w).trace_eq, List.append_nil],
    fun fault hrun hrefusal => .inr (h w fault hrun hrefusal)⟩

theorem pure (a : α) : Settled (Pure.pure a : Action World α) :=
  of_quiet (.pure a) fun _ => .ok a

theorem get : Settled (MonadState.get : Action World World) := of_quiet .get fun w => .ok w

theorem throw {fault : Fault} (h : fault.isRefusal = false) :
    Settled (MonadExcept.throw fault : Action World α) :=
  of_quiet (.throw fault) fun _ => .failure h

theorem ofExcept {outcome : Except Fault α} (h : Unrefused outcome) :
    Settled (Action.ofExcept outcome) :=
  of_quiet (.ofExcept outcome) fun w => by rwa [Action.runOn_ofExcept]

theorem reading {read : World → Except Fault α} (h : ∀ w, Unrefused (read w)) :
    Settled (World.reading read) := of_quiet (reading_sends read) h

theorem ite {condition : Prop} [Decidable condition] {first other : Action World α}
    (hfirst : Settled first) (hother : Settled other) :
    Settled (if condition then first else other) := by
  split
  · exact hfirst
  · exact hother

theorem discard {action : Action World α} (h : Settled action) :
    Settled (Functor.discard action) := by
  rw [Action.discard_eq]
  exact h.bind fun _ => .pure _

theorem mapM {γ : Type} {items : List γ} {action : γ → Action World α}
    (h : ∀ item, Settled (action item)) : Settled (items.mapM action) := by
  induction items with
  | nil => exact .pure _
  | cons item rest ih =>
    rw [List.mapM_cons]
    exact (h item).bind fun _ => ih.bind fun _ => .pure _

end Settled

/-- Selections for one item after another. -/
theorem Refuses.amid_mapM {γ : Type} {P : Fault → Prop} {items : List γ}
    {action : γ → Action World α} (hselects : ∀ item, Sends [.selection] (action item))
    (h : ∀ item u, Amid P u (action item)) (w : World) : Amid P w (items.mapM action) := by
  induction items generalizing w with
  | nil => exact (Settled.pure _).refuses w
  | cons item rest ih =>
    rw [List.mapM_cons]
    exact (h item w).amid_bind (hselects item) fun _ u => .bind_settled (ih u) fun _ => .pure _

/-- A statement refuses nothing, whatever is replied. -/
theorem query_settled (f : Sql.Fragment) : Settled (query f) := by
  intro w
  let ran := (Engine.query w.observer f.text (f.params.map w.expand)).runOn w.expectantEngine
  obtain ⟨sent, htrace, -⟩ : Engine.Makes (fun _ => True) w.expectantEngine ran.2 :=
    Engine.query_makes trivial w.observer w.expectantEngine
  refine ⟨sent, htrace, fun fault hfault hrefusal => .inl ?_⟩
  have hrun : ran = (.error fault, ran.2) := Prod.ext hfault rfl
  obtain ⟨x, hx, hraised⟩ := Engine.query_raised hrun hrefusal
  cases List.append_cancel_left (hx.symm.trans htrace)
  exact ⟨x, List.mem_singleton_self x, hraised⟩

theorem updateEntity_settled (ref : EntityRef) (change : Entity → Entity) :
    Settled (updateEntity ref change) :=
  .of_quiet (updateEntity_sends ref change) fun _ => .ok _

theorem setState_settled (ref : EntityRef) (state : Lifecycle) : Settled (setState ref state) :=
  updateEntity_settled ref _

theorem store_settled (v : Value) : Settled (store v) :=
  .of_quiet (store_sends v) fun _ => .ok _

theorem holdAttribute_settled (ref : EntityRef) (name value : Value) :
    Settled (holdAttribute ref name value) :=
  .bind (store_settled value) fun _ => updateEntity_settled ref _

theorem setAttribute_settled (ref : EntityRef) (name : String) (value : Value) :
    Settled (setAttribute ref name value) :=
  .bind .get fun _ => .ite (.bind (.throw rfl) fun _ => holdAttribute_settled ref _ value)
    (holdAttribute_settled ref _ value)

theorem setEntries_settled (ref : EntityRef) (entries : Entries) :
    Settled (setEntries ref entries) := by
  induction entries with
  | nil => exact .pure _
  | cons entry rest ih =>
    obtain ⟨name, value⟩ := entry
    rw [setEntries]
    cases name.text? with
    | some name => exact .bind (setAttribute_settled ref name value) fun _ => ih
    | none => exact .throw rfl

theorem debug_settled (source : String) (message : World → Printed) :
    Settled (debug source message) :=
  .bind .get fun _ => .ite (.bind (.ofExcept (inWords_unrefused _)) fun _ =>
    .of_quiet (onEngine_sends (Engine.report_makes _ _ _)) fun _ => .ok _) (.pure _)

end World
end RowMapper
