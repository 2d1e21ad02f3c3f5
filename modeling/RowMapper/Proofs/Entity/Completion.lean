import RowMapper.Proofs.Entity.Bearing

/-!
# What follows a write

An operation that writes has things to do after its write: it takes the key that was made, it looks
at the count, it puts a message into words.  `Completes` says that none of them fails: once a write
was carried out, the operation ends well, as long as the values that come from the database are of a
sort, and the counts are numbers.
-/
namespace RowMapper

/-- A statement that inserts, changes or removes rows. -/
def Call.Modifies (call : Call) : Prop :=
  call.StartsWith "INSERT" ∨ call.StartsWith "UPDATE" ∨ call.StartsWith "DELETE"

instance : DecidablePred Call.Modifies := fun call =>
  inferInstanceAs (Decidable (call.StartsWith "INSERT" ∨ call.StartsWith "UPDATE" ∨
    call.StartsWith "DELETE"))

theorem Call.not_modifies_of_select {call : Call} (h : call.StartsWith "SELECT") :
    ¬call.Modifies := by
  rintro (hother | hother | hother)
  · exact absurd (h.unique hother (by decide)) (by decide)
  · exact absurd (h.unique hother (by decide)) (by decide)
  · exact absurd (h.unique hother (by decide)) (by decide)

/-- A statement that inserts, changes or removes rows was carried out. -/
def Exchange.Modified (x : Exchange) : Prop := x.call.Modifies ∧ ∃ answer, x.result = .ok answer

namespace World

open Model (Mapper Registry)

variable {α β : Type} {S : Value → Prop} {Q : α → World → Prop} {Q' : β → World → Prop}
  {model : Nat} {ref : EntityRef} {session : String} {w t : World}

/-! ## 1. One step after another -/

/-- An exchange from which nothing unusual comes back: the values of rows and the keys that are made
are of a sort, the counts are numbers, and rows are no answer to a write. -/
inductive Ordinary (S : Value → Prop) (x : Exchange) : Prop
  | rows {rows : List Row} (hresult : x.result = .ok (.rows rows)) (hcall : ¬x.call.Modifies)
      (hrows : ∀ row ∈ rows, ∀ entry ∈ row, S entry.2)
  | done {insertId count : Value} {found : Bool} (hresult : x.result = .ok (.done insertId count))
      (hid : S insertId) (hcount : isPositive count = .ok found)
  | refused {why : Refusal} (hresult : x.result = .error why)

/-- If an action carries out a write, and nothing unusual comes back, then it ends well. -/
def Completes (S : Value → Prop) (Q : α → World → Prop) (action : Action World α) (w : World) :
    Prop :=
  ∀ sent, (action.runOn w).2.trace = w.trace ++ sent → (∀ x ∈ sent, Ordinary S x) →
    (∃ x ∈ sent, x.Modified) → ∃ a t, action.runOn w = (.ok a, t) ∧ Q a t

theorem Leads.not_modified (h : Leads [.selection] w t) {sent : List Exchange}
    (htrace : t.trace = w.trace ++ sent) : ∀ x ∈ sent, ¬x.Modified := fun x hx hmodified =>
  Call.not_modifies_of_select ((h.asked_of_mem htrace x hx).startsWith rfl) hmodified.1

namespace Completes

/-- Where nothing is written there is nothing to show. -/
theorem of_selections {action : Action World α} (h : Leads [.selection] w (action.runOn w).2) :
    Completes S Q action w := by
  rintro sent htrace - ⟨x, hx, hmodified⟩
  exact absurd hmodified (h.not_modified htrace x hx)

theorem of_trace {action : Action World α} (h : (action.runOn w).2.trace = w.trace) :
    Completes S Q action w := by
  rintro sent htrace - ⟨x, hx, -⟩
  rw [h] at htrace
  rw [List.self_eq_append_right.mp htrace] at hx
  cases hx

/-- What comes to another action, without a statement, completes if that does. -/
theorem of_run {action other : Action World α} (hrun : action.runOn w = other.runOn t)
    (htrace : t.trace = w.trace) (h : Completes S Q other t) : Completes S Q action w := by
  intro sent
  rw [hrun, ← htrace]
  exact h sent

/-- Selections may come before. -/
theorem after (kinds : List CallKind) {first : Action World α} {next : α → Action World β}
    (hfirst : Leads [.selection] w (first.runOn w).2) (hsends : ∀ a, Sends kinds (next a))
    (hnext : ∀ a t sent, first.runOn w = (.ok a, t) → t.trace = w.trace ++ sent →
      (∀ x ∈ sent, Ordinary S x) → Completes S Q' (next a) t) :
    Completes S Q' (first >>= next) w := by
  rintro sent htrace hordinary ⟨x, hx, hmodified⟩
  rw [Action.runOn_bind] at htrace ⊢
  rcases hrun : first.runOn w with ⟨fault | a, t⟩ <;> rw [hrun] at hfirst htrace
  · exact absurd hmodified (hfirst.not_modified htrace x hx)
  obtain ⟨before, hbefore, -⟩ := hfirst.calls
  obtain ⟨later, hlater, -⟩ := (hsends a t).calls
  obtain rfl : sent = before ++ later := by
    dsimp only at htrace hbefore
    rw [hlater, hbefore, List.append_assoc] at htrace
    exact (List.append_cancel_left htrace).symm
  obtain ⟨hread, hwritten⟩ := List.forall_mem_append.mp hordinary
  refine hnext a t before hrun hbefore hread later hlater hwritten ⟨x, ?_, hmodified⟩
  exact (List.mem_append.mp hx).resolve_left fun hx =>
    hfirst.not_modified hbefore x hx hmodified

/-- What sends nothing and ends well may follow. -/
theorem andThen {action : Action World α} {next : α → Action World β} (h : Completes S Q action w)
    (hquiet : ∀ a, Sends [] (next a))
    (hnext : ∀ a t, Q a t → ∃ b t', (next a).runOn t = (.ok b, t') ∧ Q' b t') :
    Completes S Q' (action >>= next) w := by
  intro sent htrace hordinary hmodified
  have hsent : (action.runOn w).2.trace = w.trace ++ sent := by
    rw [Action.runOn_bind] at htrace
    rcases hrun : action.runOn w with ⟨fault | a, t⟩ <;> rw [hrun] at htrace
    · exact htrace
    · rw [← (hquiet a t).trace_eq]
      exact htrace
  obtain ⟨a, t, hrun, hQ⟩ := h sent hsent hordinary hmodified
  obtain ⟨b, t', hlast, hQ'⟩ := hnext a t hQ
  exact ⟨b, t', (Action.runOn_bind_ok hrun).trans hlast, hQ'⟩

/-- A statement that was carried out completes if what follows it ends well. -/
theorem query (f : Sql.Fragment) : Completes S (fun answer t => Still w t ∧
    ∃ insertId count found, answer = .done insertId count ∧ S insertId ∧
      isPositive count = .ok found) (World.query f) w := by
  rintro sent htrace hordinary ⟨x, hx, hcall, answer, hanswer⟩
  rcases query_sent f w with hnone | ⟨y, hsent, -⟩
  · rw [hnone] at htrace
    rw [List.self_eq_append_right.mp htrace] at hx
    cases hx
  rw [hsent] at htrace
  obtain rfl := List.append_cancel_left htrace
  obtain rfl := List.mem_singleton.mp hx
  have hok := query_of_answer hsent hanswer
  refine ⟨answer, _, Prod.ext hok rfl, query_still f w, ?_⟩
  cases hordinary x hx with
  | rows _ hselect => exact absurd hcall hselect
  | done hresult hid hcount =>
    cases hanswer.symm.trans hresult
    exact ⟨_, _, _, rfl, hid, hcount⟩
  | refused hresult => cases hanswer.symm.trans hresult

end Completes

/-! ## 2. Writes -/

theorem save_completes (hdatum : ∀ v, S v → v.isDatum = true) (h : Bears S model ref w) :
    Completes S (fun _ t => Bears S model ref t) (save ref) w := by
  rcases save_steps ref w with ⟨fault, t, hrun, htrace⟩ | ⟨m, data, t, f, hm, hdata, -, hrun⟩
  · exact .of_trace (hrun ▸ htrace)
  obtain ⟨known, hknown, hcolumns, hkey⟩ := h.mapped_columns hm
  have habsent : ∀ entry ∈ w.registry.columnsOf m, ∀ absent, entry.2.absent = some absent →
      ∃ v, absent = .fixed v ∧ S v := by
    obtain ⟨known', hknown', -, hfixed⟩ := h.storable.mapped
    cases hknown.symm.trans hknown'
    rwa [Registry.columnsOf, hcolumns] at hfixed
  have hbears := insertData_bears hdatum habsent h hdata
  have hregistry := ((insertData_quiet ref m.key _).of_run hdata).registry_eq
  have hsends : Sends [] (insertData ref m.key (w.registry.columnsOf m)) :=
    insertData_sends ref m.key _
  refine .of_run hrun (hsends.of_run hdata).trace_eq
    ((Completes.query f).andThen (fun answer => afterInsertion_sends ref m.key answer) ?_)
  rintro answer u ⟨hstill, insertId, count, found, rfl, hid, -⟩
  rw [← hkey]
  refine afterInsertion_bears (hbears.still hstill) ?_ hid count
  rw [hstill.registry_eq, hregistry, hknown]

/-- A count of rows that is a number is read. -/
theorem affected_runOn (insertId : Value) {count : Value} {found : Bool}
    (h : isPositive count = .ok found) (w : World) :
    (Action.ofExcept (affected (.done insertId count))).runOn w = (.ok found, w) := by
  rw [Action.runOn_ofExcept, affected, h]

theorem update_completes (h : Bears S model ref w) :
    Completes S (fun _ t => Bears S model ref t) (update ref) w := by
  rcases update_steps ref w with ⟨fault, hrun⟩ | ⟨m, key, table, -, -, -, -, hrun⟩
  · exact .of_trace (congrArg (World.trace ·.2) hrun)
  refine .of_run hrun rfl ((Completes.query _).andThen (fun _ => .ofExcept _) ?_)
  rintro answer t ⟨hstill, insertId, count, found, rfl, -, hcount⟩
  exact ⟨found, t, affected_runOn insertId hcount t, h.still hstill⟩

theorem delete_completes (ref : EntityRef) (w : World) :
    Completes S (fun _ _ => True) (delete ref) w := by
  rcases delete_steps ref w with ⟨fault, hrun⟩ | ⟨m, key, table, -, -, -, -, hrun⟩
  · exact .of_trace (congrArg (World.trace ·.2) hrun)
  refine .of_run hrun rfl ((Completes.query _).andThen
    (fun _ => .bind (.ofExcept _) fun _ =>
      .ite (.bind (setState_sends ref _) fun _ => .pure _) (.pure _)) ?_)
  rintro answer t ⟨-, insertId, count, found, rfl, -, hcount⟩
  rw [Action.runOn_bind_ok (affected_runOn insertId hcount t)]
  cases found <;> exact ⟨_, _, rfl, trivial⟩

/-! ## 3. Finders that write -/

theorem create_completes (session : String) (hdatum : ∀ v, S v → v.isDatum = true)
    (hstorable : Storable S w.registry model) {properties : Dictionary Value}
    (hproperties : ∀ entry ∈ properties, S entry.2) :
    Completes S (Bears S model) (create session model properties) w := by
  have hsaves (ref : EntityRef) : Sends [.insertion] (do
      let _ ← save ref
      return ref) :=
    .bind (save_sends ref) fun _ => .pure ref
  refine .after [.insertion] (make_sends model properties w)
    (fun ref => .bind (bindTo_sends session ref) fun _ => hsaves ref)
    fun ref t sent hmake _ _ => ?_
  have hmade := make_bears hstorable hproperties hmake
  refine .after [.insertion] (bindTo_sends session ref t) (fun _ => hsaves ref)
    fun _ u _ hbind _ _ => ?_
  have hbound := bindTo_bears hmade hbind
  exact (save_completes hdatum hbound).andThen (fun _ => .pure ref)
    fun _ u hsaved => ⟨ref, u, rfl, hsaved⟩

/-- The entity of a row that was found bears what is in the row. -/
theorem findOne_bears {o : FindOptions} {sent : List Exchange}
    (hstorable : Storable S w.registry model) (htrace : t.trace = w.trace ++ sent)
    (hordinary : ∀ x ∈ sent, Ordinary S x)
    (hrun : (findOne session model o).runOn w = (.ok (some ref), t)) : Bears S model ref t := by
  obtain ⟨m, f, others, -, -, hselect⟩ := findOne_selects hrun
  obtain ⟨read, row, rest, u, v, hread, -, hresult, hregistry, -, hhydrate, hadds⟩ :=
    select_first hselect
  obtain rfl := List.append_cancel_left (htrace.symm.trans hread)
  have hrow : ∀ entry ∈ row, S entry.2 := by
    cases hordinary read (List.mem_singleton_self read) with
    | rows hrows _ hvalues =>
      cases hresult.symm.trans hrows
      exact hvalues row (List.mem_cons_self ..)
    | done hdone => cases hresult.symm.trans hdone
    | refused hrefused => cases hresult.symm.trans hrefused
  exact (hydrate_bears (hregistry ▸ hstorable) hrow hhydrate).adds hadds

theorem findById_bears {key : Value} {sent : List Exchange}
    (hstorable : Storable S w.registry model) (htrace : t.trace = w.trace ++ sent)
    (hordinary : ∀ x ∈ sent, Ordinary S x)
    (hrun : (findById session model key).runOn w = (.ok (some ref), t)) : Bears S model ref t := by
  obtain ⟨m, o, -, -, hfind⟩ := findById_finds hrun
  exact findOne_bears hstorable htrace hordinary hfind

theorem findByIdAndUpdate_completes (hstorable : Storable S w.registry model) {key data : Value}
    {entries : Dictionary Value} {place : Option Nat}
    (hdata : w.look data = .mappingAt (Entries.ofNamed entries) place)
    (hentries : ∀ entry ∈ entries, S entry.2) :
    Completes S (fun found t => ∃ ref, found = some ref ∧ Bears S model ref t)
      (findByIdAndUpdate session model key data) w := by
  have hwrites (ref : EntityRef) : Sends [.change] (do
      let _ ← update ref
      return some ref) :=
    .bind (update_sends ref) fun _ => .pure _
  refine .after [.change] (findById_sends session model key w) (fun found => ?_)
    fun found t sent hfind htrace hordinary => ?_
  · cases found with
    | none => exact .pure _
    | some ref => exact .bind (setProperties_sends ref data) fun _ => hwrites ref
  cases found with
  | none => exact .of_trace rfl
  | some ref =>
    have hfound := findById_bears hstorable htrace hordinary hfind
    obtain ⟨-, -, hmade⟩ := findById_found hfind
    refine .after [.change] (setProperties_sends ref data t) (fun _ => hwrites ref)
      fun _ u _ hset _ _ => ?_
    rw [setProperties_look hdata hmade.shelf_prefix] at hset
    exact (update_completes (setEntries_bears hfound hentries hset)).andThen (fun _ => .pure _)
      fun _ v hchanged => ⟨some ref, v, rfl, ref, rfl, hchanged⟩

theorem findByIdAndDelete_completes (session : String) (model : Nat) (key : Value) (w : World) :
    Completes S (fun _ _ => True) (findByIdAndDelete session model key) w := by
  rw [findByIdAndDelete_eq]
  exact .after [.removal] (findByIdForDelete_sends session model key w) delete_sends
    fun ref t _ _ _ _ => delete_completes ref t

theorem findOrCreate_completes (hdatum : ∀ v, S v → v.isDatum = true)
    (hstorable : Storable S w.registry model) {o : FindOptions} {defaults : Value}
    (hproperties : ∀ u properties, newProperties u o defaults = .ok properties →
      ∀ entry ∈ properties, S entry.2) :
    Completes S (fun found t => Bears S model found.1 t)
      (findOrCreate session model o defaults) w := by
  have hmakes : Sends [.insertion] (do
      let properties ← reading (newProperties · o defaults)
      let ref ← create session model properties
      debug "mappify.query" fun w =>
        (w.literal (.entity ref)).map ("find_or_create created " ++ ·)
      return (ref, true)) :=
    .bind (reading_sends _) fun properties => .bind (create_sends session model properties)
      fun _ => .bind (debug_sends _ _) fun _ => .pure _
  refine .after [.insertion] (findOne_sends session model o w) (fun found => ?_)
    fun found t _ hfind _ _ => ?_
  · cases found with
    | none => exact hmakes
    | some ref => exact .pure _
  cases found with
  | some ref => exact .of_trace rfl
  | none =>
    have hregistry := ((findOne_grows session model o).of_run hfind).registry_eq
    refine .after [.insertion] (reading_sends _ t) (fun properties =>
      .bind (create_sends session model properties) fun _ => .bind (debug_sends _ _) fun _ =>
        .pure _) fun properties u _ hread _ _ => ?_
    obtain ⟨hgiven, rfl⟩ := reading_eq_ok.mp hread
    have hcreates := create_completes (w := t) session hdatum
      (hregistry ▸ hstorable) (hproperties t properties hgiven)
    refine hcreates.andThen (fun ref => .bind (debug_sends _ _) fun _ => .pure _)
      fun ref v hmade => ?_
    obtain ⟨text, htext⟩ := hmade.literal_isOk hdatum
    let message (w : World) : Printed :=
      (w.literal (.entity ref)).map ("find_or_create created " ++ ·)
    have hmessage : message v = .ok ("find_or_create created " ++ text) :=
      congrArg (Except.map ("find_or_create created " ++ ·)) htext
    obtain ⟨v', hdebug, hstill⟩ := debug_of_printed "mappify.query" hmessage
    exact ⟨(ref, true), v', Action.runOn_bind_ok hdebug, hmade.still hstill⟩

end World
end RowMapper
