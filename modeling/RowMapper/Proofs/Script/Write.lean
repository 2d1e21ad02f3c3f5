import RowMapper.Proofs.Entity.Write
import RowMapper.Proofs.Script.Statement
import RowMapper.Proofs.World.Verb

/-!
# No mass writes

Every statement of a run that changes or removes rows is a write by key, but for statements that the
user gives: it concerns the one row whose key the written entity holds at that moment
(`every_write_is_by_key`).  `comesToWrite` is the way of an operation to the entity that it writes;
the moment is the world at the end of this way, and the write is what is sent next.
-/
namespace RowMapper

open World (Asked CallKind KeyedWrite Leads Sends Wrote reading reading_sends)

/-- A statement that changes or removes rows. -/
def Call.IsWrite : Call → Prop
  | .statement text _ => "UPDATE".toList <+: text.toList ∨ "DELETE".toList <+: text.toList
  | .script _ => False
  | .close => False

instance : DecidablePred Call.IsWrite
  | .statement text _ =>
    inferInstanceAs (Decidable ("UPDATE".toList <+: text.toList ∨ "DELETE".toList <+: text.toList))
  | .script _ => inferInstanceAs (Decidable False)
  | .close => inferInstanceAs (Decidable False)

namespace Script

/-! ## 1. What is no write -/

/-- A statement that starts with another word is no write. -/
theorem not_isWrite_append {start : String} (hlength : 6 ≤ start.toList.length)
    (hstart : ¬(Call.statement start []).IsWrite) (rest : String) (params : List Value) :
    ¬(Call.statement (start ++ rest) params).IsWrite := by
  have hprefix : start.toList <+: (start ++ rest).toList := by
    rw [String.toList_append]
    exact List.prefix_append _ _
  rintro (hword | hword)
  · exact hstart (.inl (List.prefix_of_prefix_length_le hword hprefix hlength))
  · exact hstart (.inr (List.prefix_of_prefix_length_le hword hprefix hlength))

/-- A statement that starts with another word of that length is no write. -/
theorem not_isWrite_of_startsWith {word : String} {call : Call} (h : call.StartsWith word)
    (hword : word.toList.length = 6 ∧ word ≠ "UPDATE" ∧ word ≠ "DELETE") : ¬call.IsWrite := by
  obtain ⟨hlength, hupdate, hdelete⟩ := hword
  cases call with
  | statement text params =>
    have hother {other : String} (hother : (Call.statement text params).StartsWith other)
        (hsix : other.toList.length = 6) : word = other :=
      h.unique hother (hlength.trans hsix.symm)
    rintro (hwrite | hwrite)
    · exact hupdate (hother hwrite (by decide))
    · exact hdelete (hother hwrite (by decide))
  | script text => exact id
  | close => exact id

/-- The kinds of call that change and remove no rows. -/
def harmless : List CallKind := [.selection, .insertion, .definition, .control, .script]

theorem not_isWrite_of_asked {kind : CallKind} (hkind : kind ∈ harmless) {call : Call}
    (h : Asked kind call) : ¬call.IsWrite := by
  cases h with
  | selection look hfilter h =>
    exact not_isWrite_of_startsWith ((Asked.selection look hfilter h).startsWith rfl) (by decide)
  | insertion look h =>
    exact not_isWrite_of_startsWith ((Asked.insertion look h).startsWith rfl) (by decide)
  | change look h => simp [harmless] at hkind
  | removal look h => simp [harmless] at hkind
  | drop h => exact not_isWrite_append (by decide) (by decide) _ _
  | creation h =>
    obtain ⟨columns, -, h⟩ := bind_eq_ok.mp h
    obtain ⟨table, -, h⟩ := bind_eq_ok.mp h
    cases h
    simp only [String.append_assoc]
    exact not_isWrite_append (by decide) (by decide) _ _
  | control h =>
    simp only [List.mem_cons, List.not_mem_nil, or_false] at h
    rcases h with rfl | rfl | rfl <;> decide
  | closing => exact id
  | given text params => simp [harmless] at hkind
  | script text => exact id

/-! ## 2. The way to a write -/

/-- The way of an operation to the entity that it writes by key, if there is one. -/
def Operation.comesToWrite (session : String) : Operation → Action World (Option EntityRef)
  | .update path => do return some (← entity path)
  | .delete path => do return some (← entity path)
  | .findOneAndDelete key source more => do
    let id ← model key
    let o ← options id source more
    return some (← World.findStrictly session id o)
  | .findOneAndUpdate key source data => do
    let id ← model key
    let data ← value data
    let o ← options id source noMore
    return some (← World.findForUpdate session id o data)
  | .findByIdAndDelete key id => do
    let number ← model key
    let id ← plainValue id
    return some (← World.findByIdForDelete session number id)
  | .findByIdAndUpdate key id data => do
    let number ← model key
    let id ← plainValue id
    let data ← value data
    World.findByIdForUpdate session number id data
  | .attach path target relation => do
    let ref ← entity path
    let target ← plainValue target
    return some (← World.attachForWrite ref target relation).2
  | _ => return none

/-- What is sent from one world to another writes nothing but the row of the entity at the end of
the way, by its key there; and it is the first that is sent then, and the last. -/
def WritesAlong (way : Action World (Option EntityRef)) (w w' : World) : Prop :=
  ∀ x ∈ w'.trace.drop w.trace.length, x.call.IsWrite →
    ∃ ref u, way.runOn w = (.ok (some ref), u) ∧ w'.trace = u.trace ++ [x] ∧ KeyedWrite u ref x.call

variable {α β : Type}

theorem writesAlong_of_leads {way : Action World (Option EntityRef)} {w w' : World}
    (h : Leads harmless w w') : WritesAlong way w w' := by
  intro x hx hwrite
  obtain ⟨sent, htrace, hsent⟩ := h.calls
  rw [htrace, List.drop_left] at hx
  obtain ⟨kind, hkind, hasked⟩ := hsent x hx
  exact absurd hwrite (not_isWrite_of_asked hkind hasked)

/-- An action that is cut into the way to an entity and the rest. -/
theorem writesAlong_bind {way : Action World β} {target : β → Option EntityRef}
    {rest : β → Action World α} (hway : Sends harmless way)
    (hrest : ∀ b u, u.Sound → Leads harmless u ((rest b).runOn u).2 ∨
      ∃ ref, target b = some ref ∧ Wrote u ref ((rest b).runOn u).2)
    {w : World} (hw : w.Sound) :
    WritesAlong (way >>= fun b => pure (target b)) w ((way >>= rest).runOn w).2 := by
  have hled := hway w
  rw [Action.runOn_bind]
  rcases hrun : way.runOn w with ⟨fault | b, u⟩ <;> rw [hrun] at hled
  · exact writesAlong_of_leads hled
  · dsimp only
    rcases hrest b u (hled.sound hw) with hleads | ⟨ref, href, hwrote⟩
    · exact writesAlong_of_leads (trans_of (Leads harmless) hled hleads)
    · obtain ⟨sent, htrace, hsent⟩ := hled.calls
      have hsent_harmless : ∀ x ∈ sent, ¬x.call.IsWrite := fun x hx =>
        let ⟨_, hkind, hasked⟩ := hsent x hx
        not_isWrite_of_asked hkind hasked
      intro x hx hwrite
      rcases hwrote with hnone | ⟨y, hy, hkeyed⟩
      · rw [hnone, htrace, List.drop_left] at hx
        exact absurd hwrite (hsent_harmless x hx)
      · rw [hy, htrace, List.append_assoc, List.drop_left] at hx
        rcases List.mem_append.mp hx with hx | hx
        · exact absurd hwrite (hsent_harmless x hx)
        · cases List.mem_singleton.mp hx
          refine ⟨ref, u, ?_, hy, hkeyed⟩
          rw [Action.runOn_bind_ok hrun, href]
          rfl

theorem writesAlong_found {way : Action World (Option EntityRef)}
    {rest : Option EntityRef → Action World α} (hway : Sends harmless way)
    (hrest : ∀ found u, u.Sound → Leads harmless u ((rest found).runOn u).2 ∨
      ∃ ref, found = some ref ∧ Wrote u ref ((rest found).runOn u).2)
    {w : World} (hw : w.Sound) : WritesAlong way w ((way >>= rest).runOn w).2 := by
  have h := writesAlong_bind hway hrest hw
  rwa [bind_pure] at h

/-- What keeps the world may come before the way. -/
theorem writesAlong_kept {first : Action World β} {way : β → Action World (Option EntityRef)}
    {next : β → Action World α} (hkept : first.Obeys Eq) {w : World}
    (h : ∀ b, WritesAlong (way b) w ((next b).runOn w).2) :
    WritesAlong (first >>= way) w ((first >>= next).runOn w).2 := by
  have hw := hkept w
  rw [Action.runOn_bind]
  rcases hrun : first.runOn w with ⟨fault | b, u⟩ <;> rw [hrun] at hw <;> cases hw
  · exact writesAlong_of_leads (refl_of (Leads harmless) u)
  · intro x hx hwrite
    obtain ⟨ref, u, hway, hsent⟩ := h b x hx hwrite
    exact ⟨ref, u, by rw [Action.runOn_bind_ok hrun, hway], hsent⟩

theorem reading_kept (read : World → Except Fault α) : (reading read).Obeys Eq := fun _ => rfl

theorem options_kept (model : Nat) (source more : Term) : (options model source more).Obeys Eq :=
  .bind (reading_kept _) fun _ => .bind (reading_kept _) fun _ =>
    .bind (.discard (reading_kept _)) fun _ => .ofExcept _

/-! ## 3. Operations -/

/-- Every operation that is not given by the user writes along its way. -/
theorem Operation.writesAlong (session : String) (operation : Operation)
    (hgiven : operation.isGiven = false) {w : World} (hw : w.Sound) :
    WritesAlong (operation.comesToWrite session) w ((operation.run session).runOn w).2 := by
  cases operation with
  | update path =>
    exact writesAlong_bind (reading_sends _) (fun ref u hu => .inr ⟨ref, rfl,
      (World.update_wrote ref hu).bind fun _ => .pure _⟩) hw
  | delete path =>
    exact writesAlong_bind (reading_sends _) (fun ref u hu => .inr ⟨ref, rfl,
      (World.delete_wrote ref hu).bind fun _ => .pure _⟩) hw
  | findOneAndDelete key source more =>
    refine writesAlong_kept (reading_kept _) fun id => writesAlong_kept (options_kept id source more)
      fun o => ?_
    rw [World.findOneAndDelete, bind_assoc]
    exact writesAlong_bind ((World.findStrictly_sends session id o).of_subset (by simp [harmless]))
      (fun ref u hu => .inr ⟨ref, rfl, (World.delete_wrote ref hu).bind fun _ => .pure _⟩) hw
  | findOneAndUpdate key source data =>
    refine writesAlong_kept (reading_kept _) fun id => writesAlong_kept (reading_kept _) fun data =>
      writesAlong_kept (options_kept id source noMore) fun o => ?_
    rw [World.findOneAndUpdate_eq, bind_assoc]
    exact writesAlong_bind
      ((World.findForUpdate_sends session id o data).of_subset (by simp [harmless]))
      (fun ref u hu => .inr ⟨ref, rfl,
        ((World.update_wrote ref hu).bind fun _ => .pure _).bind fun _ => .pure _⟩) hw
  | findByIdAndDelete key id =>
    refine writesAlong_kept (reading_kept _) fun number => writesAlong_kept (reading_kept _) fun id =>
      ?_
    rw [World.findByIdAndDelete_eq, bind_assoc]
    exact writesAlong_bind
      ((World.findByIdForDelete_sends session number id).of_subset (by simp [harmless]))
      (fun ref u hu => .inr ⟨ref, rfl, (World.delete_wrote ref hu).bind fun _ => .pure _⟩) hw
  | findByIdAndUpdate key id data =>
    refine writesAlong_kept (reading_kept _) fun number => writesAlong_kept (reading_kept _) fun id =>
      writesAlong_kept (reading_kept _) fun data => ?_
    rw [World.findByIdAndUpdate_eq, bind_assoc]
    refine writesAlong_found
      ((World.findByIdForUpdate_sends session number id data).of_subset (by simp [harmless]))
      (fun found u hu => ?_) hw
    cases found with
    | none => exact .inl (refl_of (Leads harmless) u)
    | some ref =>
      exact .inr ⟨ref, rfl,
        ((World.update_wrote ref hu).bind fun _ => .pure _).bind fun _ => .pure _⟩
  | attach path target relation =>
    refine writesAlong_kept (reading_kept _) fun ref => writesAlong_kept (reading_kept _) fun target =>
      ?_
    rw [World.attach_eq, bind_assoc]
    refine writesAlong_bind (World.attachForWrite_sends ref target relation) (fun linked u hu => ?_) hw
    obtain ⟨a, other⟩ := linked
    dsimp only
    rw [bind_assoc, Action.runOn_bind, World.runOn_reading]
    cases u.keyValue other with
    | error fault => exact .inl (refl_of (Leads harmless) u)
    | ok key =>
      dsimp only
      cases key.isNull with
      | true =>
        refine .inl (Action.Obeys.bind (.bind ?_ fun _ => World.holdLinked_sends ref a relation other)
          (fun _ => .pure _) u)
        exact .discard ((World.save_sends other).of_subset (by simp [harmless]))
      | false =>
        exact .inr ⟨other, rfl, ((World.update_wrote other hu).discard.bind fun _ =>
          World.holdLinked_sends ref a relation other).bind fun _ => .pure _⟩
  | query text params => cases hgiven
  | _ =>
    exact writesAlong_of_leads ((Operation.run_sends session _).of_subset
      (by simp [Operation.kinds, harmless]) w)

/-! ## 4. Runs -/

theorem start_sound (logStatements : Bool) (drafts : List Draft) :
    (start logStatements drafts).Sound := by
  refine (start_leads logStatements drafts).sound ⟨by simp [Shelf.Solid], ?_⟩
  exact Model.Registry.initial_numbered

theorem start_trace (logStatements : Bool) (drafts : List Draft) :
    (start logStatements drafts).trace = [] := (start_leads logStatements drafts).trace_eq

/-- **No mass writes.**  In a run of a script, whatever is replied, an operation whose statements
are not given by the user writes nothing but the row of the entity that it comes to write, by the
key that this entity holds in the world in which the write is sent.  All that a run sends is sent
by its operations, but for the commands of blocks, which write nothing. -/
theorem every_write_is_by_key (logStatements : Bool) (drafts : List Draft) (steps : List Step) :
    (∀ v ∈ visits steps (start logStatements drafts), v.operation.isGiven = false →
      ∀ x ∈ v.sent, x.call.IsWrite →
        ∃ ref u, (v.operation.comesToWrite v.session).runOn v.world = (.ok (some ref), u) ∧
          v.after.trace = u.trace ++ [x] ∧ KeyedWrite u ref x.call) ∧
    ∀ x ∈ (runSteps steps (start logStatements drafts)).2.trace,
      (∃ v ∈ visits steps (start logStatements drafts), x ∈ v.sent) ∨ ¬x.call.IsWrite := by
  have haccount := runSteps_accounted steps (start logStatements drafts)
  have hsound := (haccount.sound (start_sound logStatements drafts)).2
  refine ⟨fun v hv hgiven => v.operation.writesAlong v.session hgiven (hsound v hv), fun x hx => ?_⟩
  obtain ⟨sent, htrace, hsent⟩ := haccount.calls
  rw [htrace, start_trace, List.nil_append] at hx
  exact (hsent x hx).imp_right (not_isWrite_of_asked (by simp [harmless]))

/-- A row is found by its key and deleted by it. -/
theorem row_found_by_id_is_deleted_by_key :
    let draft : Draft :=
      { name := "User", key := "User", settings := some [("table_name", .plain (.str "users"))] }
    let found : ReplyDraft := ⟨.ok (.rows [[("id", .plain (.int 7))]]), none⟩
    let gone : ReplyDraft := ⟨.ok (.done (.plain .null) (.plain (.int 1))), none⟩
    let steps : List Step :=
      [.single { replies := [found, gone] } (.findByIdAndDelete "User" (.plain (.int 7)))]
    ∃ v ∈ visits steps (start false [draft]), ∃ x ∈ v.sent, x.call.IsWrite ∧
      ∃ ref u, (v.operation.comesToWrite v.session).runOn v.world = (.ok (some ref), u) ∧
        v.after.trace = u.trace ++ [x] ∧ KeyedWrite u ref x.call := by
  intro draft found gone steps
  have hwrite : ((visits steps (start false [draft])).any fun v =>
      !v.operation.isGiven && v.sent.any fun x => decide x.call.IsWrite) = true := by
    decide +kernel
  simp only [List.any_eq_true, Bool.and_eq_true, Bool.not_eq_true', decide_eq_true_eq] at hwrite
  obtain ⟨v, hv, hgiven, x, hx, hwrite⟩ := hwrite
  exact ⟨v, hv, x, hx, hwrite,
    (every_write_is_by_key false [draft] steps).1 v hv hgiven x hx hwrite⟩

end Script
end RowMapper
