import RowMapper.Proofs.Script.Visit
import RowMapper.Proofs.Sql.Marks

/-!
# The statements of a run

Every statement that the library puts together has a question mark for each of its parameters, so
the same holds of whatever a run sends (`every_parameter_has_its_mark`), but for statements that the
user gives.
-/
namespace RowMapper

open Sql (Fragment Marked markCount)
open World (Asked CallKind)

/-- A statement has as many question marks outside quoted names as parameters. -/
def Call.HasMarks : Call → Prop
  | .statement text params => markCount text = params.length
  | .script _ => True
  | .close => True

namespace Script

/-- Looking the parameters up does not change their number. -/
theorem hasMarks_of_bound {f : Fragment} (h : f.Bound) (look : Value → Value) :
    (Call.statement f.text (f.params.map look)).HasMarks := by
  show markCount f.text = (f.params.map look).length
  rw [h.markCount_eq, List.length_map]

/-- The one kind of call that may lack marks is what the user gave. -/
theorem hasMarks_of_asked {kind : CallKind} {call : Call} (h : Asked kind call)
    (hgiven : ∀ text, kind ≠ .given text) : call.HasMarks := by
  cases h with
  | selection look hfilter h =>
    refine hasMarks_of_bound (Sql.statement_bound (fun part hpart => ?_) h) look
    obtain ⟨v, hv⟩ := hfilter part hpart
    exact Sql.marked_compile hv
  | insertion look h => exact hasMarks_of_bound (Sql.insertRow_bound h) look
  | change look h => exact hasMarks_of_bound (Sql.updateRow_bound h) look
  | removal look h => exact hasMarks_of_bound (Sql.deleteRow_bound h) look
  | drop h =>
    have hdrop : Marked 0 "DROP TABLE IF EXISTS " := fun _ => rfl
    exact (hdrop.append (Sql.markedLaw.quoteIdentifier (orFault_eq_ok.mpr h))).markCount_eq
  | creation h => exact (Sql.marked_tableDefinition h).markCount_eq
  | control h =>
    simp only [List.mem_cons, List.not_mem_nil, or_false] at h
    rcases h with rfl | rfl | rfl <;> rfl
  | closing => trivial
  | given text params => exact absurd rfl (hgiven text)
  | script text => trivial

/-- Whether the statement of an operation is given by the user. -/
def Operation.isGiven : Operation → Bool
  | .query _ _ => true
  | _ => false

theorem Operation.kinds_ne_given {operation : Operation} (h : operation.isGiven = false)
    {kind : CallKind} (hkind : kind ∈ operation.kinds) (text : String) : kind ≠ .given text := by
  rintro rfl
  cases operation <;> simp_all [kinds, isGiven]

/-- **Marks and parameters.**  An operation whose statement is not given by the user sends, wherever
it runs, only statements with as many question marks outside quoted names as parameters.  All that a
run sends is sent by its operations, but for the commands of blocks, which have neither. -/
theorem every_parameter_has_its_mark :
    (∀ v : Visit, v.operation.isGiven = false → ∀ x ∈ v.sent, x.call.HasMarks) ∧
    ∀ (steps : List Step) (w : World), ∃ sent, (runSteps steps w).2.trace = w.trace ++ sent ∧
      ∀ x ∈ sent, (∃ v ∈ visits steps w, x ∈ v.sent) ∨ x.call.HasMarks := by
  refine ⟨fun v hgiven x hx => ?_, fun steps w => ?_⟩
  · obtain ⟨kind, hkind, hasked⟩ := Visit.asked_of_mem_sent hx
    exact hasMarks_of_asked hasked (Operation.kinds_ne_given hgiven hkind)
  · obtain ⟨sent, htrace, hsent⟩ := (runSteps_accounted steps w).calls
    exact ⟨sent, htrace, fun x hx => (hsent x hx).imp_right fun h =>
      hasMarks_of_asked h fun text => by simp⟩

/-- A row is asked for by its key: one mark, for the key. -/
theorem key_of_findById_has_its_mark :
    let users : Model.ModelClass :=
      { ref := ⟨1, "User", "app"⟩, ancestry := [1, 0], attributes := [("id", .column 0)],
        mapper := some { tableName := .str "users", columns := [("id", 0)], key := "id",
                         associations := [] } }
    let registry : Model.Registry :=
      { classes := [Model.Registry.root, users], columns := [Model.Registry.implicitColumn],
        keys := [("User", 1)] }
    let reply : ReplyDraft := ⟨.ok (.rows []), none⟩
    let v : Visit := ⟨"main", .findById "User" (.plain (.int 7)), { registry, replies := [reply] }⟩
    ∃ x ∈ v.sent, x.call = .statement "SELECT * FROM \"users\" WHERE \"id\" = ? LIMIT 1" [.int 7] ∧
      x.call.HasMarks := by
  intro users registry reply v
  have hcalls : v.sent.map Exchange.call =
      [.statement "SELECT * FROM \"users\" WHERE \"id\" = ? LIMIT 1" [.int 7]] := by
    subst v reply registry users
    rfl
  obtain ⟨x, hx, hcall⟩ := List.mem_map.mp (hcalls ▸ List.mem_singleton_self _)
  exact ⟨x, hx, hcall, every_parameter_has_its_mark.1 v rfl x hx⟩

end Script
end RowMapper
