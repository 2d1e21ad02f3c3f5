import RowMapper.Proofs.World.Refusal
import RowMapper.World.Attribute

/-!
# Terms refuse nothing

Evaluating a term can fail in many ways: a name that nothing has, a key that is none, an operator
that does not fit.  None of them is a refusal of options or of a filter, since a filter that is put
together is only checked when it is compiled.
-/
namespace RowMapper

/-! ## 1. Filter expressions -/

theorem elements_unrefused (v : Value) : Unrefused v.elements := by
  unfold Value.elements
  split <;> first
    | exact .ok _
    | exact .failure rfl

theorem callMethod_unrefused (column : Value) (method : String) (arguments : List Value) :
    Unrefused (callMethod column method arguments) := by
  unfold callMethod
  split
  · exact .ok _
  · exact .failure rfl
  · dsimp only
    split
    · exact .bind (elements_unrefused _) fun _ => .ok _
    · exact .bind (elements_unrefused _) fun _ => .ok _
    · exact .ok _
    · exact .ok _
    · exact .ok _
    · exact .ok _
    · exact .ok _
    · exact .ok _
    · split <;> exact .failure rfl

theorem logicOf_unrefused (v : Value) : Unrefused (logicOf v) := by
  unfold logicOf
  split
  · split
    · exact .ok _
    · exact .ok _
    · exact .failure rfl
  · exact .failure rfl
  · exact .failure rfl

mutual

theorem build_unrefused : ∀ e : Expression Value, Unrefused e.build
  | .call column method arguments => by
    rw [Expression.build]
    exact callMethod_unrefused column method arguments
  | .reflected operand operator column => by
    rw [Expression.build]
    split
    · exact .ok _
    · exact .failure rfl
  | .column name => by rw [Expression.build]; exact .ok _
  | .blank => by rw [Expression.build]; exact .ok _
  | .comparison column operator operand => by rw [Expression.build]; exact .ok _
  | .both logic left right => by
    rw [Expression.build]
    refine .bind (build_unrefused left) fun first => .bind (build_unrefused right) fun second => ?_
    split
    · exact .ok _
    · exact .failure rfl
  | .invert inner => by
    rw [Expression.build]
    refine .bind (build_unrefused inner) fun filter => ?_
    split
    · exact .ok _
    · exact .failure rfl
  | .combine logic parts => by
    rw [Expression.build]
    exact .bind (buildAll_unrefused parts) fun _ => .bind (logicOf_unrefused logic) fun _ => .ok _

theorem buildAll_unrefused : ∀ es : List (Expression Value), Unrefused (buildAll es)
  | [] => .ok _
  | e :: rest => by
    rw [buildAll]
    exact .bind (build_unrefused e) fun _ => .bind (buildAll_unrefused rest) fun _ => .ok _

end

/-! ## 2. Terms -/

/-- What the names of a scope stand for is never refused. -/
structure Scope.Plain (scope : Scope) : Prop where
  value : ∀ names, Unrefused (scope.valueAt names)
  model : ∀ key, Unrefused (scope.modelAt key)

namespace Term

variable {scope : Scope}

theorem addEntry_unrefused {α : Type} (entries : List (Value × α)) (key : Value) (value : α) :
    Unrefused (addEntry entries key value) := by
  unfold addEntry
  split
  · exact .ok _
  · exact .failure rfl

mutual

theorem eval_unrefused (h : scope.Plain) : ∀ t : Term, Unrefused (t.eval scope)
  | .plain v => .ok v
  | .list items => .bind (evalAll_unrefused h items) fun _ => .ok _
  | .tuple items => .bind (evalAll_unrefused h items) fun _ => .ok _
  | .mapping entries => .bind (evalEntries_unrefused h entries []) fun _ => .ok _
  | .path names => h.value names
  | .model key => .bind (h.model key) fun _ => .ok _
  | .filter e => .bind (evalExpression_unrefused h e) fun built =>
    .bind (build_unrefused built) fun _ => .ok _

theorem evalAll_unrefused (h : scope.Plain) : ∀ ts : List Term, Unrefused (evalAll scope ts)
  | [] => .ok _
  | t :: rest => .bind (eval_unrefused h t) fun _ => .bind (evalAll_unrefused h rest) fun _ => .ok _

theorem evalEntries_unrefused (h : scope.Plain) : ∀ (ts : List (Term × Term)) (entries : Entries),
    Unrefused (evalEntries scope ts entries)
  | [], _ => .ok _
  | (key, value) :: rest, _ =>
    .bind (eval_unrefused h key) fun _ => .bind (eval_unrefused h value) fun _ =>
      .bind (addEntry_unrefused _ _ _) fun _ => evalEntries_unrefused h rest _

theorem evalExpression_unrefused (h : scope.Plain) : ∀ e : Expression Term,
    Unrefused (evalExpression scope e)
  | .call column _ arguments =>
    .bind (eval_unrefused h column) fun _ => .bind (evalAll_unrefused h arguments) fun _ => .ok _
  | .reflected operand _ column =>
    .bind (eval_unrefused h operand) fun _ => .bind (eval_unrefused h column) fun _ => .ok _
  | .column name => .bind (eval_unrefused h name) fun _ => .ok _
  | .blank => .ok _
  | .comparison column operator operand =>
    .bind (eval_unrefused h column) fun _ => .bind (eval_unrefused h operator) fun _ =>
      .bind (eval_unrefused h operand) fun _ => .ok _
  | .both _ left right =>
    .bind (evalExpression_unrefused h left) fun _ =>
      .bind (evalExpression_unrefused h right) fun _ => .ok _
  | .invert inner => .bind (evalExpression_unrefused h inner) fun _ => .ok _
  | .combine logic parts =>
    .bind (eval_unrefused h logic) fun _ => .bind (evalExpressions_unrefused h parts) fun _ => .ok _

theorem evalExpressions_unrefused (h : scope.Plain) : ∀ es : List (Expression Term),
    Unrefused (evalExpressions scope es)
  | [] => .ok _
  | e :: rest =>
    .bind (evalExpression_unrefused h e) fun _ =>
      .bind (evalExpressions_unrefused h rest) fun _ => .ok _

end

end Term

namespace World

open Model (Registry)

/-! ## 3. The names of a world -/

theorem readAttribute_unrefused (w : World) (ref : EntityRef) (name : String) :
    Unrefused (w.readAttribute ref name) := by
  unfold readAttribute
  split
  · exact keyValue_unrefused w ref
  · exact .bind (keyValue_unrefused w ref) fun _ => .ok _
  · exact heldAttribute_unrefused w ref name

theorem required_unrefused (attributes : Dictionary Value) (name : String) :
    Unrefused (required attributes name) := by
  unfold required
  split
  · exact .ok _
  · exact .failure rfl

theorem classAttribute_unrefused (w : World) (model : Nat) (name : String) :
    Unrefused (w.classAttribute model name) := by
  unfold classAttribute
  split
  · exact .ok _
  · exact .failure rfl

theorem attributeOf_unrefused (w : World) (v : Value) (name : String) :
    Unrefused (w.attributeOf v name) := by
  unfold attributeOf
  split
  · exact readAttribute_unrefused w _ name
  · exact inherited_unrefused _ _ name
  · exact classAttribute_unrefused w _ name
  · exact required_unrefused _ name
  · exact required_unrefused _ name
  · exact required_unrefused _ name
  · exact required_unrefused _ name
  · exact .failure rfl

theorem elementAt_unrefused (items : List Value) (index : Int) :
    Unrefused (elementAt items index) := by
  unfold elementAt
  generalize (if index < 0 then items.length + index else index) = place
  dsimp only
  split
  · exact .failure rfl
  · split
    · exact .ok _
    · exact .failure rfl

theorem partOf_unrefused (w : World) (v : Value) (part : String) : Unrefused (w.partOf v part) := by
  unfold partOf
  split
  · exact elementAt_unrefused _ _
  · exact attributeOf_unrefused w v part

theorem valueAt_unrefused (w : World) (names : List String) : Unrefused (w.valueAt names) := by
  have hparts (parts : List String) : ∀ v, Unrefused (parts.foldlM w.partOf v) := by
    induction parts with
    | nil => exact fun v => .ok v
    | cons part rest ih => exact fun v => .bind (partOf_unrefused w v part) ih
  unfold valueAt
  split
  · exact .failure rfl
  · split
    · exact hparts _ _
    · exact .failure rfl

/-- The names of a world stand for something or for nothing. -/
theorem scope_plain (w : World) : w.scope.Plain where
  value := valueAt_unrefused w
  model key := by
    refine .bind ?_ fun _ => .ok _
    unfold Registry.find
    split
    · exact .ok _
    · exact .failure rfl

end World
end RowMapper
