import RowMapper.Proofs.Filter.Flattening

/-!
# Brackets between filters

Filters can be joined by one logic in many ways: two by two with an operator, several at once in a
call, and calls within each other.  Because groups of that logic are flattened, the brackets leave
no trace.  A `Bracketing` is one such way; its mapping is one group with the mappings of its
operands in their order (`bracketing_does_not_matter`).
-/
namespace RowMapper

open Where (Accepted Logic groupOf truth?)

/-! ## 1. Ways to join filters -/

/-- A way of joining expressions by a logic: a single expression, an operator between two sides, or
a call with several parts, in which the logic can be spelled with letters of any case. -/
inductive Bracketing (logic : Logic) where
  | operand (e : Expression Value)
  | operator (left right : Bracketing logic)
  | group (word : String) (place : Place) (spelled : Text.lower word = logic.name)
      (parts : List (Bracketing logic))

namespace Bracketing

variable {logic : Logic}

mutual

/-- The expression with its brackets. -/
def expression : Bracketing logic → Expression Value
  | .operand e => e
  | .operator left right => .both logic left.expression right.expression
  | .group word place _ parts => .combine (.strAt word place) (expressions parts)

/-- The expressions of the parts of a group. -/
def expressions : List (Bracketing logic) → List (Expression Value)
  | [] => []
  | b :: rest => b.expression :: expressions rest

end

mutual

/-- The expressions that are joined, in their order. -/
def operands : Bracketing logic → List (Expression Value)
  | .operand e => [e]
  | .operator left right => left.operands ++ right.operands
  | .group _ _ _ parts => operandsOf parts

/-- The operands of the parts of a group. -/
def operandsOf : List (Bracketing logic) → List (Expression Value)
  | [] => []
  | b :: rest => b.operands ++ operandsOf rest

end

end Bracketing

/-- An expression of a filter that is no group of the logic. -/
def Expression.IsOperand (logic : Logic) (e : Expression Value) : Prop :=
  ∃ f, e.build = .ok f ∧ f.isExpression = true ∧ Filter.groupLogic? (.filter f) ≠ some logic

theorem logicOf_of_spelled {logic : Logic} {word : String} {place : Place}
    (h : Text.lower word = logic.name) : logicOf (.strAt word place) = .ok logic := by
  rw [logicOf, h]
  cases logic <;> rfl

theorem buildAll_append {es es' : List (Expression Value)} {fs gs : List (Filter Value)}
    (h : buildAll es = .ok fs) (h' : buildAll es' = .ok gs) :
    buildAll (es ++ es') = .ok (fs ++ gs) := by
  induction es generalizing fs with
  | nil =>
    cases h
    exact h'
  | cons e rest ih =>
    obtain ⟨first, others, hfirst, hothers, rfl⟩ := buildAll_cons.mp h
    exact buildAll_cons.mpr ⟨first, others ++ gs, hfirst, ih hothers, rfl⟩

namespace Filter

open Bracketing (expressions operandsOf)

variable {logic : Logic} {b : Bracketing logic} {g : Filter Value} {fs gs : List (Filter Value)}

/-! ## 2. What is built from them -/

mutual

/-- A filter that is joined out of operands adds just these to a group of the logic. -/
theorem build_bracketing : ∀ b : Bracketing logic, (∀ e ∈ b.operands, e.IsOperand logic) →
    ∃ g fs, b.expression.build = .ok g ∧ g.isExpression = true ∧ buildAll b.operands = .ok fs ∧
      partsUnder logic g = fs.map .filter
  | .operand e, h => by
    obtain ⟨f, hf, hexpression, hapart⟩ := h e List.mem_cons_self
    exact ⟨f, [f], hf, hexpression, buildAll_cons.mpr ⟨f, [], hf, rfl, rfl⟩,
      partsUnder_of_apart hapart⟩
  | .operator left right, h => by
    obtain ⟨hleft, hright⟩ := List.forall_mem_append.mp h
    obtain ⟨f, fs, hf, hexpression, hfs, hparts⟩ := build_bracketing left hleft
    obtain ⟨g, gs, hg, -, hgs, hparts'⟩ := build_bracketing right hright
    -- the operator asks of its left side alone that it can be combined
    refine ⟨combine logic [f, g], fs ++ gs,
      Expression.build_both.mpr ⟨f, g, hf, hg, hexpression, rfl⟩, rfl, buildAll_append hfs hgs, ?_⟩
    rw [partsUnder_combine, List.flatMap_cons, List.flatMap_singleton, hparts, hparts',
      List.map_append]
  | .group word place spelled parts, h => by
    obtain ⟨gs, fs, hgs, hfs, hparts⟩ := build_bracketings parts h
    refine ⟨combine logic gs, fs,
      Expression.build_combine.mpr ⟨gs, logic, hgs, logicOf_of_spelled spelled, rfl⟩, rfl, hfs, ?_⟩
    rw [partsUnder_combine, hparts]

theorem build_bracketings : ∀ parts : List (Bracketing logic),
    (∀ e ∈ operandsOf parts, e.IsOperand logic) →
    ∃ gs fs, buildAll (expressions parts) = .ok gs ∧ buildAll (operandsOf parts) = .ok fs ∧
      gs.flatMap (partsUnder logic) = fs.map .filter
  | [], _ => ⟨[], [], rfl, rfl, rfl⟩
  | b :: rest, h => by
    obtain ⟨hfirst, hrest⟩ := List.forall_mem_append.mp h
    obtain ⟨g, fs, hg, -, hfs, hparts⟩ := build_bracketing b hfirst
    obtain ⟨gs, fs', hgs, hfs', hparts'⟩ := build_bracketings rest hrest
    refine ⟨g :: gs, fs ++ fs', buildAll_cons.mpr ⟨g, gs, hg, hgs, rfl⟩,
      buildAll_append hfs hfs', ?_⟩
    rw [List.flatMap_cons, hparts, hparts', List.map_append]

end

/-- Where there are several operands, the outermost node is a group. -/
theorem build_of_two_operands (two : 2 ≤ b.operands.length) (h : b.expression.build = .ok g) :
    ∃ gs, g = combine logic gs := by
  cases b with
  | operand e => exact absurd two (Nat.not_succ_le_self 1)
  | operator left right =>
    obtain ⟨first, second, -, -, -, hg⟩ := Expression.build_both.mp h
    exact ⟨[first, second], hg⟩
  | group word place spelled parts =>
    obtain ⟨gs, logic', -, hlogic, hg⟩ := Expression.build_combine.mp h
    cases (logicOf_of_spelled spelled).symm.trans hlogic
    exact ⟨gs, hg⟩

theorem mapM_toWhere {es : List (Expression Value)} (h : buildAll es = .ok fs) :
    es.mapM Expression.toWhere = toWheres (fs.map .filter) := by
  induction es generalizing fs with
  | nil =>
    cases h
    rfl
  | cons e rest ih =>
    obtain ⟨first, others, hfirst, hothers, rfl⟩ := buildAll_cons.mp h
    rw [List.mapM_cons, ih hothers, Expression.toWhere, hfirst]
    rfl

theorem toWhere_bracketing (two : 2 ≤ b.operands.length)
    (apart : ∀ e ∈ b.operands, e.IsOperand logic) :
    b.expression.toWhere = (b.operands.mapM Expression.toWhere).map (groupOf logic) := by
  obtain ⟨g, fs, hg, -, hfs, hparts⟩ := build_bracketing b apart
  obtain ⟨gs, rfl⟩ := build_of_two_operands two hg
  calc b.expression.toWhere
      = toWhere (.filter (combine logic gs)) := by rw [Expression.toWhere, hg]; rfl
    _ = (toWheres (fs.map .filter)).map (groupOf logic) := by
      rw [toWhere_combine, ← partsUnder_combine, hparts]
    _ = (b.operands.mapM Expression.toWhere).map (groupOf logic) := by rw [mapM_toWhere hfs]

/-! ## 3. Brackets leave no trace -/

/-- **Bracketing does not matter.**  However two or more filters are joined by a logic, none of them
a group of it, the mapping is one group with their own mappings in order.  In nothing that is built
is a group a part of a group of its logic.  And if an expression with every group in it kept is
accepted, then it is as it is built, with the same truth about every row. -/
theorem bracketing_does_not_matter :
    (∀ (logic : Logic) (b : Bracketing logic), 2 ≤ b.operands.length →
      (∀ e ∈ b.operands, e.IsOperand logic) →
      b.expression.toWhere = (b.operands.mapM Expression.toWhere).map (groupOf logic)) ∧
    (∀ (e : Expression Value) (f : Filter Value), e.build = .ok f → Flat (.filter f)) ∧
    ∀ (e : Expression Value) (kept : Value), e.nested = .ok kept → Accepted kept →
      ∃ w, e.toWhere = .ok w ∧ Accepted w ∧ ∀ db row, truth? db row w = truth? db row kept :=
  ⟨fun _ _ two apart => toWhere_bracketing two apart, fun e _ h => flat_build e h,
    fun _ _ h hkept => flattening_keeps_truth h hkept⟩

/-- Three filters, two of them in brackets and in a call: one group, with the truth of the three
groups that were written. -/
theorem three_filters_in_brackets :
    let named : Expression Value := .call (.str "name") "==" [.str "A"]
    let stocked : Expression Value := .call (.str "stock") ">" [.int 1]
    let unsold : Expression Value := .call (.str "sold") "is_null" []
    let b : Bracketing .all := .operator (.operand named) (.group "AND" none (by decide)
      [.operator (.operand stocked) (.operand unsold)])
    let name : Value := Where.operatorOn (.str "name") "eq" (.str "A")
    let stock : Value := Where.operatorOn (.str "stock") "gt" (.int 1)
    let sold : Value := Where.operatorOn (.str "sold") "isNull" (.bool true)
    let flat : Value := groupOf .all [name, stock, sold]
    let kept : Value := groupOf .all [name, groupOf .all [groupOf .all [stock, sold]]]
    2 ≤ b.operands.length ∧ (∀ e ∈ b.operands, e.IsOperand .all) ∧
      b.expression.toWhere = .ok flat ∧
      (∃ f, b.expression.build = .ok f ∧ Flat (.filter f)) ∧
      b.expression.nested = .ok kept ∧ Accepted kept ∧ Accepted flat ∧
      ∀ db row, truth? db row flat = truth? db row kept := by
  intro named stocked unsold b name stock sold flat kept
  obtain ⟨hbrackets, hflat, htruth⟩ := bracketing_does_not_matter
  have htwo : 2 ≤ b.operands.length := by decide
  have hoperand {e : Expression Value} {column word operand : Value}
      (h : e.build = .ok (.comparison column word operand)) : e.IsOperand .all :=
    ⟨_, h, rfl, nofun⟩
  have hoperands : ∀ e ∈ b.operands, e.IsOperand .all := by
    have hlist : b.operands = [named, stocked, unsold] := rfl
    rw [hlist]
    simp only [List.forall_mem_cons]
    exact ⟨hoperand rfl, hoperand rfl, hoperand rfl, List.forall_mem_nil _⟩
  have hwhere : b.expression.toWhere = .ok flat := hbrackets .all b htwo hoperands
  have hkept : b.expression.nested = .ok kept := rfl
  have haccepted : Accepted kept := ⟨_, rfl⟩
  obtain ⟨w, hw, hw', hsame⟩ := htruth b.expression kept hkept haccepted
  cases hwhere.symm.trans hw
  obtain ⟨f, hf, -⟩ := Expression.toWhere_eq_ok.mp hwhere
  exact ⟨htwo, hoperands, hwhere, ⟨f, hf, hflat _ f hf⟩, hkept, haccepted, hw', hsame⟩

end Filter
end RowMapper
