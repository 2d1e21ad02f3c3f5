import RowMapper.Proofs.Where.Truth

/-!
# Three ways to negate

A condition on a column can be negated in front of the column, behind it, or by an operator that is
the opposite of another one.  The first two are compiled to the very same fragment.  The third is
written differently, with rules of its own for null and for the empty list, and says the same about
every row (`negations_agree`).

What the opposite of a comparison is worth rests on the database: it has to take `<>` for the
opposite of `=`, and `NOT LIKE` for that of `LIKE`.
-/
namespace RowMapper.Where

open Sql (Comparing Formula RowValues)

variable {db : Comparing} {row : RowValues} {c v : Value}

/-! ## 1. Opposite operators -/

/-- The words of the operators that have an opposite, each beside the word of that. -/
def opposites : List (String × String) := [
  ("eq", "ne"), ("like", "notLike"), ("in", "notIn"), ("between", "notBetween"),
  ("isNull", "isNotNull")]

/-- An operator and its opposite. -/
inductive Operator.Opposite : Operator → Operator → Prop
  | equality : Opposite (.compare .eq) (.compare .ne)
  | pattern : Opposite (.compare .like) (.compare .notLike)
  | member : Opposite (.member false) (.member true)
  | range : Opposite (.range false) (.range true)
  | nullness : Opposite (.nullness false) (.nullness true)

theorem opposite_of_mem {positive negative : String} (h : (positive, negative) ∈ opposites) :
    ∃ op opposite : Operator, Operator.ofWord? positive = some op ∧
      Operator.ofWord? negative = some opposite ∧ op.Opposite opposite := by
  simp only [opposites, List.mem_cons, Prod.mk.injEq, List.not_mem_nil, or_false] at h
  rcases h with ⟨rfl, rfl⟩ | ⟨rfl, rfl⟩ | ⟨rfl, rfl⟩ | ⟨rfl, rfl⟩ | ⟨rfl, rfl⟩
  · exact ⟨_, _, rfl, rfl, .equality⟩
  · exact ⟨_, _, rfl, rfl, .pattern⟩
  · exact ⟨_, _, rfl, rfl, .member⟩
  · exact ⟨_, _, rfl, rfl, .range⟩
  · exact ⟨_, _, rfl, rfl, .nullness⟩

namespace Operator.Opposite

variable {op opposite : Operator}

theorem ne_negation (h : op.Opposite opposite) : op ≠ .negation ∧ opposite ≠ .negation := by
  cases h <;> exact ⟨nofun, nofun⟩

/-- Opposite operators take the same operands; null can be compared for equality either way. -/
theorem takes_iff (h : op.Opposite opposite) : op.Takes v ↔ opposite.Takes v := by
  cases h <;> simp [Takes]

/-- The opposite of an operator says the opposite. -/
theorem eval_eq {column : String} {stated contrary : Formula} (h : op.Opposite opposite)
    (hdb : db.Complementary) (hstated : operatorFormula? column op v = some stated)
    (hcontrary : operatorFormula? column opposite v = some contrary) :
    contrary.eval db row = (stated.eval db row).not := by
  cases h with
  | equality =>
    by_cases hnull : v = .null
    · subst hnull
      cases hstated
      cases hcontrary
      rw [Formula.eval, Formula.eval]
      rfl
    · rw [operatorFormula?_of_ne_null column _ hnull] at hstated hcontrary
      cases hstated
      cases hcontrary
      rw [Formula.eval, Formula.eval, Sql.compared_ne hdb]
  | pattern =>
    cases hstated
    cases hcontrary
    rw [Formula.eval, Formula.eval, Sql.compared_notLike hdb]
  | member =>
    obtain ⟨items, hitems, rfl⟩ := Option.map_eq_some_iff.mp hstated
    obtain ⟨items', hitems', rfl⟩ := Option.map_eq_some_iff.mp hcontrary
    cases hitems.symm.trans hitems'
    -- the empty list has constants for its two formulas
    cases items <;> rfl
  | range =>
    rw [operatorFormula?] at hstated hcontrary
    split at hstated
    · next low high hitems =>
      rw [hitems] at hcontrary
      cases hstated
      cases hcontrary
      rw [Formula.eval, Formula.eval]
      rfl
    · cases hstated
  | nullness =>
    cases hstated
    cases hcontrary
    rw [Formula.eval, Formula.eval]
    rfl

end Operator.Opposite

/-! ## 2. The negations of a condition -/

/-- **Negations agree.**  On a column, that is under every key but the reserved words, `not` behind
the column and `not` in front of it are compiled to the same text with the same parameters, or are
rejected alike.  The opposite of an operator is accepted just if its negation is, and then both have
the same truth about every row. -/
theorem negations_agree (c v : Value) (free : ∀ word ∈ reservedWords, c.text? ≠ some word) :
    compile (operatorOn c "not" v) = compile (.mapping [(.str "not", .mapping [(c, v)])]) ∧
    ∀ positive negative, (positive, negative) ∈ opposites →
      (Accepted (operatorOn c negative v) ↔
        Accepted (operatorOn c "not" (.mapping [(.str positive, v)]))) ∧
      ∀ db row, db.Complementary → truth? db row (operatorOn c negative v) =
        truth? db row (operatorOn c "not" (.mapping [(.str positive, v)])) := by
  have hrole : roleOf c = .column := roleOf_eq_column.mpr free
  refine ⟨?_, fun positive negative hmem => ?_⟩
  · obtain ⟨hbehind, hfront⟩ := conditions_negations hrole v
    rw [operatorOn, compile_mapping_eq, compile_mapping_eq, hbehind, hfront]
  · obtain ⟨op, opposite, hpositive, hnegative, hopposite⟩ := opposite_of_mem hmem
    obtain ⟨hop, hop'⟩ := hopposite.ne_negation
    have hnegated : Accepted (operatorOn c "not" (.mapping [(.str positive, v)])) ↔
        Accepted (operatorOn c positive v) := accepted_negatedOn hrole _
    have haccepted : Accepted (operatorOn c negative v) ↔
        Accepted (operatorOn c "not" (.mapping [(.str positive, v)])) := by
      rw [hnegated, accepted_operatorOn hrole hnegative hop', accepted_operatorOn hrole hpositive hop,
        hopposite.takes_iff]
    refine ⟨haccepted, fun db row hdb => truth?_congr haccepted fun h => ?_⟩
    have htakes : opposite.Takes v := ((accepted_operatorOn hrole hnegative hop').mp h).2
    obtain ⟨stated, hstated⟩ :=
      operatorFormula?_of_takes (Sql.nameText c) (hopposite.takes_iff.mpr htakes)
    obtain ⟨contrary, hcontrary⟩ := operatorFormula?_of_takes (Sql.nameText c) htakes
    have hmeaning : meaning (.mapping [(c, .mapping [(.str positive, v)])]) = stated :=
      meaning_operatorOn hrole hpositive hstated
    rw [meaning_operatorOn hrole hnegative hcontrary, meaning_negatedOn hrole, hmeaning,
      Formula.eval_negation, hopposite.eval_eq hdb hstated hcontrary]

/-- A list with null in it: neither form of its absence is true of a row with another number. -/
theorem absence_from_list_with_null :
    let among : Value := .mapping [(.str "in", .list [.int 1, .null])]
    let absent : Value := operatorOn (.str "stock") "notIn" (.list [.int 1, .null])
    let fragment : Sql.Fragment := ⟨"NOT (\"stock\" IN (?, ?))", [.int 1, .null]⟩
    let db := Comparing.ofEqual fun kept v => kept.asInt? == v.asInt?
    (∀ word ∈ reservedWords, (Value.str "stock").text? ≠ some word) ∧
      ("in", "notIn") ∈ opposites ∧ db.Complementary ∧
      compile (operatorOn (.str "stock") "not" among) = .ok fragment ∧
      compile (.mapping [(.str "not", .mapping [(.str "stock", among)])]) = .ok fragment ∧
      Accepted absent ∧ truth? db (fun _ => .int 2) absent = some .unknown := by
  intro among absent fragment db
  have hfree : ∀ word ∈ reservedWords, (Value.str "stock").text? ≠ some word := by decide
  have hpair : ("in", "notIn") ∈ opposites := by decide
  have hdb : db.Complementary := Comparing.complementary_ofEqual _
  have hbehind : compile (operatorOn (.str "stock") "not" among) = .ok fragment := rfl
  obtain ⟨haccepted, htruth⟩ :=
    (negations_agree (.str "stock") (.list [.int 1, .null]) hfree).2 "in" "notIn" hpair
  refine ⟨hfree, hpair, hdb, hbehind, ?_, haccepted.mpr ⟨fragment, hbehind⟩,
    (htruth db _ hdb).trans rfl⟩
  rw [← (negations_agree (.str "stock") among hfree).1]
  exact hbehind

end RowMapper.Where
