import RowMapper.Proofs.Filter.Meaning

/-!
# What is compiled from a filter expression

A filter reaches the database by way of a mapping, whose keys are columns or reserved words.
`compiled_expression_reads_as_stated` compares what the database reads with what the expression
says, by their truth about every row.  They agree as long as no compared column is called `not`.
Under that name the mapping of a comparison is a negation, of a condition on a column that is called
like the operator, and then some value in the column tells the two apart.
-/
namespace RowMapper

open Sql (Comparing Formula RowValues Truth)
open Where (Comparison Logic Operator conditions entryFormulas itemFormulas operatorFormula? roleOf)

namespace Filter

/-! ## 1. The mapping of a filter -/

theorem entry_eq_ok {key value w : Value} (h : entry key value = .ok w) :
    w = .mapping [(key, value)] := by
  unfold entry at h
  split at h
  · exact (Except.ok.inj h).symm
  · cases h

/-- A mapping that, if it is accepted, means what is stated. -/
def MeansIfAccepted (w : Value) (stated : Formula) : Prop :=
  ∃ entries, w = .mapping entries ∧
    ∀ {cs}, conditions entries = .ok cs → SaySame (Where.meaning (.mapping entries)) stated

theorem means_comparison {name operand : Value} {word : String} {op : Operator} {place : Place}
    {stated : Formula} (compared : roleOf name ≠ .negation)
    (hword : Operator.ofWord? word = some op)
    (hfits : operatorFormula? (Sql.nameText name) op operand = some stated) :
    MeansIfAccepted (.mapping [(name, .mapping [(.strAt word place, operand)])]) stated := by
  refine ⟨_, rfl, fun h => ?_⟩
  obtain ⟨first, -, hfirst, -, -⟩ := Where.conditions_cons.mp h
  cases hrole : roleOf name with
  | join logic =>
    rw [hrole] at hfirst
    obtain ⟨_, _, hsequence, _⟩ := Where.entryConditions_join.mp hfirst
    cases hsequence
  | negation => exact absurd hrole compared
  | column =>
    have hmeaning : Where.meaning (.mapping [(name, .mapping [(.strAt word place, operand)])]) =
        stated := by
      rw [Where.meaning, entryFormulas, hrole]
      show Formula.join .all (Where.operatorFormulas _ [(.strAt word place, operand)] ++ []) = _
      rw [Where.operatorFormulas_single hword hfits]
      rfl
    intro db row
    rw [hmeaning]

theorem means_negation {w : Value} {stated : Formula} (h : MeansIfAccepted w stated) :
    MeansIfAccepted (.mapping [(.str "not", w)]) (.negation stated) := by
  obtain ⟨entries, rfl, hentries⟩ := h
  refine ⟨_, rfl, fun h db row => ?_⟩
  obtain ⟨first, -, hfirst, -, -⟩ := Where.conditions_cons.mp h
  obtain ⟨_, _, parts, hsame, -, hparts, -⟩ := Where.entryConditions_negation.mp hfirst
  cases hsame
  have hmeaning : Where.meaning (.mapping [(.str "not", .mapping entries)]) =
      .negation (Where.meaning (.mapping entries)) := rfl
  rw [hmeaning, Formula.eval_negation, Formula.eval_negation, hentries hparts db row]

/-- The items of a group, beside what is stated for each. -/
theorem itemFormulas_means (logic : Logic) (db : Comparing) (row : RowValues) :
    ∀ {ws : List Value} {stated : List Formula} {parts : List (List Where.Condition)},
      List.Forall₂ MeansIfAccepted ws stated →
      Where.groupConditions logic ws = .ok parts →
      (itemFormulas ws).map (fun g => g.eval db row) = stated.map fun g => g.eval db row
  | [], _, parts, hall, _ => by
    cases hall
    rfl
  | w :: rest, _, parts, hall, h => by
    obtain ⟨first, others, hitem, hothers, -⟩ := Where.groupConditions_cons.mp h
    cases hall with
    | @cons _ g _ gs hw hrest =>
      obtain ⟨entries, rfl, hentries⟩ := hw
      obtain ⟨_, _, hsame, -, hconditions⟩ := Where.itemConditions_eq_ok.mp hitem
      cases hsame
      have hfirst : (Where.meaning (.mapping entries)).eval db row = g.eval db row :=
        hentries hconditions db row
      rw [itemFormulas, List.map_cons, List.map_cons, itemFormulas_means logic db row hrest hothers,
        ← hfirst]
      rfl

theorem means_group {logic : Logic} {ws : List Value} {stated : List Formula}
    (h : List.Forall₂ MeansIfAccepted ws stated) :
    MeansIfAccepted (.mapping [(.str logic.name, .list ws)]) (.joined logic stated) := by
  refine ⟨_, rfl, fun hcs db row => ?_⟩
  obtain ⟨first, -, hfirst, -, -⟩ := Where.conditions_cons.mp hcs
  rw [Where.roleOf_logic] at hfirst
  obtain ⟨_, parts, hsequence, -, hparts, -⟩ := Where.entryConditions_join.mp hfirst
  cases hsequence
  have hmeaning : Where.meaning (.mapping [(.str logic.name, .list ws)]) =
      .join logic (itemFormulas ws) := by
    rw [Where.meaning, entryFormulas, Where.roleOf_logic]
    rfl
  rw [hmeaning, Formula.eval_join, Formula.eval_joined, itemFormulas_means logic db row h hparts]

theorem means_toWheres : ∀ {parts ws : List Value}, toWheres parts = .ok ws →
    (∀ v ∈ parts, ∀ {w}, toWhere v = .ok w → MeansIfAccepted w (formula v)) →
    List.Forall₂ MeansIfAccepted ws (formulas parts)
  | [], ws, h, _ => by
    cases h
    exact .nil
  | v :: rest, ws, h, ih => by
    obtain ⟨first, hfirst, h⟩ := bind_eq_ok.mp h
    obtain ⟨others, hothers, h⟩ := bind_eq_ok.mp h
    cases h
    rw [formulas]
    exact .cons (ih v (by simp) hfirst)
      (means_toWheres hothers fun v hv => ih v (List.mem_cons_of_mem _ hv))

/-- The mapping of a built filter means what the filter says, unless a column is called `not`. -/
theorem means_toWhere {v : Value} (h : Built (fun name => roleOf name ≠ .negation) v) :
    ∀ {w}, toWhere v = .ok w → MeansIfAccepted w (formula v) := by
  induction h with
  | @comparison name word operand op stated place place' compared operator fits =>
    intro w hw
    rw [toWhere] at hw
    obtain ⟨inner, hinner, hw⟩ := bind_eq_ok.mp hw
    rw [entry_eq_ok hw, entry_eq_ok hinner, formula, operator, Option.bind_some, fits,
      Option.getD_some]
    exact means_comparison compared operator fits
  | @negation inner place _ ih =>
    intro w hw
    rw [toWhere] at hw
    obtain ⟨w', hinner, hw⟩ := bind_eq_ok.mp hw
    rw [entry_eq_ok hw, formula]
    exact means_negation (ih hinner)
  | @combined logic parts place place' _ ih =>
    intro w hw
    rw [toWhere] at hw
    obtain ⟨ws, hws, hw⟩ := bind_eq_ok.mp hw
    rw [entry_eq_ok hw, formula]
    exact means_group (means_toWheres hws ih)

/-! ## 2. A column called not -/

theorem roleOf_eq_negation {name : Value} (h : roleOf name = .negation) :
    ∃ place, name = .strAt "not" place := by
  unfold roleOf at h
  split at h <;> first
    | exact ⟨_, rfl⟩
    | cases h

/-- The word of an operator that compares a column is none of the reserved ones. -/
theorem roleOf_word {column word : String} {op : Operator} {operand : Value} {place : Place}
    {stated : Formula} (hword : Operator.ofWord? word = some op)
    (hfits : operatorFormula? column op operand = some stated) :
    roleOf (.strAt word place) = .column ∧ word ≠ "not" := by
  have hnone (reserved : String) (logical : Operator)
      (hreserved : Operator.ofWord? reserved = some logical)
      (hlogical : operatorFormula? column logical operand = none) : word ≠ reserved := by
    rintro rfl
    rw [hreserved] at hword
    rw [Option.some.inj hword, hfits] at hlogical
    cases hlogical
  have hand := hnone "and" (.join .all) rfl rfl
  have hor := hnone "or" (.join .any) rfl rfl
  have hnot := hnone "not" .negation rfl rfl
  refine ⟨?_, hnot⟩
  unfold roleOf
  split
  · rename_i h
    exact absurd (Value.strAt.inj h).1 hand
  · rename_i h
    exact absurd (Value.strAt.inj h).1 hor
  · rename_i h
    exact absurd (Value.strAt.inj h).1 hnot
  · rfl

section Locality

variable {db : Comparing} {row row' : RowValues} {column : String}

/-- What is said of one column depends on no other. -/
theorem eval_operatorFormula? {op : Operator} {operand : Value} {stated : Formula}
    (hfits : operatorFormula? column op operand = some stated) (h : row column = row' column) :
    stated.eval db row = stated.eval db row' := by
  cases op with
  | compare comparison =>
    rw [operatorFormula?_compare] at hfits
    cases hfits
    unfold comparisonFormula
    split <;> simp only [Formula.eval, Sql.compared, h]
  | member negated =>
    obtain ⟨operands, -, rfl⟩ := Option.map_eq_some_iff.mp hfits
    split <;> simp only [Formula.eval, funext fun v => show Sql.compared db row column .eq v =
      Sql.compared db row' column .eq v by simp only [Sql.compared, h]]
  | range negated =>
    rw [operatorFormula?] at hfits
    split at hfits
    · cases hfits
      simp only [Formula.eval, Sql.compared, h]
    · cases hfits
  | nullness negated =>
    cases hfits
    simp only [Formula.eval, h]
  | join logic => cases hfits
  | negation => cases hfits

theorem eval_columnFormulas (value : Value) (h : row column = row' column)
    (ih : ∀ entries place, value = .mappingAt entries place →
      (Where.operatorFormulas column entries).map (fun g => g.eval db row) =
        (Where.operatorFormulas column entries).map fun g => g.eval db row') :
    (Where.columnFormulas column value).map (fun g => g.eval db row) =
      (Where.columnFormulas column value).map fun g => g.eval db row' := by
  cases value with
  | mappingAt entries place => exact ih entries place rfl
  | _ =>
    simp only [Where.columnFormulas, List.map_cons, List.map_nil, Formula.eval, Sql.compared, h]

theorem eval_operatorFormulas (entries : List (Value × Value)) (h : row column = row' column) :
    (Where.operatorFormulas column entries).map (fun g => g.eval db row) =
      (Where.operatorFormulas column entries).map fun g => g.eval db row' := by
  induction entries using Where.entries_induction with
  | nil => rfl
  | cons operator operand rest ihMapping _ ihRest =>
    rw [Where.operatorFormulas, List.map_append, List.map_append, ihRest]
    congr 1
    split
    · simp only [List.map_cons, List.map_nil, Formula.eval_negation, Formula.eval_join,
        eval_columnFormulas operand h ihMapping]
    · rename_i op _ _
      cases hfits : operatorFormula? column op operand with
      | none => rfl
      | some g => simp only [Option.toList_some, List.map_cons, List.map_nil,
          eval_operatorFormula? hfits h]
    · rfl

end Locality

theorem eval_ne_of_ne {db : Comparing} {row row' : RowValues} {read stated : Formula}
    (hread : read.eval db row = read.eval db row')
    (hstated : stated.eval db row ≠ stated.eval db row') :
    read.eval db row ≠ stated.eval db row ∨ read.eval db row' ≠ stated.eval db row' := by
  by_contra hsame
  rw [not_or, not_not, not_not] at hsame
  exact hstated (hsame.1 ▸ hsame.2 ▸ hread)

theorem eval_compare_null (column : String) (comparison : Comparison) (db : Comparing)
    (row : RowValues) : (Formula.compare column comparison .null).eval db row = .unknown := by
  simp [Formula.eval, Sql.compared, Value.isNull]

theorem eval_nullness_ne (column : String) (negated : Bool) (db : Comparing) (row : RowValues) :
    (Formula.nullness column negated).eval db (row.set column .null) ≠
      (Formula.nullness column negated).eval db (row.set column (.bool true)) := by
  simp only [Formula.eval, RowValues.set_self, Value.isNull]
  cases negated <;> decide

theorem eval_compare_ne {column : String} {comparison : Comparison} {operand : Value}
    (hnull : operand ≠ .null) (db : Comparing) (row : RowValues) :
    (Formula.compare column comparison operand).eval db (row.set column .null) ≠
      (Formula.compare column comparison operand).eval db (row.set column (.bool true)) := by
  have hoperand : operand.isNull = false := by
    cases operand <;> first
      | rfl
      | exact absurd rfl hnull
  simp only [Formula.eval, Sql.compared, RowValues.set_self, hoperand]
  exact (Truth.ofBool_ne_unknown _).symm

/-- The truth of what is said of a column changes with null in the column, unless null is compared
with. -/
theorem eval_set_null {column : String} {op : Operator} {operand : Value} {stated : Formula}
    (hfits : operatorFormula? column op operand = some stated)
    (hsequence : operand.sequence? = none) :
    (operand = .null ∧ ∃ comparison, stated = .compare column comparison .null) ∨
      ∀ (db : Comparing) (row : RowValues), stated.eval db (row.set column .null) ≠
        stated.eval db (row.set column (.bool true)) := by
  cases op with
  | compare comparison =>
    rw [operatorFormula?_compare] at hfits
    cases hfits
    by_cases hnull : operand = .null
    · subst hnull
      cases comparison <;> first
        | exact .inr (eval_nullness_ne column _)
        | exact .inl ⟨rfl, _, rfl⟩
    · have hstated : comparisonFormula column comparison operand =
          .compare column comparison operand := by
        cases comparison <;> cases operand <;> first
          | rfl
          | exact absurd rfl hnull
      rw [hstated]
      exact .inr (eval_compare_ne hnull)
  | member negated =>
    rw [operatorFormula?, hsequence] at hfits
    cases hfits
  | range negated =>
    rw [operatorFormula?, hsequence] at hfits
    cases hfits
  | nullness negated =>
    cases hfits
    exact .inr (eval_nullness_ne column negated)
  | join logic => cases hfits
  | negation => cases hfits

/-- The value under a key that is no reserved word is no list. -/
theorem sequence?_of_conditions {name value : Value} {cs : List Where.Condition}
    (hrole : roleOf name = .column) (h : conditions [(name, value)] = .ok cs) :
    value.sequence? = none := by
  obtain ⟨first, -, hfirst, -, -⟩ := Where.conditions_cons.mp h
  rw [hrole, Where.entryConditions_column] at hfirst
  obtain ⟨column, -, hvalue⟩ := Where.columnConditions_eq_ok.mp hfirst
  rcases Where.negatedColumn_eq_ok.mp hvalue with ⟨_, _, rfl, _⟩ | ⟨rfl, _⟩ | ⟨hscalar, _⟩
  · rfl
  · rfl
  · exact hscalar.notSequence

/-- Under the name `not` the word of an operator is taken for a column. -/
theorem meaning_under_not {word : String} (operand : Value) {place : Place} (place' : Place)
    (hcolumn : roleOf (.strAt word place) = .column) :
    Where.meaning (.mapping [(.strAt "not" place', .mapping [(.strAt word place, operand)])]) =
      .negation (.join .all (Where.columnFormulas word operand)) := by
  have hentries : entryFormulas [(.strAt word place, operand)] =
      Where.columnFormulas word operand := by
    rw [entryFormulas, hcolumn, Where.roleFormulas_column]
    exact List.append_nil _
  rw [← hentries]
  rfl

/-- A comparison on a column called `not`, if it is accepted, means something else: with some value
in that column, the truth is another one. -/
theorem misread_comparison {name operand : Value} {word : String} {op : Operator} {place : Place}
    {stated : Formula} (hrole : roleOf name = .negation) (hword : Operator.ofWord? word = some op)
    (hfits : operatorFormula? (Sql.nameText name) op operand = some stated)
    {cs : List Where.Condition}
    (hcs : conditions [(name, .mapping [(.strAt word place, operand)])] = .ok cs)
    (db : Comparing) (row : RowValues) :
    ∃ v, (Where.meaning (.mapping [(name, .mapping [(.strAt word place, operand)])])).eval db
        (row.set "not" v) ≠ stated.eval db (row.set "not" v) := by
  obtain ⟨place', rfl⟩ := roleOf_eq_negation hrole
  obtain ⟨hcolumn, hother⟩ : roleOf (.strAt word place) = .column ∧ word ≠ "not" :=
    roleOf_word hword hfits
  have hsequence : operand.sequence? = none := by
    obtain ⟨first, -, hfirst, -, -⟩ := Where.conditions_cons.mp hcs
    obtain ⟨_, _, parts, hsame, -, hparts, -⟩ := Where.entryConditions_negation.mp hfirst
    cases hsame
    exact sequence?_of_conditions hcolumn hparts
  rw [meaning_under_not operand place' hcolumn]
  rcases eval_set_null hfits hsequence with ⟨rfl, comparison, rfl⟩ | hstated
  · refine ⟨.null, ?_⟩
    rw [eval_compare_null, Formula.eval_negation, Formula.eval_join, Where.columnFormulas,
      List.map_singleton, Truth.joined_singleton, Formula.eval]
    cases (row.set "not" .null word).isNull <;> decide
  · -- what is read depends on the column `word` alone, what is stated changes with the column `not`
    have hkept : row.set "not" .null word = row.set "not" (.bool true) word := by
      rw [row.set_of_ne _ hother, row.set_of_ne _ hother]
    have hread : (Formula.negation (.join .all (Where.columnFormulas word operand))).eval db
        (row.set "not" .null) =
        (Formula.negation (.join .all (Where.columnFormulas word operand))).eval db
        (row.set "not" (.bool true)) := by
      rw [Formula.eval_negation, Formula.eval_negation, Formula.eval_join, Formula.eval_join,
        eval_columnFormulas operand hkept fun entries _ _ => eval_operatorFormulas entries hkept]
    rcases eval_ne_of_ne hread (hstated db row) with h | h
    · exact ⟨_, h⟩
    · exact ⟨_, h⟩

end Filter

/-! ## 3. From the expression to the database -/

/-- **A compiled expression says what was written, as long as no column is called `not`.**  Then the
database reads a formula with the same truth about every row.  But of a single comparison on a
column called `not`, if it is accepted, it reads a formula that every row tells apart from the
comparison once that column has the right value. -/
theorem compiled_expression_reads_as_stated (e : Expression Value) (f : Filter Value) (w : Value)
    (fragment : Sql.Fragment) (hbuild : e.build = .ok f)
    (hwhere : Filter.toWhere (.filter f) = .ok w) (hcompile : Where.compile w = .ok fragment) :
    (e.Composed (fun name => roleOf name ≠ .negation) →
      ∃ stated read, e.formula? = some stated ∧ fragment.read? = some read ∧
        ∀ db row, read.eval db row = stated.eval db row) ∧
    (∀ name, e.comparedColumn? = some name → roleOf name = .negation →
      ∃ stated read, e.formula? = some stated ∧ fragment.read? = some read ∧
        ∀ (db : Comparing) (row : RowValues),
          ∃ v, read.eval db (row.set "not" v) ≠ stated.eval db (row.set "not" v)) := by
  constructor
  · intro hcomposed
    obtain ⟨hbuilt, stated, hstated, hsame⟩ := Filter.keeps_build hcomposed hbuild
    obtain ⟨entries, rfl, hmeans⟩ := Filter.means_toWhere hbuilt hwhere
    obtain ⟨cs, hcs, rfl⟩ := Where.compile_mapping.mp hcompile
    refine ⟨stated, _, hstated, Where.read?_of_conditions hcs, fun db row => ?_⟩
    rw [← hsame db row]
    exact hmeans hcs db row
  · intro name hname hrole
    cases Filter.compares_build hname hbuild with
    | intro hword hfits hstated hsame =>
      rw [Filter.toWhere] at hwhere
      obtain ⟨inner, hinner, hwhere⟩ := bind_eq_ok.mp hwhere
      rw [Filter.entry_eq_ok hwhere, Filter.entry_eq_ok hinner] at hcompile
      obtain ⟨cs, hcs, rfl⟩ := Where.compile_mapping.mp hcompile
      refine ⟨_, _, hstated, Where.read?_of_conditions hcs, fun db row => ?_⟩
      obtain ⟨v, hv⟩ := Filter.misread_comparison hrole hword hfits hcs db row
      rw [hsame db (row.set "not" v)] at hv
      exact ⟨v, hv⟩

/-- A flattened conjunction with a negated disjunction in it. -/
theorem compound_expression_reads_as_stated :
    let bounds : Expression Value :=
      .both .all (.call (.str "a") ">" [.int 1]) (.reflected (.int 9) ">=" (.str "a"))
    let others : Expression Value :=
      .both .any (.call (.str "b") "==" [.null]) (.call (.str "c") "in_" [.list [.int 2]])
    let e : Expression Value := .both .all bounds (.invert others)
    let fragment : Sql.Fragment :=
      ⟨"(\"a\" > ? AND \"a\" <= ? AND NOT ((\"b\" IS NULL OR \"c\" IN (?))))",
        [.int 1, .int 9, .int 2]⟩
    (∃ f w, e.build = .ok f ∧ Filter.toWhere (.filter f) = .ok w ∧
      Where.compile w = .ok fragment) ∧
    ∃ stated read, e.formula? = some stated ∧ fragment.read? = some read ∧
      ∀ db row, read.eval db row = stated.eval db row := by
  intro bounds others e fragment
  have hcomposed : e.Composed fun name => roleOf name ≠ .negation :=
    .both (.both (.call (by decide)) (.reflected (by decide)))
      (.invert (.both (.call (by decide)) (.call (by decide))))
  exact ⟨⟨_, _, rfl, rfl, rfl⟩,
    (compiled_expression_reads_as_stated e _ _ fragment rfl rfl rfl).1 hcomposed⟩

/-- The name `not` can be quoted, but the comparison of that column with five is compiled to a
negated condition on a column `eq`.  It leaves out a row of fives, which the comparison asks for. -/
theorem column_called_not_is_misread :
    let e : Expression Value := .call (.str "not") "==" [.int 5]
    let fragment : Sql.Fragment := ⟨"NOT (\"eq\" = ?)", [.int 5]⟩
    Sql.quoteIdentifier (.str "not") = .ok "\"not\"" ∧
    (∃ f w, e.build = .ok f ∧ Filter.toWhere (.filter f) = .ok w ∧
      Where.compile w = .ok fragment) ∧
    ∃ stated read, e.formula? = some stated ∧ fragment.read? = some read ∧
      stated.eval (fun _ _ _ _ => true) (fun _ => .int 5) = .yes ∧
      read.eval (fun _ _ _ _ => true) (fun _ => .int 5) = .no :=
  ⟨rfl, ⟨_, _, rfl, rfl, rfl⟩, _, _, rfl, rfl, rfl, rfl⟩

end RowMapper
