import RowMapper.Proofs.Sql.Evaluation
import RowMapper.Proofs.Where.Grammar
import RowMapper.Proofs.Where.Reading

/-!
# The truth of a filter about a row

An accepted filter has a truth about every row, which is that of the formula that a database reads
in the compiled text.  Two filters say the same if they are accepted alike and have the same truth
about every row.

Here is what this comes to for the filters with a single entry: one operator on a column
(`accepted_operatorOn`, `meaning_operatorOn`), a negation on either side of a column
(`conditions_negations`, `meaning_negatedOn`), a group (`accepted_group`, `eval_group`), and the
negation of a filter (`accepted_negation`, `eval_negation`).
-/
namespace RowMapper.Where

open Sql (Comparing Formula RowValues Truth)

variable {db : Comparing} {row : RowValues} {v w c : Value} {key value : Value}

/-! ## 1. Accepted filters -/

/-- The filter is compiled. -/
def Accepted (v : Value) : Prop := ∃ fragment, compile v = .ok fragment

/-- The truth of a filter about a row: that of what a database reads in the compiled text.  A filter
that is refused has none. -/
def truth? (db : Comparing) (row : RowValues) (v : Value) : Option Truth := do
  let fragment ← (compile v).toOption
  let formula ← fragment.read?
  return formula.eval db row

theorem truth?_of_accepted (h : Accepted v) :
    truth? db row v = some ((meaning v).eval db row) := by
  obtain ⟨fragment, hfragment⟩ := h
  have hread : fragment.read? = some (meaning v) := by
    rcases compile_eq_ok.mp hfragment with ⟨-, hmapping, rfl⟩ | ⟨entries, place, cs, rfl, hcs, rfl⟩
    · rw [meaning_of_not_mapping hmapping]
      rfl
    · exact read?_of_conditions hcs
  rw [truth?, hfragment]
  show fragment.read?.bind _ = _
  rw [hread]
  rfl

theorem truth?_of_refused (h : ¬Accepted v) : truth? db row v = none := by
  cases hcompile : compile v with
  | ok fragment => exact absurd ⟨fragment, hcompile⟩ h
  | error why =>
    rw [truth?, hcompile]
    rfl

/-- Filters that are accepted alike have the same truth if their meanings have. -/
theorem truth?_congr (haccepted : Accepted v ↔ Accepted w)
    (hmeaning : Accepted v → (meaning v).eval db row = (meaning w).eval db row) :
    truth? db row v = truth? db row w := by
  by_cases h : Accepted v
  · rw [truth?_of_accepted h, truth?_of_accepted (haccepted.mp h), hmeaning h]
  · rw [truth?_of_refused h, truth?_of_refused fun hw => h (haccepted.mpr hw)]

theorem compile_mapping_eq (entries : Entries) :
    compile (.mapping entries) = (conditions entries).map compileConjunction := by
  cases entries <;> rfl

theorem accepted_mapping {entries : Entries} :
    Accepted (.mapping entries) ↔ ∃ cs, conditions entries = .ok cs := by
  simp only [Accepted, compile_mapping]
  exact ⟨fun ⟨_, cs, hcs, _⟩ => ⟨cs, hcs⟩, fun ⟨cs, hcs⟩ => ⟨_, cs, hcs, rfl⟩⟩

theorem conditions_singleton (key value : Value) :
    conditions [(key, value)] = entryConditions (roleOf key) key value := by
  rw [conditions]
  cases entryConditions (roleOf key) key value with
  | error why => rfl
  | ok cs => exact congrArg Except.ok (List.append_nil cs)

theorem entryFormulas_singleton (key value : Value) :
    entryFormulas [(key, value)] = roleFormulas (roleOf key) key value := by
  rw [entryFormulas, entryFormulas, List.append_nil]

/-! ## 2. One column -/

theorem conditions_column (hrole : roleOf c = .column) (value : Value) :
    conditions [(c, value)] = columnConditions c value := by
  rw [conditions_singleton, hrole, entryConditions_column]

theorem meaning_column (hrole : roleOf c = .column) (value : Value) :
    meaning (.mapping [(c, value)]) = .join .all (columnFormulas (Sql.nameText c) value) := by
  rw [meaning, entryFormulas_singleton, hrole, roleFormulas_column]

/-- A filter with one operator on one column. -/
def operatorOn (column : Value) (word : String) (operand : Value) : Value :=
  .mapping [(column, .mapping [(.str word, operand)])]

/-- One operator on a column is accepted if the column can be quoted and the operand fits. -/
theorem accepted_operatorOn {word : String} {op : Operator} (hrole : roleOf c = .column)
    (hword : Operator.ofWord? word = some op) (hop : op ≠ .negation) :
    Accepted (operatorOn c word v) ↔
      (∃ quoted, Sql.quoteIdentifier c = .ok quoted) ∧ op.Takes v := by
  have hvalue : ColumnValue (.mapping [(.str word, v)]) ↔ op.Takes v := by
    have hentry : OperatorEntry (.str word) v ↔ op.Takes v := by
      rw [operatorEntry_iff ⟨word, rfl, hword⟩, if_neg hop]
    rw [← hentry]
    constructor
    · intro h
      cases h with
      | scalar hscalar => exact absurd rfl (hscalar.notMapping _ _)
      | operators _ each => exact each _ _ List.mem_cons_self
    · intro h
      refine .operators (List.cons_ne_nil _ _) fun operator operand hmem => ?_
      cases List.mem_singleton.mp hmem
      exact h
  rw [operatorOn, accepted_mapping, conditions_column hrole, columnConditions_isOk, hvalue]

/-- What one operator on a column means. -/
theorem meaning_operatorOn {word : String} {op : Operator} {stated : Formula}
    (hrole : roleOf c = .column) (hword : Operator.ofWord? word = some op)
    (hfits : operatorFormula? (Sql.nameText c) op v = some stated) :
    meaning (operatorOn c word v) = stated := by
  rw [operatorOn, meaning_column hrole, columnFormulas, operatorFormulas_single hword hfits]
  rfl

theorem operatorFormula?_of_takes {op : Operator} (column : String) (h : op.Takes v) :
    ∃ stated, operatorFormula? column op v = some stated := by
  have hop : op ≠ .negation := by
    rintro rfl
    exact h
  obtain ⟨condition, hcondition⟩ := (operatorEntry_isOk_of_ne hop .null column "" v).mpr h
  exact ⟨_, operatorEntry_formula hop hcondition⟩

theorem operatorFormula?_of_ne_null (column : String) (comparison : Comparison) (h : v ≠ .null) :
    operatorFormula? column (.compare comparison) v = some (.compare column comparison v) := by
  cases comparison <;> cases v <;> first
    | rfl
    | exact absurd rfl h

/-! ## 3. A negated column -/

/-- A negation on the column, and one of the filter on the column. -/
theorem conditions_negations (hrole : roleOf c = .column) (value : Value) :
    conditions [(c, .mapping [(.str "not", value)])] =
        (columnConditions c value).map (fun parts => [.negation parts]) ∧
      conditions [(.str "not", .mapping [(c, value)])] =
        (columnConditions c value).map fun parts => [.negation parts] := by
  constructor
  · rw [conditions_column hrole, columnConditions, columnConditions]
    cases Sql.safeName c with
    | error why => rfl
    | ok column =>
      show operatorConditions c column [(.str "not", value)] =
        (negatedColumn c column value).map fun parts => [.negation parts]
      have hentry : operatorEntry c column "not" .negation value =
          (negatedColumn c column value).map .negation := rfl
      rw [operatorConditions_eq_bind]
      show operatorEntry c column "not" .negation value >>= _ = _
      rw [hentry]
      cases negatedColumn c column value <;> rfl
  · rw [conditions_singleton, ← conditions_column hrole]
    rfl

theorem accepted_negatedOn (hrole : roleOf c = .column) (value : Value) :
    Accepted (operatorOn c "not" value) ↔ Accepted (.mapping [(c, value)]) := by
  rw [operatorOn, accepted_mapping, accepted_mapping, (conditions_negations hrole value).1,
    conditions_column hrole]
  simp only [map_eq_ok]
  exact ⟨fun ⟨_, cs, hcs, _⟩ => ⟨cs, hcs⟩, fun ⟨cs, hcs⟩ => ⟨_, cs, hcs, rfl⟩⟩

theorem meaning_negatedOn (hrole : roleOf c = .column) (value : Value) :
    meaning (operatorOn c "not" value) = .negation (meaning (.mapping [(c, value)])) := by
  rw [operatorOn, meaning_column hrole, meaning_column hrole]
  rfl

/-! ## 4. Filters in filters -/

/-- A filter with one group. -/
def groupOf (logic : Logic) (items : List Value) : Value :=
  .mapping [(.str logic.name, .list items)]

theorem nonemptyFilter_iff : NonemptyFilter v ↔ Accepted v ∧ v.truthy = true := by
  have htruthy : NonemptyFilter v → v.truthy = true := by
    rintro ⟨hne, -⟩
    simpa [Value.truthy] using hne
  rw [Accepted, compile_isOk, IsFilter]
  constructor
  · intro h
    exact ⟨.inr h, htruthy h⟩
  · rintro ⟨hfalse | h, htrue⟩
    · rw [hfalse] at htrue
      cases htrue
    · exact h

/-- A group is accepted if there are items and each of them is a filter with entries. -/
theorem accepted_group {logic : Logic} {items : List Value} :
    Accepted (groupOf logic items) ↔ items ≠ [] ∧ ∀ item ∈ items, NonemptyFilter item := by
  have hgroup : (∃ parts, groupConditions logic items = .ok parts) ↔
      ∀ item ∈ items, NonemptyFilter item :=
    groupConditions_isOk_of logic items fun entries _ _ => conditions_isOk entries
  rw [groupOf, accepted_mapping, conditions_singleton, roleOf_logic, ← hgroup]
  simp only [entryConditions_join, Value.sequence?, Option.some.injEq]
  constructor
  · rintro ⟨cs, _, parts, rfl, hne, hparts, -⟩
    exact ⟨hne, parts, hparts⟩
  · rintro ⟨hne, parts, hparts⟩
    exact ⟨_, items, parts, rfl, hne, hparts, rfl⟩

theorem itemFormulas_eq_map {items : List Value} (h : ∀ item ∈ items, NonemptyFilter item) :
    itemFormulas items = items.map meaning := by
  induction items with
  | nil => rfl
  | cons item rest ih =>
    obtain ⟨hitem, hrest⟩ := List.forall_mem_cons.mp h
    cases hitem with
    | mapping => rw [itemFormulas, ih hrest, List.map_cons, meaning]

/-- The truth of a group is that of its items, joined. -/
theorem eval_group {logic : Logic} {items : List Value}
    (h : ∀ item ∈ items, NonemptyFilter item) :
    (meaning (groupOf logic items)).eval db row =
      .joined logic (items.map fun item => (meaning item).eval db row) := by
  have hmeaning : meaning (groupOf logic items) = .join logic (itemFormulas items) := by
    rw [groupOf, meaning, entryFormulas_singleton, roleOf_logic]
    rfl
  rw [hmeaning, Formula.eval_join, itemFormulas_eq_map h, List.map_map]
  rfl

/-- A negation is accepted if what it negates is a filter with entries. -/
theorem accepted_negation : Accepted (.mapping [(.str "not", v)]) ↔ NonemptyFilter v := by
  have hentry : (∃ cs, conditions [(.str "not", v)] = .ok cs) ↔
      ∃ entries place parts, v = .mappingAt entries place ∧ entries ≠ [] ∧
        conditions entries = .ok parts := by
    rw [conditions_singleton]
    show (∃ cs, entryConditions .negation (.str "not") v = .ok cs) ↔ _
    simp only [entryConditions_negation]
    constructor
    · rintro ⟨_, entries, place, parts, hv, hne, hparts, -⟩
      exact ⟨entries, place, parts, hv, hne, hparts⟩
    · rintro ⟨entries, place, parts, hv, hne, hparts⟩
      exact ⟨_, entries, place, parts, hv, hne, hparts, rfl⟩
  rw [accepted_mapping, hentry]
  constructor
  · rintro ⟨entries, place, parts, rfl, hne, hparts⟩
    exact .mapping hne ((conditions_isOk entries).mp ⟨parts, hparts⟩)
  · rintro ⟨hne, each⟩
    obtain ⟨parts, hparts⟩ := (conditions_isOk _).mpr each
    exact ⟨_, _, parts, rfl, hne, hparts⟩

theorem eval_negation (h : NonemptyFilter v) :
    (meaning (.mapping [(.str "not", v)])).eval db row = ((meaning v).eval db row).not := by
  cases h with
  | @mapping entries place =>
    have hmeaning : meaning (.mapping [(.str "not", .mappingAt entries place)]) =
        .negation (meaning (.mappingAt entries place)) := rfl
    rw [hmeaning, Formula.eval_negation]

end RowMapper.Where
