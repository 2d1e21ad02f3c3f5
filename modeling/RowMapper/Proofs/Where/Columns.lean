import RowMapper.Proofs.Where.Composite

/-!
# The columns that a filter names

A column stands in a filter as a key, below any number of groups and negations (`Given`).  It gets
into the compiled text if its value restricts it: all that a column may be given does so, but for
the empty list of `in` or `notIn`, which is about no column any more (`Restricts`).
`mem_columns_conditions` says that there are no other ways for a column to get there.
-/
namespace RowMapper.Where

namespace Condition

mutual

/-- The columns that a condition names, in the order of its text. -/
def columns : Condition → List String
  | .compare column _ _ => [column]
  | .nullness column _ => [column]
  | .member column _ _ => [column]
  | .range column _ _ _ => [column]
  | .constant _ => []
  | .group _ entries => entriesColumns entries
  | .negation conjuncts => allColumns conjuncts

/-- The columns that conditions name. -/
def allColumns : List Condition → List String
  | [] => []
  | c :: rest => columns c ++ allColumns rest

/-- The columns that the entries of a group name. -/
def entriesColumns : List (List Condition) → List String
  | [] => []
  | entry :: rest => allColumns entry ++ entriesColumns rest

end

theorem allColumns_eq_flatMap (cs : List Condition) : allColumns cs = cs.flatMap columns := by
  induction cs with
  | nil => rfl
  | cons c rest ih => rw [allColumns, ih, List.flatMap_cons]

theorem entriesColumns_eq_flatMap (entries : List (List Condition)) :
    entriesColumns entries = entries.flatMap fun entry => entry.flatMap columns := by
  induction entries with
  | nil => rfl
  | cons entry rest ih => rw [entriesColumns, ih, allColumns_eq_flatMap, List.flatMap_cons]

theorem allColumns_append (cs ds : List Condition) :
    allColumns (cs ++ ds) = allColumns cs ++ allColumns ds := by
  simp only [allColumns_eq_flatMap, List.flatMap_append]

end Condition

/-! ## 1. Columns in a filter -/

/-- The value of a column asks something of it. -/
inductive Restricts : Value → Prop
  | single {v : Value} (h : ¬v.IsComposite) : Restricts v
  | operator {operators : Entries} {place : Place} {operator operand : Value} {op : Operator}
      (hmem : (operator, operand) ∈ operators) (named : op.IsNamedBy operator)
      (hop : op ≠ .negation) (hitems : operand.sequence? ≠ some []) :
      Restricts (.mappingAt operators place)
  | negation {operators : Entries} {place : Place} {operator operand : Value}
      (hmem : (operator, operand) ∈ operators) (named : Operator.negation.IsNamedBy operator)
      (h : Restricts operand) : Restricts (.mappingAt operators place)

/-- A column is given a value, at any depth of a filter. -/
inductive Given (column value : Value) : Value → Prop
  | here {entries : Entries} {place : Place} (hmem : (column, value) ∈ entries)
      (hrole : roleOf column = .column) : Given column value (.mappingAt entries place)
  | negation {entries : Entries} {place : Place} {key inner : Value} (hmem : (key, inner) ∈ entries)
      (hrole : roleOf key = .negation) (h : Given column value inner) :
      Given column value (.mappingAt entries place)
  | item {entries : Entries} {place : Place} {key group item : Value} {logic : Logic}
      {items : List Value} (hmem : (key, group) ∈ entries) (hrole : roleOf key = .join logic)
      (hitems : group.sequence? = some items) (hitem : item ∈ items)
      (h : Given column value item) : Given column value (.mappingAt entries place)

/-- The texts of the columns that are restricted in a filter. -/
def Restricted (filter : Value) (text : String) : Prop :=
  ∃ column value, Given column value filter ∧ Restricts value ∧ Sql.nameText column = text

variable {t : String}

theorem restricts_cons {operator operand : Value} {op : Operator} {rest : Entries} {place : Place}
    (named : op.IsNamedBy operator) : Restricts (.mappingAt ((operator, operand) :: rest) place) ↔
      (op ≠ .negation ∧ operand.sequence? ≠ some [] ∨ op = .negation ∧ Restricts operand) ∨
        Restricts (.mappingAt rest place) := by
  constructor
  · intro h
    cases h with
    | single h => exact absurd (.inl rfl) h
    | operator hmem hnamed hop hitems =>
      rcases List.mem_cons.mp hmem with heq | hmem
      · cases heq
        cases named.unique hnamed
        exact .inl (.inl ⟨hop, hitems⟩)
      · exact .inr (.operator hmem hnamed hop hitems)
    | negation hmem hnamed h =>
      rcases List.mem_cons.mp hmem with heq | hmem
      · cases heq
        exact .inl (.inr ⟨(named.unique hnamed).symm, h⟩)
      · exact .inr (.negation hmem hnamed h)
  · rintro ((⟨hop, hitems⟩ | ⟨rfl, h⟩) | h)
    · exact .operator List.mem_cons_self named hop hitems
    · exact .negation List.mem_cons_self named h
    · cases h with
      | single h => exact absurd (.inl rfl) h
      | operator hmem hnamed hop hitems =>
        exact .operator (List.mem_cons_of_mem _ hmem) hnamed hop hitems
      | negation hmem hnamed h => exact .negation (List.mem_cons_of_mem _ hmem) hnamed h

theorem not_restricts_nil {place : Place} : ¬Restricts (.mappingAt [] place) := by
  intro h
  cases h with
  | single h => exact absurd (.inl rfl) h
  | operator hmem => cases hmem
  | negation hmem => cases hmem

/-- The restricted columns of an entry, given the role of its key. -/
def RestrictedIn (key value : Value) (role : Role) (text : String) : Prop :=
  match role with
  | .column => text = Sql.nameText key ∧ Restricts value
  | .negation => Restricted value text
  | .join _ => ∃ item ∈ value.sequence?.getD [], Restricted item text

theorem restricted_cons {key value : Value} {rest : Entries} {place : Place} :
    Restricted (.mappingAt ((key, value) :: rest) place) t ↔
      RestrictedIn key value (roleOf key) t ∨ Restricted (.mappingAt rest place) t := by
  constructor
  · rintro ⟨column, given, h, hgiven, rfl⟩
    cases h with
    | here hmem hrole =>
      rcases List.mem_cons.mp hmem with heq | hmem
      · cases heq
        refine .inl ?_
        rw [hrole]
        exact ⟨rfl, hgiven⟩
      · exact .inr ⟨column, given, .here hmem hrole, hgiven, rfl⟩
    | negation hmem hrole h =>
      rcases List.mem_cons.mp hmem with heq | hmem
      · cases heq
        refine .inl ?_
        rw [hrole]
        exact ⟨column, given, h, hgiven, rfl⟩
      · exact .inr ⟨column, given, .negation hmem hrole h, hgiven, rfl⟩
    | item hmem hrole hitems hitem h =>
      rcases List.mem_cons.mp hmem with heq | hmem
      · cases heq
        refine .inl ?_
        rw [hrole, RestrictedIn, hitems]
        exact ⟨_, hitem, column, given, h, hgiven, rfl⟩
      · exact .inr ⟨column, given, .item hmem hrole hitems hitem h, hgiven, rfl⟩
  · rintro (h | ⟨column, given, h, hgiven, rfl⟩)
    · cases hrole : roleOf key with
      | column =>
        rw [hrole] at h
        obtain ⟨rfl, hvalue⟩ := h
        exact ⟨key, value, .here List.mem_cons_self hrole, hvalue, rfl⟩
      | negation =>
        rw [hrole] at h
        obtain ⟨column, given, h, hgiven, rfl⟩ := h
        exact ⟨column, given, .negation List.mem_cons_self hrole h, hgiven, rfl⟩
      | join logic =>
        rw [hrole] at h
        obtain ⟨item, hitem, column, given, h, hgiven, rfl⟩ := h
        cases hitems : value.sequence? with
        | none =>
          rw [hitems] at hitem
          cases hitem
        | some items =>
          rw [hitems] at hitem
          exact ⟨column, given, .item List.mem_cons_self hrole hitems hitem h, hgiven, rfl⟩
    · refine ⟨column, given, ?_, hgiven, rfl⟩
      cases h with
      | here hmem hrole => exact .here (List.mem_cons_of_mem _ hmem) hrole
      | negation hmem hrole h => exact .negation (List.mem_cons_of_mem _ hmem) hrole h
      | item hmem hrole hitems hitem h =>
        exact .item (List.mem_cons_of_mem _ hmem) hrole hitems hitem h

theorem not_restricted_nil {place : Place} : ¬Restricted (.mappingAt [] place) t := by
  rintro ⟨column, value, h, -, -⟩
  cases h <;> contradiction

/-! ## 2. Columns in the conditions -/

/-- An operator other than `not` gives a condition about the column, unless its list is empty. -/
theorem mem_columns_operatorEntry {key operand : Value} {column word : String} {op : Operator}
    {c : Condition} (hop : op ≠ .negation)
    (h : operatorEntry key column word op operand = .ok c) :
    t ∈ c.columns ↔ t = column ∧ operand.sequence? ≠ some [] := by
  cases op with
  | compare comparison =>
    rcases operatorEntry_compare.mp h with ⟨hscalar, rfl⟩ | ⟨rfl, -, rfl⟩ | ⟨rfl, -, rfl⟩
    · simp [Condition.columns, hscalar.notSequence]
    · simp [Condition.columns, Value.sequence?]
    · simp [Condition.columns, Value.sequence?]
  | member negated =>
    obtain ⟨operands, hoperands, rfl⟩ := operatorEntry_member.mp h
    rw [hoperands]
    cases operands <;> simp [Condition.columns]
  | range negated =>
    obtain ⟨low, high, hoperands, rfl⟩ := operatorEntry_range.mp h
    simp [Condition.columns, hoperands]
  | nullness negated =>
    obtain ⟨rfl, rfl⟩ := operatorEntry_nullness.mp h
    simp [Condition.columns, Value.sequence?]
  | join logic => exact absurd h operatorEntry_join
  | negation => exact absurd rfl hop

/-- The value of a column, from what is known of the operators in it. -/
theorem mem_columns_negatedColumn {key value : Value} {column : String} {cs : List Condition}
    (h : negatedColumn key column value = .ok cs)
    (ih : ∀ entries place, value = .mappingAt entries place →
      ∀ {cs}, operatorConditions key column entries = .ok cs →
        (t ∈ Condition.allColumns cs ↔ t = column ∧ Restricts (.mappingAt entries place))) :
    t ∈ Condition.allColumns cs ↔ t = column ∧ Restricts value := by
  rcases negatedColumn_eq_ok.mp h with ⟨entries, place, rfl, -, hentries⟩ | ⟨rfl, rfl⟩ | ⟨hv, rfl⟩
  · exact ih entries place rfl hentries
  · have hnull : Restricts .null := .single (isScalar_or_null_iff.mp (.inr rfl))
    simp [Condition.allColumns, Condition.columns, hnull]
  · have hsingle : Restricts value := .single (isScalar_or_null_iff.mp (.inl hv))
    simp [Condition.allColumns, Condition.columns, hsingle]

theorem mem_columns_operatorConditions {key : Value} {column : String} (entries : Entries) :
    ∀ (place : Place) {cs}, operatorConditions key column entries = .ok cs →
      (t ∈ Condition.allColumns cs ↔ t = column ∧ Restricts (.mappingAt entries place)) := by
  induction entries using entries_induction with
  | nil =>
    intro place cs h
    cases h
    exact iff_of_false List.not_mem_nil fun h => not_restricts_nil h.2
  | cons operator operand rest ihMapping _ ihRest =>
    intro place cs h
    obtain ⟨word, op, first, others, htext, hword, hfirst, hothers, rfl⟩ :=
      operatorConditions_cons.mp h
    rw [restricts_cons ⟨word, htext, hword⟩, Condition.allColumns, List.mem_append,
      ihRest place hothers, and_or_left]
    refine or_congr_left ?_
    by_cases hop : op = .negation
    · subst hop
      obtain ⟨parts, hparts, rfl⟩ := operatorEntry_negation.mp hfirst
      rw [Condition.columns, mem_columns_negatedColumn hparts fun entries place hvalue =>
        ihMapping entries place hvalue place]
      simp
    · rw [mem_columns_operatorEntry hop hfirst]
      simp [hop]

/-- The items of a group, from what is known of the mappings among them. -/
theorem mem_columns_groupConditions {logic : Logic} : ∀ {items : List Value}
    {parts : List (List Condition)}, groupConditions logic items = .ok parts →
    (∀ entries place, Value.mappingAt entries place ∈ items →
      ∀ {cs}, conditions entries = .ok cs →
        (t ∈ Condition.allColumns cs ↔ Restricted (.mappingAt entries place) t)) →
    (t ∈ Condition.entriesColumns parts ↔ ∃ item ∈ items, Restricted item t)
  | [], parts, h, _ => by
    cases h
    simp [Condition.entriesColumns]
  | item :: rest, parts, h, ih => by
    obtain ⟨first, others, hitem, hothers, rfl⟩ := groupConditions_cons.mp h
    obtain ⟨entries, place, rfl, -, hentries⟩ := itemConditions_eq_ok.mp hitem
    rw [Condition.entriesColumns, List.mem_append, ih entries place List.mem_cons_self hentries,
      mem_columns_groupConditions hothers fun entries place hmem =>
        ih entries place (List.mem_cons_of_mem _ hmem)]
    simp

/-- The conditions of a filter name exactly the columns that it restricts. -/
theorem mem_columns_conditions (entries : Entries) :
    ∀ (place : Place) {cs}, conditions entries = .ok cs →
      (t ∈ Condition.allColumns cs ↔ Restricted (.mappingAt entries place) t) := by
  induction entries using entries_induction with
  | nil =>
    intro place cs h
    cases h
    exact iff_of_false List.not_mem_nil not_restricted_nil
  | cons key value rest ihMapping ihItems ihRest =>
    intro place cs h
    obtain ⟨first, others, hfirst, hothers, rfl⟩ := conditions_cons.mp h
    rw [restricted_cons, Condition.allColumns_append, List.mem_append, ihRest place hothers]
    refine or_congr_left ?_
    cases hrole : roleOf key with
    | join logic =>
      rw [hrole] at hfirst
      obtain ⟨items, parts, hitems, -, hparts, rfl⟩ := entryConditions_join.mp hfirst
      rw [RestrictedIn, hitems, Option.getD_some, ← mem_columns_groupConditions hparts
        fun entries place hmem => ihItems items hitems entries place hmem place]
      simp [Condition.allColumns, Condition.columns]
    | negation =>
      rw [hrole] at hfirst
      obtain ⟨entries, inner, parts, rfl, -, hparts, rfl⟩ := entryConditions_negation.mp hfirst
      rw [RestrictedIn, ← ihMapping entries inner rfl inner hparts]
      simp [Condition.allColumns, Condition.columns]
    | column =>
      rw [hrole, entryConditions_column] at hfirst
      obtain ⟨column, hcolumn, hvalue⟩ := columnConditions_eq_ok.mp hfirst
      obtain ⟨-, -, rfl⟩ := safeName_eq_ok.mp hcolumn
      exact mem_columns_negatedColumn hvalue fun entries place _ =>
        mem_columns_operatorConditions entries place

end RowMapper.Where
