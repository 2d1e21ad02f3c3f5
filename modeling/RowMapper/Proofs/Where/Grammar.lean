import RowMapper.Proofs.Where.Acceptance

/-!
# The grammar of filters

Which values are filters is said twice: by the reading functions, which stop at the first entry they
do not know, and by a grammar, which says what a filter looks like at every depth.  `compile_isOk`
says that the two agree.

The reading functions are total and the grammar is a family of predicates, so both directions go by
`entries_induction`: the entries of a mapping are read if each of them is in the grammar, given that
this is so of the mappings right below them.
-/
namespace RowMapper.Where

/-! ## 1. The grammar -/

/-- What stands after an operator on a column, for all operators but `not`. -/
def Operator.Takes : Operator → Value → Prop
  | .compare comparison, v => IsScalar v ∨ v = .null ∧ (comparison = .eq ∨ comparison = .ne)
  | .member _, v => ∃ items, v.sequence? = some items
  | .range _, v => ∃ low high, v.sequence? = some [low, high]
  | .nullness _, v => v = .bool true
  | .join _, _ => False
  | .negation, _ => False

/-- The value is the word of an operator. -/
def Operator.IsNamedBy (op : Operator) (v : Value) : Prop :=
  ∃ word, v.text? = some word ∧ Operator.ofWord? word = some op

/-- A word names one operator. -/
theorem Operator.IsNamedBy.unique {op other : Operator} {v : Value} (h : op.IsNamedBy v)
    (hother : other.IsNamedBy v) : other = op := by
  obtain ⟨word, htext, hword⟩ := h
  obtain ⟨word', htext', hword'⟩ := hother
  cases htext.symm.trans htext'
  exact Option.some.inj (hword'.symm.trans hword)

/-- The words that are no columns. -/
def reservedWords : List String := [Logic.all.name, Logic.any.name, "not"]

mutual

/-- The values of a column. -/
inductive ColumnValue : Value → Prop
  | null : ColumnValue .null
  | scalar {v : Value} (isScalar : IsScalar v) : ColumnValue v
  | operators {entries : Entries} {place : Place} (nonempty : entries ≠ [])
      (each : ∀ operator operand, (operator, operand) ∈ entries → OperatorEntry operator operand) :
      ColumnValue (.mappingAt entries place)

/-- An operator and its operand; `not` takes any value that the column takes. -/
inductive OperatorEntry : Value → Value → Prop
  | plain {operator operand : Value} (op : Operator) (named : op.IsNamedBy operator)
      (shape : op.Takes operand) : OperatorEntry operator operand
  | negation {operator operand : Value} (named : Operator.negation.IsNamedBy operator)
      (value : ColumnValue operand) : OperatorEntry operator operand

end

mutual

/-- Filters with entries. -/
inductive NonemptyFilter : Value → Prop
  | mapping {entries : Entries} {place : Place} (nonempty : entries ≠ [])
      (each : ∀ key value, (key, value) ∈ entries → FilterEntry key value) :
      NonemptyFilter (.mappingAt entries place)

/-- A key of a filter and what stands under it. -/
inductive FilterEntry : Value → Value → Prop
  | join {key value : Value} {items : List Value} (logic : Logic)
      (named : key.text? = some logic.name) (isSequence : value.sequence? = some items)
      (nonempty : items ≠ []) (each : ∀ item ∈ items, NonemptyFilter item) : FilterEntry key value
  | negation {key value : Value} (named : key.text? = some "not") (inner : NonemptyFilter value) :
      FilterEntry key value
  | column {key value : Value} {quoted : String}
      (free : ∀ word ∈ reservedWords, key.text? ≠ some word)
      (safe : Sql.quoteIdentifier key = .ok quoted) (inner : ColumnValue value) :
      FilterEntry key value

end

/-- Filters: what counts as false says nothing, and everything else has entries. -/
def IsFilter (v : Value) : Prop := v.truthy = false ∨ NonemptyFilter v

/-! ## 2. Columns -/

/-- Every entry of the mapping is an operator with its operand. -/
def AllOperators (entries : Entries) : Prop :=
  ∀ operator operand, (operator, operand) ∈ entries → OperatorEntry operator operand

theorem operatorEntry_isOk_of_ne {op : Operator} (hop : op ≠ .negation) (key : Value)
    (column word : String) (operand : Value) :
    (∃ c, operatorEntry key column word op operand = .ok c) ↔ op.Takes operand := by
  cases op with
  | compare comparison =>
    simp only [operatorEntry_compare, Operator.Takes]
    constructor
    · rintro ⟨c, ⟨hscalar, -⟩ | ⟨hnull, heq, -⟩ | ⟨hnull, hne, -⟩⟩
      · exact .inl hscalar
      · exact .inr ⟨hnull, .inl heq⟩
      · exact .inr ⟨hnull, .inr hne⟩
    · rintro (hscalar | ⟨hnull, heq | hne⟩)
      · exact ⟨_, .inl ⟨hscalar, rfl⟩⟩
      · exact ⟨_, .inr (.inl ⟨hnull, heq, rfl⟩)⟩
      · exact ⟨_, .inr (.inr ⟨hnull, hne, rfl⟩)⟩
  | member negated =>
    simp only [operatorEntry_member, Operator.Takes]
    exact ⟨fun ⟨_, items, hitems, _⟩ => ⟨items, hitems⟩,
      fun ⟨items, hitems⟩ => ⟨_, items, hitems, rfl⟩⟩
  | join logic => exact ⟨fun ⟨_, h⟩ => operatorEntry_join h, False.elim⟩
  | range negated =>
    simp only [operatorEntry_range, Operator.Takes]
    exact ⟨fun ⟨_, low, high, hitems, _⟩ => ⟨low, high, hitems⟩,
      fun ⟨low, high, hitems⟩ => ⟨_, low, high, hitems, rfl⟩⟩
  | nullness negated =>
    simp only [operatorEntry_nullness, Operator.Takes]
    exact ⟨fun ⟨_, htrue, _⟩ => htrue, fun htrue => ⟨_, htrue, rfl⟩⟩
  | negation => exact absurd rfl hop

/-- A word names one operator, so an entry is either plain or a negation. -/
theorem operatorEntry_iff {operator operand : Value} {op : Operator}
    (named : op.IsNamedBy operator) : OperatorEntry operator operand ↔
      if op = .negation then ColumnValue operand else op.Takes operand := by
  constructor
  · intro h
    cases h with
    | plain other hother shape =>
      cases named.unique hother
      rw [if_neg]
      · exact shape
      · rintro rfl
        exact shape
    | negation hother value => rwa [if_pos (named.unique hother).symm]
  · intro h
    split at h
    · subst op
      exact .negation named h
    · exact .plain op named h

/-- The value of a column is read if the operators in it are. -/
theorem negatedColumn_isOk_of (key : Value) (column : String) {value : Value}
    (ih : ∀ entries place, value = .mappingAt entries place →
      ((∃ cs, operatorConditions key column entries = .ok cs) ↔ AllOperators entries)) :
    (∃ cs, negatedColumn key column value = .ok cs) ↔ ColumnValue value := by
  simp only [negatedColumn_eq_ok]
  constructor
  · rintro ⟨cs, ⟨entries, place, rfl, hne, hentries⟩ | ⟨rfl, -⟩ | ⟨hscalar, -⟩⟩
    · exact .operators hne ((ih entries place rfl).mp ⟨cs, hentries⟩)
    · exact .null
    · exact .scalar hscalar
  · intro h
    cases h with
    | null => exact ⟨_, .inr (.inl ⟨rfl, rfl⟩)⟩
    | scalar hscalar => exact ⟨_, .inr (.inr ⟨hscalar, rfl⟩)⟩
    | operators hne each =>
      obtain ⟨cs, hentries⟩ := (ih _ _ rfl).mpr each
      exact ⟨cs, .inl ⟨_, _, rfl, hne, hentries⟩⟩

theorem operatorConditions_isOk (key : Value) (column : String) (entries : Entries) :
    (∃ cs, operatorConditions key column entries = .ok cs) ↔ AllOperators entries := by
  induction entries using entries_induction with
  | nil => exact ⟨fun _ _ _ h => (nomatch h), fun _ => ⟨[], rfl⟩⟩
  | cons operator operand rest ihMapping _ ihRest =>
    have hfirst {word : String} {op : Operator} (named : op.IsNamedBy operator) :
        (∃ c, operatorEntry key column word op operand = .ok c) ↔
          OperatorEntry operator operand := by
      rw [operatorEntry_iff named]
      by_cases hop : op = .negation
      · subst op
        rw [if_pos rfl, ← negatedColumn_isOk_of key column ihMapping]
        simp only [operatorEntry_negation]
        exact ⟨fun ⟨_, cs, h, _⟩ => ⟨cs, h⟩, fun ⟨cs, h⟩ => ⟨_, cs, h, rfl⟩⟩
      · rw [if_neg hop, operatorEntry_isOk_of_ne hop]
    simp only [operatorConditions_cons]
    constructor
    · rintro ⟨cs, word, op, first, others, htext, hword, hentry, hothers, -⟩ key' value' hmem
      rcases List.mem_cons.mp hmem with heq | hmem
      · cases heq
        exact (hfirst ⟨word, htext, hword⟩).mp ⟨first, hentry⟩
      · exact ihRest.mp ⟨others, hothers⟩ _ _ hmem
    · intro h
      have hentry := h operator operand (by simp)
      obtain ⟨op, word, htext, hword⟩ : ∃ op : Operator, op.IsNamedBy operator := by
        cases hentry with
        | plain op named _ => exact ⟨op, named⟩
        | negation named _ => exact ⟨_, named⟩
      obtain ⟨first, hfirst⟩ := (hfirst ⟨word, htext, hword⟩).mpr hentry
      obtain ⟨others, hothers⟩ := ihRest.mpr fun _ _ hmem => h _ _ (List.mem_cons_of_mem _ hmem)
      exact ⟨_, word, op, first, others, htext, hword, hfirst, hothers, rfl⟩

theorem columnConditions_isOk (key value : Value) :
    (∃ cs, columnConditions key value = .ok cs) ↔
      (∃ quoted, Sql.quoteIdentifier key = .ok quoted) ∧ ColumnValue value := by
  have hvalue (column : String) :
      (∃ cs, negatedColumn key column value = .ok cs) ↔ ColumnValue value :=
    negatedColumn_isOk_of key column fun entries _ _ => operatorConditions_isOk key column entries
  simp only [columnConditions_eq_ok, Sql.quoteIdentifier, map_eq_ok]
  constructor
  · rintro ⟨cs, column, hcolumn, hcs⟩
    exact ⟨⟨_, column, hcolumn, rfl⟩, (hvalue column).mp ⟨cs, hcs⟩⟩
  · rintro ⟨⟨_, column, hcolumn, -⟩, h⟩
    obtain ⟨cs, hcs⟩ := (hvalue column).mpr h
    exact ⟨cs, column, hcolumn, hcs⟩

/-! ## 3. Filters -/

theorem roleOf_eq_join {key : Value} {logic : Logic} :
    roleOf key = .join logic ↔ key.text? = some logic.name := by
  unfold roleOf
  split
  · cases logic <;> simp [Value.text?, Logic.name]
  · cases logic <;> simp [Value.text?, Logic.name]
  · cases logic <;> simp [Value.text?, Logic.name]
  · cases key <;> cases logic <;> simp_all [Value.text?, Logic.name]

theorem roleOf_eq_negation {key : Value} : roleOf key = .negation ↔ key.text? = some "not" := by
  unfold roleOf
  split
  · simp [Value.text?]
  · simp [Value.text?]
  · simp [Value.text?]
  · cases key <;> simp_all [Value.text?]

theorem roleOf_eq_column {key : Value} :
    roleOf key = .column ↔ ∀ word ∈ reservedWords, key.text? ≠ some word := by
  simp only [reservedWords, List.forall_mem_cons, ne_eq, ← roleOf_eq_join, ← roleOf_eq_negation]
  cases roleOf key with
  | join logic => cases logic <;> simp
  | negation => simp
  | column => simp

/-- Every entry of the mapping is one of a filter. -/
def AllEntries (entries : Entries) : Prop :=
  ∀ key value, (key, value) ∈ entries → FilterEntry key value

/-- The items of a group are read if the entries of the mappings among them are. -/
theorem groupConditions_isOk_of (logic : Logic) : ∀ items : List Value,
    (∀ entries place, Value.mappingAt entries place ∈ items →
      ((∃ cs, conditions entries = .ok cs) ↔ AllEntries entries)) →
    ((∃ parts, groupConditions logic items = .ok parts) ↔ ∀ item ∈ items, NonemptyFilter item)
  | [], _ => ⟨fun _ _ h => (nomatch h), fun _ => ⟨[], rfl⟩⟩
  | item :: rest, ih => by
    have hrest := groupConditions_isOk_of logic rest
      fun entries place hmem => ih entries place (List.mem_cons_of_mem _ hmem)
    have hitem : (∃ cs, itemConditions logic item = .ok cs) ↔ NonemptyFilter item := by
      simp only [itemConditions_eq_ok]
      constructor
      · rintro ⟨cs, entries, place, rfl, hne, hcs⟩
        exact .mapping hne ((ih entries place (by simp)).mp ⟨cs, hcs⟩)
      · intro h
        cases h with
        | mapping hne each =>
          rename_i entries place
          obtain ⟨cs, hcs⟩ := (ih entries place (by simp)).mpr each
          exact ⟨cs, entries, place, rfl, hne, hcs⟩
    rw [List.forall_mem_cons, ← hitem, ← hrest]
    simp only [groupConditions_cons]
    constructor
    · rintro ⟨parts, first, others, hfirst, hothers, -⟩
      exact ⟨⟨first, hfirst⟩, others, hothers⟩
    · rintro ⟨⟨first, hfirst⟩, others, hothers⟩
      exact ⟨_, first, others, hfirst, hothers, rfl⟩

/-- The entries of a filter are read if and only if each of them is in the grammar. -/
theorem conditions_isOk (entries : Entries) :
    (∃ cs, conditions entries = .ok cs) ↔ AllEntries entries := by
  induction entries using entries_induction with
  | nil => exact ⟨fun _ _ _ h => (nomatch h), fun _ => ⟨[], rfl⟩⟩
  | cons key value rest ihMapping ihItems ihRest =>
    have hentry : (∃ cs, entryConditions (roleOf key) key value = .ok cs) ↔
        FilterEntry key value := by
      constructor
      · rintro ⟨cs, h⟩
        cases hrole : roleOf key with
        | join logic =>
          rw [hrole] at h
          obtain ⟨items, parts, hitems, hne, hparts, -⟩ := entryConditions_join.mp h
          exact .join logic (roleOf_eq_join.mp hrole) hitems hne
            ((groupConditions_isOk_of logic items (ihItems items hitems)).mp ⟨parts, hparts⟩)
        | negation =>
          rw [hrole] at h
          obtain ⟨entries, place, parts, rfl, hne, hparts, -⟩ := entryConditions_negation.mp h
          exact .negation (roleOf_eq_negation.mp hrole)
            (.mapping hne ((ihMapping entries place rfl).mp ⟨parts, hparts⟩))
        | column =>
          rw [hrole, entryConditions_column] at h
          obtain ⟨⟨quoted, hquoted⟩, hvalue⟩ := (columnConditions_isOk key value).mp ⟨cs, h⟩
          exact .column (roleOf_eq_column.mp hrole) hquoted hvalue
      · intro h
        cases h with
        | join logic named hitems hne each =>
          obtain ⟨parts, hparts⟩ :=
            (groupConditions_isOk_of logic _ (ihItems _ hitems)).mpr each
          rw [roleOf_eq_join.mpr named]
          exact ⟨_, entryConditions_join.mpr ⟨_, parts, hitems, hne, hparts, rfl⟩⟩
        | negation named inner =>
          cases inner with
          | mapping hne each =>
            obtain ⟨parts, hparts⟩ := (ihMapping _ _ rfl).mpr each
            rw [roleOf_eq_negation.mpr named]
            exact ⟨_, entryConditions_negation.mpr ⟨_, _, parts, rfl, hne, hparts, rfl⟩⟩
        | column free safe inner =>
          rw [roleOf_eq_column.mpr free, entryConditions_column]
          exact (columnConditions_isOk key value).mpr ⟨⟨_, safe⟩, inner⟩
    simp only [conditions_cons]
    constructor
    · rintro ⟨cs, first, others, hfirst, hothers, -⟩ key' value' hmem
      rcases List.mem_cons.mp hmem with heq | hmem
      · cases heq
        exact hentry.mp ⟨first, hfirst⟩
      · exact ihRest.mp ⟨others, hothers⟩ _ _ hmem
    · intro h
      obtain ⟨first, hfirst⟩ := hentry.mpr (h key value (by simp))
      obtain ⟨others, hothers⟩ := ihRest.mpr fun _ _ hmem => h _ _ (List.mem_cons_of_mem _ hmem)
      exact ⟨_, first, others, hfirst, hothers, rfl⟩

/-- A value is compiled if and only if it is a filter. -/
theorem compile_isOk (v : Value) : (∃ fragment, compile v = .ok fragment) ↔ IsFilter v := by
  simp only [compile_eq_ok, IsFilter]
  constructor
  · rintro ⟨fragment, ⟨hfalse, -, -⟩ | ⟨entries, place, cs, rfl, hcs, -⟩⟩
    · exact .inl hfalse
    · cases entries with
      | nil => exact .inl rfl
      | cons entry rest => exact .inr (.mapping (by simp) ((conditions_isOk _).mp ⟨cs, hcs⟩))
  · rintro (hfalse | hfilter)
    · by_cases hmapping : ∃ entries place, v = .mappingAt entries place
      · obtain ⟨entries, place, rfl⟩ := hmapping
        have hnil : entries = [] := by simpa [Value.truthy] using hfalse
        subst hnil
        exact ⟨_, .inr ⟨[], place, [], rfl, rfl, rfl⟩⟩
      · have hnot : v.isMapping = false := by
          cases v <;> first
            | rfl
            | exact absurd ⟨_, _, rfl⟩ hmapping
        exact ⟨_, .inl ⟨hfalse, hnot, rfl⟩⟩
    · cases hfilter with
      | mapping hne each =>
        obtain ⟨cs, hcs⟩ := (conditions_isOk _).mpr each
        exact ⟨_, .inr ⟨_, _, cs, rfl, hcs, rfl⟩⟩

/-- What is read from an item of a group is never empty. -/
theorem itemConditions_ne_nil {logic : Logic} {item : Value} {cs : List Condition}
    (h : itemConditions logic item = .ok cs) : cs ≠ [] := by
  obtain ⟨entries, place, rfl, hne, hcs⟩ := itemConditions_eq_ok.mp h
  exact (conditions_wellFormed entries hcs).2 hne

end RowMapper.Where
