import RowMapper.Proofs.Outcome
import RowMapper.Where.Compile

/-!
# Accepted filters

When the entries of a filter are accepted, and which conditions they give.  There is one lemma for
each reading function, so that the theory of filters never opens these functions again.

`entries_induction` is the induction that all of it goes by: what holds of a mapping may rest on the
mappings right below an entry, which are its value or stand in the list that is its value.
-/
namespace RowMapper.Where

/-! ## 1. The shape of filters -/

/-- A value that can be bound: neither null nor a mapping nor a list. -/
structure IsScalar (v : Value) : Prop where
  notNull : v ≠ .null
  notMapping : ∀ entries place, v ≠ .mappingAt entries place
  notSequence : v.sequence? = none

theorem sizeOf_items_lt {v : Value} {items : List Value} (h : v.sequence? = some items) :
    sizeOf items < sizeOf v := by
  cases v <;> simp only [Value.sequence?, Option.some.injEq, reduceCtorEq] at h <;> subst h <;>
    simp <;> omega

@[elab_as_elim]
theorem entries_induction {motive : List (Value × Value) → Prop} (nil : motive [])
    (cons : ∀ key value rest,
      (∀ entries place, value = .mappingAt entries place → motive entries) →
      (∀ items, value.sequence? = some items →
        ∀ entries place, Value.mappingAt entries place ∈ items → motive entries) →
      motive rest → motive ((key, value) :: rest)) : ∀ entries, motive entries
  | [] => nil
  | (key, value) :: rest => by
    refine cons key value rest (fun entries place h => ?_) (fun items h entries place hmem => ?_) ?_
    · exact entries_induction nil cons entries
    · exact entries_induction nil cons entries
    · exact entries_induction nil cons rest
termination_by entries => sizeOf entries
decreasing_by
  · subst h
    simp only [List.cons.sizeOf_spec, Prod.mk.sizeOf_spec, Value.mappingAt.sizeOf_spec]
    omega
  · have hlt := List.sizeOf_lt_of_mem hmem
    have hitems := sizeOf_items_lt h
    simp only [Value.mappingAt.sizeOf_spec] at hlt
    simp only [List.cons.sizeOf_spec, Prod.mk.sizeOf_spec]
    omega
  · simp only [List.cons.sizeOf_spec]
    omega

/-! ## 2. Entries -/

theorem conditions_cons {key value : Value} {rest : List (Value × Value)} {cs : List Condition} :
    conditions ((key, value) :: rest) = .ok cs ↔
      ∃ first others, entryConditions (roleOf key) key value = .ok first ∧
        conditions rest = .ok others ∧ first ++ others = cs := by
  simp only [conditions, bind_eq_ok, pure_eq_ok]
  constructor
  · rintro ⟨first, hfirst, others, hothers, rfl⟩
    exact ⟨first, others, hfirst, hothers, rfl⟩
  · rintro ⟨first, others, hfirst, hothers, rfl⟩
    exact ⟨first, hfirst, others, hothers, rfl⟩

theorem roleOf_logic (logic : Logic) : roleOf (.str logic.name) = .join logic := by
  cases logic <;> rfl

/-- The value under `and` and `or` is a list with items. -/
theorem entryConditions_join {logic : Logic} {key value : Value} {cs : List Condition} :
    entryConditions (.join logic) key value = .ok cs ↔
      ∃ items parts, value.sequence? = some items ∧ items ≠ [] ∧
        groupConditions logic items = .ok parts ∧ cs = [.group logic parts] := by
  constructor
  · intro h
    cases value <;> simp only [entryConditions, reduceCtorEq] at h
    all_goals
      rename_i items place
      split at h
      · cases h
      · rename_i hne
        obtain ⟨parts, hparts, rfl⟩ := map_eq_ok.mp h
        exact ⟨items, parts, rfl, by simpa using hne, hparts, rfl⟩
  · rintro ⟨items, parts, hitems, hne, hparts, rfl⟩
    cases value <;> simp only [Value.sequence?, Option.some.injEq, reduceCtorEq] at hitems
    all_goals
      subst hitems
      simp [entryConditions, hne, hparts, Except.map]

/-- The value under `not` is a mapping with entries. -/
theorem entryConditions_negation {key value : Value} {cs : List Condition} :
    entryConditions .negation key value = .ok cs ↔
      ∃ entries place parts, value = .mappingAt entries place ∧ entries ≠ [] ∧
        conditions entries = .ok parts ∧ cs = [.negation parts] := by
  constructor
  · intro h
    cases value <;> simp only [entryConditions, reduceCtorEq] at h
    rename_i entries place
    split at h
    · cases h
    · rename_i hne
      obtain ⟨parts, hparts, rfl⟩ := map_eq_ok.mp h
      exact ⟨entries, place, parts, rfl, by simpa using hne, hparts, rfl⟩
  · rintro ⟨entries, place, parts, rfl, hne, hparts, rfl⟩
    simp [entryConditions, hne, hparts, Except.map]

theorem entryConditions_column (key value : Value) :
    entryConditions .column key value = columnConditions key value := by
  cases value <;> rfl

theorem groupConditions_cons {logic : Logic} {item : Value} {rest : List Value}
    {parts : List (List Condition)} :
    groupConditions logic (item :: rest) = .ok parts ↔
      ∃ first others, itemConditions logic item = .ok first ∧
        groupConditions logic rest = .ok others ∧ first :: others = parts := by
  simp only [groupConditions, bind_eq_ok, pure_eq_ok]
  constructor
  · rintro ⟨first, hfirst, others, hothers, rfl⟩
    exact ⟨first, others, hfirst, hothers, rfl⟩
  · rintro ⟨first, others, hfirst, hothers, rfl⟩
    exact ⟨first, hfirst, others, hothers, rfl⟩

/-- An item of a group is a mapping with entries. -/
theorem itemConditions_eq_ok {logic : Logic} {item : Value} {cs : List Condition} :
    itemConditions logic item = .ok cs ↔
      ∃ entries place, item = .mappingAt entries place ∧ entries ≠ [] ∧
        conditions entries = .ok cs := by
  constructor
  · intro h
    cases item <;> simp only [itemConditions, reduceCtorEq] at h
    rename_i entries place
    split at h
    · cases h
    · rename_i hne
      exact ⟨entries, place, rfl, by simpa using hne, h⟩
  · rintro ⟨entries, place, rfl, hne, h⟩
    simp [itemConditions, hne, h]

/-! ## 3. Columns -/

theorem safeName_eq_ok {key : Value} {column : String} :
    Sql.safeName key = .ok column ↔
      key.truthy = true ∧ Sql.isSafeName (Sql.nameText key).toList = true ∧
        column = Sql.nameText key := by
  unfold Sql.safeName
  by_cases h : (key.truthy && Sql.isSafeName (Sql.nameText key).toList) = true
  · simp only [h, if_true, Except.ok.injEq]
    rw [Bool.and_eq_true] at h
    exact ⟨fun hc => ⟨h.1, h.2, hc.symm⟩, fun hc => hc.2.2.symm⟩
  · simp only [h, if_false, reduceCtorEq, false_iff]
    rw [Bool.and_eq_true] at h
    exact fun hc => h ⟨hc.1, hc.2.1⟩

theorem safeName_eq_error {identifier : Value} {why : Rejection}
    (h : Sql.safeName identifier = .error why) : why = .unsafeIdentifier identifier := by
  unfold Sql.safeName at h
  dsimp only at h
  split at h <;> cases h
  rfl

theorem columnConditions_eq_ok {key value : Value} {cs : List Condition} :
    columnConditions key value = .ok cs ↔
      ∃ column, Sql.safeName key = .ok column ∧ negatedColumn key column value = .ok cs := by
  simp only [columnConditions, bind_eq_ok]

/-- The value of a column is a mapping of operators, null, or a scalar. -/
theorem negatedColumn_eq_ok {key value : Value} {column : String} {cs : List Condition} :
    negatedColumn key column value = .ok cs ↔
      (∃ entries place, value = .mappingAt entries place ∧ entries ≠ [] ∧
        operatorConditions key column entries = .ok cs) ∨
      (value = .null ∧ cs = [.nullness column false]) ∨
      (IsScalar value ∧ cs = [.compare column .eq value]) := by
  constructor
  · intro h
    cases value <;> simp only [negatedColumn, reduceCtorEq, Except.ok.injEq] at h
    case mappingAt entries place =>
      split at h
      · cases h
      · rename_i hne
        exact Or.inl ⟨entries, place, rfl, by simpa using hne, h⟩
    case null => exact Or.inr (Or.inl ⟨rfl, h.symm⟩)
    all_goals
      refine Or.inr (Or.inr ⟨⟨?_, ?_, rfl⟩, h.symm⟩)
      · simp
      · simp
  · rintro (⟨entries, place, rfl, hne, h⟩ | ⟨rfl, rfl⟩ | ⟨⟨hnull, hmapping, hsequence⟩, rfl⟩)
    · simp [negatedColumn, hne, h]
    · rfl
    · cases value <;> first
        | rfl
        | exact absurd rfl hnull
        | exact absurd rfl (hmapping _ _)
        | cases hsequence

theorem operatorOf_eq_ok {key operator : Value} {word : String} {op : Operator} :
    operatorOf key operator = .ok (word, op) ↔
      operator.text? = some word ∧ Operator.ofWord? word = some op := by
  constructor
  · intro h
    cases operator <;> simp only [operatorOf, reduceCtorEq] at h
    split at h
    · rename_i hword
      cases h
      exact ⟨rfl, hword⟩
    · cases h
  · rintro ⟨htext, hword⟩
    cases operator <;> simp only [Value.text?, Option.some.injEq, reduceCtorEq] at htext
    subst htext
    simp [operatorOf, hword]

/-- The one condition of an operator on a column. -/
def operatorEntry (key : Value) (column word : String) (op : Operator) (operand : Value) :
    Except Rejection Condition :=
  if op = .negation then (negatedColumn key column operand).map .negation
  else operatorCondition key column word op operand

theorem operatorConditions_eq_bind (key operator operand : Value) (column : String)
    (rest : List (Value × Value)) : operatorConditions key column ((operator, operand) :: rest) =
      operatorOf key operator >>= fun p => operatorEntry key column p.1 p.2 operand >>= fun first =>
        operatorConditions key column rest >>= fun others => pure (first :: others) := by
  rw [operatorConditions]
  congr 1
  funext ⟨word, op⟩
  cases op <;> rfl

theorem operatorConditions_cons {key operator operand : Value} {column : String}
    {rest : List (Value × Value)} {cs : List Condition} :
    operatorConditions key column ((operator, operand) :: rest) = .ok cs ↔
      ∃ word op first others, operator.text? = some word ∧ Operator.ofWord? word = some op ∧
        operatorEntry key column word op operand = .ok first ∧
        operatorConditions key column rest = .ok others ∧ first :: others = cs := by
  simp only [operatorConditions_eq_bind, bind_eq_ok, pure_eq_ok]
  constructor
  · rintro ⟨⟨word, op⟩, hoperator, first, hfirst, others, hothers, rfl⟩
    obtain ⟨htext, hword⟩ := operatorOf_eq_ok.mp hoperator
    exact ⟨word, op, first, others, htext, hword, hfirst, hothers, rfl⟩
  · rintro ⟨word, op, first, others, htext, hword, hfirst, hothers, rfl⟩
    exact ⟨(word, op), operatorOf_eq_ok.mpr ⟨htext, hword⟩, first, hfirst, others, hothers, rfl⟩

theorem operatorEntry_negation {key operand : Value} {column word : String} {c : Condition} :
    operatorEntry key column word .negation operand = .ok c ↔
      ∃ parts, negatedColumn key column operand = .ok parts ∧ .negation parts = c :=
  map_eq_ok

/-- A comparison takes a scalar; null can only be compared for equality. -/
theorem operatorEntry_compare {key operand : Value} {column word : String} {comparison : Comparison}
    {c : Condition} :
    operatorEntry key column word (.compare comparison) operand = .ok c ↔
      (IsScalar operand ∧ c = .compare column comparison operand) ∨
      (operand = .null ∧ comparison = .eq ∧ c = .nullness column false) ∨
      (operand = .null ∧ comparison = .ne ∧ c = .nullness column true) := by
  have hentry : operatorEntry key column word (.compare comparison) operand =
    operatorCondition key column word (.compare comparison) operand := rfl
  rw [hentry]
  constructor
  · intro h
    cases operand <;> simp only [operatorCondition, reduceCtorEq, Except.ok.injEq] at h
    case null => cases comparison <;> simp_all
    all_goals exact Or.inl ⟨⟨by simp, by simp, rfl⟩, h.symm⟩
  · rintro (⟨⟨hnull, hmapping, hsequence⟩, rfl⟩ | ⟨rfl, rfl, rfl⟩ | ⟨rfl, rfl, rfl⟩)
    · cases operand <;> first
        | rfl
        | exact absurd rfl hnull
        | exact absurd rfl (hmapping _ _)
        | cases hsequence
    · rfl
    · rfl

/-- Membership takes a list; nothing is in the empty one. -/
theorem operatorEntry_member {key operand : Value} {column word : String} {negated : Bool}
    {c : Condition} :
    operatorEntry key column word (.member negated) operand = .ok c ↔
      ∃ operands, operand.sequence? = some operands ∧
        c = if operands.isEmpty then .constant negated else .member column negated operands := by
  have hentry : operatorEntry key column word (.member negated) operand =
    operatorCondition key column word (.member negated) operand := rfl
  rw [hentry, operatorCondition]
  constructor
  · intro h
    cases hsequence : operand.sequence? with
    | none =>
      rw [hsequence] at h
      cases h
    | some operands =>
      rw [hsequence] at h
      refine ⟨operands, rfl, ?_⟩
      cases operands <;> exact (Except.ok.inj h).symm
  · rintro ⟨operands, hsequence, rfl⟩
    rw [hsequence]
    cases operands <;> rfl

/-- A range takes a list of two. -/
theorem operatorEntry_range {key operand : Value} {column word : String} {negated : Bool}
    {c : Condition} :
    operatorEntry key column word (.range negated) operand = .ok c ↔
      ∃ low high, operand.sequence? = some [low, high] ∧ c = .range column negated low high := by
  have hentry : operatorEntry key column word (.range negated) operand =
    operatorCondition key column word (.range negated) operand := rfl
  rw [hentry, operatorCondition]
  constructor
  · intro h
    split at h
    · rename_i low high hsequence
      exact ⟨low, high, hsequence, (Except.ok.inj h).symm⟩
    · cases h
  · rintro ⟨low, high, hsequence, rfl⟩
    rw [hsequence]

/-- A test for null takes the truth value itself. -/
theorem operatorEntry_nullness {key operand : Value} {column word : String} {negated : Bool}
    {c : Condition} :
    operatorEntry key column word (.nullness negated) operand = .ok c ↔
      operand = .bool true ∧ c = .nullness column negated := by
  have hentry : operatorEntry key column word (.nullness negated) operand =
    operatorCondition key column word (.nullness negated) operand := rfl
  constructor
  · intro h
    by_cases htrue : operand = .bool true
    · subst htrue
      cases h
      exact ⟨rfl, rfl⟩
    · rw [hentry, operatorCondition] at h
      · cases h
      · exact htrue
  · rintro ⟨rfl, rfl⟩
    rfl

/-- The logics are no operators on a column. -/
theorem operatorEntry_join {key operand : Value} {column word : String} {logic : Logic}
    {c : Condition} : operatorEntry key column word (.join logic) operand ≠ .ok c := by
  intro h
  cases h

/-! ## 4. Whole filters -/

theorem compile_mapping {entries : List (Value × Value)} {place : Place}
    {fragment : Sql.Fragment} :
    compile (.mappingAt entries place) = .ok fragment ↔
      ∃ cs, conditions entries = .ok cs ∧ fragment = compileConjunction cs := by
  cases entries with
  | nil =>
    constructor
    · intro h
      exact ⟨[], rfl, (Except.ok.inj h).symm⟩
    · rintro ⟨cs, hcs, rfl⟩
      cases hcs
      rfl
  | cons entry rest =>
    have hcompile : compile (.mappingAt (entry :: rest) place) =
      (conditions (entry :: rest)).map compileConjunction := rfl
    rw [hcompile, map_eq_ok]
    simp only [eq_comm]

/-- An accepted filter is a mapping, or it counts as false and says nothing. -/
theorem compile_eq_ok {filter : Value} {fragment : Sql.Fragment} :
    compile filter = .ok fragment ↔
      (filter.truthy = false ∧ filter.isMapping = false ∧ fragment = ⟨"", []⟩) ∨
      ∃ entries place cs, filter = .mappingAt entries place ∧ conditions entries = .ok cs ∧
        fragment = compileConjunction cs := by
  constructor
  · intro h
    cases filter with
    | mappingAt entries place =>
      obtain ⟨cs, hcs, hfragment⟩ := compile_mapping.mp h
      exact .inr ⟨entries, place, cs, rfl, hcs, hfragment⟩
    | _ =>
      unfold compile at h
      split at h
      · cases h
      · rename_i hfalse
        exact .inl ⟨by simpa using hfalse, rfl, (Except.ok.inj h).symm⟩
  · rintro (⟨hfalse, -, rfl⟩ | ⟨entries, place, cs, rfl, hcs, hfragment⟩)
    · simp [compile, hfalse]
    · exact compile_mapping.mpr ⟨cs, hcs, hfragment⟩

/-- The conditions that can be written: their columns are safe names, and no list that is put
between brackets is empty. -/
inductive Condition.WellFormed : Condition → Prop
  | compare {column comparison operand} (safe : Sql.isSafeName column.toList = true) :
      WellFormed (.compare column comparison operand)
  | nullness {column negated} (safe : Sql.isSafeName column.toList = true) :
      WellFormed (.nullness column negated)
  | member {column negated operands} (safe : Sql.isSafeName column.toList = true)
      (operands_ne : operands ≠ []) : WellFormed (.member column negated operands)
  | range {column negated low high} (safe : Sql.isSafeName column.toList = true) :
      WellFormed (.range column negated low high)
  | constant {holds} : WellFormed (.constant holds)
  | group {logic entries} (entries_ne : entries ≠ []) (entry_ne : ∀ entry ∈ entries, entry ≠ [])
      (inner : ∀ entry ∈ entries, ∀ c ∈ entry, WellFormed c) : WellFormed (.group logic entries)
  | negation {conjuncts} (conjuncts_ne : conjuncts ≠ []) (inner : ∀ c ∈ conjuncts, WellFormed c) :
      WellFormed (.negation conjuncts)

/-- Well-formed conditions, at least one of them if there are entries. -/
def WrittenFor (entries : List (Value × Value)) (cs : List Condition) : Prop :=
  (∀ c ∈ cs, c.WellFormed) ∧ (entries ≠ [] → cs ≠ [])

theorem operatorConditions_wellFormed {key : Value} {column : String}
    (safe : Sql.isSafeName column.toList = true) (entries : List (Value × Value)) :
    ∀ {cs}, operatorConditions key column entries = .ok cs → WrittenFor entries cs := by
  induction entries using entries_induction with
  | nil =>
    intro cs h
    cases h
    exact ⟨by simp, fun h => absurd rfl h⟩
  | cons operator operand rest ihMapping _ ihRest =>
    intro cs h
    obtain ⟨word, op, first, others, -, -, hfirst, hothers, rfl⟩ := operatorConditions_cons.mp h
    have hwf : first.WellFormed := by
      cases op with
      | compare comparison =>
        rcases operatorEntry_compare.mp hfirst with ⟨_, rfl⟩ | ⟨_, _, rfl⟩ | ⟨_, _, rfl⟩
        · exact .compare safe
        · exact .nullness safe
        · exact .nullness safe
      | member negated =>
        obtain ⟨operands, -, rfl⟩ := operatorEntry_member.mp hfirst
        cases operands with
        | nil => exact .constant
        | cons v vs => exact .member safe (by simp)
      | join logic => exact absurd hfirst operatorEntry_join
      | range negated =>
        obtain ⟨low, high, -, rfl⟩ := operatorEntry_range.mp hfirst
        exact .range safe
      | nullness negated =>
        obtain ⟨-, rfl⟩ := operatorEntry_nullness.mp hfirst
        exact .nullness safe
      | negation =>
        obtain ⟨parts, hparts, rfl⟩ := operatorEntry_negation.mp hfirst
        rcases negatedColumn_eq_ok.mp hparts with
          ⟨entries, place, rfl, hne, hentries⟩ | ⟨rfl, rfl⟩ | ⟨_, rfl⟩
        · obtain ⟨hall, hparts_ne⟩ := ihMapping entries place rfl hentries
          exact .negation (hparts_ne hne) hall
        · exact .negation (by simp) (by simpa using .nullness safe)
        · exact .negation (by simp) (by simpa using .compare safe)
    refine ⟨fun c hc => ?_, fun _ => by simp⟩
    rcases List.mem_cons.mp hc with rfl | hc
    · exact hwf
    · exact (ihRest hothers).1 c hc

theorem columnConditions_wellFormed {key value : Value} {cs : List Condition}
    (h : columnConditions key value = .ok cs) : (∀ c ∈ cs, c.WellFormed) ∧ cs ≠ [] := by
  obtain ⟨column, hcolumn, hvalue⟩ := columnConditions_eq_ok.mp h
  obtain ⟨-, safe, rfl⟩ := safeName_eq_ok.mp hcolumn
  rcases negatedColumn_eq_ok.mp hvalue with
    ⟨entries, place, rfl, hne, hentries⟩ | ⟨rfl, rfl⟩ | ⟨_, rfl⟩
  · obtain ⟨hall, hcs⟩ := operatorConditions_wellFormed safe entries hentries
    exact ⟨hall, hcs hne⟩
  · exact ⟨by simpa using .nullness safe, by simp⟩
  · exact ⟨by simpa using .compare safe, by simp⟩

theorem groupConditions_wellFormed {logic : Logic} : ∀ {items : List Value}
    {parts : List (List Condition)}, groupConditions logic items = .ok parts →
    (∀ entries place, Value.mappingAt entries place ∈ items →
      ∀ {cs}, conditions entries = .ok cs → WrittenFor entries cs) →
    (∀ part ∈ parts, part ≠ []) ∧ (∀ part ∈ parts, ∀ c ∈ part, c.WellFormed) ∧
      parts.length = items.length
  | [], parts, h, _ => by
    cases h
    simp
  | item :: rest, parts, h, ih => by
    obtain ⟨first, others, hitem, hothers, rfl⟩ := groupConditions_cons.mp h
    obtain ⟨entries, place, rfl, hne, hentries⟩ := itemConditions_eq_ok.mp hitem
    obtain ⟨hall, hfirst⟩ := ih entries place (by simp) hentries
    obtain ⟨hparts_ne, hparts_wf, hlength⟩ := groupConditions_wellFormed hothers
      (fun entries place hmem => ih entries place (List.mem_cons_of_mem _ hmem))
    refine ⟨?_, ?_, by simp [hlength]⟩
    · simpa using ⟨hfirst hne, hparts_ne⟩
    · simpa using ⟨hall, hparts_wf⟩

/-- What `conditions` reads can be written. -/
theorem conditions_wellFormed (entries : List (Value × Value)) :
    ∀ {cs}, conditions entries = .ok cs → WrittenFor entries cs := by
  induction entries using entries_induction with
  | nil =>
    intro cs h
    cases h
    exact ⟨by simp, fun h => absurd rfl h⟩
  | cons key value rest ihMapping ihItems ihRest =>
    intro cs h
    obtain ⟨first, others, hfirst, hothers, rfl⟩ := conditions_cons.mp h
    have hentry : (∀ c ∈ first, c.WellFormed) ∧ first ≠ [] := by
      cases hrole : roleOf key with
      | join logic =>
        rw [hrole] at hfirst
        obtain ⟨items, parts, hitems, hne, hparts, rfl⟩ := entryConditions_join.mp hfirst
        obtain ⟨hparts_ne, hparts_wf, hlength⟩ :=
          groupConditions_wellFormed hparts (ihItems items hitems)
        have hparts_nonempty : parts ≠ [] := by
          intro hnil
          rw [hnil] at hlength
          exact hne (List.eq_nil_of_length_eq_zero hlength.symm)
        exact ⟨by simpa using .group hparts_nonempty hparts_ne hparts_wf, by simp⟩
      | negation =>
        rw [hrole] at hfirst
        obtain ⟨entries, place, parts, rfl, hne, hparts, rfl⟩ :=
          entryConditions_negation.mp hfirst
        obtain ⟨hall, hparts_ne⟩ := ihMapping entries place rfl hparts
        exact ⟨by simpa using .negation (hparts_ne hne) hall, by simp⟩
      | column =>
        rw [hrole, entryConditions_column] at hfirst
        exact columnConditions_wellFormed hfirst
    refine ⟨fun c hc => ?_, fun _ => by simp [hentry.2]⟩
    rcases List.mem_append.mp hc with hc | hc
    · exact hentry.1 c hc
    · exact (ihRest hothers).1 c hc

end RowMapper.Where
