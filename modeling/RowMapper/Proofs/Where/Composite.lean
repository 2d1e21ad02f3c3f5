import RowMapper.Proofs.Where.Binding
import RowMapper.Proofs.Where.Grammar

/-!
# Composite values among the bound ones

A comparison takes no mapping, list or tuple, and neither does a column take a list or a tuple as
its value.  But the items of a list that `in`, `notIn`, `between` or `notBetween` takes are bound as
they are, whatever they may be.  `composite_is_bound_iff_listed` says that this is the one way in which a composite value
gets among the bound ones, at every depth of the filter.
-/
namespace RowMapper

/-- A mapping, a list or a tuple. -/
def Value.IsComposite (v : Value) : Prop := v.isMapping = true ∨ v.sequence?.isSome = true

namespace Where

variable {x v : Value}

/-- What can be compared with a column is exactly what is not composite. -/
theorem isScalar_or_null_iff : IsScalar v ∨ v = .null ↔ ¬v.IsComposite := by
  constructor
  · rintro (⟨-, hmapping, hsequence⟩ | rfl) (h | h)
    · cases v <;> first
        | exact absurd rfl (hmapping _ _)
        | cases h
    · rw [hsequence] at h
      cases h
    · cases h
    · cases h
  · intro h
    by_cases hnull : v = .null
    · exact .inr hnull
    · refine .inl ⟨hnull, ?_, ?_⟩
      · rintro entries place rfl
        exact h (.inl rfl)
      · cases hsequence : v.sequence? with
        | none => rfl
        | some items => exact absurd (.inr (by rw [hsequence]; rfl)) h

/-! ## 1. Lists in a filter -/

/-- The operator takes a list, and its items are bound one by one. -/
def Operator.TakesList : Operator → Prop
  | .member _ => True
  | .range _ => True
  | _ => False

/-- A value stands in a list that an operator takes, among the operators on a column. -/
inductive ListedOn (x : Value) : Value → Prop
  | list {operators : Entries} {place : Place} {operator operand : Value} {op : Operator}
      {items : List Value} (hmem : (operator, operand) ∈ operators) (named : op.IsNamedBy operator)
      (takes : op.TakesList) (hitems : operand.sequence? = some items) (hx : x ∈ items) :
      ListedOn x (.mappingAt operators place)
  | negation {operators : Entries} {place : Place} {operator operand : Value}
      (hmem : (operator, operand) ∈ operators) (named : Operator.negation.IsNamedBy operator)
      (h : ListedOn x operand) : ListedOn x (.mappingAt operators place)

/-- A value stands in a list that an operator takes, at any depth of a filter. -/
inductive Listed (x : Value) : Value → Prop
  | column {entries : Entries} {place : Place} {key value : Value} (hmem : (key, value) ∈ entries)
      (hrole : roleOf key = .column) (h : ListedOn x value) : Listed x (.mappingAt entries place)
  | negation {entries : Entries} {place : Place} {key value : Value} (hmem : (key, value) ∈ entries)
      (hrole : roleOf key = .negation) (h : Listed x value) : Listed x (.mappingAt entries place)
  | item {entries : Entries} {place : Place} {key value item : Value} {logic : Logic}
      {items : List Value} (hmem : (key, value) ∈ entries) (hrole : roleOf key = .join logic)
      (hitems : value.sequence? = some items) (hitem : item ∈ items) (h : Listed x item) :
      Listed x (.mappingAt entries place)

theorem listedOn_cons {operator operand : Value} {op : Operator} {rest : Entries} {place : Place}
    (named : op.IsNamedBy operator) :
    ListedOn x (.mappingAt ((operator, operand) :: rest) place) ↔
      (op.TakesList ∧ x ∈ operand.sequence?.getD [] ∨ op = .negation ∧ ListedOn x operand) ∨
        ListedOn x (.mappingAt rest place) := by
  constructor
  · intro h
    cases h with
    | list hmem hnamed takes hitems hx =>
      rcases List.mem_cons.mp hmem with heq | hmem
      · cases heq
        cases named.unique hnamed
        exact .inl (.inl ⟨takes, by rwa [hitems]⟩)
      · exact .inr (.list hmem hnamed takes hitems hx)
    | negation hmem hnamed h =>
      rcases List.mem_cons.mp hmem with heq | hmem
      · cases heq
        exact .inl (.inr ⟨(named.unique hnamed).symm, h⟩)
      · exact .inr (.negation hmem hnamed h)
  · rintro ((⟨takes, hx⟩ | ⟨rfl, h⟩) | h)
    · cases hitems : operand.sequence? with
      | none =>
        rw [hitems] at hx
        cases hx
      | some items =>
        rw [hitems] at hx
        exact .list List.mem_cons_self named takes hitems hx
    · exact .negation List.mem_cons_self named h
    · cases h with
      | list hmem hnamed takes hitems hx =>
        exact .list (List.mem_cons_of_mem _ hmem) hnamed takes hitems hx
      | negation hmem hnamed h => exact .negation (List.mem_cons_of_mem _ hmem) hnamed h

/-- A value stands in a list in the value of an entry, given the role of the key. -/
def ListedIn (x : Value) (role : Role) (value : Value) : Prop :=
  match role with
  | .column => ListedOn x value
  | .negation => Listed x value
  | .join _ => ∃ item ∈ value.sequence?.getD [], Listed x item

theorem listed_cons {key value : Value} {rest : Entries} {place : Place} :
    Listed x (.mappingAt ((key, value) :: rest) place) ↔
      ListedIn x (roleOf key) value ∨ Listed x (.mappingAt rest place) := by
  constructor
  · intro h
    cases h with
    | column hmem hrole h =>
      rcases List.mem_cons.mp hmem with heq | hmem
      · cases heq
        exact .inl (by rwa [hrole])
      · exact .inr (.column hmem hrole h)
    | negation hmem hrole h =>
      rcases List.mem_cons.mp hmem with heq | hmem
      · cases heq
        exact .inl (by rwa [hrole])
      · exact .inr (.negation hmem hrole h)
    | item hmem hrole hitems hitem h =>
      rcases List.mem_cons.mp hmem with heq | hmem
      · cases heq
        refine .inl ?_
        rw [hrole, ListedIn, hitems]
        exact ⟨_, hitem, h⟩
      · exact .inr (.item hmem hrole hitems hitem h)
  · rintro (h | h)
    · cases hrole : roleOf key with
      | column =>
        rw [hrole] at h
        exact .column List.mem_cons_self hrole h
      | negation =>
        rw [hrole] at h
        exact .negation List.mem_cons_self hrole h
      | join logic =>
        rw [hrole] at h
        obtain ⟨item, hitem, h⟩ := h
        cases hitems : value.sequence? with
        | none =>
          rw [hitems] at hitem
          cases hitem
        | some items =>
          rw [hitems] at hitem
          exact .item List.mem_cons_self hrole hitems hitem h
    · cases h with
      | column hmem hrole h => exact .column (List.mem_cons_of_mem _ hmem) hrole h
      | negation hmem hrole h => exact .negation (List.mem_cons_of_mem _ hmem) hrole h
      | item hmem hrole hitems hitem h =>
        exact .item (List.mem_cons_of_mem _ hmem) hrole hitems hitem h

/-! ## 2. What is bound -/

theorem not_mem_of_isScalar (hx : x.IsComposite) (hv : IsScalar v) : x ∉ [v] := by
  intro h
  cases List.mem_singleton.mp h
  exact isScalar_or_null_iff.mp (.inl hv) hx

/-- An operator other than `not` binds a composite value only out of a list. -/
theorem mem_params_operatorEntry {key operand : Value} {column word : String} {op : Operator}
    {c : Condition} (hx : x.IsComposite) (hop : op ≠ .negation)
    (h : operatorEntry key column word op operand = .ok c) :
    x ∈ c.params ↔ op.TakesList ∧ x ∈ operand.sequence?.getD [] := by
  cases op with
  | compare comparison =>
    have hnone : x ∉ c.params := by
      rcases operatorEntry_compare.mp h with ⟨hscalar, rfl⟩ | ⟨-, -, rfl⟩ | ⟨-, -, rfl⟩
      · exact not_mem_of_isScalar hx hscalar
      · exact List.not_mem_nil
      · exact List.not_mem_nil
    exact iff_of_false hnone fun h => h.1
  | member negated =>
    obtain ⟨operands, hoperands, rfl⟩ := operatorEntry_member.mp h
    rw [hoperands]
    cases operands <;> simp [Condition.params, Operator.TakesList]
  | range negated =>
    obtain ⟨low, high, hoperands, rfl⟩ := operatorEntry_range.mp h
    rw [hoperands]
    simp [Condition.params, Operator.TakesList]
  | nullness negated =>
    obtain ⟨-, rfl⟩ := operatorEntry_nullness.mp h
    exact iff_of_false List.not_mem_nil fun h => h.1
  | join logic => exact absurd h operatorEntry_join
  | negation => exact absurd rfl hop

/-- The value of a column, from what is known of the operators in it. -/
theorem mem_params_negatedColumn {key value : Value} {column : String} {cs : List Condition}
    (hx : x.IsComposite) (h : negatedColumn key column value = .ok cs)
    (ih : ∀ entries place, value = .mappingAt entries place →
      ∀ {cs}, operatorConditions key column entries = .ok cs →
        (x ∈ Condition.allParams cs ↔ ListedOn x (.mappingAt entries place))) :
    x ∈ Condition.allParams cs ↔ ListedOn x value := by
  rcases negatedColumn_eq_ok.mp h with ⟨entries, place, rfl, -, hentries⟩ | ⟨rfl, rfl⟩ | ⟨hv, rfl⟩
  · exact ih entries place rfl hentries
  · exact iff_of_false List.not_mem_nil nofun
  · refine iff_of_false (not_mem_of_isScalar hx hv) fun h => ?_
    cases h with
    | list => exact hv.notMapping _ _ rfl
    | negation => exact hv.notMapping _ _ rfl

theorem mem_params_operatorConditions {key : Value} {column : String} (hx : x.IsComposite)
    (entries : Entries) : ∀ (place : Place) {cs}, operatorConditions key column entries = .ok cs →
      (x ∈ Condition.allParams cs ↔ ListedOn x (.mappingAt entries place)) := by
  induction entries using entries_induction with
  | nil =>
    intro place cs h
    cases h
    refine iff_of_false List.not_mem_nil fun h => ?_
    cases h <;> contradiction
  | cons operator operand rest ihMapping _ ihRest =>
    intro place cs h
    obtain ⟨word, op, first, others, htext, hword, hfirst, hothers, rfl⟩ :=
      operatorConditions_cons.mp h
    rw [listedOn_cons ⟨word, htext, hword⟩, Condition.allParams, List.mem_append,
      ihRest place hothers]
    refine or_congr_left ?_
    by_cases hop : op = .negation
    · subst hop
      obtain ⟨parts, hparts, rfl⟩ := operatorEntry_negation.mp hfirst
      rw [Condition.params, mem_params_negatedColumn hx hparts fun entries place hvalue =>
        ihMapping entries place hvalue place]
      simp [Operator.TakesList]
    · rw [mem_params_operatorEntry hx hop hfirst]
      simp [hop]

/-- The items of a group, from what is known of the mappings among them. -/
theorem mem_params_groupConditions {logic : Logic} : ∀ {items : List Value}
    {parts : List (List Condition)}, groupConditions logic items = .ok parts →
    (∀ entries place, Value.mappingAt entries place ∈ items →
      ∀ {cs}, conditions entries = .ok cs →
        (x ∈ Condition.allParams cs ↔ Listed x (.mappingAt entries place))) →
    (x ∈ Condition.entriesParams parts ↔ ∃ item ∈ items, Listed x item)
  | [], parts, h, _ => by
    cases h
    simp [Condition.entriesParams]
  | item :: rest, parts, h, ih => by
    obtain ⟨first, others, hitem, hothers, rfl⟩ := groupConditions_cons.mp h
    obtain ⟨entries, place, rfl, -, hentries⟩ := itemConditions_eq_ok.mp hitem
    rw [Condition.entriesParams, List.mem_append, ih entries place List.mem_cons_self hentries,
      mem_params_groupConditions hothers fun entries place hmem =>
        ih entries place (List.mem_cons_of_mem _ hmem)]
    simp

/-- The entries of a filter bind exactly the composite values that stand in their lists. -/
theorem mem_params_conditions (hx : x.IsComposite) (entries : Entries) :
    ∀ (place : Place) {cs}, conditions entries = .ok cs →
      (x ∈ Condition.allParams cs ↔ Listed x (.mappingAt entries place)) := by
  induction entries using entries_induction with
  | nil =>
    intro place cs h
    cases h
    refine iff_of_false List.not_mem_nil fun h => ?_
    cases h <;> contradiction
  | cons key value rest ihMapping ihItems ihRest =>
    intro place cs h
    obtain ⟨first, others, hfirst, hothers, rfl⟩ := conditions_cons.mp h
    rw [listed_cons, allParams_append, List.mem_append, ihRest place hothers]
    refine or_congr_left ?_
    cases hrole : roleOf key with
    | join logic =>
      rw [hrole] at hfirst
      obtain ⟨items, parts, hitems, -, hparts, rfl⟩ := entryConditions_join.mp hfirst
      rw [ListedIn, hitems, Option.getD_some, ← mem_params_groupConditions hparts
        fun entries place hmem => ihItems items hitems entries place hmem place]
      simp [Condition.allParams, Condition.params]
    | negation =>
      rw [hrole] at hfirst
      obtain ⟨entries, inner, parts, rfl, -, hparts, rfl⟩ := entryConditions_negation.mp hfirst
      rw [ListedIn, ← ihMapping entries inner rfl inner hparts]
      simp [Condition.allParams, Condition.params]
    | column =>
      rw [hrole, entryConditions_column] at hfirst
      obtain ⟨column, -, hvalue⟩ := columnConditions_eq_ok.mp hfirst
      exact mem_params_negatedColumn hx hvalue fun entries place _ =>
        mem_params_operatorConditions hx entries place

/-- **Only single values are bound, but for the items of lists.**  A mapping, a list or a tuple is
bound by an accepted filter if and only if it is an item of a list that `in`, `notIn`, `between` or
`notBetween` takes, at any depth. -/
theorem composite_is_bound_iff_listed (v : Value) (fragment : Sql.Fragment)
    (h : compile v = .ok fragment) (x : Value) (hx : x.IsComposite) :
    x ∈ fragment.params ↔ Listed x v := by
  rcases compile_eq_ok.mp h with ⟨-, hmapping, rfl⟩ | ⟨entries, place, cs, rfl, hcs, rfl⟩
  · refine iff_of_false List.not_mem_nil fun h => ?_
    cases h <;> cases hmapping
  · exact mem_params_conditions hx entries place hcs

/-- A tuple in a list below `or` and `not` is bound beside the single values. -/
theorem tuple_in_range_is_bound :
    let pair : Value := .tuple [.int 1, .int 2]
    let filter : Value := .mapping [(.str "or", .list [
      .mapping [(.str "name", .str "A")],
      .mapping [(.str "price", .mapping [(.str "not", .mapping [
        (.str "between", .list [pair, .int 3])])])]])]
    let fragment : Sql.Fragment :=
      ⟨"(\"name\" = ? OR NOT (\"price\" BETWEEN ? AND ?))", [.str "A", pair, .int 3]⟩
    compile filter = .ok fragment ∧ pair.IsComposite ∧ pair ∈ fragment.params ∧
      Listed pair filter := by
  intro pair filter fragment
  have h : compile filter = .ok fragment := rfl
  have hpair : pair.IsComposite := .inr rfl
  have hmem : pair ∈ fragment.params := by simp [fragment]
  exact ⟨h, hpair, hmem, (composite_is_bound_iff_listed filter fragment h pair hpair).mp hmem⟩

/-- A list is refused as the operand of `eq`, and bound as an item of the list that `in` takes. -/
theorem list_in_list_is_bound :
    let sizes : Value := .list [.str "S"]
    let listed : Value := .mapping [(.str "size", .mapping [(.str "in", .list [sizes])])]
    let compared : Value := .mapping [(.str "size", .mapping [(.str "eq", sizes)])]
    sizes.IsComposite ∧ compile listed = .ok ⟨"\"size\" IN (?)", [sizes]⟩ ∧
      compile compared = .error (.notSingle "eq" (.str "size") sizes) :=
  ⟨.inr rfl, rfl, rfl⟩

end Where
end RowMapper
