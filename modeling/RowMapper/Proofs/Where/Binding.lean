import RowMapper.Proofs.Where.Reading
import RowMapper.Sql.Statement

/-!
# Bound values and the text

The leaves of a filter are the values that are bound in it, in the order of their marks: the value
of a column, the operand of a comparison, the elements of a list, the bounds of a range.  A
`Rebinding` has new scalars for some of the leaves.

`compile_rebind` compares two runs of the compiler, with the old and with the new leaves.  Both
accept, both write the same text, and the parameters differ where the leaves do; and so it is with
the statements of the two fragments.  No bound value gets into the text of a statement.
-/
namespace RowMapper.Where

/-! ## 1. Leaves -/

/-- The leaves of the operand of an operator that is not `not`. -/
def operandLeaves : Operator → Value → List Value
  | .compare _, .null => []
  | .compare _, operand => [operand]
  | .member _, operand => operand.sequence?.getD []
  | .range _, operand => operand.sequence?.getD []
  | _, _ => []

mutual

/-- The leaves of the operators on a column. -/
def operatorLeaves : List (Value × Value) → List Value
  | [] => []
  | (operator, operand) :: rest =>
    (match operator.text?.bind Operator.ofWord? with
      | some .negation => columnLeaves operand
      | some op => operandLeaves op operand
      | none => []) ++ operatorLeaves rest

/-- The leaves of the value of a column. -/
def columnLeaves : Value → List Value
  | .mappingAt operators _ => operatorLeaves operators
  | .null => []
  | v => [v]

end

mutual

/-- The leaves of the entries of a mapping. -/
def entryLeaves : List (Value × Value) → List Value
  | [] => []
  | (key, value) :: rest => roleLeaves (roleOf key) value ++ entryLeaves rest

/-- The leaves of the value of an entry, given the role of its key. -/
def roleLeaves (role : Role) : Value → List Value
  | .mappingAt entries place =>
    match role with
    | .join _ => []
    | .negation => entryLeaves entries
    | .column => columnLeaves (.mappingAt entries place)
  | .listAt items place =>
    match role with
    | .join _ => itemLeaves items
    | .negation => []
    | .column => columnLeaves (.listAt items place)
  | .tupleAt items place =>
    match role with
    | .join _ => itemLeaves items
    | .negation => []
    | .column => columnLeaves (.tupleAt items place)
  | v =>
    match role with
    | .column => columnLeaves v
    | _ => []

/-- The leaves of the items of a group. -/
def itemLeaves : List Value → List Value
  | [] => []
  | .mappingAt entries _ :: rest => entryLeaves entries ++ itemLeaves rest
  | _ :: rest => itemLeaves rest

end

/-- The leaves of a filter. -/
def leaves : Value → List Value
  | .mappingAt entries _ => entryLeaves entries
  | _ => []

/-! ## 2. Other values for the leaves -/

/-- New values for the leaves at some positions; all of them are scalars. -/
structure Rebinding where
  value? : Nat → Option Value
  scalar : ∀ i v, value? i = some v → IsScalar v

namespace Rebinding

/-- The value for a position, which is the old one if there is no new one. -/
def pick (r : Rebinding) (i : Nat) (old : Value) : Value := (r.value? i).getD old

/-- The values of a list, with the new ones at their positions. -/
def apply (r : Rebinding) (vs : List Value) : List Value := vs.mapIdx r.pick

/-- A new value for one position. -/
def single (position : Nat) (v : Value) (h : IsScalar v) : Rebinding where
  value? i := if i = position then some v else none
  scalar i w hw := by
    split at hw
    · cases hw
      exact h
    · cases hw

/-- What is left of a rebinding behind so many leaves. -/
def after (r : Rebinding) (n : Nat) : Rebinding where
  value? i := r.value? (i + n)
  scalar i := r.scalar (i + n)

theorem apply_append (r : Rebinding) (vs ws : List Value) :
    r.apply (vs ++ ws) = r.apply vs ++ (r.after vs.length).apply ws :=
  List.mapIdx_append

theorem isEmpty_apply (r : Rebinding) (vs : List Value) : (r.apply vs).isEmpty = vs.isEmpty := by
  cases vs <;> simp [apply, List.mapIdx_cons]

theorem pick_scalar (r : Rebinding) (i : Nat) {v : Value} (h : IsScalar v) :
    IsScalar (r.pick i v) := by
  cases hnew : r.value? i with
  | none => simpa [pick, hnew] using h
  | some new => simpa [pick, hnew] using r.scalar i new hnew

end Rebinding

/-- The elements of a list or a tuple rebound. -/
def rebindSequence (r : Rebinding) : Value → Value
  | .listAt items place => .listAt (r.apply items) place
  | .tupleAt items place => .tupleAt (r.apply items) place
  | v => v

/-- The operand of an operator that is not `not`, with its leaves rebound. -/
def rebindOperand (r : Rebinding) : Operator → Value → Value
  | .compare _, .null => .null
  | .compare _, operand => r.pick 0 operand
  | .member _, operand => rebindSequence r operand
  | .range _, operand => rebindSequence r operand
  | _, operand => operand

mutual

/-- The operators on a column with their leaves rebound. -/
def rebindOperators (r : Rebinding) : List (Value × Value) → List (Value × Value)
  | [] => []
  | (operator, operand) :: rest =>
    (operator,
      match operator.text?.bind Operator.ofWord? with
      | some .negation => rebindColumn r operand
      | some op => rebindOperand r op operand
      | none => operand) ::
    rebindOperators (r.after (operatorLeaves [(operator, operand)]).length) rest

/-- The value of a column with its leaves rebound. -/
def rebindColumn (r : Rebinding) : Value → Value
  | .mappingAt operators place => .mappingAt (rebindOperators r operators) place
  | .null => .null
  | v => r.pick 0 v

end

mutual

/-- The entries of a mapping with their leaves rebound. -/
def rebindEntries (r : Rebinding) : List (Value × Value) → List (Value × Value)
  | [] => []
  | (key, value) :: rest =>
    (key, rebindRole r (roleOf key) value) ::
      rebindEntries (r.after (roleLeaves (roleOf key) value).length) rest

/-- The value of an entry with its leaves rebound, given the role of its key. -/
def rebindRole (r : Rebinding) (role : Role) : Value → Value
  | .mappingAt entries place =>
    match role with
    | .join _ => .mappingAt entries place
    | .negation => .mappingAt (rebindEntries r entries) place
    | .column => rebindColumn r (.mappingAt entries place)
  | .listAt items place =>
    match role with
    | .join _ => .listAt (rebindItems r items) place
    | .negation => .listAt items place
    | .column => rebindColumn r (.listAt items place)
  | .tupleAt items place =>
    match role with
    | .join _ => .tupleAt (rebindItems r items) place
    | .negation => .tupleAt items place
    | .column => rebindColumn r (.tupleAt items place)
  | v =>
    match role with
    | .column => rebindColumn r v
    | _ => v

/-- The items of a group with their leaves rebound. -/
def rebindItems (r : Rebinding) : List Value → List Value
  | [] => []
  | .mappingAt entries place :: rest =>
    .mappingAt (rebindEntries r entries) place ::
      rebindItems (r.after (entryLeaves entries).length) rest
  | item :: rest => item :: rebindItems r rest

end

/-- A filter with its leaves rebound. -/
def rebind (r : Rebinding) : Value → Value
  | .mappingAt entries place => .mappingAt (rebindEntries r entries) place
  | v => v

/-! ## 3. The leaves are the parameters -/

/-- The conditions that a part of a filter gives have the given leaves as their parameters. -/
theorem operandLeaves_eq {key operand : Value} {column word : String} {op : Operator}
    {c : Condition} (hop : op ≠ .negation) (h : operatorEntry key column word op operand = .ok c) :
    operandLeaves op operand = c.params := by
  cases op with
  | compare comparison =>
    rcases operatorEntry_compare.mp h with ⟨hscalar, rfl⟩ | ⟨rfl, _, rfl⟩ | ⟨rfl, _, rfl⟩
    · cases operand <;> first
        | rfl
        | exact absurd rfl hscalar.notNull
    · rfl
    · rfl
  | member negated =>
    obtain ⟨operands, hoperands, rfl⟩ := operatorEntry_member.mp h
    rw [operandLeaves, hoperands]
    cases operands <;> rfl
  | range negated =>
    obtain ⟨low, high, hoperands, rfl⟩ := operatorEntry_range.mp h
    rw [operandLeaves, hoperands]
    rfl
  | nullness negated =>
    obtain ⟨-, rfl⟩ := operatorEntry_nullness.mp h
    rfl
  | join logic => exact absurd h operatorEntry_join
  | negation => exact absurd rfl hop

/-- The leaves of one operator are those of its operand. -/
theorem operatorLeaves_cons {operator operand : Value} {word : String} {op : Operator}
    (rest : List (Value × Value)) (htext : operator.text? = some word)
    (hword : Operator.ofWord? word = some op) :
    operatorLeaves ((operator, operand) :: rest) =
      (if op = .negation then columnLeaves operand else operandLeaves op operand) ++
        operatorLeaves rest := by
  have hop : operator.text?.bind Operator.ofWord? = some op := by rw [htext]; exact hword
  rw [operatorLeaves, hop]
  cases op <;> rfl

theorem columnLeaves_of_scalar {v : Value} (h : IsScalar v) : columnLeaves v = [v] := by
  cases v <;> first
    | rfl
    | exact absurd rfl h.notNull
    | exact absurd rfl (h.notMapping _ _)

theorem operatorLeaves_eq {key : Value} {column : String} (entries : List (Value × Value)) :
    ∀ {cs}, operatorConditions key column entries = .ok cs →
      operatorLeaves entries = Condition.allParams cs := by
  induction entries using entries_induction with
  | nil =>
    intro cs h
    cases h
    rfl
  | cons operator operand rest ihMapping _ ihRest =>
    intro cs h
    obtain ⟨word, op, first, others, htext, hword, hfirst, hothers, rfl⟩ :=
      operatorConditions_cons.mp h
    rw [operatorLeaves_cons rest htext hword, ihRest hothers, Condition.allParams]
    congr 1
    by_cases hop : op = .negation
    · subst hop
      obtain ⟨parts, hparts, rfl⟩ := operatorEntry_negation.mp hfirst
      rw [if_pos rfl, Condition.params]
      rcases negatedColumn_eq_ok.mp hparts with
        ⟨entries, place, rfl, _, hentries⟩ | ⟨rfl, rfl⟩ | ⟨hscalar, rfl⟩
      · exact ihMapping entries place rfl hentries
      · rfl
      · exact columnLeaves_of_scalar hscalar
    · rw [if_neg hop]
      exact operandLeaves_eq hop hfirst

theorem columnLeaves_eq {key value : Value} {column : String} {cs : List Condition}
    (h : negatedColumn key column value = .ok cs) :
    columnLeaves value = Condition.allParams cs := by
  rcases negatedColumn_eq_ok.mp h with
    ⟨entries, place, rfl, _, hentries⟩ | ⟨rfl, rfl⟩ | ⟨hscalar, rfl⟩
  · exact operatorLeaves_eq entries hentries
  · rfl
  · exact columnLeaves_of_scalar hscalar

theorem roleLeaves_column (value : Value) : roleLeaves .column value = columnLeaves value := by
  cases value <;> rfl

theorem roleLeaves_join {logic : Logic} {value : Value} {items : List Value}
    (h : value.sequence? = some items) : roleLeaves (.join logic) value = itemLeaves items := by
  cases value <;> simp only [Value.sequence?, Option.some.injEq, reduceCtorEq] at h <;> subst h <;>
    rfl

theorem itemLeaves_eq {logic : Logic} : ∀ {items : List Value} {parts : List (List Condition)},
    groupConditions logic items = .ok parts →
    (∀ entries place, Value.mappingAt entries place ∈ items →
      ∀ {cs}, conditions entries = .ok cs → entryLeaves entries = Condition.allParams cs) →
    itemLeaves items = Condition.entriesParams parts
  | [], parts, h, _ => by
    cases h
    rfl
  | item :: rest, parts, h, ih => by
    obtain ⟨first, others, hitem, hothers, rfl⟩ := groupConditions_cons.mp h
    obtain ⟨entries, place, rfl, _, hentries⟩ := itemConditions_eq_ok.mp hitem
    rw [itemLeaves, Condition.entriesParams, ih entries place (by simp) hentries]
    rw [itemLeaves_eq hothers
      (fun entries place hmem => ih entries place (List.mem_cons_of_mem _ hmem))]

theorem allParams_append (cs ds : List Condition) :
    Condition.allParams (cs ++ ds) = Condition.allParams cs ++ Condition.allParams ds := by
  simp only [Condition.allParams_eq_flatMap, List.flatMap_append]

/-- The leaves of an entry, from what is known of the mappings below it. -/
theorem roleLeaves_eq {key value : Value} {cs : List Condition}
    (h : entryConditions (roleOf key) key value = .ok cs)
    (ihMapping : ∀ entries place, value = .mappingAt entries place →
      ∀ {cs}, conditions entries = .ok cs → entryLeaves entries = Condition.allParams cs)
    (ihItems : ∀ items, value.sequence? = some items →
      ∀ entries place, Value.mappingAt entries place ∈ items →
        ∀ {cs}, conditions entries = .ok cs → entryLeaves entries = Condition.allParams cs) :
    roleLeaves (roleOf key) value = Condition.allParams cs := by
  cases hrole : roleOf key with
  | join logic =>
    rw [hrole] at h
    obtain ⟨items, parts, hitems, -, hparts, rfl⟩ := entryConditions_join.mp h
    rw [roleLeaves_join hitems, itemLeaves_eq hparts (ihItems items hitems)]
    simp [Condition.allParams, Condition.params]
  | negation =>
    rw [hrole] at h
    obtain ⟨entries, place, parts, rfl, -, hparts, rfl⟩ := entryConditions_negation.mp h
    rw [roleLeaves, ihMapping entries place rfl hparts]
    simp [Condition.allParams, Condition.params]
  | column =>
    rw [hrole, entryConditions_column] at h
    obtain ⟨column, -, hvalue⟩ := columnConditions_eq_ok.mp h
    rw [roleLeaves_column]
    exact columnLeaves_eq hvalue

/-- The leaves of a mapping are the parameters of its conditions. -/
theorem entryLeaves_eq (entries : List (Value × Value)) :
    ∀ {cs}, conditions entries = .ok cs → entryLeaves entries = Condition.allParams cs := by
  induction entries using entries_induction with
  | nil =>
    intro cs h
    cases h
    rfl
  | cons key value rest ihMapping ihItems ihRest =>
    intro cs h
    obtain ⟨first, others, hfirst, hothers, rfl⟩ := conditions_cons.mp h
    rw [entryLeaves, roleLeaves_eq hfirst ihMapping ihItems, ihRest hothers, allParams_append]

/-! ## 4. Rebound filters are accepted -/

/-- Conditions that are written like others, with the parameters rebound. -/
structure Rebound (r : Rebinding) (cs ds : List Condition) : Prop where
  sql : ds.map Condition.sql = cs.map Condition.sql
  params : Condition.allParams ds = r.apply (Condition.allParams cs)

theorem Rebound.nil (r : Rebinding) : Rebound r [] [] := ⟨rfl, rfl⟩

theorem Rebound.append {r : Rebinding} {cs cs' ds ds' : List Condition} (h : Rebound r cs ds)
    (h' : Rebound (r.after (Condition.allParams cs).length) cs' ds') :
    Rebound r (cs ++ cs') (ds ++ ds') where
  sql := by rw [List.map_append, List.map_append, h.sql, h'.sql]
  params := by rw [allParams_append, allParams_append, r.apply_append, h.params, h'.params]

theorem Rebound.negation {r : Rebinding} {cs ds : List Condition} (h : Rebound r cs ds) :
    Rebound r [.negation cs] [.negation ds] where
  sql := by
    simp only [List.map_singleton, Condition.sql, Condition.allSql_eq_map, h.sql]
  params := by
    simpa [Condition.allParams, Condition.params] using h.params

theorem rebound_compare (r : Rebinding) (column : String) (comparison : Comparison) (v : Value) :
    Rebound r [.compare column comparison v] [.compare column comparison (r.pick 0 v)] := ⟨rfl, rfl⟩

theorem sequence?_rebindSequence (r : Rebinding) {v : Value} {items : List Value}
    (h : v.sequence? = some items) : (rebindSequence r v).sequence? = some (r.apply items) := by
  cases v <;> simp only [Value.sequence?, Option.some.injEq, reduceCtorEq] at h <;> subst h <;> rfl

theorem rebound_member (r : Rebinding) (column : String) (negated : Bool) (operands : List Value) :
    Rebound r [.member column negated operands] [.member column negated (r.apply operands)] where
  sql := by
    have hmarks : (r.apply operands).map (fun _ => "?") = operands.map fun _ => "?" := by
      simp [Rebinding.apply, List.map_const']
    simp only [List.map_singleton, Condition.sql, hmarks]
  params := by simp [Condition.allParams, Condition.params]

theorem operatorEntry_rebind (r : Rebinding) {key operand : Value} {column word : String}
    {op : Operator} {c : Condition} (hop : op ≠ .negation)
    (h : operatorEntry key column word op operand = .ok c) :
    ∃ d, operatorEntry key column word op (rebindOperand r op operand) = .ok d ∧
      Rebound r [c] [d] := by
  cases op with
  | compare comparison =>
    rcases operatorEntry_compare.mp h with ⟨hscalar, rfl⟩ | ⟨rfl, rfl, rfl⟩ | ⟨rfl, rfl, rfl⟩
    · have hoperand : rebindOperand r (.compare comparison) operand = r.pick 0 operand := by
        cases operand <;> first
          | rfl
          | exact absurd rfl hscalar.notNull
      rw [hoperand]
      exact ⟨_, operatorEntry_compare.mpr (.inl ⟨r.pick_scalar 0 hscalar, rfl⟩),
        rebound_compare r column comparison operand⟩
    · exact ⟨_, rfl, rfl, rfl⟩
    · exact ⟨_, rfl, rfl, rfl⟩
  | member negated =>
    obtain ⟨operands, hoperands, rfl⟩ := operatorEntry_member.mp h
    refine ⟨_, operatorEntry_member.mpr ⟨_, sequence?_rebindSequence r hoperands, rfl⟩, ?_⟩
    rw [r.isEmpty_apply]
    cases operands with
    | nil => exact ⟨rfl, rfl⟩
    | cons v vs => exact rebound_member r column negated (v :: vs)
  | range negated =>
    obtain ⟨low, high, hoperands, rfl⟩ := operatorEntry_range.mp h
    exact ⟨_, operatorEntry_range.mpr ⟨_, _, sequence?_rebindSequence r hoperands, rfl⟩, rfl, rfl⟩
  | nullness negated =>
    obtain ⟨rfl, rfl⟩ := operatorEntry_nullness.mp h
    exact ⟨_, h, rfl, rfl⟩
  | join logic => exact absurd h operatorEntry_join
  | negation => exact absurd rfl hop

theorem rebindColumn_of_scalar (r : Rebinding) {v : Value} (h : IsScalar v) :
    rebindColumn r v = r.pick 0 v := by
  cases v <;> first
    | rfl
    | exact absurd rfl h.notNull
    | exact absurd rfl (h.notMapping _ _)

theorem rebindOperators_cons (r : Rebinding) {operator operand : Value} {word : String}
    {op : Operator} (rest : List (Value × Value)) (htext : operator.text? = some word)
    (hword : Operator.ofWord? word = some op) :
    rebindOperators r ((operator, operand) :: rest) =
      (operator, if op = .negation then rebindColumn r operand else rebindOperand r op operand) ::
        rebindOperators (r.after (operatorLeaves [(operator, operand)]).length) rest := by
  have hop : operator.text?.bind Operator.ofWord? = some op := by rw [htext]; exact hword
  rw [rebindOperators, hop]
  cases op <;> rfl

theorem rebindOperators_ne_nil (r : Rebinding) {entries : List (Value × Value)} (h : entries ≠ []) :
    rebindOperators r entries ≠ [] := by
  cases entries with
  | nil => exact absurd rfl h
  | cons entry rest =>
    rw [rebindOperators]
    simp

/-- The value of a column, from what is known of the operators in it. -/
theorem negatedColumn_rebind (r : Rebinding) {key value : Value} {column : String}
    {cs : List Condition} (h : negatedColumn key column value = .ok cs)
    (ih : ∀ entries place, value = .mappingAt entries place →
      ∀ {cs}, operatorConditions key column entries = .ok cs →
        ∃ ds, operatorConditions key column (rebindOperators r entries) = .ok ds ∧
          Rebound r cs ds) :
    ∃ ds, negatedColumn key column (rebindColumn r value) = .ok ds ∧ Rebound r cs ds := by
  rcases negatedColumn_eq_ok.mp h with
    ⟨entries, place, rfl, hne, hentries⟩ | ⟨rfl, rfl⟩ | ⟨hscalar, rfl⟩
  · obtain ⟨ds, hds, hrebound⟩ := ih entries place rfl hentries
    have hne' := rebindOperators_ne_nil r hne
    exact ⟨ds, negatedColumn_eq_ok.mpr (.inl ⟨_, place, rfl, hne', hds⟩), hrebound⟩
  · exact ⟨_, rfl, rfl, rfl⟩
  · rw [rebindColumn_of_scalar r hscalar]
    exact ⟨_, negatedColumn_eq_ok.mpr (.inr (.inr ⟨r.pick_scalar 0 hscalar, rfl⟩)),
      rebound_compare r column .eq value⟩

theorem operatorConditions_rebind {key : Value} {column : String} (entries : List (Value × Value)) :
    ∀ (r : Rebinding) {cs}, operatorConditions key column entries = .ok cs →
      ∃ ds, operatorConditions key column (rebindOperators r entries) = .ok ds ∧
        Rebound r cs ds := by
  induction entries using entries_induction with
  | nil =>
    intro r cs h
    cases h
    exact ⟨[], rfl, .nil r⟩
  | cons operator operand rest ihMapping _ ihRest =>
    intro r cs h
    obtain ⟨word, op, first, others, htext, hword, hfirst, hothers, rfl⟩ :=
      operatorConditions_cons.mp h
    have hleaves : operatorLeaves [(operator, operand)] = Condition.allParams [first] :=
      operatorLeaves_eq [(operator, operand)] (operatorConditions_cons.mpr
        ⟨word, op, first, [], htext, hword, hfirst, rfl, rfl⟩)
    have hnew : ∃ d, operatorEntry key column word op
        (if op = .negation then rebindColumn r operand else rebindOperand r op operand) = .ok d ∧
        Rebound r [first] [d] := by
      by_cases hop : op = .negation
      · subst hop
        obtain ⟨parts, hparts, rfl⟩ := operatorEntry_negation.mp hfirst
        obtain ⟨ds, hds, hrebound⟩ := negatedColumn_rebind r hparts
          (fun entries place hvalue => ihMapping entries place hvalue r)
        exact ⟨_, operatorEntry_negation.mpr ⟨ds, hds, rfl⟩, hrebound.negation⟩
      · rw [if_neg hop]
        exact operatorEntry_rebind r hop hfirst
    -- the operators behind this one count their leaves from behind its own
    obtain ⟨d, hd, hrebound⟩ := hnew
    obtain ⟨ds, hds, hrest⟩ := ihRest (r.after (Condition.allParams [first]).length) hothers
    refine ⟨d :: ds, ?_, hrebound.append hrest⟩
    rw [rebindOperators_cons r rest htext hword, hleaves]
    exact operatorConditions_cons.mpr ⟨word, op, d, ds, htext, hword, hd, hds, rfl⟩

theorem rebindRole_column (r : Rebinding) (value : Value) :
    rebindRole r .column value = rebindColumn r value := by
  cases value <;> rfl

theorem sequence?_rebindRole (r : Rebinding) {logic : Logic} {value : Value} {items : List Value}
    (h : value.sequence? = some items) :
    (rebindRole r (.join logic) value).sequence? = some (rebindItems r items) := by
  cases value <;> simp only [Value.sequence?, Option.some.injEq, reduceCtorEq] at h <;> subst h <;>
    rfl

theorem rebindEntries_ne_nil (r : Rebinding) {entries : List (Value × Value)} (h : entries ≠ []) :
    rebindEntries r entries ≠ [] := by
  cases entries with
  | nil => exact absurd rfl h
  | cons entry rest =>
    rw [rebindEntries]
    simp

theorem rebindItems_ne_nil (r : Rebinding) {items : List Value} (h : items ≠ []) :
    rebindItems r items ≠ [] := by
  match items, h with
  | item :: rest, _ => cases item <;> simp [rebindItems]

/-- That the conditions of a mapping can be rebound, whatever the new values are. -/
def CanRebind (entries : List (Value × Value)) : Prop :=
  ∀ (r : Rebinding) {cs}, conditions entries = .ok cs →
    ∃ ds, conditions (rebindEntries r entries) = .ok ds ∧ Rebound r cs ds

/-- The entries of a group, from what is known of the mappings among its items. -/
theorem groupConditions_rebind {logic : Logic} : ∀ (r : Rebinding) {items : List Value}
    {parts : List (List Condition)}, groupConditions logic items = .ok parts →
    (∀ entries place, Value.mappingAt entries place ∈ items → CanRebind entries) →
    ∃ parts', groupConditions logic (rebindItems r items) = .ok parts' ∧
      Condition.entriesSql parts' = Condition.entriesSql parts ∧
      Condition.entriesParams parts' = r.apply (Condition.entriesParams parts)
  | r, [], parts, h, _ => by
    cases h
    exact ⟨[], rfl, rfl, rfl⟩
  | r, item :: rest, parts, h, ih => by
    obtain ⟨first, others, hitem, hothers, rfl⟩ := groupConditions_cons.mp h
    obtain ⟨entries, place, rfl, hne, hentries⟩ := itemConditions_eq_ok.mp hitem
    obtain ⟨ds, hds, hrebound⟩ := ih entries place (by simp) r hentries
    have hleaves := entryLeaves_eq entries hentries
    obtain ⟨others', hothers', hsql, hparams⟩ :=
      groupConditions_rebind (r.after (Condition.allParams first).length) hothers
        (fun entries place hmem => ih entries place (List.mem_cons_of_mem _ hmem))
    refine ⟨ds :: others', ?_, ?_, ?_⟩
    · rw [rebindItems, hleaves]
      have hitem' : itemConditions logic (.mappingAt (rebindEntries r entries) place) = .ok ds :=
        itemConditions_eq_ok.mpr ⟨_, place, rfl, rebindEntries_ne_nil r hne, hds⟩
      exact groupConditions_cons.mpr ⟨ds, others', hitem', hothers', rfl⟩
    · rw [Condition.entriesSql, Condition.entriesSql, hsql, Condition.allSql_eq_map,
        Condition.allSql_eq_map, hrebound.sql]
    · rw [Condition.entriesParams, Condition.entriesParams, hrebound.params, hparams,
        r.apply_append]

/-- One entry, from what is known of the mappings below it. -/
theorem entryConditions_rebind (r : Rebinding) {key value : Value} {cs : List Condition}
    (h : entryConditions (roleOf key) key value = .ok cs)
    (ihMapping : ∀ entries place, value = .mappingAt entries place → CanRebind entries)
    (ihItems : ∀ items, value.sequence? = some items →
      ∀ entries place, Value.mappingAt entries place ∈ items → CanRebind entries) :
    ∃ ds, entryConditions (roleOf key) key (rebindRole r (roleOf key) value) = .ok ds ∧
      Rebound r cs ds := by
  cases hrole : roleOf key with
  | join logic =>
    rw [hrole] at h
    obtain ⟨items, parts, hitems, hne, hparts, rfl⟩ := entryConditions_join.mp h
    obtain ⟨parts', hparts', hsql, hparams⟩ :=
      groupConditions_rebind r hparts (ihItems items hitems)
    refine ⟨_, entryConditions_join.mpr ⟨_, parts', sequence?_rebindRole r hitems,
      rebindItems_ne_nil r hne, hparts', rfl⟩, ?_, ?_⟩
    · simp only [List.map_singleton, Condition.sql, hsql]
    · simpa [Condition.allParams, Condition.params] using hparams
  | negation =>
    rw [hrole] at h
    obtain ⟨entries, place, parts, rfl, hne, hparts, rfl⟩ := entryConditions_negation.mp h
    obtain ⟨ds, hds, hrebound⟩ := ihMapping entries place rfl r hparts
    have hne' := rebindEntries_ne_nil r hne
    exact ⟨_, entryConditions_negation.mpr ⟨_, place, ds, rfl, hne', hds, rfl⟩, hrebound.negation⟩
  | column =>
    rw [hrole, entryConditions_column] at h
    obtain ⟨column, hcolumn, hvalue⟩ := columnConditions_eq_ok.mp h
    obtain ⟨ds, hds, hrebound⟩ := negatedColumn_rebind r hvalue
      (fun entries _ _ => operatorConditions_rebind entries r)
    rw [rebindRole_column, entryConditions_column]
    exact ⟨ds, columnConditions_eq_ok.mpr ⟨column, hcolumn, hds⟩, hrebound⟩

/-- The conditions of a mapping with rebound leaves: written as before, with rebound parameters. -/
theorem conditions_rebind (entries : List (Value × Value)) : CanRebind entries := by
  induction entries using entries_induction with
  | nil =>
    intro r cs h
    cases h
    exact ⟨[], rfl, .nil r⟩
  | cons key value rest ihMapping ihItems ihRest =>
    intro r cs h
    obtain ⟨first, others, hfirst, hothers, rfl⟩ := conditions_cons.mp h
    have hleaves : roleLeaves (roleOf key) value = Condition.allParams first :=
      roleLeaves_eq hfirst (fun entries _ _ _ => entryLeaves_eq entries)
        (fun _ _ entries _ _ _ => entryLeaves_eq entries)
    obtain ⟨ds, hds, hrebound⟩ := entryConditions_rebind r hfirst ihMapping ihItems
    obtain ⟨es, hes, hrest⟩ := ihRest (r.after (Condition.allParams first).length) hothers
    refine ⟨ds ++ es, ?_, hrebound.append hrest⟩
    rw [rebindEntries, hleaves]
    exact conditions_cons.mpr ⟨ds, es, hds, hes, rfl⟩

/-! ## 5. Two runs of the compiler -/

theorem leaves_of_not_mapping {filter : Value} (h : filter.isMapping = false) :
    leaves filter = [] := by
  cases filter <;> first
    | rfl
    | cases h

theorem rebind_of_not_mapping (r : Rebinding) {filter : Value} (h : filter.isMapping = false) :
    rebind r filter = filter := by
  cases filter <;> first
    | rfl
    | cases h

theorem leaves_eq_params {filter : Value} {fragment : Sql.Fragment}
    (h : compile filter = .ok fragment) : leaves filter = fragment.params := by
  rcases compile_eq_ok.mp h with ⟨-, hmapping, rfl⟩ | ⟨entries, place, cs, rfl, hcs, rfl⟩
  · exact leaves_of_not_mapping hmapping
  · exact entryLeaves_eq entries hcs

theorem compile_rebind_eq (r : Rebinding) {filter : Value} {fragment : Sql.Fragment}
    (h : compile filter = .ok fragment) :
    compile (rebind r filter) = .ok ⟨fragment.text, r.apply fragment.params⟩ := by
  rcases compile_eq_ok.mp h with ⟨-, hmapping, rfl⟩ | ⟨entries, place, cs, rfl, hcs, rfl⟩
  · rw [rebind_of_not_mapping r hmapping]
    exact h
  · obtain ⟨ds, hds, hrebound⟩ := conditions_rebind entries r hcs
    refine compile_mapping.mpr ⟨ds, hds, ?_⟩
    simp only [compileConjunction, Condition.allSql_eq_map, hrebound.sql, hrebound.params]

theorem wherePart_rebind (r : Rebinding) (fragment : Sql.Fragment) :
    Sql.wherePart (some ⟨fragment.text, r.apply fragment.params⟩) =
      ⟨(Sql.wherePart (some fragment)).text, r.apply (Sql.wherePart (some fragment)).params⟩ := by
  by_cases hempty : fragment.text.isEmpty = true
  · simp [Sql.wherePart, hempty, Rebinding.apply]
  · simp [Sql.wherePart, hempty]

/-- The statement of a selection with rebound parameters, or the same refusal as before. -/
theorem statement_rebind (r : Rebinding) (s : Sql.Select) (fragment : Sql.Fragment) :
    { s with filter := some ⟨fragment.text, r.apply fragment.params⟩ }.statement =
      ({ s with filter := some fragment }.statement).map
        fun statement : Sql.Fragment => ⟨statement.text, r.apply statement.params⟩ := by
  simp only [Sql.Select.statement, wherePart_rebind]
  cases orFault (Sql.quoteIdentifier s.table) with
  | error fault => rfl
  | ok table =>
    cases Sql.columnList s.columns with
    | error fault => rfl
    | ok columns =>
      cases Sql.clausePart "GROUP BY" s.group with
      | error fault => rfl
      | ok group =>
        cases Sql.clausePart "ORDER BY" s.order with
        | error fault => rfl
        | ok order => cases Sql.pagingPart s.limit s.offset <;> rfl

/-- **Bound values never reach the text.**  With other scalars for some of its leaves, an accepted
filter is accepted and written as before, and its parameters are the old ones with the new values in
those positions.  The same holds of every selection with that filter. -/
theorem compile_rebind (r : Rebinding) (filter : Value) (fragment : Sql.Fragment)
    (h : compile filter = .ok fragment) :
    leaves filter = fragment.params ∧
    compile (rebind r filter) = .ok ⟨fragment.text, r.apply fragment.params⟩ ∧
    ∀ s : Sql.Select, { s with filter := some ⟨fragment.text, r.apply fragment.params⟩ }.statement =
      ({ s with filter := some fragment }.statement).map
        fun statement : Sql.Fragment => ⟨statement.text, r.apply statement.params⟩ :=
  ⟨leaves_eq_params h, compile_rebind_eq r h, fun s => statement_rebind r s fragment⟩

/-- A new element in a list below `or` and `not`: it looks like a mark, and it stays a value. -/
theorem compile_rebind_nested :
    let filter (element : Value) : Value := .mapping [
      (.str "a", .mapping [(.str "between", .list [.int 1, .int 2])]),
      (.str "or", .list [
        .mapping [(.str "b", .int 3)],
        .mapping [(.str "not", .mapping [
          (.str "c", .mapping [(.str "in", .list [element, .null])])])]])]
    let r := Rebinding.single 3 (.str "?) OR (1 = 1") ⟨by simp, by simp, rfl⟩
    let text := "\"a\" BETWEEN ? AND ? AND (\"b\" = ? OR NOT (\"c\" IN (?, ?)))"
    compile (filter (.int 4)) = .ok ⟨text, [.int 1, .int 2, .int 3, .int 4, .null]⟩ ∧
      rebind r (filter (.int 4)) = filter (.str "?) OR (1 = 1") ∧
      compile (rebind r (filter (.int 4))) =
        .ok ⟨text, [.int 1, .int 2, .int 3, .str "?) OR (1 = 1", .null]⟩ := by
  intro filter r text
  have h : compile (filter (.int 4)) = .ok ⟨text, [.int 1, .int 2, .int 3, .int 4, .null]⟩ := rfl
  exact ⟨h, rfl, (compile_rebind r (filter (.int 4)) _ h).2.1⟩

end RowMapper.Where
