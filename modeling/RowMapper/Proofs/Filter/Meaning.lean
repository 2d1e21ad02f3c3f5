import RowMapper.Filter.Expression
import RowMapper.Proofs.Sql.Evaluation
import RowMapper.Proofs.Where.Reading

/-!
# What a filter expression says

An expression says a formula: each comparison is about the column that it names, and `&`, `|` and
`~` are conjunction, disjunction and negation.  Building it gives a filter whose groups are
flattened; `keeps_build` says that the filter has the truth of the expression about every row.
-/
namespace RowMapper

open Sql (Comparing Formula RowValues Truth)
open Where (Comparison Logic Operator conditions entryFormulas itemFormulas operatorFormula? roleOf)

/-! ## 1. What an expression says -/

/-- A comparison with a value; what equals null is null. -/
def comparisonFormula (column : String) : Comparison → Value → Formula
  | .eq, .null => .nullness column false
  | .ne, .null => .nullness column true
  | comparison, operand => .compare column comparison operand

/-- What an operator or a method on a column says, if it takes these arguments. -/
def methodFormula? (column method : String) (arguments : List Value) : Option Formula :=
  match comparisonOf? method, arguments with
  | some comparison, [operand] => some (comparisonFormula column comparison operand)
  | some _, _ => none
  | none, arguments =>
    match method, arguments with
    | "in_", [values] => values.elements.toOption.map (.member column false)
    | "not_in", [values] => values.elements.toOption.map (.member column true)
    | "like", [pattern] => some (.compare column .like pattern)
    | "not_like", [pattern] => some (.compare column .notLike pattern)
    | "is_null", [] => some (.nullness column false)
    | "is_not_null", [] => some (.nullness column true)
    | "between", [low, high] => some (.range column false low high)
    | "not_between", [low, high] => some (.range column true low high)
    | _, _ => none

/-- The column that is compared if one stands on the right of an operator: a column on the left
comes first. -/
def reflectedColumn (operand column : Value) : Value :=
  match operand with
  | .filterAt (.column left) _ => left
  | _ => column

/-- What an operator with the column on its right says. -/
def reflectedFormula (operand : Value) (comparison : Comparison) (column : Value) : Formula :=
  match operand with
  | .filterAt (.column left) _ =>
    comparisonFormula (Sql.nameText left) comparison (.filter (.column column))
  | operand => comparisonFormula (Sql.nameText column) (swapSides comparison) operand

mutual

/-- What an expression says.  A bare column, the empty filter and a filter that is not put together
from columns say nothing. -/
def Expression.formula? : Expression Value → Option Formula
  | .call column method arguments => methodFormula? (Sql.nameText column) method arguments
  | .reflected operand operator column =>
    (comparisonOf? operator).map fun comparison => reflectedFormula operand comparison column
  | .both logic left right => do
    let first ← left.formula?
    let second ← right.formula?
    return .joined logic [first, second]
  | .invert inner => do return .negation (← inner.formula?)
  | .combine logic parts => do
    let formulas ← allFormulas? parts
    return .joined (← (logicOf logic).toOption) formulas
  | .column _ => none
  | .blank => none
  | .comparison _ _ _ => none

/-- What expressions say. -/
def allFormulas? : List (Expression Value) → Option (List Formula)
  | [] => some []
  | e :: rest => do
    let first ← e.formula?
    let others ← allFormulas? rest
    return first :: others

end

/-- The column of an expression that is a single comparison. -/
def Expression.comparedColumn? : Expression Value → Option Value
  | .call name _ _ => some name
  | .reflected operand _ name => some (reflectedColumn operand name)
  | _ => none

/-- Expressions that are put together from comparisons whose columns have a property. -/
inductive Expression.Composed (p : Value → Prop) : Expression Value → Prop
  | call {column method arguments} (compared : p column) :
      Composed p (.call column method arguments)
  | reflected {operand operator column} (compared : p (reflectedColumn operand column)) :
      Composed p (.reflected operand operator column)
  | both {logic left right} (first : Composed p left) (second : Composed p right) :
      Composed p (.both logic left right)
  | invert {inner} (h : Composed p inner) : Composed p (.invert inner)
  | combine {logic parts} (each : ∀ e ∈ parts, Composed p e) : Composed p (.combine logic parts)

/-! ## 2. Building -/

namespace Expression

variable {left right inner : Expression Value} {word : Value} {parts : List (Expression Value)}
  {logic : Logic} {f : Filter Value}

theorem build_both : (Expression.both logic left right).build = .ok f ↔
    ∃ first second, left.build = .ok first ∧ right.build = .ok second ∧
      first.isExpression = true ∧ f = .combine logic [first, second] := by
  rw [build]
  constructor
  · intro h
    obtain ⟨first, hfirst, h⟩ := bind_eq_ok.mp h
    obtain ⟨second, hsecond, h⟩ := bind_eq_ok.mp h
    split at h
    · next hexpression =>
      cases h
      exact ⟨first, second, hfirst, hsecond, hexpression, rfl⟩
    · cases h
  · rintro ⟨first, second, hfirst, hsecond, hexpression, rfl⟩
    rw [hfirst, hsecond]
    exact if_pos hexpression

theorem build_invert : (Expression.invert inner).build = .ok f ↔
    ∃ filter, inner.build = .ok filter ∧ filter.isExpression = true ∧
      f = .negation (.filter filter) := by
  rw [build]
  constructor
  · intro h
    obtain ⟨filter, hfilter, h⟩ := bind_eq_ok.mp h
    split at h
    · next hexpression =>
      cases h
      exact ⟨filter, hfilter, hexpression, rfl⟩
    · cases h
  · rintro ⟨filter, hfilter, hexpression, rfl⟩
    rw [hfilter]
    exact if_pos hexpression

theorem build_combine : (Expression.combine word parts).build = .ok f ↔
    ∃ filters logic, buildAll parts = .ok filters ∧ logicOf word = .ok logic ∧
      f = .combine logic filters := by
  rw [build]
  constructor
  · intro h
    obtain ⟨filters, hfilters, h⟩ := bind_eq_ok.mp h
    obtain ⟨logic, hlogic, h⟩ := bind_eq_ok.mp h
    cases h
    exact ⟨filters, logic, hfilters, hlogic, rfl⟩
  · rintro ⟨filters, logic, hfilters, hlogic, rfl⟩
    rw [hfilters, hlogic]
    rfl

end Expression

theorem buildAll_cons {e : Expression Value} {rest : List (Expression Value)}
    {fs : List (Filter Value)} : buildAll (e :: rest) = .ok fs ↔
      ∃ first others, e.build = .ok first ∧ buildAll rest = .ok others ∧ fs = first :: others := by
  constructor
  · intro h
    obtain ⟨first, hfirst, h⟩ := bind_eq_ok.mp h
    obtain ⟨others, hothers, h⟩ := bind_eq_ok.mp h
    cases h
    exact ⟨first, others, hfirst, hothers, rfl⟩
  · rintro ⟨first, others, hfirst, hothers, rfl⟩
    rw [buildAll, hfirst, hothers]
    rfl

/-! ## 3. Built filters -/

namespace Filter

mutual

/-- What a built filter says; a value that is none is taken to hold of no row. -/
def formula : Value → Formula
  | .filterAt (.comparison name (.strAt word _) operand) _ =>
    ((Operator.ofWord? word).bind fun op =>
      operatorFormula? (Sql.nameText name) op operand).getD (.constant false)
  | .filterAt (.negation inner) _ => .negation (formula inner)
  | .filterAt (.combined logic (.tupleAt parts _)) _ => .joined logic (formulas parts)
  | _ => .constant false

/-- What built filters say. -/
def formulas : List Value → List Formula
  | [] => []
  | f :: rest => formula f :: formulas rest

end

theorem formulas_eq_map (fs : List Value) : formulas fs = fs.map formula := by
  induction fs with
  | nil => rfl
  | cons f rest ih => rw [formulas, ih, List.map_cons]

/-- Built filters whose comparisons are on columns with a property. -/
inductive Built (p : Value → Prop) : Value → Prop
  | comparison {name word operand op stated place place'} (compared : p name)
      (operator : Operator.ofWord? word = some op)
      (fits : operatorFormula? (Sql.nameText name) op operand = some stated) :
      Built p (.filterAt (.comparison name (.strAt word place) operand) place')
  | negation {inner place} (h : Built p inner) : Built p (.filterAt (.negation inner) place)
  | combined {logic parts place place'} (each : ∀ f ∈ parts, Built p f) :
      Built p (.filterAt (.combined logic (.tupleAt parts place)) place')

/-! ## 4. Building keeps what is said -/

/-- Formulas that have the same truth about every row, however a database compares. -/
def SaySame (f g : Formula) : Prop := ∀ db row, f.eval db row = g.eval db row

/-- A built comparison on a column, which says what is stated. -/
inductive Compares (name : Value) (stated? : Option Formula) : Filter Value → Prop
  | intro {word op operand fitted stated} (operator : Operator.ofWord? word = some op)
      (fits : operatorFormula? (Sql.nameText name) op operand = some fitted)
      (states : stated? = some stated) (same : SaySame fitted stated) :
      Compares name stated? (.comparison name (.str word) operand)

theorem Compares.of_fits {name operand : Value} {word : String} {op : Operator} {stated : Formula}
    (hword : Operator.ofWord? word = some op)
    (hfits : operatorFormula? (Sql.nameText name) op operand = some stated) :
    Compares name (some stated) (.comparison name (.str word) operand) :=
  .intro hword hfits rfl fun _ _ => rfl

theorem operatorFormula?_compare (column : String) (comparison : Comparison) (operand : Value) :
    operatorFormula? column (.compare comparison) operand =
      some (comparisonFormula column comparison operand) := by
  cases comparison <;> cases operand <;> rfl

theorem ofWord?_comparisonWord (comparison : Comparison) :
    Operator.ofWord? (comparisonWord comparison) = some (.compare comparison) := by
  cases comparison <;> rfl

theorem compares_column (name : Value) (comparison : Comparison) (operand : Value) :
    Compares name (some (comparisonFormula (Sql.nameText name) comparison operand))
      (compareColumn name comparison operand) :=
  .of_fits (ofWord?_comparisonWord comparison) (operatorFormula?_compare _ comparison operand)

/-- Nothing is in an empty list, and everything is outside of it. -/
theorem saySame_member (column : String) (negated : Bool) (items : List Value) :
    SaySame (if items.isEmpty then .constant negated else .member column negated items)
      (.member column negated items) := by
  intro db row
  cases items with
  | nil => cases negated <;> rfl
  | cons item rest => rfl

theorem compares_membership {name values : Value} {word : String} {negated : Bool}
    {f : Filter Value} (hword : Operator.ofWord? word = some (.member negated))
    (h : (do return .comparison name (.str word) (.list (← values.elements)) :
      Except Fault (Filter Value)) = .ok f) :
    Compares name (values.elements.toOption.map (.member (Sql.nameText name) negated)) f := by
  obtain ⟨items, hitems, hf⟩ := bind_eq_ok.mp h
  cases hf
  have hfits : operatorFormula? (Sql.nameText name) (.member negated) (.list items) =
      some (if items.isEmpty then .constant negated
        else .member (Sql.nameText name) negated items) := rfl
  exact .intro hword hfits (by rw [hitems]; rfl) (saySame_member _ negated items)

theorem compares_method {name : Value} {method : String} {arguments : List Value} {f : Filter Value}
    (h : callMethod name method arguments = .ok f) :
    Compares name (methodFormula? (Sql.nameText name) method arguments) f := by
  unfold callMethod at h
  cases hcomparison : comparisonOf? method with
  | some comparison =>
    simp only [hcomparison] at h
    unfold methodFormula?
    rw [hcomparison]
    match arguments, h with
    | [operand], h =>
      cases h
      exact compares_column name comparison operand
  | none =>
    simp only [hcomparison] at h
    split at h
    case h_1 => exact compares_membership rfl h
    case h_2 => exact compares_membership rfl h
    case h_9 => split at h <;> cases h
    all_goals
      cases h
      exact .of_fits rfl rfl

theorem compares_reflected (operand column : Value) (comparison : Comparison) :
    Compares (reflectedColumn operand column) (some (reflectedFormula operand comparison column))
      (compareReflected operand comparison column) := by
  cases operand with
  | filterAt f place =>
    cases f with
    | column left => exact compares_column left comparison _
    | _ => exact compares_column column (swapSides comparison) _
  | _ => exact compares_column column (swapSides comparison) _

/-- What is built from a single comparison. -/
theorem compares_build {e : Expression Value} {name : Value} {f : Filter Value}
    (hname : e.comparedColumn? = some name) (h : e.build = .ok f) : Compares name e.formula? f := by
  cases e with
  | call column method arguments =>
    cases hname
    exact compares_method h
  | reflected operand operator column =>
    cases hname
    rw [Expression.build] at h
    rw [Expression.formula?]
    cases hcomparison : comparisonOf? operator with
    | none =>
      rw [hcomparison] at h
      cases h
    | some comparison =>
      rw [hcomparison] at h
      cases h
      exact compares_reflected operand column comparison
  | _ => cases hname

/-- A built filter is made of such comparisons and says what the expression says. -/
structure Keeps (p : Value → Prop) (f : Filter Value) (stated? : Option Formula) : Prop where
  built : Built p (.filter f)
  same : ∃ stated, stated? = some stated ∧ SaySame (formula (.filter f)) stated

theorem Compares.keeps {p : Value → Prop} {name : Value} {stated? : Option Formula}
    {f : Filter Value} (h : Compares name stated? f) (compared : p name) : Keeps p f stated? := by
  cases h with
  | intro hword hfits hstated hsame =>
    refine ⟨.comparison compared hword hfits, _, hstated, fun db row => ?_⟩
    rw [formula, hword, Option.bind_some, hfits, Option.getD_some, hsame db row]

variable {p : Value → Prop}

/-- The parts that a filter adds to a group say together what the filter says. -/
theorem eval_partsUnder (logic : Logic) (f : Filter Value) (db : Comparing) (row : RowValues) :
    Truth.joined logic ((partsUnder logic f).map fun v => (formula v).eval db row) =
      (formula (.filter f)).eval db row := by
  unfold partsUnder
  split
  · rename_i inner parts place
    split
    · rename_i hsame
      rw [formula, Formula.eval_joined, formulas_eq_map, List.map_map, hsame]
      rfl
    · exact Truth.joined_singleton logic _
  · exact Truth.joined_singleton logic _

/-- A group says that its filters hold together, although it is flattened. -/
theorem eval_combine (logic : Logic) (fs : List (Filter Value)) (db : Comparing) (row : RowValues) :
    (formula (.filter (combine logic fs))).eval db row =
      Truth.joined logic (fs.map fun f => (formula (.filter f)).eval db row) := by
  have hflat : Truth.joined logic
      ((fs.flatMap (partsUnder logic)).map fun v => (formula v).eval db row) =
      Truth.joined logic (fs.map fun f => (formula (.filter f)).eval db row) := by
    induction fs with
    | nil => rfl
    | cons f rest ih =>
      rw [List.flatMap_cons, List.map_append, Truth.joined_append, eval_partsUnder, ih,
        List.map_cons, Truth.joined_cons]
  rw [combine, formula, Formula.eval_joined, formulas_eq_map, List.map_map]
  exact hflat

theorem built_combine {logic : Logic} {fs : List (Filter Value)}
    (h : ∀ f ∈ fs, Built p (.filter f)) : Built p (.filter (combine logic fs)) := by
  refine .combined fun v hv => ?_
  obtain ⟨f, hf, hv⟩ := List.mem_flatMap.mp hv
  have hbuilt := h f hf
  unfold partsUnder at hv
  split at hv
  · split at hv
    · cases hbuilt with
      | combined each => exact each v hv
    · exact List.mem_singleton.mp hv ▸ hbuilt
  · exact List.mem_singleton.mp hv ▸ hbuilt

/-- Filters beside the formulas of the expressions that they are built from. -/
structure KeepsAll (p : Value → Prop) (fs : List (Filter Value)) (stated : List Formula) :
    Prop where
  built : ∀ f ∈ fs, Built p (.filter f)
  same : ∀ db row, (fs.map fun f => (formula (.filter f)).eval db row) =
    stated.map fun g => g.eval db row

theorem KeepsAll.nil : KeepsAll p [] [] := ⟨by simp, fun _ _ => rfl⟩

theorem KeepsAll.cons {f : Filter Value} {fs : List (Filter Value)} {g : Formula}
    {gs : List Formula} (hbuilt : Built p (.filter f)) (hsame : SaySame (formula (.filter f)) g)
    (h : KeepsAll p fs gs) : KeepsAll p (f :: fs) (g :: gs) where
  built := by simpa using ⟨hbuilt, h.built⟩
  same db row := by rw [List.map_cons, List.map_cons, hsame db row, h.same db row]

theorem KeepsAll.combine {logic : Logic} {fs : List (Filter Value)} {gs : List Formula}
    (h : KeepsAll p fs gs) : Keeps p (combine logic fs) (some (.joined logic gs)) where
  built := built_combine h.built
  same := by
    refine ⟨_, rfl, fun db row => ?_⟩
    rw [eval_combine, Formula.eval_joined, h.same db row]

/-- Expressions that are built one after another, from what is known of each. -/
theorem keeps_buildAll : ∀ {parts : List (Expression Value)} {fs : List (Filter Value)},
    buildAll parts = .ok fs →
    (∀ e ∈ parts, ∀ {f}, e.build = .ok f → Keeps p f e.formula?) →
    ∃ gs, allFormulas? parts = some gs ∧ KeepsAll p fs gs
  | [], fs, h, _ => by
    cases h
    exact ⟨[], rfl, .nil⟩
  | e :: rest, fs, h, ih => by
    obtain ⟨first, others, hfirst, hothers, rfl⟩ := buildAll_cons.mp h
    obtain ⟨hbuilt, g, hg, hsame⟩ := ih e (by simp) hfirst
    obtain ⟨gs, hgs, hall⟩ := keeps_buildAll hothers (fun e he => ih e (List.mem_cons_of_mem _ he))
    exact ⟨g :: gs, by rw [allFormulas?, hg, hgs]; rfl, hall.cons hbuilt hsame⟩

/-- Building an expression keeps what it says. -/
theorem keeps_build {e : Expression Value} (h : e.Composed p) :
    ∀ {f}, e.build = .ok f → Keeps p f e.formula? := by
  induction h with
  | call compared =>
    intro f hf
    exact (compares_build rfl hf).keeps compared
  | reflected compared =>
    intro f hf
    exact (compares_build rfl hf).keeps compared
  | @both logic left right _ _ ihFirst ihSecond =>
    intro f hf
    obtain ⟨first, second, hfirst, hsecond, -, rfl⟩ := Expression.build_both.mp hf
    obtain ⟨hbuilt, g, hg, hsame⟩ := ihFirst hfirst
    obtain ⟨hbuilt', g', hg', hsame'⟩ := ihSecond hsecond
    have hall := (KeepsAll.nil.cons hbuilt' hsame').cons hbuilt hsame
    rw [Expression.formula?, hg, hg']
    exact hall.combine
  | @invert inner _ ih =>
    intro f hf
    obtain ⟨filter, hfilter, -, rfl⟩ := Expression.build_invert.mp hf
    obtain ⟨hbuilt, g, hg, hsame⟩ := ih hfilter
    rw [Expression.formula?, hg]
    refine ⟨.negation hbuilt, _, rfl, fun db row => ?_⟩
    rw [formula, Formula.eval_negation, Formula.eval_negation, hsame db row]
  | @combine logic parts _ ih =>
    intro f hf
    obtain ⟨filters, word, hfilters, hword, rfl⟩ := Expression.build_combine.mp hf
    obtain ⟨gs, hgs, hall⟩ := keeps_buildAll hfilters ih
    rw [Expression.formula?, hgs, hword]
    exact hall.combine

end Filter
end RowMapper
