import RowMapper.Proofs.Sql.Token
import RowMapper.Sql.Fragment
import RowMapper.Where.Operator

/-!
# Conditions as a database reads them

A `Formula` is the tree of a condition.  `Fragment.read?` is how a database gets it from a text with
question marks and the values for these: it cuts the text into tokens, puts the values into the
places of the marks from left to right, and reads the tokens by the usual precedence.  OR is
loosest, then AND, then NOT, and the AND inside `BETWEEN ? AND ?` belongs to that BETWEEN.

Tokens are read once from left to right.  The `Reader` keeps one `Level` for each bracket that is
open.  A NOT waits for the next operand, an AND puts the next operand beside the last one, and an OR
ends what the ANDs have joined.
-/
namespace RowMapper.Sql

open Where (Comparison Logic)

/-! ## 1. Formulas -/

/-- What a condition says about a row. -/
inductive Formula where
  | compare (column : String) (comparison : Comparison) (operand : Value)
  | nullness (column : String) (negated : Bool)
  | member (column : String) (negated : Bool) (operands : List Value)
  | range (column : String) (negated : Bool) (low high : Value)
  | constant (holds : Bool)
  | negation (inner : Formula)
  | joined (logic : Logic) (parts : List Formula)
  deriving Inhabited

/-- Formulas joined by one logic; a single one stands for itself. -/
def Formula.join (logic : Logic) : List Formula → Formula
  | [only] => only
  | parts => .joined logic parts

/-! ## 2. Atomic predicates -/

/-- An atomic predicate of which the last tokens are still to come: a column and what follows it, or
the comparison of two numbers. -/
inductive Partial where
  | column (name : String)
  | compared (name : String) (comparison : Comparison)
  | inverted (name : String)
  | is (name : String)
  | isNot (name : String)
  | among (name : String) (negated : Bool)
  | item (name : String) (negated : Bool) (items : List Value)
  | listed (name : String) (negated : Bool) (items : List Value)
  | between (name : String) (negated : Bool)
  | above (name : String) (negated : Bool) (low : Value)
  | below (name : String) (negated : Bool) (low : Value)
  | number (n : Nat)
  | equated (n : Nat)

/-- The comparison of a sign. -/
def comparisonOfSign? : String → Option Comparison
  | "=" => some .eq
  | "<>" => some .ne
  | ">" => some .gt
  | "<" => some .lt
  | ">=" => some .gte
  | "<=" => some .lte
  | _ => none

/-- The numbers that occur in conditions. -/
def bitOfWord? : String → Option Nat
  | "0" => some 0
  | "1" => some 1
  | _ => none

/-- Reads one token of an atomic predicate: it goes on or is complete. -/
def Partial.step : Partial → Token Value → Option (Partial ⊕ Formula)
  | .column name, .sign text => (comparisonOfSign? text).map fun c => .inl (.compared name c)
  | .column name, .word "LIKE" => some (.inl (.compared name .like))
  | .column name, .word "IN" => some (.inl (.among name false))
  | .column name, .word "BETWEEN" => some (.inl (.between name false))
  | .column name, .word "NOT" => some (.inl (.inverted name))
  | .column name, .word "IS" => some (.inl (.is name))
  | .compared name comparison, .mark v => some (.inr (.compare name comparison v))
  | .inverted name, .word "LIKE" => some (.inl (.compared name .notLike))
  | .inverted name, .word "IN" => some (.inl (.among name true))
  | .inverted name, .word "BETWEEN" => some (.inl (.between name true))
  | .is name, .word "NULL" => some (.inr (.nullness name false))
  | .is name, .word "NOT" => some (.inl (.isNot name))
  | .isNot name, .word "NULL" => some (.inr (.nullness name true))
  | .among name negated, .left => some (.inl (.item name negated []))
  | .item name negated items, .mark v => some (.inl (.listed name negated (items ++ [v])))
  | .listed name negated items, .comma => some (.inl (.item name negated items))
  | .listed name negated items, .right => some (.inr (.member name negated items))
  | .between name negated, .mark low => some (.inl (.above name negated low))
  | .above name negated low, .word "AND" => some (.inl (.below name negated low))
  | .below name negated low, .mark high => some (.inr (.range name negated low high))
  | .number n, .sign "=" => some (.inl (.equated n))
  | .equated n, .word text => (bitOfWord? text).map fun m => .inr (.constant (n == m))
  | _, _ => none

/-! ## 3. Precedence -/

/-- What has been read inside one bracket: the alternatives that an OR has ended, the factors of the
alternative that is being read, and how many NOTs wait for the next operand. -/
structure Level where
  alternatives : List Formula := []
  factors : List Formula := []
  waiting : Nat := 0

/-- A formula under several NOTs. -/
def negate : Nat → Formula → Formula
  | 0, f => f
  | n + 1, f => .negation (negate n f)

/-- An operand is the next factor, under the NOTs that wait for it. -/
def Level.operand (l : Level) (f : Formula) : Level :=
  { l with factors := l.factors ++ [negate l.waiting f], waiting := 0 }

/-- An OR ends an alternative: its factors are joined by AND. -/
def Level.alternative (l : Level) : Level :=
  { alternatives := l.alternatives ++ [.join .all l.factors] }

/-- The end of a level: its alternatives are joined by OR. -/
def Level.formula (l : Level) : Formula := .join .any l.alternative.alternatives

/-- Whether an operand has to come, an atomic predicate is being read, or an operand has just been
read. -/
inductive Phase where
  | before
  | within (predicate : Partial)
  | behind

/-- The level that is being read, those around it from the inside out, and the phase. -/
structure Reader where
  level : Level := {}
  outer : List Level := []
  phase : Phase := .before

namespace Reader

/-- An operand has been read. -/
def take (r : Reader) (f : Formula) : Reader :=
  { r with level := r.level.operand f, phase := .behind }

/-- Reads one token. -/
def step (r : Reader) (t : Token Value) : Option Reader :=
  match r.phase with
  | .before =>
    match t with
    | .word "NOT" => some { r with level := { r.level with waiting := r.level.waiting + 1 } }
    | .word text => (bitOfWord? text).map fun n => { r with phase := .within (.number n) }
    | .name text => some { r with phase := .within (.column text) }
    | .left => some { level := {}, outer := r.level :: r.outer }
    | _ => none
  | .within predicate =>
    match predicate.step t with
    | some (.inl more) => some { r with phase := .within more }
    | some (.inr f) => some (r.take f)
    | none => none
  | .behind =>
    match t, r.outer with
    | .word "AND", _ => some { r with phase := .before }
    | .word "OR", _ => some { r with level := r.level.alternative, phase := .before }
    | .right, around :: outer => some ({ level := around, outer : Reader }.take r.level.formula)
    | _, _ => none

/-- Reads tokens one after another. -/
def run (r : Reader) (ts : List (Token Value)) : Option Reader := ts.foldlM step r

/-- The formula at the end of the text, where no bracket is open. -/
def finish (r : Reader) : Option Formula :=
  match r.phase, r.outer with
  | .behind, [] => some r.level.formula
  | _, _ => none

end Reader

/-- The formula of tokens; without tokens there is no condition to meet. -/
def parse? (ts : List (Token Value)) : Option Formula :=
  match ts with
  | [] => some (.join .all [])
  | ts => (Reader.run {} ts).bind Reader.finish

/-- Puts values into the places of the marks, from left to right; there have to be as many. -/
def supply : List TextToken → List Value → Option (List (Token Value))
  | [], [] => some []
  | [], _ :: _ => none
  | .mark _ :: ts, v :: values => (supply ts values).map (.mark v :: ·)
  | .mark _ :: _, [] => none
  | .name text :: ts, values => (supply ts values).map (.name text :: ·)
  | .word text :: ts, values => (supply ts values).map (.word text :: ·)
  | .sign text :: ts, values => (supply ts values).map (.sign text :: ·)
  | .comma :: ts, values => (supply ts values).map (.comma :: ·)
  | .left :: ts, values => (supply ts values).map (.left :: ·)
  | .right :: ts, values => (supply ts values).map (.right :: ·)

/-- The formula that a fragment is for a database. -/
def Fragment.read? (fragment : Fragment) : Option Formula := do
  let ts ← tokens? fragment.text
  parse? (← supply ts fragment.params)

example : Fragment.read? ⟨"\"a\" = ? OR \"b\" < ? AND NOT \"c\" IS NULL", [.int 1, .int 2]⟩ =
    some (.joined .any [.compare "a" .eq (.int 1),
      .joined .all [.compare "b" .lt (.int 2), .negation (.nullness "c" false)]]) := by
  rfl

/-! ## 4. Reading pieces -/

/-- A token as it stands in a text. -/
def Token.blank : Token Value → TextToken
  | .name text => .name text
  | .word text => .word text
  | .sign text => .sign text
  | .mark _ => .mark ()
  | .comma => .comma
  | .left => .left
  | .right => .right

/-- The values at the marks of tokens. -/
def contents : List (Token Value) → List Value
  | [] => []
  | .mark v :: ts => v :: contents ts
  | _ :: ts => contents ts

theorem contents_append (ts us : List (Token Value)) :
    contents (ts ++ us) = contents ts ++ contents us := by
  induction ts with
  | nil => rfl
  | cons t ts ih => cases t <;> simp [contents, ih]

/-- A gap without values adds none. -/
theorem contents_intercalate (gap : List (Token Value)) (hgap : contents gap = []) {α : Type}
    (ts : α → List (Token Value)) (xs : List α) :
    contents (gap.intercalate (xs.map ts)) = xs.flatMap fun x => contents (ts x) := by
  induction xs with
  | nil => rfl
  | cons x rest ih =>
    cases rest with
    | nil => simp
    | cons y rest =>
      rw [List.map_cons, List.map_cons, List.intercalate_cons_cons, contents_append,
        contents_append, hgap, List.append_nil, List.flatMap_cons, ← ih, List.map_cons]

/-- The values of tokens go back into the places that they were taken from. -/
theorem supply_contents (ts : List (Token Value)) :
    supply (ts.map Token.blank) (contents ts) = some ts := by
  induction ts with
  | nil => rfl
  | cons t ts ih => cases t <;> simp [Token.blank, contents, supply, ih]

theorem negate_negation (n : Nat) (f : Formula) :
    negate n (.negation f) = .negation (negate n f) := by
  induction n with
  | zero => rfl
  | succ n ih => rw [negate, ih, negate]

namespace Reader

/-- Wherever an operand has to come, the tokens are read as the formula. -/
def Reads (ts : List (Token Value)) (f : Formula) : Prop :=
  ∀ level outer, run ⟨level, outer, .before⟩ ts = some ⟨level.operand f, outer, .behind⟩

theorem run_append (r : Reader) (ts us : List (Token Value)) :
    r.run (ts ++ us) = (r.run ts).bind (·.run us) := List.foldlM_append

theorem run_cons (r : Reader) (t : Token Value) (ts : List (Token Value)) :
    r.run (t :: ts) = (r.step t).bind (·.run ts) := List.foldlM_cons

/-- Operands with ANDs between them are the factors of one alternative. -/
theorem run_factors {α : Type} (ts : α → List (Token Value)) (formula : α → Formula)
    (alternatives : List Formula) (outer : List Level) :
    ∀ (xs : List α) (factors : List Formula), xs ≠ [] → (∀ x ∈ xs, Reads (ts x) (formula x)) →
      run ⟨⟨alternatives, factors, 0⟩, outer, .before⟩ ([.word "AND"].intercalate (xs.map ts)) =
        some ⟨⟨alternatives, factors ++ xs.map formula, 0⟩, outer, .behind⟩
  | [], _, hne, _ => absurd rfl hne
  | [x], factors, _, h => by
    simpa [Level.operand, negate] using h x (by simp) ⟨alternatives, factors, 0⟩ outer
  | x :: y :: rest, factors, _, h => by
    have hx := h x (by simp) ⟨alternatives, factors, 0⟩ outer
    have hrest := run_factors ts formula alternatives outer (y :: rest) (factors ++ [formula x])
      (by simp) (fun z hz => h z (List.mem_cons_of_mem _ hz))
    rw [List.map_cons, List.map_cons, List.intercalate_cons_cons, List.append_assoc, run_append, hx]
    rw [List.map_cons] at hrest
    simp [run_cons, step, Level.operand, negate, hrest]

/-- Operands with ORs between them are alternatives, the last of which is still being read. -/
theorem run_alternatives {α : Type} (ts : α → List (Token Value)) (formula : α → Formula)
    (outer : List Level) :
    ∀ (xs : List α) (alternatives : List Formula), xs ≠ [] →
      (∀ x ∈ xs, Reads (ts x) (formula x)) →
      ∃ level : Level, level.alternative.alternatives = alternatives ++ xs.map formula ∧
        run ⟨⟨alternatives, [], 0⟩, outer, .before⟩ ([.word "OR"].intercalate (xs.map ts)) =
          some ⟨level, outer, .behind⟩
  | [], _, hne, _ => absurd rfl hne
  | [x], alternatives, _, h => by
    refine ⟨⟨alternatives, [formula x], 0⟩, rfl, ?_⟩
    simpa [Level.operand, negate] using h x (by simp) ⟨alternatives, [], 0⟩ outer
  | x :: y :: rest, alternatives, _, h => by
    have hx := h x (by simp) ⟨alternatives, [], 0⟩ outer
    obtain ⟨level, hlevel, hrest⟩ := run_alternatives ts formula outer (y :: rest)
      (alternatives ++ [formula x]) (by simp) (fun z hz => h z (List.mem_cons_of_mem _ hz))
    refine ⟨level, by simpa using hlevel, ?_⟩
    rw [List.map_cons, List.map_cons, List.intercalate_cons_cons, List.append_assoc, run_append, hx]
    rw [List.map_cons] at hrest
    simp [run_cons, step, Level.operand, Level.alternative, Formula.join, negate, hrest]

/-- Operands with the word of one logic between them, on a level of their own. -/
theorem run_joined (logic : Logic) {α : Type} (ts : α → List (Token Value)) (formula : α → Formula)
    (outer : List Level) {xs : List α} (hne : xs ≠ []) (h : ∀ x ∈ xs, Reads (ts x) (formula x)) :
    ∃ level : Level, level.formula = .join logic (xs.map formula) ∧
      run ⟨{}, outer, .before⟩ ([.word logic.token].intercalate (xs.map ts)) =
        some ⟨level, outer, .behind⟩ := by
  cases logic with
  | all => exact ⟨_, rfl, run_factors ts formula [] outer xs [] hne h⟩
  | any =>
    obtain ⟨level, hlevel, hrun⟩ := run_alternatives ts formula outer xs [] hne h
    exact ⟨level, by rw [Level.formula, hlevel]; rfl, hrun⟩

/-- Joined operands between brackets are one operand. -/
theorem reads_bracket (logic : Logic) {α : Type} (ts : α → List (Token Value))
    (formula : α → Formula) {xs : List α} (hne : xs ≠ [])
    (h : ∀ x ∈ xs, Reads (ts x) (formula x)) :
    Reads (.left :: ([.word logic.token].intercalate (xs.map ts) ++ [.right]))
      (.join logic (xs.map formula)) := by
  intro level outer
  obtain ⟨inner, hinner, hrun⟩ := run_joined logic ts formula (level :: outer) hne h
  rw [run_cons]
  show (run ⟨{}, level :: outer, .before⟩ _) = _
  rw [run_append, hrun, ← hinner]
  rfl

/-- A NOT in front of an operand. -/
theorem reads_not {ts : List (Token Value)} {f : Formula} (h : Reads ts f) :
    Reads (.word "NOT" :: ts) (.negation f) := by
  intro level outer
  rw [run_cons]
  show (run ⟨{ level with waiting := level.waiting + 1 }, outer, .before⟩ ts) = _
  rw [h]
  simp [Level.operand, negate, negate_negation]

end Reader

/-- Operands with ANDs between them are a whole condition. -/
theorem parse?_conjunction {α : Type} (ts : α → List (Token Value)) (formula : α → Formula)
    (xs : List α) (h : ∀ x ∈ xs, Reader.Reads (ts x) (formula x)) :
    parse? ([.word "AND"].intercalate (xs.map ts)) = some (.join .all (xs.map formula)) := by
  by_cases hne : xs = []
  · subst hne
    rfl
  · obtain ⟨level, hlevel, hrun⟩ := Reader.run_joined .all ts formula [] hne h
    rw [← hlevel]
    simp only [Logic.token] at hrun
    generalize [Token.word "AND"].intercalate (xs.map ts) = tokens at hrun ⊢
    cases tokens with
    | nil =>
      -- A reader that has read nothing still waits for an operand.
      cases hrun
    | cons t rest =>
      show (Reader.run {} (t :: rest)).bind Reader.finish = _
      rw [hrun]
      rfl

end RowMapper.Sql
