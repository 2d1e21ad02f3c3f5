import Mathlib.Data.List.Basic
import RowMapper.Proofs.Sql.Formula

/-!
# The truth of a condition about a row

A condition is true or false of a row, or unknown: a comparison with null is unknown, and the
connectives carry this on.  How a database compares two values that are not null is left open, since
it depends on the column; every statement here holds for each such comparison.

`eval_join` and `joined_append` say that brackets inside one logic change nothing, and
`not_joined_any` that a negated disjunction is the conjunction of the negated parts.
-/
namespace RowMapper.Sql

open Where (Comparison Logic)

/-! ## 1. Three truth values -/

/-- Whether a condition holds. -/
inductive Truth where
  | no
  | unknown
  | yes
  deriving DecidableEq

namespace Truth

/-- The truth of what is known. -/
def ofBool : Bool → Truth
  | true => .yes
  | false => .no

/-- The truth of the opposite. -/
def not : Truth → Truth
  | .no => .yes
  | .unknown => .unknown
  | .yes => .no

/-- Two conditions joined: under AND the lesser truth counts, under OR the greater one. -/
def join : Logic → Truth → Truth → Truth
  | .all, .no, _ => .no
  | .all, .yes, t => t
  | .all, .unknown, .no => .no
  | .all, .unknown, _ => .unknown
  | .any, .yes, _ => .yes
  | .any, .no, t => t
  | .any, .unknown, .yes => .yes
  | .any, .unknown, _ => .unknown

/-- No conditions joined. -/
def ofNone : Logic → Truth
  | .all => .yes
  | .any => .no

/-- Conditions joined by one logic. -/
def joined (logic : Logic) (ts : List Truth) : Truth := ts.foldr (join logic) (ofNone logic)

/-- The truth, or that of the opposite. -/
def notIf (negated : Bool) (t : Truth) : Truth := if negated then t.not else t

theorem notIf_inj {negated : Bool} {a b : Truth} : notIf negated a = notIf negated b ↔ a = b := by
  cases negated <;> cases a <;> cases b <;> decide

theorem ofBool_ne_unknown (b : Bool) : ofBool b ≠ .unknown := by
  cases b <;> decide

theorem join_assoc (logic : Logic) (a b c : Truth) :
    join logic (join logic a b) c = join logic a (join logic b c) := by
  cases logic <;> cases a <;> cases b <;> cases c <;> rfl

theorem join_ofNone (logic : Logic) (a : Truth) : join logic a (ofNone logic) = a := by
  cases logic <;> cases a <;> rfl

theorem ofNone_join (logic : Logic) (a : Truth) : join logic (ofNone logic) a = a := by
  cases logic <;> rfl

theorem joined_cons (logic : Logic) (t : Truth) (ts : List Truth) :
    joined logic (t :: ts) = join logic t (joined logic ts) := rfl

theorem joined_singleton (logic : Logic) (t : Truth) : joined logic [t] = t :=
  join_ofNone logic t

theorem not_joined_any (ts : List Truth) : (joined .any ts).not = joined .all (ts.map not) := by
  induction ts with
  | nil => rfl
  | cons t rest ih =>
    have hjoin (a b : Truth) : (join .any a b).not = join .all a.not b.not := by
      cases a <;> cases b <;> rfl
    rw [List.map_cons, joined_cons, joined_cons, hjoin, ih]

theorem joined_any_eq_yes {ts : List Truth} : joined .any ts = .yes ↔ .yes ∈ ts := by
  induction ts with
  | nil => simp [joined, ofNone]
  | cons t rest ih =>
    rw [joined_cons, List.mem_cons, ← ih]
    cases t <;> cases joined .any rest <;> simp [join]

theorem joined_any_eq_no {ts : List Truth} : joined .any ts = .no ↔ ∀ t ∈ ts, t = .no := by
  induction ts with
  | nil => simp [joined, ofNone]
  | cons t rest ih =>
    rw [joined_cons, List.forall_mem_cons, ← ih]
    cases t <;> cases joined .any rest <;> simp [join]

theorem joined_append (logic : Logic) (ts us : List Truth) :
    joined logic (ts ++ us) = join logic (joined logic ts) (joined logic us) := by
  induction ts with
  | nil => exact (ofNone_join logic _).symm
  | cons t rest ih => rw [List.cons_append, joined_cons, joined_cons, ih, join_assoc]

end Truth

/-! ## 2. Evaluation -/

/-- How a database compares the value of a column with another one, if neither is null. -/
abbrev Comparing := String → Comparison → Value → Value → Bool

/-- The values of a row. -/
abbrev RowValues := String → Value

/-- A row with another value in one column. -/
def RowValues.set (row : RowValues) (column : String) (v : Value) : RowValues :=
  fun name => if name = column then v else row name

theorem RowValues.set_self (row : RowValues) (column : String) (v : Value) :
    row.set column v column = v := if_pos rfl

theorem RowValues.set_of_ne (row : RowValues) {column other : String} (v : Value)
    (h : other ≠ column) : row.set column v other = row other := if_neg h

variable (db : Comparing) (row : RowValues)

/-- The truth of a comparison; with null it is unknown. -/
def compared (column : String) (comparison : Comparison) (operand : Value) : Truth :=
  if (row column).isNull || operand.isNull then .unknown
  else .ofBool (db column comparison (row column) operand)

/-- The comparisons with a negation in their words are the opposites of those without. -/
structure Comparing.Complementary (db : Comparing) : Prop where
  ne : ∀ column kept v, db column .ne kept v = !db column .eq kept v
  notLike : ∀ column kept v, db column .notLike kept v = !db column .like kept v

/-- Two values are equal or not, and nothing else is known of them. -/
def Comparing.ofEqual (equal : Value → Value → Bool) : Comparing
  | _, .eq, kept, v => equal kept v
  | _, .ne, kept, v => !equal kept v
  | _, .notLike, _, _ => true
  | _, _, _, _ => false

theorem Comparing.complementary_ofEqual (equal : Value → Value → Bool) :
    (ofEqual equal).Complementary := ⟨fun _ _ _ => rfl, fun _ _ _ => rfl⟩

variable {db row} in
theorem compared_ne (h : db.Complementary) (column : String) (v : Value) :
    compared db row column .ne v = (compared db row column .eq v).not := by
  unfold compared
  split
  · rfl
  · rw [h.ne]
    cases db column .eq (row column) v <;> rfl

variable {db row} in
theorem compared_notLike (h : db.Complementary) (column : String) (v : Value) :
    compared db row column .notLike v = (compared db row column .like v).not := by
  unfold compared
  split
  · rfl
  · rw [h.notLike]
    cases db column .like (row column) v <;> rfl

namespace Formula

mutual

/-- The truth of a formula about a row. -/
def eval : Formula → Truth
  | .compare column comparison operand => compared db row column comparison operand
  | .nullness column negated => .notIf negated (.ofBool (row column).isNull)
  | .member column negated operands =>
    .notIf negated (.joined .any (operands.map (compared db row column .eq)))
  | .range column negated low high =>
    .notIf negated (.join .all (compared db row column .gte low) (compared db row column .lte high))
  | .constant holds => .ofBool holds
  | .negation inner => (eval inner).not
  | .joined logic parts => .joined logic (evalAll parts)

/-- The truths of formulas. -/
def evalAll : List Formula → List Truth
  | [] => []
  | f :: rest => eval f :: evalAll rest

end

theorem evalAll_eq_map (fs : List Formula) : evalAll db row fs = fs.map (eval db row) := by
  induction fs with
  | nil => rfl
  | cons f rest ih => rw [evalAll, ih, List.map_cons]

theorem eval_joined (logic : Logic) (fs : List Formula) :
    eval db row (.joined logic fs) = .joined logic (fs.map (eval db row)) := by
  rw [eval, evalAll_eq_map]

theorem eval_negation (f : Formula) : eval db row (.negation f) = (eval db row f).not := by
  rw [eval]

/-- A single formula may stand without its brackets. -/
theorem eval_join (logic : Logic) (fs : List Formula) :
    eval db row (join logic fs) = .joined logic (fs.map (eval db row)) := by
  match fs with
  | [] => exact eval_joined db row logic []
  | [f] => exact (Truth.joined_singleton logic (eval db row f)).symm
  | f :: g :: rest => exact eval_joined db row logic (f :: g :: rest)

end Formula
end RowMapper.Sql
