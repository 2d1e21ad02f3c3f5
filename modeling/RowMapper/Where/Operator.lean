/-!
# Operators of the filter language

The words that a filter uses, in the order of the published table, and the SQL token of each.
-/
namespace RowMapper.Where

/-- The two ways of joining conditions. -/
inductive Logic where
  | all
  | any
  deriving DecidableEq, Inhabited

/-- Comparisons of a column with one value. -/
inductive Comparison where
  | eq | ne | gt | lt | gte | lte | like | notLike
  deriving DecidableEq, Inhabited

/-- What a word of the filter language does. -/
inductive Operator where
  | compare (comparison : Comparison)
  | member (negated : Bool)
  | join (logic : Logic)
  | range (negated : Bool)
  | nullness (negated : Bool)
  | negation
  deriving DecidableEq, Inhabited

/-- The SQL word between joined conditions. -/
def Logic.token : Logic → String
  | .all => "AND"
  | .any => "OR"

/-- The word of the filter language that joins conditions. -/
def Logic.name : Logic → String
  | .all => "and"
  | .any => "or"

/-- The SQL operator of a comparison. -/
def Comparison.token : Comparison → String
  | .eq => "="
  | .ne => "<>"
  | .gt => ">"
  | .lt => "<"
  | .gte => ">="
  | .lte => "<="
  | .like => "LIKE"
  | .notLike => "NOT LIKE"

/-- The SQL token of an operator. -/
def Operator.token : Operator → String
  | .compare comparison => comparison.token
  | .member negated => if negated then "NOT IN" else "IN"
  | .join logic => logic.token
  | .range negated => if negated then "NOT BETWEEN" else "BETWEEN"
  | .nullness negated => if negated then "IS NOT NULL" else "IS NULL"
  | .negation => "NOT"

/-- The words of the filter language, in the order in which they are listed. -/
def Operator.words : List (String × Operator) := [
  ("eq", .compare .eq), ("ne", .compare .ne), ("gt", .compare .gt), ("lt", .compare .lt),
  ("gte", .compare .gte), ("lte", .compare .lte), ("like", .compare .like),
  ("notLike", .compare .notLike), ("in", .member false), ("notIn", .member true),
  ("and", .join .all), ("or", .join .any), ("between", .range false), ("notBetween", .range true),
  ("isNull", .nullness false), ("isNotNull", .nullness true), ("not", .negation)]

/-- The operator that a word names. -/
def Operator.ofWord? (word : String) : Option Operator := Operator.words.lookup word

/-- The words and their SQL tokens. -/
def vocabulary : List (String × String) :=
  Operator.words.map (fun entry => (entry.1, entry.2.token))

end RowMapper.Where
