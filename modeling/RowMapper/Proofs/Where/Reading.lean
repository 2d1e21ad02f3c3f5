import Mathlib.Data.List.Basic
import RowMapper.Proofs.Sql.Formula
import RowMapper.Proofs.Where.Acceptance

/-!
# How a database reads a compiled filter

A filter means a formula: the entries of a mapping are joined by AND in their order, the items of a
group by the logic of the group, `not` negates all that is below it, and each operator on a column
has its own operand.  `compiled_filter_is_read_as_meant` says that this formula is what a database
reads in the compiled text, once the parameters are in the places of the question marks.

The proof goes over the tokens of a condition with the bound values in them.  Forgetting the values
gives the tokens of the text (`lexes_sql`), keeping only the values gives the parameters
(`params_eq_contents`), and reading them gives the formula (`reads_tokens`).
-/
namespace RowMapper.Where

open Sql (Breaks Formula Lexes LexesAlways Token contents contents_append)
open Sql.Reader (Reads)

/-! ## 1. What a filter means -/

/-- The formula of an operator on a column, if the operand fits; nothing is in an empty list. -/
def operatorFormula? (column : String) : Operator → Value → Option Formula
  | .compare .eq, .null => some (.nullness column false)
  | .compare .ne, .null => some (.nullness column true)
  | .compare comparison, operand => some (.compare column comparison operand)
  | .member negated, operand => operand.sequence?.map fun operands =>
    if operands.isEmpty then .constant negated else .member column negated operands
  | .range negated, operand =>
    match operand.sequence? with
    | some [low, high] => some (.range column negated low high)
    | _ => none
  | .nullness negated, _ => some (.nullness column negated)
  | .join _, _ => none
  | .negation, _ => none

mutual

/-- The formulas of the operators on a column, one for each. -/
def operatorFormulas (column : String) : List (Value × Value) → List Formula
  | [] => []
  | (operator, operand) :: rest =>
    (match operator.text?.bind Operator.ofWord? with
      | some .negation => [.negation (.join .all (columnFormulas column operand))]
      | some op => (operatorFormula? column op operand).toList
      | none => []) ++ operatorFormulas column rest

/-- The formulas of the value of a column. -/
def columnFormulas (column : String) : Value → List Formula
  | .mappingAt operators _ => operatorFormulas column operators
  | .null => [.nullness column false]
  | v => [.compare column .eq v]

end

mutual

/-- The formulas of the entries of a mapping, in their order. -/
def entryFormulas : List (Value × Value) → List Formula
  | [] => []
  | (key, value) :: rest => roleFormulas (roleOf key) key value ++ entryFormulas rest

/-- The formulas of one entry, given the role of its key. -/
def roleFormulas (role : Role) (key : Value) : Value → List Formula
  | .mappingAt entries place =>
    match role with
    | .join _ => []
    | .negation => [.negation (.join .all (entryFormulas entries))]
    | .column => columnFormulas (Sql.nameText key) (.mappingAt entries place)
  | .listAt items place =>
    match role with
    | .join logic => [.join logic (itemFormulas items)]
    | .negation => []
    | .column => columnFormulas (Sql.nameText key) (.listAt items place)
  | .tupleAt items place =>
    match role with
    | .join logic => [.join logic (itemFormulas items)]
    | .negation => []
    | .column => columnFormulas (Sql.nameText key) (.tupleAt items place)
  | v =>
    match role with
    | .column => columnFormulas (Sql.nameText key) v
    | _ => []

/-- The formulas of the items of a group, one for each mapping. -/
def itemFormulas : List Value → List Formula
  | [] => []
  | .mappingAt entries _ :: rest => .join .all (entryFormulas entries) :: itemFormulas rest
  | _ :: rest => itemFormulas rest

end

/-- The formula that a filter means; what is no mapping asks for nothing. -/
def meaning : Value → Formula
  | .mappingAt entries _ => .join .all (entryFormulas entries)
  | _ => .join .all []

/-! ## 2. Tokens and formulas of conditions -/

/-- The sign or the words of a comparison. -/
def comparisonTokens : Comparison → List (Token Value)
  | .like => [.word "LIKE"]
  | .notLike => [.word "NOT", .word "LIKE"]
  | comparison => [.sign comparison.token]

/-- The NOT of a negated operator. -/
def notTokens (negated : Bool) : List (Token Value) := if negated then [.word "NOT"] else []

/-- The values of a list with commas between them. -/
def listTokens (operands : List Value) : List (Token Value) :=
  [.comma].intercalate (operands.map fun v => [.mark v])

/-- The tokens of one entry of a group: several conditions stand between brackets. -/
def entryTokens (parts : List (List (Token Value))) : List (Token Value) :=
  match parts with
  | [only] => only
  | _ => .left :: ([.word Logic.all.token].intercalate parts ++ [.right])

namespace Condition

mutual

/-- The tokens of a condition, with the bound values at the marks. -/
def tokens : Condition → List (Token Value)
  | .compare column comparison operand =>
    .name column :: (comparisonTokens comparison ++ [.mark operand])
  | .nullness column negated =>
    .name column :: .word "IS" :: (notTokens negated ++ [.word "NULL"])
  | .member column negated operands =>
    .name column :: (notTokens negated ++ .word "IN" :: .left :: (listTokens operands ++ [.right]))
  | .range column negated low high =>
    .name column :: (notTokens negated ++ [.word "BETWEEN", .mark low, .word "AND", .mark high])
  | .constant holds => [.word "1", .sign "=", .word (if holds then "1" else "0")]
  | .group logic entries =>
    .left :: ([.word logic.token].intercalate (entriesTokens entries) ++ [.right])
  | .negation conjuncts =>
    .word "NOT" :: .left :: ([.word Logic.all.token].intercalate (allTokens conjuncts) ++ [.right])

/-- The tokens of conditions. -/
def allTokens : List Condition → List (List (Token Value))
  | [] => []
  | c :: rest => tokens c :: allTokens rest

/-- The tokens of the entries of a group. -/
def entriesTokens : List (List Condition) → List (List (Token Value))
  | [] => []
  | entry :: rest => entryTokens (allTokens entry) :: entriesTokens rest

end

mutual

/-- The formula of a condition. -/
def formula : Condition → Formula
  | .compare column comparison operand => .compare column comparison operand
  | .nullness column negated => .nullness column negated
  | .member column negated operands => .member column negated operands
  | .range column negated low high => .range column negated low high
  | .constant holds => .constant holds
  | .group logic entries => .join logic (entriesFormulas entries)
  | .negation conjuncts => .negation (.join .all (formulas conjuncts))

/-- The formulas of conditions. -/
def formulas : List Condition → List Formula
  | [] => []
  | c :: rest => formula c :: formulas rest

/-- The formulas of the entries of a group. -/
def entriesFormulas : List (List Condition) → List Formula
  | [] => []
  | entry :: rest => .join .all (formulas entry) :: entriesFormulas rest

end

theorem allSql_eq_map (cs : List Condition) : allSql cs = cs.map sql := by
  induction cs with
  | nil => rfl
  | cons c rest ih => rw [allSql, ih, List.map_cons]

theorem entriesSql_eq_map (entries : List (List Condition)) :
    entriesSql entries = entries.map fun entry => groupEntry (entry.map sql) := by
  induction entries with
  | nil => rfl
  | cons entry rest ih => rw [entriesSql, ih, allSql_eq_map, List.map_cons]

theorem allParams_eq_flatMap (cs : List Condition) : allParams cs = cs.flatMap params := by
  induction cs with
  | nil => rfl
  | cons c rest ih => rw [allParams, ih, List.flatMap_cons]

theorem entriesParams_eq_flatMap (entries : List (List Condition)) :
    entriesParams entries = entries.flatMap fun entry => entry.flatMap params := by
  induction entries with
  | nil => rfl
  | cons entry rest ih => rw [entriesParams, ih, allParams_eq_flatMap, List.flatMap_cons]

theorem allTokens_eq_map (cs : List Condition) : allTokens cs = cs.map tokens := by
  induction cs with
  | nil => rfl
  | cons c rest ih => rw [allTokens, ih, List.map_cons]

theorem entriesTokens_eq_map (entries : List (List Condition)) :
    entriesTokens entries = entries.map fun entry => entryTokens (entry.map tokens) := by
  induction entries with
  | nil => rfl
  | cons entry rest ih => rw [entriesTokens, ih, allTokens_eq_map, List.map_cons]

theorem formulas_eq_map (cs : List Condition) : formulas cs = cs.map formula := by
  induction cs with
  | nil => rfl
  | cons c rest ih => rw [formulas, ih, List.map_cons]

theorem entriesFormulas_eq_map (entries : List (List Condition)) :
    entriesFormulas entries = entries.map fun entry => .join .all (entry.map formula) := by
  induction entries with
  | nil => rfl
  | cons entry rest ih => rw [entriesFormulas, ih, formulas_eq_map, List.map_cons]

end Condition

/-! ## 3. The text gives the tokens -/

/-- Tokens as they stand in a text. -/
def blanks (ts : List (Token Value)) : List Sql.TextToken := ts.map Token.blank

theorem map_intercalate {α β : Type} (f : α → β) (gap : List α) (xs : List (List α)) :
    (gap.intercalate xs).map f = (gap.map f).intercalate (xs.map (List.map f)) := by
  induction xs with
  | nil => rfl
  | cons x rest ih => cases rest <;> simp_all

theorem lexes_comparison (comparison : Comparison) (operand : Value) :
    LexesAlways (" " ++ (comparison.token ++ " ?")).toList
      (blanks (comparisonTokens comparison ++ [.mark operand])) := by
  cases comparison <;> rfl

theorem lexes_nullness (negated : Bool) :
    Lexes (" " ++ (Operator.nullness negated).token).toList
      (blanks (.word "IS" :: (notTokens negated ++ [.word "NULL"]))) := by
  cases negated <;> exact ⟨_, _, _, rfl, rfl, rfl⟩

theorem lexes_range (negated : Bool) (low high : Value) :
    LexesAlways (" " ++ ((Operator.range negated).token ++ " ? AND ?")).toList
      (blanks (notTokens negated ++ [.word "BETWEEN", .mark low, .word "AND", .mark high])) := by
  cases negated <;> rfl

theorem lexes_member (negated : Bool) :
    LexesAlways (" " ++ (Operator.member negated).token ++ " (").toList
      (blanks (notTokens negated ++ [.word "IN", .left])) := by
  cases negated <;> rfl

theorem lexes_constant (holds : Bool) :
    Lexes (if holds then "1 = 1" else "1 = 0").toList
      (blanks (Condition.constant holds).tokens) := by
  cases holds <;> exact ⟨_, _, _, rfl, rfl, rfl⟩

theorem lexes_logic (logic : Logic) :
    LexesAlways (" " ++ logic.token ++ " ").toList [.word logic.token] := by
  cases logic <;> rfl

theorem lexes_comma : LexesAlways ", ".toList [.comma] := rfl

theorem lexes_mark : LexesAlways "?".toList [.mark ()] := rfl

theorem lexes_left : LexesAlways "(".toList [.left] := rfl

theorem lexes_right : LexesAlways ")".toList [.right] := rfl

theorem lexes_not : LexesAlways "NOT (".toList [.word "NOT", .left] := rfl

/-- A bracket around a piece. -/
theorem lexes_brackets {text : List Char} {ts : List Sql.TextToken} (h : Lexes text ts) :
    Lexes ("(".toList ++ (text ++ ")".toList)) (.left :: (ts ++ [.right])) :=
  lexes_left.append (Sql.lexes_append h lexes_right.lexes (by simp [Breaks]))

/-- Pieces with the word of a logic between them. -/
theorem lexes_joined (logic : Logic) {α : Type} (text : α → String) (ts : α → List (Token Value))
    (xs : List α) (h : ∀ x ∈ xs, Lexes (text x).toList (blanks (ts x))) :
    Lexes ((" " ++ logic.token ++ " ").intercalate (xs.map text)).toList
      (blanks ([.word logic.token].intercalate (xs.map ts))) := by
  have hbreak : ∀ rest, Breaks ((" " ++ logic.token ++ " ").toList ++ rest) := by
    intro rest
    simp [Breaks]
  have hjoined := Sql.lexes_intercalate (lexes_logic logic) hbreak (fun x => (text x).toList)
    (fun x => blanks (ts x)) xs h
  rw [String.toList_intercalate, List.map_map, blanks, map_intercalate, List.map_map]
  exact hjoined

/-- The list of a membership. -/
theorem lexes_list (operands : List Value) :
    Lexes (", ".intercalate (operands.map fun _ => "?")).toList (blanks (listTokens operands)) := by
  have hlist := Sql.lexes_intercalate lexes_comma (by simp [Breaks]) (fun _ : Value => "?".toList)
    (fun _ => [.mark ()]) operands (fun _ _ => lexes_mark.lexes)
  rw [String.toList_intercalate, List.map_map, blanks, listTokens, map_intercalate, List.map_map]
  exact hlist

/-- An entry of a group. -/
theorem lexes_entry {entry : List Condition} (hne : entry ≠ [])
    (h : ∀ c ∈ entry, Lexes c.sql.toList (blanks c.tokens)) :
    Lexes (groupEntry (entry.map Condition.sql)).toList
      (blanks (entryTokens (entry.map Condition.tokens))) := by
  match entry, hne with
  | [c], _ => exact h c (by simp)
  | c :: d :: rest, _ =>
    have hjoined := lexes_brackets (lexes_joined .all Condition.sql Condition.tokens _ h)
    simpa [groupEntry, conjunction, entryTokens, blanks, Token.blank, Logic.token] using hjoined

/-- A column in front of a piece that begins with a blank. -/
theorem lexes_column {column : String} (safe : Sql.isSafeName column.toList = true) {text : String}
    {ts : List (Token Value)} (h : Lexes (" " ++ text).toList (blanks ts)) :
    Lexes (Sql.quote column ++ (" " ++ text)).toList (blanks (.name column :: ts)) := by
  have hname : Lexes (Sql.quote column).toList [.name column] :=
    Sql.lexes_quote (Sql.not_mem_of_isSafeName safe)
  have hbreak : Breaks (" " ++ text).toList := by simp [Breaks]
  rw [String.toList_append]
  exact Sql.lexes_append hname h hbreak

/-- The column, the words before the list, and the list between its brackets. -/
theorem lexes_membership {column : String} (safe : Sql.isSafeName column.toList = true)
    (negated : Bool) (operands : List Value) :
    Lexes (Condition.member column negated operands).sql.toList
      (blanks (Condition.member column negated operands).tokens) := by
  have hlist : Lexes ((", ".intercalate (operands.map fun _ => "?")).toList ++ ")".toList)
      (blanks (listTokens operands) ++ [.right]) :=
    Sql.lexes_append (lexes_list operands) lexes_right.lexes (by simp [Breaks])
  have hafter := (lexes_member negated).append hlist
  have htokens : blanks (notTokens negated ++ [.word "IN", .left]) ++
      (blanks (listTokens operands) ++ [.right]) =
      blanks (notTokens negated ++ .word "IN" :: .left :: (listTokens operands ++ [.right])) := by
    simp [blanks, Token.blank]
  rw [htokens, ← String.toList_append, ← String.toList_append] at hafter
  simp only [String.append_assoc] at hafter
  simp only [Condition.sql, Condition.tokens, String.append_assoc]
  exact lexes_column safe hafter

/-- The text of a condition gives its tokens without the values. -/
theorem lexes_sql {c : Condition} (hc : c.WellFormed) : Lexes c.sql.toList (blanks c.tokens) := by
  induction hc with
  | compare safe =>
    rw [Condition.sql, Condition.tokens, String.append_assoc, String.append_assoc]
    exact lexes_column safe (lexes_comparison _ _).lexes
  | nullness safe =>
    rw [Condition.sql, Condition.tokens, String.append_assoc]
    exact lexes_column safe (lexes_nullness _)
  | member safe _ => exact lexes_membership safe _ _
  | range safe =>
    rw [Condition.sql, Condition.tokens, String.append_assoc, String.append_assoc]
    exact lexes_column safe (lexes_range _ _ _).lexes
  | constant => exact lexes_constant _
  | @group logic entries _ entry_ne _ ih =>
    have hentries : ∀ entry ∈ entries, Lexes (groupEntry (entry.map Condition.sql)).toList
        (blanks (entryTokens (entry.map Condition.tokens))) :=
      fun entry hmem => lexes_entry (entry_ne entry hmem) (ih entry hmem)
    have h := lexes_brackets (lexes_joined logic _ _ entries hentries)
    rw [Condition.sql, Condition.tokens, Condition.entriesSql_eq_map,
      Condition.entriesTokens_eq_map]
    simpa [blanks, Token.blank] using h
  | @negation conjuncts _ _ ih =>
    have hjoined := lexes_joined .all Condition.sql Condition.tokens conjuncts ih
    have h := lexes_not.append (Sql.lexes_append hjoined lexes_right.lexes (by simp [Breaks]))
    rw [Condition.sql, Condition.tokens, Condition.allSql_eq_map, Condition.allTokens_eq_map]
    simpa [conjunction, blanks, Token.blank, Logic.token] using h

/-! ## 4. The tokens hold the parameters -/

theorem contents_notTokens (negated : Bool) : contents (notTokens negated) = [] := by
  cases negated <;> rfl

theorem contents_comparisonTokens (comparison : Comparison) :
    contents (comparisonTokens comparison) = [] := by
  cases comparison <;> rfl

theorem contents_listTokens (operands : List Value) :
    contents (listTokens operands) = operands := by
  rw [listTokens, Sql.contents_intercalate [.comma] rfl]
  simp [contents]

theorem contents_brackets (ts : List (Token Value)) :
    contents (.left :: (ts ++ [.right])) = contents ts := by
  simp [contents, contents_append]

theorem contents_entryTokens (entry : List Condition) :
    contents (entryTokens (entry.map Condition.tokens)) =
      entry.flatMap fun c => contents c.tokens := by
  match entry with
  | [] => rfl
  | [c] => simp [entryTokens]
  | c :: d :: rest =>
    rw [List.map_cons, List.map_cons, entryTokens, contents_brackets, ← List.map_cons,
      ← List.map_cons, Sql.contents_intercalate _ rfl]
    simp

/-- The parameters of a condition are the bound values among its tokens. -/
theorem params_eq_contents {c : Condition} (hc : c.WellFormed) : c.params = contents c.tokens := by
  induction hc with
  | compare _ =>
    simp [Condition.params, Condition.tokens, contents, contents_append, contents_comparisonTokens]
  | nullness _ =>
    simp [Condition.params, Condition.tokens, contents, contents_append, contents_notTokens]
  | member _ _ =>
    simp [Condition.params, Condition.tokens, contents, contents_append, contents_notTokens,
      contents_listTokens]
  | range _ =>
    simp [Condition.params, Condition.tokens, contents, contents_append, contents_notTokens]
  | constant => rfl
  | @group logic entries _ _ _ ih =>
    rw [Condition.params, Condition.entriesParams_eq_flatMap, Condition.tokens,
      Condition.entriesTokens_eq_map, contents_brackets, Sql.contents_intercalate _ rfl]
    refine List.flatMap_congr fun entry hmem => ?_
    rw [contents_entryTokens]
    exact List.flatMap_congr (ih entry hmem)
  | @negation conjuncts _ _ ih =>
    rw [Condition.params, Condition.allParams_eq_flatMap, Condition.tokens,
      Condition.allTokens_eq_map]
    show _ = contents (.left :: (_ ++ [.right]))
    rw [contents_brackets, Sql.contents_intercalate _ rfl]
    exact List.flatMap_congr ih

/-! ## 5. The tokens are read as the formula -/

theorem reads_compare (column : String) (comparison : Comparison) (operand : Value) :
    Reads (Condition.compare column comparison operand).tokens
      (.compare column comparison operand) := by
  intro level outer
  cases comparison <;> rfl

theorem reads_nullness (column : String) (negated : Bool) :
    Reads (Condition.nullness column negated).tokens (.nullness column negated) := by
  intro level outer
  cases negated <;> rfl

theorem reads_range (column : String) (negated : Bool) (low high : Value) :
    Reads (Condition.range column negated low high).tokens (.range column negated low high) := by
  intro level outer
  cases negated <;> rfl

theorem reads_constant (holds : Bool) :
    Reads (Condition.constant holds).tokens (.constant holds) := by
  intro level outer
  cases holds <;> rfl

/-- Inside the brackets of a list the values are gathered in their order. -/
theorem run_list (column : String) (negated : Bool) (level : Sql.Level) (outer : List Sql.Level) :
    ∀ (operands items : List Value), operands ≠ [] →
      Sql.Reader.run ⟨level, outer, .within (.item column negated items)⟩
          (listTokens operands ++ [.right]) =
        some ⟨level.operand (.member column negated (items ++ operands)), outer, .behind⟩
  | [], _, hne => absurd rfl hne
  | [v], items, _ => by
    rfl
  | v :: w :: rest, items, _ => by
    have hrest := run_list column negated level outer (w :: rest) (items ++ [v]) (by simp)
    have hsplit : listTokens (v :: w :: rest) ++ [.right] =
        .mark v :: .comma :: (listTokens (w :: rest) ++ [.right]) := by
      simp [listTokens, List.intercalate_cons_cons]
    rw [hsplit, Sql.Reader.run_cons]
    simp only [Sql.Reader.step, Sql.Partial.step, Option.bind_some, Sql.Reader.run_cons, hrest]
    simp

theorem reads_member (column : String) (negated : Bool) {operands : List Value}
    (hne : operands ≠ []) :
    Reads (Condition.member column negated operands).tokens (.member column negated operands) := by
  intro level outer
  have hlist := run_list column negated level outer operands [] hne
  cases negated <;> exact hlist

/-- An entry of a group is read as the conjunction of its conditions. -/
theorem reads_entry {entry : List Condition} (hne : entry ≠ [])
    (h : ∀ c ∈ entry, Reads c.tokens c.formula) :
    Reads (entryTokens (entry.map Condition.tokens))
      (.join .all (entry.map Condition.formula)) := by
  match entry, hne with
  | [c], _ => exact h c (by simp)
  | c :: d :: rest, _ => exact Sql.Reader.reads_bracket .all _ _ (by simp) h

/-- The tokens of a condition are read as its formula. -/
theorem reads_tokens {c : Condition} (hc : c.WellFormed) : Reads c.tokens c.formula := by
  induction hc with
  | compare _ => exact reads_compare _ _ _
  | nullness _ => exact reads_nullness _ _
  | member _ hne => exact reads_member _ _ hne
  | range _ => exact reads_range _ _ _ _
  | constant => exact reads_constant _
  | @group logic entries hne entry_ne _ ih =>
    rw [Condition.tokens, Condition.formula, Condition.entriesTokens_eq_map,
      Condition.entriesFormulas_eq_map]
    exact Sql.Reader.reads_bracket logic _ _ hne
      (fun entry hmem => reads_entry (entry_ne entry hmem) (ih entry hmem))
  | @negation conjuncts hne _ ih =>
    rw [Condition.tokens, Condition.formula, Condition.allTokens_eq_map, Condition.formulas_eq_map]
    exact Sql.Reader.reads_not (Sql.Reader.reads_bracket .all _ _ hne ih)

/-- A database reads a fragment of conditions as their conjunction. -/
theorem read?_compileConjunction {cs : List Condition} (h : ∀ c ∈ cs, c.WellFormed) :
    (compileConjunction cs).read? = some (.join .all (cs.map Condition.formula)) := by
  have htext : Sql.tokens? (conjunction (Condition.allSql cs)) =
      some (blanks ([.word Logic.all.token].intercalate (cs.map Condition.tokens))) := by
    rw [Condition.allSql_eq_map]
    exact Sql.tokens?_of_lexes
      (lexes_joined .all Condition.sql Condition.tokens cs (fun c hc => lexes_sql (h c hc)))
  have hparams : Condition.allParams cs =
      contents ([.word Logic.all.token].intercalate (cs.map Condition.tokens)) := by
    rw [Condition.allParams_eq_flatMap, Sql.contents_intercalate _ rfl]
    exact List.flatMap_congr fun c hc => params_eq_contents (h c hc)
  have hparse := Sql.parse?_conjunction Condition.tokens Condition.formula cs
    (fun c hc => reads_tokens (h c hc))
  simp only [Sql.Fragment.read?, compileConjunction, htext, hparams]
  show (Sql.supply _ _).bind _ = _
  rw [blanks, Sql.supply_contents]
  exact hparse

/-! ## 6. The conditions are what the filter means -/

/-- An operator other than `not` gives the condition of its formula. -/
theorem operatorEntry_formula {key operand : Value} {column word : String} {op : Operator}
    {c : Condition} (hop : op ≠ .negation)
    (h : operatorEntry key column word op operand = .ok c) :
    operatorFormula? column op operand = some c.formula := by
  cases op with
  | compare comparison =>
    rcases operatorEntry_compare.mp h with ⟨hscalar, rfl⟩ | ⟨rfl, rfl, rfl⟩ | ⟨rfl, rfl, rfl⟩
    · have hnull := hscalar.notNull
      cases comparison <;> cases operand <;> first | rfl | exact absurd rfl hnull
    · rfl
    · rfl
  | member negated =>
    obtain ⟨operands, hoperands, rfl⟩ := operatorEntry_member.mp h
    rw [operatorFormula?, hoperands]
    cases operands <;> rfl
  | join logic => exact absurd h operatorEntry_join
  | range negated =>
    obtain ⟨low, high, hoperands, rfl⟩ := operatorEntry_range.mp h
    rw [operatorFormula?, hoperands]
    rfl
  | nullness negated =>
    obtain ⟨-, rfl⟩ := operatorEntry_nullness.mp h
    rfl
  | negation => exact absurd rfl hop

theorem operatorFormulas_single {column word : String} {operand : Value} {op : Operator}
    {place : Place} {stated : Formula} (hword : Operator.ofWord? word = some op)
    (hfits : operatorFormula? column op operand = some stated) :
    operatorFormulas column [(.strAt word place, operand)] = [stated] := by
  have hop : (Value.strAt word place).text?.bind Operator.ofWord? = some op := hword
  rw [operatorFormulas, hop]
  cases op <;> first
    | (simp only [hfits]; rfl)
    | cases hfits

theorem columnFormulas_of_scalar {column : String} {v : Value} (h : IsScalar v) :
    columnFormulas column v = [.compare column .eq v] := by
  have hnull := h.notNull
  have hmapping := h.notMapping
  cases v <;> first | rfl | exact absurd rfl hnull | exact absurd rfl (hmapping _ _)

theorem operatorFormulas_eq {key : Value} {column : String} (operators : List (Value × Value)) :
    ∀ {cs}, operatorConditions key column operators = .ok cs →
      cs.map Condition.formula = operatorFormulas column operators := by
  induction operators using entries_induction with
  | nil =>
    intro cs h
    cases h
    rfl
  | cons operator operand rest ihMapping _ ihRest =>
    intro cs h
    obtain ⟨word, op, first, others, htext, hword, hfirst, hothers, rfl⟩ :=
      operatorConditions_cons.mp h
    rw [List.map_cons, ihRest hothers, operatorFormulas, htext, Option.bind_some, hword]
    by_cases hop : op = .negation
    · subst hop
      obtain ⟨parts, hparts, rfl⟩ := operatorEntry_negation.mp hfirst
      have hformulas : parts.map Condition.formula = columnFormulas column operand := by
        rcases negatedColumn_eq_ok.mp hparts with
          ⟨entries, place, rfl, _, hentries⟩ | ⟨rfl, rfl⟩ | ⟨hscalar, rfl⟩
        · exact ihMapping entries place rfl hentries
        · rfl
        · exact (columnFormulas_of_scalar hscalar).symm
      rw [Condition.formula, Condition.formulas_eq_map, hformulas]
      rfl
    · have hformula := operatorEntry_formula hop hfirst
      cases op <;> first | exact absurd rfl hop | (simp only [hformula]; rfl)

theorem columnFormulas_eq {key value : Value} {cs : List Condition}
    (h : columnConditions key value = .ok cs) :
    cs.map Condition.formula = columnFormulas (Sql.nameText key) value := by
  obtain ⟨column, hcolumn, hvalue⟩ := columnConditions_eq_ok.mp h
  obtain ⟨-, -, rfl⟩ := safeName_eq_ok.mp hcolumn
  rcases negatedColumn_eq_ok.mp hvalue with
    ⟨entries, place, rfl, _, hentries⟩ | ⟨rfl, rfl⟩ | ⟨hscalar, rfl⟩
  · exact operatorFormulas_eq entries hentries
  · rfl
  · exact (columnFormulas_of_scalar hscalar).symm

theorem itemFormulas_eq {logic : Logic} : ∀ {items : List Value} {parts : List (List Condition)},
    groupConditions logic items = .ok parts →
    (∀ entries place, Value.mappingAt entries place ∈ items →
      ∀ {cs}, conditions entries = .ok cs → cs.map Condition.formula = entryFormulas entries) →
    parts.map (fun part => .join .all (part.map Condition.formula)) = itemFormulas items
  | [], parts, h, _ => by
    cases h
    rfl
  | item :: rest, parts, h, ih => by
    obtain ⟨first, others, hitem, hothers, rfl⟩ := groupConditions_cons.mp h
    obtain ⟨entries, place, rfl, -, hentries⟩ := itemConditions_eq_ok.mp hitem
    rw [List.map_cons, ih entries place (by simp) hentries, itemFormulas_eq hothers
      (fun entries place hmem => ih entries place (List.mem_cons_of_mem _ hmem)), itemFormulas]

theorem roleFormulas_column (key value : Value) :
    roleFormulas .column key value = columnFormulas (Sql.nameText key) value := by
  cases value <;> rfl

/-- The conditions that are read from entries say what the entries mean. -/
theorem entryFormulas_eq (entries : List (Value × Value)) :
    ∀ {cs}, conditions entries = .ok cs → cs.map Condition.formula = entryFormulas entries := by
  induction entries using entries_induction with
  | nil =>
    intro cs h
    cases h
    rfl
  | cons key value rest ihMapping ihItems ihRest =>
    intro cs h
    obtain ⟨first, others, hfirst, hothers, rfl⟩ := conditions_cons.mp h
    rw [List.map_append, ihRest hothers, entryFormulas]
    congr 1
    cases hrole : roleOf key with
    | join logic =>
      rw [hrole] at hfirst
      obtain ⟨items, parts, hitems, -, hparts, rfl⟩ := entryConditions_join.mp hfirst
      have hformulas := itemFormulas_eq hparts (ihItems items hitems)
      have hvalue : roleFormulas (.join logic) key value = [.join logic (itemFormulas items)] := by
        cases value <;> simp only [Value.sequence?, Option.some.injEq, reduceCtorEq] at hitems <;>
          subst hitems <;> rfl
      rw [hvalue, ← hformulas, ← Condition.entriesFormulas_eq_map]
      rfl
    | negation =>
      rw [hrole] at hfirst
      obtain ⟨entries, place, parts, rfl, -, hparts, rfl⟩ := entryConditions_negation.mp hfirst
      rw [roleFormulas, List.map_singleton, Condition.formula, Condition.formulas_eq_map,
        ihMapping entries place rfl hparts]
    | column =>
      rw [hrole, entryConditions_column] at hfirst
      rw [columnFormulas_eq hfirst, roleFormulas_column]

/-- What is compiled from a mapping is read as what the mapping means. -/
theorem read?_of_conditions {entries : List (Value × Value)} {cs : List Condition}
    (h : conditions entries = .ok cs) :
    (compileConjunction cs).read? = some (meaning (.mapping entries)) := by
  rw [read?_compileConjunction (conditions_wellFormed entries h).1, entryFormulas_eq entries h]
  rfl

theorem meaning_of_not_mapping {filter : Value} (h : filter.isMapping = false) :
    meaning filter = .join .all [] := by
  cases filter <;> first
    | rfl
    | cases h

/-- **A compiled filter is read as it is meant.**  The text of an accepted filter, read by the
precedence of SQL with the parameters put in from left to right, is the formula that the filter
means. -/
theorem compiled_filter_is_read_as_meant (filter : Value) (fragment : Sql.Fragment)
    (h : compile filter = .ok fragment) : fragment.read? = some (meaning filter) := by
  rcases compile_eq_ok.mp h with ⟨-, hmapping, rfl⟩ | ⟨entries, place, cs, rfl, hcs, rfl⟩
  · rw [meaning_of_not_mapping hmapping]
    rfl
  · exact read?_of_conditions hcs

/-- A range beside a group with a conjunction and a negated membership in it. -/
theorem nested_filter_is_read_as_meant :
    let filter : Value := .mapping [
      (.str "a", .mapping [(.str "between", .list [.int 1, .int 2])]),
      (.str "or", .list [
        .mapping [(.str "b", .int 3), (.str "c", .null)],
        .mapping [(.str "not", .mapping [(.str "d", .mapping [(.str "in", .tuple [.int 4])])])]])]
    let fragment : Sql.Fragment :=
      ⟨"\"a\" BETWEEN ? AND ? AND ((\"b\" = ? AND \"c\" IS NULL) OR NOT (\"d\" IN (?)))",
        [.int 1, .int 2, .int 3, .int 4]⟩
    compile filter = .ok fragment ∧
      fragment.read? = some (.joined .all [
        .range "a" false (.int 1) (.int 2),
        .joined .any [
          .joined .all [.compare "b" .eq (.int 3), .nullness "c" false],
          .negation (.member "d" false [.int 4])]]) := by
  intro filter fragment
  have h : compile filter = .ok fragment := rfl
  exact ⟨h, compiled_filter_is_read_as_meant filter fragment h⟩

end RowMapper.Where
