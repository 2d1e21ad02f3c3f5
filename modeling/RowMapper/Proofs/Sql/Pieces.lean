import Mathlib.Algebra.GroupWithZero.Nat
import RowMapper.Proofs.Sql.Row
import RowMapper.Proofs.Where.Reading

/-!
# What selections are made of

A selection is put together from keywords, marks and brackets (`pieces`), quoted names and checked
clauses.  A property of texts that all of these have, and that texts keep when they are put one
behind the other (`PieceLaw`), is a property of every compiled filter (`PieceLaw.compile`) and of
every selection without its paging (`PieceLaw.statement`).  The property may count the marks of a
text: a text that is put together has the marks of its parts.
-/
namespace RowMapper.Sql

/-- The fixed texts in conditions and selections, with the number of their marks. -/
def pieces : List (Nat × String) :=
  [(0, ""), (1, "?"), (0, ", "), (0, "("), (0, ")"), (0, "()"), (0, "NOT ("), (0, " AND "),
    (0, " OR "), (1, " = ?"), (1, " <> ?"), (1, " > ?"), (1, " < ?"), (1, " >= ?"), (1, " <= ?"),
    (1, " LIKE ?"), (1, " NOT LIKE ?"), (0, " IS NULL"), (0, " IS NOT NULL"), (0, " IN ("),
    (0, " NOT IN ("), (2, " BETWEEN ? AND ?"), (2, " NOT BETWEEN ? AND ?"), (0, "1 = 0"),
    (0, "1 = 1"), (0, "SELECT "), (0, "*"), (0, " FROM "), (0, " WHERE "), (0, " GROUP BY "),
    (0, " ORDER BY ")]

/-- A property of texts with a number of marks that the pieces of selections have, and that is kept
when texts are put together. -/
structure PieceLaw (P : Nat → String → Prop) : Prop where
  append {m n : Nat} {a b : String} : P m a → P n b → P (m + n) (a ++ b)
  fixed {n : Nat} {text : String} : (n, text) ∈ pieces → P n text
  name {name : String} : isSafeName name.toList = true → P 0 (quote name)
  clause {kind clause text : String} : checkClause kind clause = .ok text → P 0 text

namespace PieceLaw

variable {P : Nat → String → Prop} (law : PieceLaw P)
include law

/-! ## 1. Lists -/

/-- Texts put together with a separator. -/
theorem intercalate {α : Type} {separator : String} (hseparator : P 0 separator)
    {text : α → String} {count : α → Nat} (xs : List α) (h : ∀ x ∈ xs, P (count x) (text x)) :
    P (xs.map count).sum (separator.intercalate (xs.map text)) := by
  induction xs with
  | nil => exact (law.fixed (by decide) : P 0 "")
  | cons x rest ih =>
    have hx := h x List.mem_cons_self
    have hrest := ih fun y hy => h y (List.mem_cons_of_mem x hy)
    cases rest with
    | nil => simpa using hx
    | cons y ys =>
      have hjoined := law.append (law.append hx hseparator) hrest
      simp only [List.map_cons, String.intercalate_cons_cons, List.sum_cons, Nat.add_zero] at *
      exact hjoined

/-- Texts without marks put together. -/
theorem intercalate_zero {separator : String} (hseparator : P 0 separator) {texts : List String}
    (h : ∀ text ∈ texts, P 0 text) : P 0 (separator.intercalate texts) := by
  have hcount : ∀ text ∈ texts, P ((fun _ => 0) text) (id text) := h
  simpa using law.intercalate hseparator texts hcount

theorem comma : P 0 ", " := law.fixed (by decide)

theorem quoteIdentifier {identifier : Value} {text : String}
    (h : orFault (quoteIdentifier identifier) = .ok text) : P 0 text := by
  obtain ⟨name, -, safe, rfl⟩ := quoteIdentifier_eq_ok h
  exact law.name safe

theorem quoteAll {names : List Value} {texts : List String} (h : quoteAll names = .ok texts) :
    P 0 (", ".intercalate texts) := by
  obtain ⟨safe, hsafe, rfl, -⟩ := quoteAll_eq_ok h
  refine law.intercalate_zero law.comma fun text htext => ?_
  obtain ⟨name, hname, rfl⟩ := List.mem_map.mp htext
  exact law.name (hsafe name hname)

/-! ## 2. Conditions -/

theorem logic (logic : Where.Logic) : P 0 (" " ++ logic.token ++ " ") :=
  law.fixed (by cases logic <;> decide)

theorem parts (logic : Where.Logic) {cs : List Where.Condition}
    (h : ∀ c ∈ cs, P c.params.length c.sql) :
    P (cs.flatMap Where.Condition.params).length
      ((" " ++ logic.token ++ " ").intercalate (cs.map Where.Condition.sql)) := by
  rw [List.length_flatMap]
  exact law.intercalate (law.logic logic) cs h

theorem right : P 0 ")" := law.fixed (by decide)

theorem brackets {n : Nat} {text : String} (h : P n text) : P n ("(" ++ text ++ ")") := by
  have hleft : P 0 "(" := law.fixed (by decide)
  simpa using law.append (law.append hleft h) law.right

theorem entry {entry : List Where.Condition} (h : ∀ c ∈ entry, P c.params.length c.sql) :
    P (entry.flatMap Where.Condition.params).length
      (Where.groupEntry (entry.map Where.Condition.sql)) := by
  match entry with
  | [] => exact law.fixed (by decide)
  | [c] => simpa [Where.groupEntry] using h
  | c :: d :: rest => exact law.brackets (law.parts .all h)

/-- A condition, with the marks of its parameters. -/
theorem condition {c : Where.Condition} (hc : c.WellFormed) : P c.params.length c.sql := by
  induction hc with
  | @compare column comparison operand safe =>
    have htoken : P 1 (" " ++ comparison.token ++ " ?") :=
      law.fixed (by cases comparison <;> decide)
    simpa [Where.Condition.sql, Where.Condition.params, String.append_assoc] using
      law.append (law.name safe) htoken
  | @nullness column negated safe =>
    have htoken : P 0 (" " ++ (Where.Operator.nullness negated).token) :=
      law.fixed (by cases negated <;> decide)
    simpa [Where.Condition.sql, Where.Condition.params, String.append_assoc] using
      law.append (law.name safe) htoken
  | @member column negated operands safe _ =>
    have htoken : P 0 (" " ++ (Where.Operator.member negated).token ++ " (") :=
      law.fixed (by cases negated <;> decide)
    have hmark : P 1 "?" := law.fixed (by decide)
    have hlist := law.intercalate law.comma operands fun _ _ => hmark
    simpa [Where.Condition.sql, Where.Condition.params, String.append_assoc] using
      law.append (law.append (law.append (law.name safe) htoken) hlist) law.right
  | @range column negated low high safe =>
    have htoken : P 2 (" " ++ (Where.Operator.range negated).token ++ " ? AND ?") :=
      law.fixed (by cases negated <;> decide)
    simpa [Where.Condition.sql, Where.Condition.params, String.append_assoc] using
      law.append (law.name safe) htoken
  | @constant holds => cases holds <;> exact law.fixed (by decide)
  | @group logic entries _ _ _ ih =>
    have hentries := law.intercalate (law.logic logic) entries fun entry hentry =>
      law.entry (ih entry hentry)
    rw [Where.Condition.sql, Where.Condition.params, Where.Condition.entriesSql_eq_map,
      Where.Condition.entriesParams_eq_flatMap, List.length_flatMap]
    exact law.brackets hentries
  | @negation conjuncts _ _ ih =>
    have hnot : P 0 "NOT (" := law.fixed (by decide)
    rw [Where.Condition.sql, Where.Condition.params, Where.Condition.allSql_eq_map,
      Where.Condition.allParams_eq_flatMap]
    have hjoined : P (conjuncts.flatMap Where.Condition.params).length
        (Where.conjunction (conjuncts.map Where.Condition.sql)) := law.parts .all ih
    simpa only [Nat.zero_add, Nat.add_zero] using law.append (law.append hnot hjoined) law.right

/-- A compiled filter, with the marks of its parameters. -/
theorem compile {filter : Value} {part : Fragment} (h : Where.compile filter = .ok part) :
    P part.params.length part.text := by
  rcases Where.compile_eq_ok.mp h with ⟨-, -, rfl⟩ | ⟨entries, place, cs, rfl, hcs, rfl⟩
  · exact law.fixed (by decide)
  · have hjoined := law.parts .all fun c hc =>
      law.condition ((Where.conditions_wellFormed entries hcs).1 c hc)
    rw [← Where.Condition.allParams_eq_flatMap, ← Where.Condition.allSql_eq_map] at hjoined
    exact hjoined

/-! ## 3. Selections -/

theorem columnList {columns : Value} {text : String} (h : columnList columns = .ok text) :
    P 0 text := by
  unfold Sql.columnList at h
  split at h
  · obtain ⟨names, -, h⟩ := bind_eq_ok.mp h
    obtain ⟨texts, htexts, h⟩ := bind_eq_ok.mp h
    cases h
    exact law.quoteAll htexts
  · cases h
    exact law.fixed (by decide)

theorem clausePart {keyword : String} (hkeyword : (0, " " ++ keyword ++ " ") ∈ pieces)
    {clause : Value} {text : String} (h : clausePart keyword clause = .ok text) : P 0 text := by
  unfold Sql.clausePart at h
  split at h
  · split at h
    · obtain ⟨checked, hchecked, h⟩ := bind_eq_ok.mp h
      cases h
      exact law.append (law.fixed hkeyword) (law.clause (orFault_eq_ok.mp hchecked))
    · cases h
  · cases h
    exact law.fixed (by decide)

theorem wherePart {filter : Option Fragment}
    (h : ∀ part, filter = some part → P part.params.length part.text) :
    P (wherePart filter).params.length (wherePart filter).text := by
  cases filter with
  | none => exact law.fixed (by decide)
  | some part =>
    have hwhere : P 0 " WHERE " := law.fixed (by decide)
    unfold Sql.wherePart
    dsimp only
    split
    · exact law.fixed (by decide)
    · simpa using law.append hwhere (h part rfl)

/-- A selection, without the paging at its end. -/
theorem statement {s : Select}
    (hfilter : ∀ part, s.filter = some part → P part.params.length part.text) {f : Fragment}
    (h : s.statement = .ok f) : ∃ text paging, P f.params.length text ∧
      pagingPart s.limit s.offset = .ok paging ∧ f.text = text ++ paging := by
  obtain ⟨table, htable, h⟩ := bind_eq_ok.mp h
  obtain ⟨columns, hcolumns, h⟩ := bind_eq_ok.mp h
  obtain ⟨group, hgroup, h⟩ := bind_eq_ok.mp h
  obtain ⟨order, horder, h⟩ := bind_eq_ok.mp h
  obtain ⟨paging, hpaging, h⟩ := bind_eq_ok.mp h
  cases h
  have hselect : P 0 "SELECT " := law.fixed (by decide)
  have hfrom : P 0 " FROM " := law.fixed (by decide)
  have hstart := law.append (law.append (law.append hselect (law.columnList hcolumns)) hfrom)
    (law.quoteIdentifier htable)
  have hend := law.append (law.append (law.append hstart (law.wherePart hfilter))
    (law.clausePart (by decide) hgroup)) (law.clausePart (by decide) horder)
  exact ⟨_, paging, by simpa using hend, hpaging, rfl⟩

end PieceLaw
end RowMapper.Sql
