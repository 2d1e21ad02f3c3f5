import Mathlib.Algebra.GroupWithZero.Nat
import Mathlib.Tactic.FinCases
import RowMapper.Proofs.Sql.Pieces
import RowMapper.TableDefinition

/-!
# Question marks and parameters

A value is bound where a question mark stands outside quoted names, so a statement needs as many
parameters as it has such marks (`markCount`).  `Marked n text` says that a text has `n` of them and
leaves no name open: such texts can be put together, and their marks add up.  A safe name, a checked
clause and a number have neither marks nor quotes, whatever they are made from, so filters and
selections are `Marked` by `markedLaw`.

Here are the marks of every text that the library assembles: of a condition, of a selection, of the
statements that write a row, and of the definition of a table.
-/
namespace RowMapper.Sql

/-! ## 1. Counting -/

/-- A text read up to some place: the marks so far, and whether the place is inside a name. -/
structure MarkReader where
  marks : Nat := 0
  quoted : Bool := false

/-- Reads one character. -/
def MarkReader.step (r : MarkReader) (c : Char) : MarkReader :=
  if c = '"' then { r with quoted := !r.quoted }
  else if c = '?' ∧ r.quoted = false then { r with marks := r.marks + 1 }
  else r

/-- The number of question marks outside quoted names. -/
def markCount (text : String) : Nat := (text.toList.foldl MarkReader.step {}).marks

/-- A text with some number of marks that ends outside quoted names if it starts there. -/
def Marked (n : Nat) (text : String) : Prop :=
  ∀ k, text.toList.foldl MarkReader.step ⟨k, false⟩ = ⟨k + n, false⟩

section Marked

variable {m n : Nat} {a b text : String}

theorem Marked.markCount_eq (h : Marked n text) : markCount text = n := by
  rw [markCount, h 0]
  exact Nat.zero_add n

theorem Marked.append (ha : Marked m a) (hb : Marked n b) : Marked (m + n) (a ++ b) := by
  intro k
  rw [String.toList_append, List.foldl_append, ha k, hb (k + m), Nat.add_assoc]

theorem marked_nil : Marked 0 "" := fun _ => rfl

end Marked

/-! ## 2. Texts without marks -/

/-- A text that has neither marks nor quotes. -/
def Bare (cs : List Char) : Prop := ∀ c ∈ cs, c ≠ '"' ∧ c ≠ '?'

theorem step_of_bare {c : Char} (h : c ≠ '"' ∧ c ≠ '?') (r : MarkReader) : r.step c = r := by
  simp [MarkReader.step, h]

theorem foldl_bare {cs : List Char} (h : Bare cs) (r : MarkReader) :
    cs.foldl MarkReader.step r = r := by
  induction cs with
  | nil => rfl
  | cons c cs ih =>
    rw [List.foldl_cons, step_of_bare (h c List.mem_cons_self)]
    exact ih fun d hd => h d (List.mem_cons_of_mem c hd)

theorem marked_of_bare {text : String} (h : Bare text.toList) : Marked 0 text :=
  fun _ => foldl_bare h _

/-- What stands between the quotes of a name does not count. -/
theorem foldl_quoted {name : List Char} (h : '"' ∉ name) (k : Nat) :
    name.foldl MarkReader.step ⟨k, true⟩ = ⟨k, true⟩ := by
  induction name with
  | nil => rfl
  | cons c cs ih =>
    rw [List.mem_cons, not_or] at h
    have hstep : MarkReader.step ⟨k, true⟩ c = ⟨k, true⟩ := by simp [MarkReader.step, Ne.symm h.1]
    rw [List.foldl_cons, hstep, ih h.2]

theorem marked_quote {name : String} (safe : isSafeName name.toList = true) :
    Marked 0 (quote name) := by
  intro k
  have htext : (quote name).toList = '"' :: (name.toList ++ ['"']) := by simp [quote]
  have hopen : MarkReader.step ⟨k, false⟩ '"' = ⟨k, true⟩ := rfl
  rw [htext, List.foldl_cons, List.foldl_append, hopen, foldl_quoted (not_mem_of_isSafeName safe)]
  rfl

/-! ## 3. Clauses and numbers -/

/-- A state that waits for nothing but letters of the directions. -/
def ClauseState.Lettered : ClauseState → Prop
  | .direction missing => ∀ c ∈ missing, c ∈ ['e', 's', 'c']
  | _ => True

/-- No clause goes on with a quote or a mark. -/
theorem ClauseState.step_eq_none {s : ClauseState} (hs : s.Lettered) {c : Char}
    (hc : c = '"' ∨ c = '?') : s.step c = none := by
  cases s with
  | direction missing =>
    cases missing with
    | nil => rcases hc with rfl | rfl <;> rfl
    | cons expected missing =>
      have hexpected : expected ∈ ['e', 's', 'c'] := hs expected List.mem_cons_self
      simp only [List.mem_cons, List.not_mem_nil, or_false] at hexpected
      rcases hc with rfl | rfl <;> rcases hexpected with rfl | rfl | rfl <;> rfl
  | _ => rcases hc with rfl | rfl <;> rfl

theorem ClauseState.afterEnd?_lettered {c : Char} {onBlank t : ClauseState}
    (h : afterEnd? c onBlank = some t) (hblank : onBlank.Lettered) : t.Lettered := by
  unfold afterEnd? at h
  split at h
  · cases h
    trivial
  · split at h <;> cases h
    exact hblank

theorem ClauseState.step_lettered {s t : ClauseState} (hs : s.Lettered) {c : Char}
    (h : s.step c = some t) : t.Lettered := by
  cases s with
  | before =>
    simp only [step] at h
    split at h
    · cases h
      trivial
    · split at h <;> cases h
      trivial
  | name =>
    simp only [step] at h
    split at h
    · cases h
      trivial
    · exact afterEnd?_lettered h trivial
  | gap =>
    simp only [step] at h
    split at h
    · cases h
      simp [Lettered]
    · split at h
      · cases h
        simp [Lettered]
      · exact afterEnd?_lettered h trivial
  | direction missing =>
    cases missing with
    | nil => exact afterEnd?_lettered h trivial
    | cons expected missing =>
      simp only [step] at h
      split at h <;> cases h
      exact fun c hc => hs c (List.mem_cons_of_mem expected hc)
  | behind => exact afterEnd?_lettered h trivial

theorem bare_of_foldlM {cs : List Char} {s t : ClauseState}
    (h : cs.foldlM ClauseState.step s = some t) (hs : s.Lettered) : Bare cs := by
  induction cs generalizing s with
  | nil => simp [Bare]
  | cons c cs ih =>
    rw [List.foldlM_cons, Option.bind_eq_bind, Option.bind_eq_some_iff] at h
    obtain ⟨next, hstep, h⟩ := h
    have hc : ¬(c = '"' ∨ c = '?') := fun hc => by
      rw [ClauseState.step_eq_none hs hc] at hstep
      cases hstep
    intro d hd
    rcases List.mem_cons.mp hd with rfl | hd
    · exact not_or.mp hc
    · exact ih h (ClauseState.step_lettered hs hstep) d hd

/-- Taking blanks off the ends of a text leaves no other characters. -/
theorem mem_of_mem_trim {text : String} {c : Char} (h : c ∈ (Text.trim text).toList) :
    c ∈ text.toList := by
  rw [Text.trim, String.toList_ofList, Text.trimChars, List.mem_reverse] at h
  have hfront := List.dropWhile_subset _ h
  rw [List.mem_reverse] at hfront
  exact List.dropWhile_subset _ hfront

/-- What may follow ORDER BY or GROUP BY has neither marks nor quotes. -/
theorem bare_checkClause {keyword clause text : String}
    (h : checkClause keyword clause = .ok text) : Bare text.toList := by
  unfold checkClause at h
  split at h
  · rename_i hsafe
    cases h
    obtain ⟨state, hstate, -⟩ := (Option.any_eq_true ..).mp hsafe
    have hbare : Bare clause.toList := bare_of_foldlM hstate trivial
    exact fun c hc => hbare c (mem_of_mem_trim hc)
  · cases h

theorem bare_integer (n : Int) : Bare (toString n).toList := by
  have hdigits (m : Nat) : Bare (Nat.repr m).toList := by
    intro c hc
    have hdigit : c.isDigit = true :=
      Nat.isDigit_of_mem_toDigits (b := 10) (n := m) (by decide) (by decide)
        (by simpa [Nat.repr] using hc)
    constructor <;> rintro rfl <;> exact absurd hdigit (by decide)
  rw [Int.toString_eq_repr, Int.repr_eq_if]
  split
  · exact hdigits _
  · rw [String.toList_append]
    exact List.forall_mem_append.mpr ⟨by simp, hdigits _⟩

theorem bare_integerText {v : Value} {text : String} (h : v.integerText = .ok text) :
    Bare text.toList := by
  obtain ⟨n, -, h⟩ := bind_eq_ok.mp h
  split at h
  · cases h
  · cases h
    exact bare_integer n

theorem marked_integerText {v : Value} {text : String} (h : v.integerText = .ok text) :
    Marked 0 text := marked_of_bare (bare_integerText h)

/-! ## 4. Filters and selections -/

theorem markedLaw : PieceLaw Marked where
  append := Marked.append
  fixed h := by fin_cases h <;> exact fun _ => rfl
  name := marked_quote
  clause h := marked_of_bare (bare_checkClause h)

/-- A compiled filter has a mark for each of its parameters. -/
theorem marked_compile {filter : Value} {part : Fragment} (h : Where.compile filter = .ok part) :
    Marked part.params.length part.text := markedLaw.compile h

/-- A statement with a mark for each of its parameters. -/
def Fragment.Bound (f : Fragment) : Prop := Marked f.params.length f.text

theorem marked_pagingPart {limit offset : Value} {text : String}
    (h : pagingPart limit offset = .ok text) : Marked 0 text := by
  have hlimit : Marked 0 " LIMIT " := fun _ => rfl
  have hoffset : Marked 0 " OFFSET " := fun _ => rfl
  have hnone : Marked 0 " LIMIT -1 OFFSET " := fun _ => rfl
  unfold pagingPart at h
  split at h
  · cases h
    exact marked_nil
  · obtain ⟨start, hstart, h⟩ := bind_eq_ok.mp h
    cases h
    exact hnone.append (marked_integerText hstart)
  · obtain ⟨size, hsize, h⟩ := bind_eq_ok.mp h
    cases h
    exact hlimit.append (marked_integerText hsize)
  · obtain ⟨size, hsize, h⟩ := bind_eq_ok.mp h
    obtain ⟨start, hstart, h⟩ := bind_eq_ok.mp h
    cases h
    exact ((hlimit.append (marked_integerText hsize)).append hoffset).append
      (marked_integerText hstart)

theorem statement_bound {s : Select} (hfilter : ∀ part, s.filter = some part → part.Bound)
    {f : Fragment} (h : s.statement = .ok f) : f.Bound := by
  obtain ⟨text, paging, htext, hpaging, hf⟩ := markedLaw.statement hfilter h
  rw [Fragment.Bound, hf]
  exact htext.append (marked_pagingPart hpaging)

/-! ## 5. Writes -/

/-- What a row that is inserted consists of: each name is a column of its own, with its value. -/
theorem insertRow_bound {table data : Value} {f : Fragment} (h : insertRow table data = .ok f) :
    f.Bound := by
  have hinsert : Marked 0 "INSERT INTO " := fun _ => rfl
  obtain ⟨quoted, hquoted, h⟩ := bind_eq_ok.mp h
  have hstart := hinsert.append (markedLaw.quoteIdentifier hquoted)
  split at h
  · cases h
    have hdefaults : Marked 0 " DEFAULT VALUES" := fun _ => rfl
    exact hstart.append hdefaults
  · obtain ⟨entries, -, h⟩ := bind_eq_ok.mp h
    obtain ⟨names, hnames, h⟩ := bind_eq_ok.mp h
    cases h
    have hleft : Marked 0 " (" := fun _ => rfl
    have hvalues : Marked 0 ") VALUES (" := fun _ => rfl
    have hmark : Marked 1 "?" := fun _ => rfl
    have hmarks := markedLaw.intercalate markedLaw.comma entries fun _ _ => hmark
    have hfront := ((hstart.append hleft).append (markedLaw.quoteAll hnames)).append hvalues
    simpa [Fragment.Bound] using (hfront.append hmarks).append markedLaw.right

theorem updateRow_bound {table data key column : Value} {f : Fragment}
    (h : updateRow table data key column = .ok f) : f.Bound := by
  obtain ⟨tableName, columns, values, keyName, -, -, -, safe, -, hlength, rfl⟩ :=
    updateRow_eq_ok h
  simp only [List.forall_mem_cons] at safe
  obtain ⟨safeTable, safeKey, safeColumns⟩ := safe
  have hupdate : Marked 0 "UPDATE " := fun _ => rfl
  have hset : Marked 0 " SET " := fun _ => rfl
  have hwhere : Marked 0 " WHERE " := fun _ => rfl
  have hequal : Marked 1 " = ?" := fun _ => rfl
  have hsettings := markedLaw.intercalate markedLaw.comma columns
    fun c hc => (marked_quote (safeColumns c hc)).append hequal
  have hfront := ((hupdate.append (marked_quote safeTable)).append hset).append hsettings
  simpa [Fragment.Bound, changeText, hlength] using
    ((hfront.append hwhere).append (marked_quote safeKey)).append hequal

theorem deleteRow_bound {table key column : Value} {f : Fragment}
    (h : deleteRow table key column = .ok f) : f.Bound := by
  obtain ⟨tableName, keyName, -, -, -, safe, rfl⟩ := deleteRow_eq_ok h
  have hdelete : Marked 0 "DELETE FROM " := fun _ => rfl
  have hwhere : Marked 0 " WHERE " := fun _ => rfl
  have hequal : Marked 1 " = ?" := fun _ => rfl
  exact (((hdelete.append (marked_quote (safe tableName (by simp)))).append hwhere).append
    (marked_quote (safe keyName (by simp)))).append hequal

/-! ## 6. Tables -/

theorem marked_columnDefinition {name : String} {c : Model.Column} {isKey : Bool} {text : String}
    (h : World.columnDefinition name c isKey = .ok text) : Marked 0 text := by
  obtain ⟨quoted, hquoted, h⟩ := bind_eq_ok.mp h
  cases h
  have htype : Marked 0 c.type.sql := by cases c.type <;> exact fun _ => rfl
  refine markedLaw.intercalate_zero (fun _ => rfl) fun part hpart => ?_
  rcases List.mem_cons.mp hpart with rfl | hpart
  · exact markedLaw.quoteIdentifier (orFault_eq_ok.mpr hquoted)
  rcases List.mem_cons.mp hpart with rfl | hpart
  · exact htype
  · have hconstraint :
        part ∈ ["PRIMARY KEY AUTOINCREMENT", "PRIMARY KEY", "NOT NULL", "UNIQUE"] := by
      unfold World.constraints at hpart
      grind
    simp only [List.mem_cons, List.not_mem_nil, or_false] at hconstraint
    rcases hconstraint with rfl | rfl | rfl | rfl <;> exact fun _ => rfl

theorem marked_columnDefinitions {key : String} {columns : List (String × Model.Column)}
    {texts : List String} (h : World.columnDefinitions key columns = .ok texts) :
    ∀ text ∈ texts, Marked 0 text := by
  induction columns generalizing texts with
  | nil =>
    cases h
    simp
  | cons entry rest ih =>
    obtain ⟨first, hfirst, h⟩ := bind_eq_ok.mp h
    obtain ⟨others, hothers, h⟩ := bind_eq_ok.mp h
    cases h
    simpa using ⟨marked_columnDefinition hfirst, ih hothers⟩

theorem marked_tableDefinition {r : Model.Registry} {m : Model.Mapper} {text : String}
    (h : World.tableDefinition r m = .ok text) : Marked 0 text := by
  obtain ⟨columns, hcolumns, h⟩ := bind_eq_ok.mp h
  obtain ⟨table, htable, h⟩ := bind_eq_ok.mp h
  cases h
  have hcreate : Marked 0 "CREATE TABLE IF NOT EXISTS " := fun _ => rfl
  have hleft : Marked 0 " (" := fun _ => rfl
  have hright : Marked 0 ");" := fun _ => rfl
  have hlist := markedLaw.intercalate_zero markedLaw.comma
    (marked_columnDefinitions hcolumns)
  have htable := markedLaw.quoteIdentifier (orFault_eq_ok.mpr htable)
  exact (((hcreate.append htable).append hleft).append hlist).append hright

end RowMapper.Sql
