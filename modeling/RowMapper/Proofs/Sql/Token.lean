import RowMapper.Sql.Identifier

/-!
# Tokens of SQL text

How a database cuts the text of a condition into tokens: names between double quotes, words,
comparison signs, question marks, commas and brackets.  The text is read once from left to right;
`Pending` is the token that has begun and can still grow.

`Lexes text ts` says that a piece of text gives the tokens `ts` wherever it stands, as long as what
follows it does not go on with its last token.  The pieces of which conditions are written have that
property one by one, and `lexes_append` and `lexes_intercalate` put them together.
-/
namespace RowMapper.Sql

/-! ## 1. Reading tokens -/

/-- A token, with something of a type `α` at every question mark: nothing in a text, and a value
once the parameters have been put in. -/
inductive Token (α : Type) where
  | name (text : String)
  | word (text : String)
  | sign (text : String)
  | mark (content : α)
  | comma
  | left
  | right

/-- The tokens of a text. -/
abbrev TextToken := Token Unit

/-- A token that has begun, with the characters read of it in reverse.  A quote inside a name ends
it unless another quote follows. -/
inductive Pending where
  | nothing
  | word (read : List Char)
  | sign (read : List Char)
  | name (read : List Char)
  | closed (read : List Char)

/-- A character of a comparison sign. -/
def isSignChar (c : Char) : Bool := c == '<' || c == '>' || c == '='

/-- The tokens of what is pending if nothing more belongs to it; a name has to be closed. -/
def Pending.tokens? : Pending → Option (List TextToken)
  | .nothing => some []
  | .word read => some [.word (String.ofList read.reverse)]
  | .sign read => some [.sign (String.ofList read.reverse)]
  | .name _ => none
  | .closed read => some [.name (String.ofList read.reverse)]

/-- The pending token with one more character, if it goes on with it. -/
def Pending.extend? : Pending → Char → Option Pending
  | .nothing, _ => none
  | .word read, c => if isWordChar c then some (.word (c :: read)) else none
  | .sign read, c => if isSignChar c then some (.sign (c :: read)) else none
  | .name read, c => if c == '"' then some (.closed read) else some (.name (c :: read))
  | .closed read, c => if c == '"' then some (.name (c :: read)) else none

/-- The token that a character is, and what is pending after it. -/
def begin? (c : Char) : Option (List TextToken × Pending) :=
  if c.isWhitespace then some ([], .nothing)
  else if c == '"' then some ([], .name [])
  else if c == '?' then some ([.mark ()], .nothing)
  else if c == ',' then some ([.comma], .nothing)
  else if c == '(' then some ([.left], .nothing)
  else if c == ')' then some ([.right], .nothing)
  else if isSignChar c then some ([], .sign [c])
  else if isWordChar c then some ([], .word [c])
  else none

/-- Reads a text behind a pending token: the tokens that it completes, and what is pending then. -/
def scan : Pending → List Char → Option (List TextToken × Pending)
  | pending, [] => some ([], pending)
  | pending, c :: rest =>
    match pending.extend? c with
    | some longer => scan longer rest
    | none =>
      match pending.tokens?, begin? c with
      | some done, some (first, next) =>
        (scan next rest).map fun (ts, last) => (done ++ (first ++ ts), last)
      | _, _ => none

/-- The tokens of a text, if it has no other characters. -/
def tokens? (text : String) : Option (List TextToken) := do
  let (ts, pending) ← scan .nothing text.toList
  return ts ++ (← pending.tokens?)

/-! ## 2. Pieces of text -/

/-- No text, or one whose first character ends a word, a sign and a name. -/
def Breaks (text : List Char) : Prop := ∀ c ∈ text.head?, c = ' ' ∨ c = ')' ∨ c = ','

/-- A piece of text gives the tokens wherever a break follows. -/
def Lexes (text : List Char) (ts : List TextToken) : Prop :=
  ∃ done pending last, scan .nothing text = some (done, pending) ∧ pending.tokens? = some last ∧
    ts = done ++ last

/-- A piece of text gives the tokens whatever follows. -/
def LexesAlways (text : List Char) (ts : List TextToken) : Prop :=
  scan .nothing text = some (ts, .nothing)

theorem LexesAlways.lexes {text : List Char} {ts : List TextToken} (h : LexesAlways text ts) :
    Lexes text ts :=
  ⟨ts, .nothing, [], h, rfl, (List.append_nil ts).symm⟩

theorem lexes_nil : LexesAlways [] [] := rfl

theorem tokens?_of_lexes {text : String} {ts : List TextToken} (h : Lexes text.toList ts) :
    tokens? text = some ts := by
  obtain ⟨done, pending, last, hscan, hlast, rfl⟩ := h
  simp [tokens?, hscan, hlast]

theorem scan_append (a b : List Char) (pending : Pending) :
    scan pending (a ++ b) = (scan pending a).bind fun (ts, middle) =>
      (scan middle b).map fun (us, last) => (ts ++ us, last) := by
  induction a generalizing pending with
  | nil => simp [scan]
  | cons c a ih =>
    simp only [List.cons_append, scan]
    cases pending.extend? c with
    | some longer => exact ih longer
    | none =>
      cases pending.tokens? with
      | none => rfl
      | some done =>
        cases begin? c with
        | none => rfl
        | some begun =>
          simp only [ih]
          cases scan begun.2 a with
          | none => rfl
          | some scanned => simp [Function.comp_def]

/-- A break does not go on with what is pending, unless that is a name without its last quote. -/
theorem extend?_of_break {c : Char} (hc : c = ' ' ∨ c = ')' ∨ c = ',') {pending : Pending}
    {last : List TextToken} (hlast : pending.tokens? = some last) : pending.extend? c = none := by
  have hword : isWordChar c = false := by rcases hc with rfl | rfl | rfl <;> decide
  have hsign : isSignChar c = false := by rcases hc with rfl | rfl | rfl <;> decide
  have hquote : (c == '"') = false := by rcases hc with rfl | rfl | rfl <;> decide
  cases pending with
  | nothing => rfl
  | word read => simp [Pending.extend?, hword]
  | sign read => simp [Pending.extend?, hsign]
  | name read => simp [Pending.tokens?] at hlast
  | closed read => rw [Pending.extend?, hquote]; rfl

/-- Before a break the pending token is complete. -/
theorem scan_of_break {c : Char} (hc : c = ' ' ∨ c = ')' ∨ c = ',') {pending : Pending}
    {last : List TextToken} (hlast : pending.tokens? = some last) (rest : List Char) :
    scan pending (c :: rest) =
      (scan .nothing (c :: rest)).map fun (ts, after) => (last ++ ts, after) := by
  rw [scan, scan, extend?_of_break hc hlast, hlast]
  simp only [Pending.extend?, Pending.tokens?]
  cases begin? c <;> simp [Function.comp_def]

/-! ## 3. Putting pieces together -/

/-- A piece behind one that gives its tokens whatever follows. -/
theorem LexesAlways.append {a b : List Char} {ts us : List TextToken} (ha : LexesAlways a ts)
    (hb : Lexes b us) : Lexes (a ++ b) (ts ++ us) := by
  obtain ⟨done, pending, last, hscan, hlast, rfl⟩ := hb
  refine ⟨ts ++ done, pending, last, ?_, hlast, by simp⟩
  rw [scan_append, ha]
  simp [hscan]

/-- Two pieces one after the other, the second of which begins with a break. -/
theorem lexes_append {a b : List Char} {ts us : List TextToken} (ha : Lexes a ts) (hb : Lexes b us)
    (hbreak : Breaks b) : Lexes (a ++ b) (ts ++ us) := by
  obtain ⟨done, pending, last, hscan, hlast, rfl⟩ := ha
  obtain ⟨done', pending', last', hscan', hlast', rfl⟩ := hb
  cases b with
  | nil =>
    cases hscan'
    cases hlast'
    exact ⟨done, pending, last, by simpa using hscan, hlast, by simp⟩
  | cons c b =>
    have hc : c = ' ' ∨ c = ')' ∨ c = ',' := hbreak c rfl
    refine ⟨done ++ (last ++ done'), pending', last', ?_, hlast', by simp⟩
    rw [scan_append, hscan]
    simp [scan_of_break hc hlast, hscan']

/-- Pieces with a separator between them that begins with a break. -/
theorem lexes_intercalate {α : Type} {separator : List Char} {gap : List TextToken}
    (hgap : LexesAlways separator gap) (hbreak : ∀ rest, Breaks (separator ++ rest))
    (text : α → List Char) (ts : α → List TextToken) :
    ∀ xs : List α, (∀ x ∈ xs, Lexes (text x) (ts x)) →
      Lexes (separator.intercalate (xs.map text)) (gap.intercalate (xs.map ts))
  | [], _ => lexes_nil.lexes
  | [x], h => by simpa using h x (by simp)
  | x :: y :: rest, h => by
    have hx : Lexes (text x) (ts x) := h x (by simp)
    have hrest := lexes_intercalate hgap hbreak text ts (y :: rest)
      (fun z hz => h z (List.mem_cons_of_mem _ hz))
    rw [List.map_cons, List.map_cons, List.map_cons, List.map_cons, List.intercalate_cons_cons,
      List.intercalate_cons_cons, List.append_assoc, List.append_assoc]
    exact lexes_append hx (hgap.append hrest) (hbreak _)

/-! ## 4. Quoted names -/

theorem scan_name (name : List Char) (hname : '"' ∉ name) (read : List Char) :
    scan (.name read) (name ++ ['"']) = some ([], .closed (name.reverse ++ read)) := by
  induction name generalizing read with
  | nil => rfl
  | cons c name ih =>
    simp only [List.mem_cons, not_or] at hname
    obtain ⟨hc, hname⟩ := hname
    have hext : (Pending.name read).extend? c = some (.name (c :: read)) := by
      simp [Pending.extend?, Ne.symm hc]
    rw [List.cons_append, scan, hext]
    simp only [ih hname]
    simp

/-- A name between double quotes is one token if it holds none. -/
theorem lexes_quote {name : String} (h : '"' ∉ name.toList) :
    Lexes (quote name).toList [.name name] := by
  have htext : (quote name).toList = ['"'] ++ (name.toList ++ ['"']) := by simp [quote]
  have hopen : scan .nothing ['"'] = some ([], .name []) := rfl
  refine ⟨[], .closed (name.toList.reverse ++ []), [.name name], ?_, by simp [Pending.tokens?], rfl⟩
  rw [htext, scan_append, hopen]
  simp [scan_name _ h]

/-- The characters after the first one of a safe name. -/
theorem isWordChar_of_safeRest : ∀ {cs : List Char}, safeRest cs = true →
    ∀ c ∈ cs, isWordChar c = true ∨ c = '\n'
  | [], _, c, hc => by simp at hc
  | d :: cs, h, c, hc => by
    simp only [safeRest, Bool.or_eq_true, Bool.and_eq_true, beq_iff_eq, List.isEmpty_iff] at h
    rcases List.mem_cons.mp hc with rfl | hc
    · rcases h with ⟨hd, _⟩ | ⟨hd, _⟩
      · exact Or.inr hd
      · exact Or.inl hd
    · rcases h with ⟨_, hnil⟩ | ⟨_, hrest⟩
      · simp [hnil] at hc
      · exact isWordChar_of_safeRest hrest c hc

/-- A name that may stand between double quotes has none. -/
theorem not_mem_of_isSafeName {name : String} (h : isSafeName name.toList = true) :
    '"' ∉ name.toList := by
  intro hmem
  cases hcs : name.toList with
  | nil => simp [hcs] at hmem
  | cons c cs =>
    simp only [hcs, isSafeName, Bool.and_eq_true] at h
    rw [hcs] at hmem
    rcases List.mem_cons.mp hmem with rfl | hrest
    · exact absurd h.1 (by decide)
    · rcases isWordChar_of_safeRest h.2 _ hrest with hword | hline
      · exact absurd hword (by decide)
      · exact absurd hline (by decide)

end RowMapper.Sql
