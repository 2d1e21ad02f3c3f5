import Mathlib.Data.List.TakeWhile
import RowMapper.Proofs.Sql.Marks

/-!
# The grammar of clauses

A sort or group clause is checked in one walk over its characters.  Here it is said without the walk
which clauses are accepted: those that, cut at their commas, have nothing but names in their pieces,
each with a direction or without one, and with blanks around it (`IsClause`).

The walk takes a comma exactly where the clause could also end, so it reads the pieces one by one
(`acceptsFrom_pieces`).  Inside a piece there is a lemma for each state, which says what may still
come in that state; they follow the states backwards, from behind the direction to before the name.
-/
namespace RowMapper.Sql

open Text (isBlank trimChars)

/-! ## 1. The grammar -/

/-- The characters beyond ASCII that are letters of ASCII without regard to case, each with the
small letter that it is. -/
def otherForms : List (Char × Char) :=
  [('i', '\u0130'), ('i', '\u0131'), ('s', '\u017f'), ('k', '\u212a')]

/-- A character is a given small letter, without regard to case. -/
def IsForm (letter c : Char) : Prop := c.toLower = letter ∨ (letter, c) ∈ otherForms

/-- A character is a letter of ASCII, without regard to case. -/
def IsLetter (c : Char) : Prop := ∃ letter : Char, letter.isLower = true ∧ IsForm letter c

/-- A name: a letter or an underscore, and then letters, digits, underscores and dots. -/
inductive IsName : List Char → Prop
  | mk {first : Char} {rest : List Char} (hfirst : IsLetter first ∨ first = '_')
      (hrest : ∀ c ∈ rest, IsLetter c ∨ c.isDigit = true ∨ c = '_' ∨ c = '.') :
      IsName (first :: rest)

/-- A word is `asc` or `desc`, without regard to case. -/
def IsDirection (word : List Char) : Prop :=
  List.Forall₂ IsForm ['a', 's', 'c'] word ∨ List.Forall₂ IsForm ['d', 'e', 's', 'c'] word

/-- Nothing but blanks. -/
def Blanks (cs : List Char) : Prop := ∀ c ∈ cs, isBlank c = true

/-- An item of a clause: a name, or a name and a direction with blanks between them. -/
inductive IsItem : List Char → Prop
  | plain {name : List Char} (hname : IsName name) : IsItem name
  | directed {name gap word : List Char} (hname : IsName name) (hgap : Blanks gap)
      (hne : gap ≠ []) (hword : IsDirection word) : IsItem (name ++ gap ++ word)

/-- A clause: cut at its commas, each piece is an item when the blanks at its ends are taken off. -/
def IsClause (clause : List Char) : Prop :=
  ∀ piece ∈ clause.splitOn ',', IsItem (trimChars isBlank piece)

/-! ## 2. Letters -/

theorem isUpper_iff {c : Char} : c.isUpper = true ↔ 65 ≤ c.toNat ∧ c.toNat ≤ 90 :=
  decide_eq_true_iff.trans (and_congr UInt32.le_iff_toNat_le UInt32.le_iff_toNat_le)

theorem isLower_iff {c : Char} : c.isLower = true ↔ 97 ≤ c.toNat ∧ c.toNat ≤ 122 :=
  (Bool.and_eq_true_iff).trans (and_congr (decide_eq_true_iff.trans UInt32.le_iff_toNat_le)
    (decide_eq_true_iff.trans UInt32.le_iff_toNat_le))

theorem isAlpha_iff {c : Char} : c.isAlpha = true ↔ c.isUpper = true ∨ c.isLower = true :=
  Bool.or_eq_true_iff

theorem toLower_of_isUpper {c : Char} (h : c.isUpper = true) :
    c.toLower.toNat = c.toNat + 32 := by
  obtain ⟨hlow, hhigh⟩ := isUpper_iff.mp h
  have hfits : c.toNat + 32 < 2 ^ 32 := by omega
  have hbounds : 'A'.val ≤ c.val ∧ c.val ≤ 'Z'.val := of_decide_eq_true h
  have hlower : c.toLower.val = c.val + 32 := congrArg Char.val (dif_pos hbounds)
  rw [← Char.toNat_val, hlower, UInt32.toNat_add, Char.toNat_val]
  exact Nat.mod_eq_of_lt hfits

theorem toLower_of_not_isUpper {c : Char} (h : ¬c.isUpper = true) : c.toLower = c :=
  dif_neg fun hbounds => h (decide_eq_true hbounds)

theorem isLower_toLower {c : Char} : c.toLower.isLower = true ↔ c.isAlpha = true := by
  rw [isAlpha_iff]
  by_cases h : c.isUpper = true
  · obtain ⟨hlow, hhigh⟩ := isUpper_iff.mp h
    have hlower : c.toLower.isLower = true := by
      rw [isLower_iff, toLower_of_isUpper h]
      omega
    exact iff_of_true hlower (.inl h)
  · rw [toLower_of_not_isUpper h]
    simp [h]

theorem isLower_of_otherForms {letter c : Char} (h : (letter, c) ∈ otherForms) :
    letter.isLower = true := by
  simp only [otherForms, List.mem_cons, Prod.mk.injEq, List.not_mem_nil, or_false] at h
  rcases h with ⟨rfl, -⟩ | ⟨rfl, -⟩ | ⟨rfl, -⟩ | ⟨rfl, -⟩ <;> rfl

theorem isLooseLetter_iff {c : Char} : isLooseLetter c = true ↔ IsLetter c := by
  have hforms : [0x130, 0x131, 0x17f, 0x212a].contains c.toNat = true ↔
      ∃ letter, (letter, c) ∈ otherForms := by
    have hcode (d : Char) : c = d ↔ c.toNat = d.toNat := Char.toNat_inj.symm
    simp only [otherForms, List.mem_cons, Prod.mk.injEq, List.not_mem_nil, or_false, hcode]
    simp [exists_or]
  rw [isLooseLetter, Bool.or_eq_true, hforms, ← isLower_toLower]
  constructor
  · rintro (h | ⟨letter, h⟩)
    · exact ⟨_, h, .inl rfl⟩
    · exact ⟨letter, isLower_of_otherForms h, .inr h⟩
  · rintro ⟨letter, hlower, rfl | h⟩
    · exact .inl hlower
    · exact .inr ⟨letter, h⟩

theorem isNameStart_iff {c : Char} : isNameStart c = true ↔ IsLetter c ∨ c = '_' := by
  rw [isNameStart, Bool.or_eq_true, isLooseLetter_iff, beq_iff_eq]

theorem isNameChar_iff {c : Char} :
    isNameChar c = true ↔ IsLetter c ∨ c.isDigit = true ∨ c = '_' ∨ c = '.' := by
  simp only [isNameChar, Bool.or_eq_true, isLooseLetter_iff, beq_iff_eq, or_assoc]

/-- Of the letters of the directions only `s` has another form. -/
theorem sameLetter_iff {letter c : Char} (h : letter ∈ ['a', 's', 'c', 'd', 'e']) :
    sameLetter letter c = true ↔ IsForm letter c := by
  have hcode : c.toNat = 0x17f ↔ c = '\u017f' := Char.toNat_inj (d := '\u017f')
  rw [sameLetter, Bool.or_eq_true, Bool.and_eq_true, beq_iff_eq, beq_iff_eq, beq_iff_eq, hcode,
    IsForm]
  simp only [List.mem_cons, List.not_mem_nil, or_false] at h
  rcases h with rfl | rfl | rfl | rfl | rfl <;> simp [otherForms]

/-- No character of a name is a blank. -/
theorem isBlank_of_isNameChar {c : Char} (h : isNameChar c = true) : isBlank c = false := by
  have hcode (d : Char) : c = d ↔ c.toNat = d.toNat := Char.toNat_inj.symm
  simp only [isNameChar, isLooseLetter, Bool.or_eq_true, isAlpha_iff, isUpper_iff, isLower_iff,
    Char.isDigit_iff_toNat, List.contains_iff_mem, List.mem_cons, List.not_mem_nil, or_false,
    beq_iff_eq, hcode] at h
  rw [← Bool.not_eq_true]
  simp only [isBlank, Text.isWhite, Bool.or_eq_true, Bool.and_eq_true, decide_eq_true_eq,
    beq_iff_eq]
  change (((((65 ≤ c.toNat ∧ c.toNat ≤ 90) ∨ (97 ≤ c.toNat ∧ c.toNat ≤ 122)) ∨
    c.toNat = 0x130 ∨ c.toNat = 0x131 ∨ c.toNat = 0x17f ∨ c.toNat = 0x212a) ∨
    (48 ≤ c.toNat ∧ c.toNat ≤ 57)) ∨ c.toNat = 95) ∨ c.toNat = 46 at h
  omega

theorem isBlank_of_isForm {letter c : Char} (h : letter ∈ ['a', 's', 'c', 'd', 'e'])
    (hform : IsForm letter c) : isBlank c = false := by
  have hlower : ∀ l ∈ ['a', 's', 'c', 'd', 'e'], l.isLower = true := List.all_eq_true.mp rfl
  exact isBlank_of_isNameChar (isNameChar_iff.mpr (.inl ⟨letter, hlower letter h, hform⟩))

/-! ## 3. From piece to piece -/

/-- Whether what follows is accepted in a state. -/
def ClauseState.acceptsFrom (s : ClauseState) (cs : List Char) : Bool :=
  (cs.foldlM ClauseState.step s).any ClauseState.accepts

theorem acceptsFrom_cons {s : ClauseState} {c : Char} {cs : List Char} :
    s.acceptsFrom (c :: cs) = (s.step c).any (·.acceptsFrom cs) := by
  rw [ClauseState.acceptsFrom, List.foldlM_cons]
  cases s.step c <;> rfl

/-- A comma is taken where the clause may end. -/
theorem step_comma {s : ClauseState} (hs : s.Lettered) :
    s.step ',' = if s.accepts then some .before else none := by
  cases s with
  | direction missing =>
    cases missing with
    | nil => rfl
    | cons expected missing =>
      have hexpected : expected ∈ ['e', 's', 'c'] := hs expected List.mem_cons_self
      fin_cases hexpected <;> rfl
  | _ => rfl

/-- A clause is read one piece after the other, each from the start but the first. -/
theorem acceptsFrom_pieces {s : ClauseState} (hs : s.Lettered) {cs first : List Char}
    {rest : List (List Char)} (hsplit : cs.splitOn ',' = first :: rest) :
    s.acceptsFrom cs = (s.acceptsFrom first && rest.all ClauseState.before.acceptsFrom) := by
  induction cs generalizing s first rest with
  | nil =>
    cases hsplit
    simp
  | cons c cs ih =>
    obtain ⟨piece, pieces, hpieces⟩ := List.exists_cons_of_ne_nil (List.splitOn_ne_nil ',' cs)
    rw [List.splitOn_cons_eq_if_modifyHead, hpieces] at hsplit
    rw [acceptsFrom_cons]
    by_cases hc : c = ','
    · subst hc
      cases hsplit
      rw [step_comma hs, List.all_cons, ← ih (s := .before) trivial hpieces]
      cases haccepts : s.accepts <;> simp [ClauseState.acceptsFrom, haccepts]
    · rw [if_neg (by simpa using hc)] at hsplit
      cases hsplit
      rw [acceptsFrom_cons]
      cases hstep : s.step c with
      | none => rfl
      | some t => exact ih (ClauseState.step_lettered hs hstep) hpieces

/-- No piece has a comma in it. -/
theorem not_mem_piece {cs piece : List Char} (h : piece ∈ cs.splitOn ',') : ',' ∉ piece := by
  induction cs generalizing piece with
  | nil => simp_all
  | cons c cs ih =>
    obtain ⟨first, rest, hsplit⟩ := List.exists_cons_of_ne_nil (List.splitOn_ne_nil ',' cs)
    rw [List.splitOn_cons_eq_if_modifyHead] at h
    rw [hsplit] at h ih
    split at h
    · rcases List.mem_cons.mp h with rfl | hmem
      · simp
      · exact ih hmem
    · next hc =>
      rcases List.mem_cons.mp h with rfl | hmem
      · have hne : ',' ≠ c := fun heq => hc (beq_iff_eq.mpr heq.symm)
        simpa [hne] using ih List.mem_cons_self
      · exact ih (List.mem_cons_of_mem _ hmem)

/-! ## 4. Inside a piece -/

section Piece

variable {c : Char} {cs : List Char}

theorem afterEnd?_of_ne (hc : ',' ≠ c) (onBlank : ClauseState) :
    ClauseState.afterEnd? c onBlank = if isBlank c then some onBlank else none := by
  rw [ClauseState.afterEnd?, if_neg (by simpa using hc.symm)]

theorem blanks_cons : Blanks (c :: cs) ↔ isBlank c = true ∧ Blanks cs := List.forall_mem_cons

theorem acceptsFrom_behind (hcomma : ',' ∉ cs) :
    ClauseState.behind.acceptsFrom cs = true ↔ Blanks cs := by
  induction cs with
  | nil => simp [ClauseState.acceptsFrom, ClauseState.accepts, Blanks]
  | cons c cs ih =>
    obtain ⟨hc, hcs⟩ := not_or.mp (mt List.mem_cons.mpr hcomma)
    rw [acceptsFrom_cons, ClauseState.step, afterEnd?_of_ne hc, blanks_cons]
    cases hblank : isBlank c
    · simp
    · simpa using ih hcs

theorem acceptsFrom_direction_cons {letter : Char} {missing : List Char} :
    (ClauseState.direction (letter :: missing)).acceptsFrom (c :: cs) =
      (sameLetter letter c && (ClauseState.direction missing).acceptsFrom cs) := by
  rw [acceptsFrom_cons, ClauseState.step]
  cases sameLetter letter c <;> rfl

/-- Inside a direction there follow its other letters, and then blanks. -/
theorem acceptsFrom_direction (missing : List Char)
    (hmissing : ∀ letter ∈ missing, letter ∈ ['a', 's', 'c', 'd', 'e']) (hcomma : ',' ∉ cs) :
    (ClauseState.direction missing).acceptsFrom cs = true ↔
      ∃ word trail, cs = word ++ trail ∧ List.Forall₂ IsForm missing word ∧ Blanks trail := by
  induction missing generalizing cs with
  | nil =>
    have hbehind :
        (ClauseState.direction []).acceptsFrom cs = ClauseState.behind.acceptsFrom cs := by
      cases cs <;> rfl
    rw [hbehind, acceptsFrom_behind hcomma]
    simp
  | cons letter missing ih =>
    obtain ⟨hletter, hmissing⟩ := List.forall_mem_cons.mp hmissing
    cases cs with
    | nil => simp [ClauseState.acceptsFrom, ClauseState.accepts]
    | cons c cs =>
      obtain ⟨-, hcs⟩ := not_or.mp (mt List.mem_cons.mpr hcomma)
      rw [acceptsFrom_direction_cons, Bool.and_eq_true, sameLetter_iff hletter, ih hmissing hcs]
      constructor
      · rintro ⟨hform, word, trail, rfl, hword, htrail⟩
        exact ⟨c :: word, trail, rfl, .cons hform hword, htrail⟩
      · rintro ⟨_, trail, htext, hword, htrail⟩
        obtain ⟨d, word, hform, hrest, rfl⟩ := List.forall₂_cons_left_iff.mp hword
        cases htext
        exact ⟨hform, word, trail, rfl, hrest, htrail⟩

/-- A direction with blanks behind it. -/
def Directs (cs : List Char) : Prop :=
  ∃ word trail, cs = word ++ trail ∧ IsDirection word ∧ Blanks trail

/-- On the blanks behind a name, a letter can only begin a direction. -/
theorem acceptsFrom_gap_cons (hcomma : ',' ∉ c :: cs) :
    ClauseState.gap.acceptsFrom (c :: cs) = true ↔
      Directs (c :: cs) ∨ isBlank c = true ∧ ClauseState.gap.acceptsFrom cs = true := by
  have hasc := acceptsFrom_direction ['a', 's', 'c'] (by simp) hcomma
  have hdesc := acceptsFrom_direction ['d', 'e', 's', 'c'] (by simp) hcomma
  have hdirects : Directs (c :: cs) ↔
      (ClauseState.direction ['a', 's', 'c']).acceptsFrom (c :: cs) = true ∨
        (ClauseState.direction ['d', 'e', 's', 'c']).acceptsFrom (c :: cs) = true := by
    simp only [hasc, hdesc, Directs, IsDirection, or_and_right, and_or_left, exists_or]
  obtain ⟨hc, -⟩ := not_or.mp (mt List.mem_cons.mpr hcomma)
  rw [hdirects, acceptsFrom_direction_cons, acceptsFrom_direction_cons, acceptsFrom_cons,
    ClauseState.step, afterEnd?_of_ne hc]
  by_cases ha : sameLetter 'a' c = true
  · have hblank := isBlank_of_isForm (by decide) ((sameLetter_iff (by decide)).mp ha)
    have hd : sameLetter 'd' c = false := by
      simp_all [sameLetter]
    simp [ha, hd, hblank]
  · by_cases hd : sameLetter 'd' c = true
    · have hblank := isBlank_of_isForm (by decide) ((sameLetter_iff (by decide)).mp hd)
      simp [ha, hd, hblank]
    · cases hblank : isBlank c <;> simp [ha, hd]

/-- Behind a name and a blank there follow other blanks, and then a direction or nothing. -/
theorem acceptsFrom_gap (hcomma : ',' ∉ cs) :
    ClauseState.gap.acceptsFrom cs = true ↔
      ∃ gap rest, cs = gap ++ rest ∧ Blanks gap ∧ (rest = [] ∨ Directs rest) := by
  induction cs with
  | nil => simp [ClauseState.acceptsFrom, ClauseState.accepts, Blanks]
  | cons c cs ih =>
    obtain ⟨-, hcs⟩ := not_or.mp (mt List.mem_cons.mpr hcomma)
    rw [acceptsFrom_gap_cons hcomma, ih hcs]
    constructor
    · rintro (hdirects | ⟨hblank, gap, rest, rfl, hgap, hrest⟩)
      · exact ⟨[], c :: cs, rfl, List.forall_mem_nil _, .inr hdirects⟩
      · exact ⟨c :: gap, rest, rfl, blanks_cons.mpr ⟨hblank, hgap⟩, hrest⟩
    · rintro ⟨gap, rest, htext, hgap, hrest⟩
      cases gap with
      | nil =>
        rcases hrest with rfl | hdirects
        · cases htext
        · exact .inl (htext ▸ hdirects)
      | cons d gap =>
        cases htext
        obtain ⟨hblank, hgap⟩ := blanks_cons.mp hgap
        exact .inr ⟨hblank, gap, rest, rfl, hgap, hrest⟩

/-- Inside a name there follow its other characters, and then nothing or a blank. -/
theorem acceptsFrom_name (hcomma : ',' ∉ cs) :
    ClauseState.name.acceptsFrom cs = true ↔
      ∃ name rest, cs = name ++ rest ∧ (∀ d ∈ name, isNameChar d = true) ∧
        (rest = [] ∨ ∃ blank tail, rest = blank :: tail ∧ isBlank blank = true ∧
          ClauseState.gap.acceptsFrom tail = true) := by
  induction cs with
  | nil => simp [ClauseState.acceptsFrom, ClauseState.accepts]
  | cons c cs ih =>
    obtain ⟨hc, hcs⟩ := not_or.mp (mt List.mem_cons.mpr hcomma)
    rw [acceptsFrom_cons, ClauseState.step, afterEnd?_of_ne hc]
    cases hname : isNameChar c with
    | true =>
      simp only [if_true, Option.any_some, ih hcs]
      constructor
      · rintro ⟨name, rest, rfl, hchars, hrest⟩
        exact ⟨c :: name, rest, rfl, List.forall_mem_cons.mpr ⟨hname, hchars⟩, hrest⟩
      · rintro ⟨name, rest, htext, hchars, hrest⟩
        cases name with
        | nil =>
          rcases hrest with rfl | ⟨blank, tail, rfl, hblank, -⟩
          · cases htext
          · cases htext
            exact absurd hblank (by simp [isBlank_of_isNameChar hname])
        | cons d name =>
          cases htext
          exact ⟨name, rest, rfl, (List.forall_mem_cons.mp hchars).2, hrest⟩
    | false =>
      have hhere : (∃ name rest, c :: cs = name ++ rest ∧ (∀ d ∈ name, isNameChar d = true) ∧
          (rest = [] ∨ ∃ blank tail, rest = blank :: tail ∧ isBlank blank = true ∧
            ClauseState.gap.acceptsFrom tail = true)) ↔
          isBlank c = true ∧ ClauseState.gap.acceptsFrom cs = true := by
        constructor
        · rintro ⟨name, rest, htext, hchars, hrest⟩
          cases name with
          | nil =>
            rcases hrest with rfl | ⟨blank, tail, rfl, hrest⟩
            · cases htext
            · cases htext
              exact hrest
          | cons d name =>
            cases htext
            exact absurd (hchars c List.mem_cons_self) (by simp [hname])
        · exact fun hrest => ⟨[], c :: cs, rfl, List.forall_mem_nil _, .inr ⟨c, cs, rfl, hrest⟩⟩
      rw [hhere]
      cases isBlank c <;> simp

/-- Behind the first character of a name there follow the rest of an item and blanks. -/
theorem acceptsFrom_item (hfirst : isNameStart c = true) (hcomma : ',' ∉ cs) :
    ClauseState.name.acceptsFrom cs = true ↔
      ∃ item trail, c :: cs = item ++ trail ∧ IsItem item ∧ Blanks trail := by
  have hnamed {rest : List Char} : (∀ d ∈ rest, isNameChar d = true) ↔ IsName (c :: rest) := by
    simp only [isNameChar_iff]
    constructor
    · exact fun hrest => .mk (isNameStart_iff.mp hfirst) hrest
    · rintro ⟨-, hrest⟩
      exact hrest
  rw [acceptsFrom_name hcomma]
  constructor
  · rintro ⟨name, rest, rfl, hchars, rfl | ⟨blank, tail, rfl, hblank, htail⟩⟩
    · exact ⟨c :: name, [], by simp, .plain (hnamed.mp hchars), List.forall_mem_nil _⟩
    · have htailcomma : ',' ∉ tail := fun hmem => hcomma (by simp [hmem])
      obtain ⟨gap, rest, rfl, hgap, rfl | ⟨word, trail, rfl, hword, htrail⟩⟩ :=
        (acceptsFrom_gap htailcomma).mp htail
      · exact ⟨c :: name, blank :: gap, by simp, .plain (hnamed.mp hchars),
          blanks_cons.mpr ⟨hblank, hgap⟩⟩
      · exact ⟨(c :: name) ++ (blank :: gap) ++ word, trail, by simp,
          .directed (hnamed.mp hchars) (blanks_cons.mpr ⟨hblank, hgap⟩) (List.cons_ne_nil _ _)
            hword, htrail⟩
  · rintro ⟨item, trail, htext, hitem, htrail⟩
    -- the gap state reads the end of the text, which has no commas either
    have hend {name tail : List Char} {blank : Char} (hcs : cs = name ++ blank :: tail) :
        ',' ∉ tail := fun hmem => hcomma (by simp [hcs, hmem])
    cases hitem with
    | plain hname =>
      obtain ⟨hstart, hrest⟩ := hname
      obtain ⟨rfl, hcs⟩ := List.cons_eq_cons.mp htext
      refine ⟨_, trail, hcs, hnamed.mpr (.mk hstart hrest), ?_⟩
      cases trail with
      | nil => exact .inl rfl
      | cons blank tail =>
        obtain ⟨hblank, htail⟩ := blanks_cons.mp htrail
        exact .inr ⟨blank, tail, rfl, hblank,
          (acceptsFrom_gap (hend hcs)).mpr ⟨tail, [], by simp, htail, .inl rfl⟩⟩
    | @directed _ gap word hname hgap hne hword =>
      obtain ⟨hstart, hrest⟩ := hname
      cases gap with
      | nil => exact absurd rfl hne
      | cons blank gap =>
        obtain ⟨hblank, hgap⟩ := blanks_cons.mp hgap
        simp only [List.cons_append, List.append_assoc] at htext
        obtain ⟨rfl, hcs⟩ := List.cons_eq_cons.mp htext
        have hrests := (acceptsFrom_gap (hend hcs)).mpr
          ⟨gap, _, rfl, hgap, .inr ⟨word, trail, rfl, hword, htrail⟩⟩
        exact ⟨_, _, hcs, hnamed.mpr (.mk hstart hrest), .inr ⟨blank, _, rfl, hblank, hrests⟩⟩

theorem exists_of_isItem {item : List Char} (h : IsItem item) :
    ∃ first rest, item = first :: rest ∧ isNameStart first = true := by
  cases h with
  | plain hname =>
    obtain ⟨hfirst, -⟩ := hname
    exact ⟨_, _, rfl, isNameStart_iff.mpr hfirst⟩
  | directed hname =>
    obtain ⟨hfirst, -⟩ := hname
    exact ⟨_, _, rfl, isNameStart_iff.mpr hfirst⟩

theorem isBlank_of_isNameStart (h : isNameStart c = true) : isBlank c = false := by
  refine isBlank_of_isNameChar (isNameChar_iff.mpr ?_)
  exact (isNameStart_iff.mp h).imp_right fun hunderscore => .inr (.inl hunderscore)

/-- A piece is an item with blanks around it. -/
theorem acceptsFrom_before (hcomma : ',' ∉ cs) :
    ClauseState.before.acceptsFrom cs = true ↔
      ∃ lead item trail, cs = lead ++ item ++ trail ∧ Blanks lead ∧ IsItem item ∧ Blanks trail := by
  induction cs with
  | nil =>
    refine iff_of_false (by simp [ClauseState.acceptsFrom, ClauseState.accepts]) ?_
    rintro ⟨lead, item, trail, htext, -, hitem, -⟩
    obtain ⟨first, rest, rfl, -⟩ := exists_of_isItem hitem
    simp at htext
  | cons c cs ih =>
    obtain ⟨-, hcs⟩ := not_or.mp (mt List.mem_cons.mpr hcomma)
    rw [acceptsFrom_cons, ClauseState.step]
    cases hblank : isBlank c with
    | true =>
      simp only [if_true, Option.any_some, ih hcs]
      constructor
      · rintro ⟨lead, item, trail, rfl, hlead, hitem, htrail⟩
        exact ⟨c :: lead, item, trail, rfl, blanks_cons.mpr ⟨hblank, hlead⟩, hitem, htrail⟩
      · rintro ⟨lead, item, trail, htext, hlead, hitem, htrail⟩
        cases lead with
        | nil =>
          obtain ⟨first, rest, rfl, hfirst⟩ := exists_of_isItem hitem
          cases htext
          exact absurd hblank (by simp [isBlank_of_isNameStart hfirst])
        | cons d lead =>
          cases htext
          exact ⟨lead, item, trail, rfl, (blanks_cons.mp hlead).2, hitem, htrail⟩
    | false =>
      -- the item begins here
      have hhere : (∃ lead item trail, c :: cs = lead ++ item ++ trail ∧ Blanks lead ∧ IsItem item ∧
          Blanks trail) ↔ ∃ item trail, c :: cs = item ++ trail ∧ IsItem item ∧ Blanks trail := by
        constructor
        · rintro ⟨lead, item, trail, htext, hlead, hrest⟩
          cases lead with
          | nil => exact ⟨item, trail, htext, hrest⟩
          | cons d lead =>
            cases htext
            exact absurd (blanks_cons.mp hlead).1 (by simp [hblank])
        · rintro ⟨item, trail, htext, hrest⟩
          exact ⟨[], item, trail, htext, List.forall_mem_nil _, hrest⟩
      rw [hhere]
      cases hfirst : isNameStart c with
      | true => simpa using acceptsFrom_item hfirst hcs
      | false =>
        refine iff_of_false (by simp) ?_
        rintro ⟨item, trail, htext, hitem, -⟩
        obtain ⟨first, rest, rfl, hstart⟩ := exists_of_isItem hitem
        cases htext
        exact absurd hstart (by simp [hfirst])

end Piece

/-! ## 5. Blanks at the ends -/

/-- A text whose first and last characters are not blanks. -/
def Trimmed (cs : List Char) : Prop :=
  (∀ c ∈ cs.head?, isBlank c = false) ∧ ∀ c ∈ cs.getLast?, isBlank c = false

theorem dropWhile_of_blanks {lead cs : List Char} (hlead : Blanks lead) (hne : cs ≠ [])
    (hfirst : ∀ c ∈ cs.head?, isBlank c = false) : (lead ++ cs).dropWhile isBlank = cs := by
  obtain ⟨c, rest, rfl⟩ := List.exists_cons_of_ne_nil hne
  rw [List.dropWhile_append_of_pos hlead, List.dropWhile_cons_of_neg (by simpa using hfirst c rfl)]

/-- Of a text between blanks the text is left. -/
theorem trimChars_of_blanks {lead cs trail : List Char} (hlead : Blanks lead) (hne : cs ≠ [])
    (hcs : Trimmed cs) (htrail : Blanks trail) : trimChars isBlank (lead ++ cs ++ trail) = cs := by
  have hfront : (lead ++ (cs ++ trail)).dropWhile isBlank = cs ++ trail :=
    dropWhile_of_blanks hlead (by simp [hne]) (by
      rw [List.head?_append_of_ne_nil cs hne]
      exact hcs.1)
  have hback : (trail.reverse ++ cs.reverse).dropWhile isBlank = cs.reverse :=
    dropWhile_of_blanks (fun c hc => htrail c (List.mem_reverse.mp hc)) (by simpa using hne)
      (by rw [List.head?_reverse]; exact hcs.2)
  rw [trimChars, List.append_assoc, hfront, List.reverse_append, hback, List.reverse_reverse]

theorem head?_dropWhile_isBlank (cs : List Char) :
    ∀ c ∈ (cs.dropWhile isBlank).head?, isBlank c = false := by
  intro c hc
  have hnot := List.head?_dropWhile_not isBlank cs
  rw [hc] at hnot
  simpa using hnot

/-- A text is what is left of it, between blanks. -/
theorem exists_blanks (cs : List Char) :
    ∃ lead trail, cs = lead ++ trimChars isBlank cs ++ trail ∧ Blanks lead ∧ Blanks trail := by
  have hblanks (ds : List Char) : Blanks (ds.takeWhile isBlank) :=
    fun c hc => List.mem_takeWhile_imp hc
  refine ⟨cs.takeWhile isBlank, ((cs.dropWhile isBlank).reverse.takeWhile isBlank).reverse, ?_,
    hblanks cs, fun c hc => hblanks _ c (List.mem_reverse.mp hc)⟩
  rw [trimChars, List.append_assoc, ← List.reverse_append, List.takeWhile_append_dropWhile,
    List.reverse_reverse, List.takeWhile_append_dropWhile]

theorem trimmed_trimChars (cs : List Char) : Trimmed (trimChars isBlank cs) := by
  constructor
  · have hprefix : trimChars isBlank cs <+: cs.dropWhile isBlank := by
      simpa [trimChars] using List.reverse_prefix.mpr
        (List.dropWhile_suffix (l := (cs.dropWhile isBlank).reverse) isBlank)
    obtain ⟨trail, htrail⟩ := hprefix
    refine fun c hc => head?_dropWhile_isBlank cs c ?_
    rw [← htrail, List.head?_append, Option.mem_def.mp hc]
    rfl
  · rw [trimChars, List.getLast?_reverse]
    exact head?_dropWhile_isBlank _

theorem trimChars_trimChars (cs : List Char) :
    trimChars isBlank (trimChars isBlank cs) = trimChars isBlank cs := by
  rcases eq_or_ne (trimChars isBlank cs) [] with hnil | hne
  · rw [hnil]
    rfl
  · have hnone : Blanks [] := List.forall_mem_nil _
    simpa using trimChars_of_blanks hnone hne (trimmed_trimChars cs) hnone

theorem isBlank_of_mem_name {name : List Char} (h : IsName name) :
    ∀ c ∈ name, isBlank c = false := by
  obtain ⟨hfirst, hrest⟩ := h
  exact List.forall_mem_cons.mpr ⟨isBlank_of_isNameStart (isNameStart_iff.mpr hfirst),
    fun c hc => isBlank_of_isNameChar (isNameChar_iff.mpr (hrest c hc))⟩

theorem isBlank_of_forall₂ {letters word : List Char}
    (hletters : ∀ l ∈ letters, l ∈ ['a', 's', 'c', 'd', 'e'])
    (h : List.Forall₂ IsForm letters word) : ∀ c ∈ word, isBlank c = false := by
  induction h with
  | nil => exact List.forall_mem_nil _
  | cons hform _ ih =>
    obtain ⟨hletter, hletters⟩ := List.forall_mem_cons.mp hletters
    exact List.forall_mem_cons.mpr ⟨isBlank_of_isForm hletter hform, ih hletters⟩

theorem isBlank_of_mem_direction {word : List Char} (h : IsDirection word) :
    ∀ c ∈ word, isBlank c = false :=
  h.elim (isBlank_of_forall₂ (by simp)) (isBlank_of_forall₂ (by simp))

theorem ne_nil_of_isDirection {word : List Char} (h : IsDirection word) : word ≠ [] := by
  rintro rfl
  rcases h with hword | hword <;> cases hword

/-- Neither a name nor a direction ends in a blank. -/
theorem trimmed_of_isItem {item : List Char} (h : IsItem item) : Trimmed item := by
  refine ⟨?_, fun c hc => ?_⟩
  · obtain ⟨first, rest, rfl, hfirst⟩ := exists_of_isItem h
    simpa using isBlank_of_isNameStart hfirst
  · cases h with
    | plain hname => exact isBlank_of_mem_name hname c (List.mem_of_getLast? hc)
    | @directed name gap word hname hgap hne hword =>
      rw [List.getLast?_append_of_ne_nil _ (ne_nil_of_isDirection hword)] at hc
      exact isBlank_of_mem_direction hword c (List.mem_of_getLast? hc)

theorem isItem_trimChars {piece : List Char} :
    IsItem (trimChars isBlank piece) ↔
      ∃ lead item trail, piece = lead ++ item ++ trail ∧ Blanks lead ∧ IsItem item ∧
        Blanks trail := by
  constructor
  · intro hitem
    obtain ⟨lead, trail, htext, hlead, htrail⟩ := exists_blanks piece
    exact ⟨lead, _, trail, htext, hlead, hitem, htrail⟩
  · rintro ⟨lead, item, trail, rfl, hlead, hitem, htrail⟩
    obtain ⟨first, rest, rfl, -⟩ := exists_of_isItem hitem
    rwa [trimChars_of_blanks hlead (List.cons_ne_nil first rest) (trimmed_of_isItem hitem) htrail]

/-- The walk accepts the clauses of the grammar. -/
theorem isSafeClause_iff {clause : String} :
    isSafeClause clause = true ↔ IsClause clause.toList := by
  obtain ⟨first, rest, hsplit⟩ :=
    List.exists_cons_of_ne_nil (List.splitOn_ne_nil ',' clause.toList)
  have hpiece : ∀ piece ∈ clause.toList.splitOn ',',
      (ClauseState.before.acceptsFrom piece = true ↔ IsItem (trimChars isBlank piece)) :=
    fun piece hmem => (acceptsFrom_before (not_mem_piece hmem)).trans isItem_trimChars.symm
  have hpieces : isSafeClause clause = true ↔
      ∀ piece ∈ clause.toList.splitOn ',', ClauseState.before.acceptsFrom piece = true := by
    change ClauseState.before.acceptsFrom clause.toList = true ↔ _
    rw [acceptsFrom_pieces (s := .before) trivial hsplit, hsplit, Bool.and_eq_true,
      List.all_eq_true, List.forall_mem_cons]
  rw [hpieces, IsClause]
  exact forall₂_congr hpiece

/-- Blanks in front of a clause are passed over. -/
theorem acceptsFrom_of_lead {lead cs : List Char} (hlead : Blanks lead) :
    ClauseState.before.acceptsFrom (lead ++ cs) = ClauseState.before.acceptsFrom cs := by
  induction lead with
  | nil => rfl
  | cons c lead ih =>
    obtain ⟨hblank, hlead⟩ := blanks_cons.mp hlead
    rw [List.cons_append, acceptsFrom_cons, ClauseState.step, if_pos hblank]
    exact ih hlead

/-- A blank does not change whether a clause may end. -/
theorem any_accepts_step {s : ClauseState} (hs : s.Lettered) {c : Char}
    (hblank : isBlank c = true) :
    (s.step c).any ClauseState.accepts = s.accepts := by
  have hname : isNameChar c = false := by
    by_contra hname
    exact absurd hblank (by simp [isBlank_of_isNameChar (by simpa using hname)])
  have hletter : ∀ l ∈ ['a', 's', 'c', 'd', 'e'], sameLetter l c = false := by
    intro l hl
    by_contra hsame
    have hform := (sameLetter_iff hl).mp (by simpa using hsame)
    exact absurd hblank (by simp [isBlank_of_isForm hl hform])
  have hafter (onBlank : ClauseState) : ClauseState.afterEnd? c onBlank = some onBlank := by
    rw [afterEnd?_of_ne (by rintro rfl; exact absurd hblank (by decide)), if_pos hblank]
  cases s with
  | before => simp [ClauseState.step, hblank]
  | name => simp [ClauseState.step, hname, hafter, ClauseState.accepts]
  | gap =>
    simp [ClauseState.step, hletter 'a' (by decide), hletter 'd' (by decide), hafter,
      ClauseState.accepts]
  | direction missing =>
    cases missing with
    | nil => simp [ClauseState.step, hafter, ClauseState.accepts]
    | cons expected missing =>
      have hexpected : expected ∈ ['e', 's', 'c'] := hs expected List.mem_cons_self
      have hmem : ∀ l ∈ ['e', 's', 'c'], l ∈ ['a', 's', 'c', 'd', 'e'] := by simp
      simp [ClauseState.step, hletter expected (hmem expected hexpected), ClauseState.accepts]
  | behind => simp [ClauseState.step, hafter, ClauseState.accepts]

/-- Blanks behind a clause are passed over. -/
theorem acceptsFrom_of_trail {s : ClauseState} (hs : s.Lettered) {cs trail : List Char}
    (htrail : Blanks trail) : s.acceptsFrom (cs ++ trail) = s.acceptsFrom cs := by
  induction cs generalizing s with
  | nil =>
    change s.acceptsFrom trail = s.accepts
    induction trail generalizing s with
    | nil => rfl
    | cons c trail ih =>
      obtain ⟨hblank, htrail⟩ := blanks_cons.mp htrail
      rw [acceptsFrom_cons, ← any_accepts_step hs hblank]
      cases hstep : s.step c with
      | none => rfl
      | some t => exact ih htrail (ClauseState.step_lettered hs hstep)
  | cons c cs ih =>
    rw [List.cons_append, acceptsFrom_cons, acceptsFrom_cons]
    cases hstep : s.step c with
    | none => rfl
    | some t => exact ih (ClauseState.step_lettered hs hstep)

theorem isSafeClause_trim (clause : String) :
    isSafeClause (Text.trim clause) = isSafeClause clause := by
  obtain ⟨lead, trail, htext, hlead, htrail⟩ := exists_blanks clause.toList
  change ClauseState.before.acceptsFrom (Text.trim clause).toList =
    ClauseState.before.acceptsFrom clause.toList
  rw [Text.trim, String.toList_ofList]
  conv_rhs => rw [htext, List.append_assoc, acceptsFrom_of_lead hlead,
    acceptsFrom_of_trail (s := .before) trivial htrail]

theorem trim_trim (clause : String) : Text.trim (Text.trim clause) = Text.trim clause := by
  rw [Text.trim, Text.trim, String.toList_ofList, trimChars_trimChars]

/-! ## 6. The check -/

/-- A sort or group clause passes its check exactly if it is in the grammar: each of the pieces
between its commas is a name, or a name with blanks and a direction behind it, when the blanks at
its ends are taken off.  The check gives the clause without the blanks at its ends, which passes it
again and is not changed any more; any other clause is refused. -/
theorem clause_is_a_list_of_names (kind clause : String) :
    (∀ text, checkClause kind clause = .ok text ↔
      IsClause clause.toList ∧ text = Text.trim clause) ∧
    (∀ text, checkClause kind clause = .ok text → checkClause kind text = .ok text) ∧
    (checkClause kind clause = .error (.unsafeClause kind clause) ↔ ¬IsClause clause.toList) := by
  have hcheck (text : String) : checkClause kind clause = .ok text ↔
      isSafeClause clause = true ∧ text = Text.trim clause := by
    rw [checkClause]
    cases isSafeClause clause <;> simp [eq_comm]
  refine ⟨fun text => by rw [hcheck, isSafeClause_iff], fun text htext => ?_, ?_⟩
  · obtain ⟨hsafe, rfl⟩ := (hcheck text).mp htext
    rw [checkClause, isSafeClause_trim, if_pos hsafe, trim_trim]
  · rw [← isSafeClause_iff, checkClause]
    cases isSafeClause clause <;> simp

/-- Blanks of several sorts, a direction in mixed letters and a name with a dot. -/
theorem clause_with_blanks :
    IsClause " a.b\tDesc ,_c1\n".toList ∧
      checkClause "ORDER BY" " a.b\tDesc ,_c1\n" = .ok "a.b\tDesc ,_c1" ∧
      checkClause "ORDER BY" "a.b\tDesc ,_c1" = .ok "a.b\tDesc ,_c1" ∧
      ¬IsClause "a desc b".toList := by
  obtain ⟨haccepted, hagain, -⟩ := clause_is_a_list_of_names "ORDER BY" " a.b\tDesc ,_c1\n"
  obtain ⟨-, -, hrefused⟩ := clause_is_a_list_of_names "ORDER BY" "a desc b"
  have hclause : checkClause "ORDER BY" " a.b\tDesc ,_c1\n" = .ok "a.b\tDesc ,_c1" := by
    rfl
  exact ⟨((haccepted _).mp hclause).1, hclause, hagain _ hclause, hrefused.mp rfl⟩

end RowMapper.Sql
