import Mathlib.Data.List.Chain
import Mathlib.Tactic.FinCases
import Mathlib.Tactic.IntervalCases
import RowMapper.Proofs.Sql.Marks

/-!
# Texts without paging

A selection is paged by a keyword with a number behind it.  `Unpaged text` says that a text can be
read, wherever it stands, without coming upon a keyword, a blank and a number, and that it does not
end on the way to one.  All pieces of selections are such texts (`unpagedLaw`): no name between
quotes has a blank, and no name of a sort or group clause begins with a digit, so a column may well
be called like a keyword.
-/
namespace RowMapper.Sql

/-! ## 1. Reading keywords -/

/-- A number begins with a digit or a sign. -/
def beginsNumber (c : Char) : Bool := c.isDigit || c == '-'

/-- Somewhere in a text, a keyword of paging stands before a number. -/
def Pages (text : String) : Prop :=
  ∃ keyword ∈ ["LIMIT", "OFFSET"], ∃ before c after, beginsNumber c = true ∧
    text.toList = before ++ keyword.toList ++ ' ' :: c :: after

/-- Where the reader is: at the last letter but one of a keyword, at its end, on the blank behind
it, or anywhere else. -/
inductive PagingState where
  | other
  | letter
  | keyword
  | gap
  deriving DecidableEq

/-- The state after a character that no other one leads to. -/
def PagingState.begin (c : Char) : PagingState := if c = 'I' ∨ c = 'E' then .letter else .other

/-- Reads one character; a number behind a keyword is not read. -/
def PagingState.step : PagingState → Char → Option PagingState
  | .letter, 'T' => some .keyword
  | .keyword, ' ' => some .gap
  | .gap, c => if beginsNumber c then none else some (begin c)
  | _, c => some (begin c)

/-- A text that is read from everywhere but behind a keyword, and does not end there. -/
def Unpaged (text : String) : Prop :=
  ∀ s ≠ PagingState.gap, ∃ t ≠ PagingState.gap, text.toList.foldlM PagingState.step s = some t

theorem Unpaged.append {a b : String} (ha : Unpaged a) (hb : Unpaged b) : Unpaged (a ++ b) := by
  intro s hs
  obtain ⟨t, ht, hread⟩ := ha s hs
  obtain ⟨u, hu, hread'⟩ := hb t ht
  exact ⟨u, hu, by rw [String.toList_append, List.foldlM_append, hread]; exact hread'⟩

/-- What is read does not page. -/
theorem Unpaged.not_pages {text : String} (h : Unpaged text) : ¬Pages text := by
  rintro ⟨keyword, hkeyword, before, c, after, hc, htext⟩
  obtain ⟨t, -, hread⟩ := h .other nofun
  rw [htext, List.foldlM_append, List.foldlM_append] at hread
  obtain ⟨middle, hmiddle, hread⟩ := Option.bind_eq_some_iff.mp hread
  obtain ⟨start, -, hmiddle⟩ := Option.bind_eq_some_iff.mp hmiddle
  -- wherever a keyword begins, its end is noticed
  have hend : keyword.toList.foldlM PagingState.step start = some .keyword := by
    fin_cases hkeyword <;> cases start <;> rfl
  obtain rfl : PagingState.keyword = middle := Option.some.inj (hend.symm.trans hmiddle)
  have hgap : PagingState.step .gap c = none := if_pos hc
  change (PagingState.step .gap c).bind _ = _ at hread
  rw [hgap] at hread
  cases hread

/-! ## 2. Names and clauses -/

/-- A blank comes before no number. -/
def Spaced (a b : Char) : Prop := a = ' ' → beginsNumber b = false

theorem PagingState.step_spaced {s : PagingState} {c : Char}
    (hs : s = .gap → beginsNumber c = false) : ∃ t, s.step c = some t ∧ (t = .gap → c = ' ') := by
  have hbegin : ∃ t, some (begin c) = some t ∧ (t = .gap → c = ' ') :=
    ⟨_, rfl, fun h => by unfold begin at h; split at h <;> cases h⟩
  unfold step
  split
  · exact ⟨_, rfl, nofun⟩
  · exact ⟨_, rfl, fun _ => rfl⟩
  · rw [if_neg (by simp [hs rfl])]
    exact hbegin
  · exact hbegin

/-- A text in which no blank comes before a number is read, and the reader is behind a blank only if
the text ends with one. -/
theorem read_of_spaced {cs : List Char} (h : cs.IsChain Spaced) {s : PagingState}
    (hs : s = .gap → ∀ c ∈ cs.head?, beginsNumber c = false) :
    ∃ t, cs.foldlM PagingState.step s = some t ∧
      (t = .gap → cs = [] ∧ s = .gap ∨ cs.getLast? = some ' ') := by
  induction cs generalizing s with
  | nil => exact ⟨s, rfl, fun h => .inl ⟨rfl, h⟩⟩
  | cons c rest ih =>
    obtain ⟨next, hnext, hgap⟩ := PagingState.step_spaced fun heq => hs heq c rfl
    obtain ⟨hhead, hrest⟩ := List.isChain_cons.mp h
    obtain ⟨t, hread, hlast⟩ := ih hrest fun heq d hd => hhead d hd (hgap heq)
    refine ⟨t, by rw [List.foldlM_cons, hnext]; exact hread, fun ht => .inr ?_⟩
    rcases hlast ht with ⟨rfl, heq⟩ | hend
    · rw [hgap heq]
      rfl
    · rw [List.getLast?_cons, hend]
      rfl

theorem unpaged_of_spaced {text : String} (h : text.toList.IsChain Spaced)
    (hlast : text.toList.getLast? ≠ some ' ') : Unpaged text := by
  intro s hs
  obtain ⟨t, hread, hgap⟩ := read_of_spaced h fun heq => absurd heq hs
  refine ⟨t, fun heq => ?_, hread⟩
  rcases hgap heq with ⟨-, hfirst⟩ | hend
  · exact hs hfirst
  · exact hlast hend

/-- A quoted name has no blanks. -/
theorem unpaged_quote {name : String} (safe : isSafeName name.toList = true) :
    Unpaged (quote name) := by
  have hblank : ' ' ∉ (quote name).toList := by
    have hname : ' ' ∉ name.toList := by
      intro hmem
      rcases hcs : name.toList with _ | ⟨c, cs⟩
      · rw [hcs] at hmem
        cases hmem
      · rw [hcs] at hmem safe
        obtain ⟨hstart, hrest⟩ := Bool.and_eq_true_iff.mp safe
        rcases List.mem_cons.mp hmem with rfl | hmem
        · exact absurd hstart (by decide)
        · exact (isWordChar_of_safeRest hrest _ hmem).elim (absurd · (by decide))
            (absurd · (by decide))
    simpa [quote] using hname
  refine unpaged_of_spaced ?_ fun hlast => hblank (List.mem_of_getLast? hlast)
  refine (List.pairwise_of_forall_mem_list fun a ha b _ heq => ?_).isChain
  exact absurd (heq ▸ ha) hblank

theorem mem_of_beginsNumber {c : Char} (h : beginsNumber c = true) : c ∈ "-0123456789".toList := by
  rcases Bool.or_eq_true_iff.mp h with hdigit | hsign
  · have hbounds : 48 ≤ c.toNat ∧ c.toNat ≤ 57 := by
      simpa [Char.isDigit, UInt32.le_iff_toNat_le] using hdigit
    rw [← Char.ofNat_toNat c]
    generalize c.toNat = n at hbounds ⊢
    obtain ⟨hlow, hhigh⟩ := hbounds
    interval_cases n <;> decide
  · rw [beq_iff_eq.mp hsign]
    decide

/-- The reader of a clause waits for a name, a direction or a comma. -/
def ClauseState.Awaits : ClauseState → Prop
  | .before => True
  | .gap => True
  | .behind => True
  | _ => False

/-- No number comes where a clause is waited for. -/
theorem ClauseState.step_number {s : ClauseState} (hs : s.Awaits) {c : Char}
    (hc : beginsNumber c = true) : s.step c = none := by
  have hmem := mem_of_beginsNumber hc
  cases s with
  | name | direction => cases hs
  | before | gap | behind => fin_cases hmem <;> rfl

theorem ClauseState.step_blank {s t : ClauseState} (hs : s.Lettered) (h : s.step ' ' = some t) :
    t.Awaits := by
  cases s with
  | direction missing =>
    cases missing with
    | nil =>
      cases h
      trivial
    | cons expected missing =>
      have hexpected : expected ∈ ['e', 's', 'c'] := hs expected List.mem_cons_self
      fin_cases hexpected <;> cases h
  | _ =>
    cases h
    trivial

theorem spaced_of_clause {cs : List Char} {s t : ClauseState} (hs : s.Lettered)
    (h : cs.foldlM ClauseState.step s = some t) :
    cs.IsChain Spaced ∧ (s.Awaits → ∀ c ∈ cs.head?, beginsNumber c = false) := by
  induction cs generalizing s with
  | nil => exact ⟨.nil, fun _ => nofun⟩
  | cons c rest ih =>
    obtain ⟨next, hnext, hrest⟩ := Option.bind_eq_some_iff.mp h
    obtain ⟨hchain, hhead⟩ := ih (ClauseState.step_lettered hs hnext) hrest
    refine ⟨List.isChain_cons.mpr ⟨fun d hd heq => ?_, hchain⟩, fun hawaits d hd => ?_⟩
    · subst heq
      exact hhead (ClauseState.step_blank hs hnext) d hd
    · cases hd
      by_contra hnumber
      rw [ClauseState.step_number hawaits (by simpa using hnumber)] at hnext
      cases hnext

theorem trimChars_isInfix (skip : Char → Bool) (cs : List Char) : Text.trimChars skip cs <:+: cs := by
  have hback : ((cs.dropWhile skip).reverse.dropWhile skip).reverse <+: cs.dropWhile skip := by
    simpa using List.reverse_prefix.mpr (List.dropWhile_suffix (l := (cs.dropWhile skip).reverse) skip)
  exact hback.isInfix.trans (List.dropWhile_suffix skip).isInfix

theorem unpaged_checkClause {kind clause text : String} (h : checkClause kind clause = .ok text) :
    Unpaged text := by
  unfold checkClause at h
  split at h
  · next hsafe =>
    cases h
    obtain ⟨state, hstate, -⟩ := (Option.any_eq_true ..).mp hsafe
    obtain ⟨hchain, -⟩ := spaced_of_clause (s := .before) trivial hstate
    have htext : (Text.trim clause).toList = Text.trimChars Text.isBlank clause.toList :=
      String.toList_ofList
    refine unpaged_of_spaced (htext ▸ hchain.infix (trimChars_isInfix _ _)) fun hlast => ?_
    rw [htext, Text.trimChars, List.getLast?_reverse] at hlast
    have hblank := List.head?_dropWhile_not Text.isBlank (clause.toList.dropWhile Text.isBlank).reverse
    rw [hlast] at hblank
    exact absurd hblank (by decide)
  · cases h

/-! ## 3. Selections -/

theorem mem_states {s : PagingState} : s ∈ [.other, .letter, .keyword] ↔ s ≠ .gap := by
  cases s <;> decide

theorem unpaged_fixed : ∀ piece ∈ pieces, ∀ s ∈ [PagingState.other, .letter, .keyword],
    ∃ t ∈ [PagingState.other, .letter, .keyword],
      piece.2.toList.foldlM PagingState.step s = some t := by decide

theorem unpagedLaw : PieceLaw fun _ text => Unpaged text where
  append := Unpaged.append
  fixed h s hs := by
    obtain ⟨t, ht, hread⟩ := unpaged_fixed _ h s (mem_states.mpr hs)
    exact ⟨t, mem_states.mp ht, hread⟩
  name := unpaged_quote
  clause := unpaged_checkClause

end RowMapper.Sql
