import Mathlib.Tactic.Ring
import RowMapper.Proofs.Entity.Lookup
import RowMapper.Proofs.Finder.Options
import RowMapper.Proofs.Sql.Unpaged
import RowMapper.Script.Run

/-!
# Pages

The number of a page and its size are given together or not at all, and from one on
(`check_isPage`).  They only add the paging at the end of the selection (`selection_paged`), which
is evaluated last and is the only one in it (`Unpaged`).  The rows on the pages from one on are then
the rows of the table in order, without gaps and without repetition (`flatMap_window`).

A page is accepted however large its numbers are, but a number that is too long to be written stops
the statement (`overlong_page_is_not_sent`).
-/
namespace RowMapper

open Model (Mapper)

/-! ## 1. The numbers of a page -/

namespace FindOptions

variable {arguments : Dictionary Value} {o : FindOptions}

/-- Both numbers of a page, from one on, or neither. -/
inductive IsPage : Option Int → Option Int → Prop
  | all : IsPage none none
  | page {limit number : Int} (h : 1 ≤ limit) (h' : 1 ≤ number) : IsPage (some limit) (some number)

/-- The number that is given for an option, if one is. -/
def number (arguments : Dictionary Value) (name : OptionName) : Except ProblemKind (Option Int) :=
  match arguments.get? name.text with
  | none => .ok none
  | some v => Field.optional Field.positive v

/-- The numbers of accepted options are those that were given, and they make a page. -/
structure ReadsPage (arguments : Dictionary Value) (o : FindOptions) : Prop where
  limit : number arguments .limit = .ok o.limit
  offset : number arguments .offset = .ok o.offset
  isPage : IsPage o.limit o.offset

theorem one_le_of_optional {v : Value} {n : Int}
    (h : Field.optional Field.positive v = .ok (some n)) : 1 ≤ n := by
  rw [Field.optional.eq_def] at h
  split at h
  · cases h
  · obtain ⟨m, hm, heq⟩ := map_eq_ok.mp h
    cases heq
    exact one_le_of_positive hm

theorem one_le_of_number {name : OptionName} {n : Int} (h : number arguments name = .ok (some n)) :
    1 ≤ n := by
  rw [number] at h
  split at h
  · cases h
  · exact one_le_of_optional h

theorem number_of_took {name : OptionName} {n : Option Int}
    (hplain : ∀ v, optionValue name v = .ok v)
    (h : match arguments.get? name.text with
      | none => n = none
      | some v => ∃ read, optionValue name v = .ok read ∧
          readField name (Field.optional Field.positive) read = .ok n) :
    number arguments name = .ok n := by
  rw [number]
  split at h
  · rw [h]
  · next v _ =>
    obtain ⟨read, hvalue, hread⟩ := h
    cases (hplain v).symm.trans hvalue
    exact readField_eq_ok hread

theorem check_readsPage (h : check arguments = .ok o) : ReadsPage arguments o := by
  obtain ⟨hread, -, hboth⟩ := check_eq_ok h
  have htook := (took_of_readAll hread).1
  have hlimit : number arguments .limit = .ok o.limit :=
    number_of_took (fun _ => rfl) (htook .limit)
  have hoffset : number arguments .offset = .ok o.offset :=
    number_of_took (fun _ => rfl) (htook .offset)
  refine ⟨hlimit, hoffset, ?_⟩
  cases hl : o.limit <;> cases hp : o.offset <;> rw [hl, hp] at hboth
  · exact .all
  · cases hboth
  · cases hboth
  · rw [hl] at hlimit
    rw [hp] at hoffset
    exact .page (one_le_of_number hlimit) (one_le_of_number hoffset)

/-! ## 2. Pages that are refused -/

/-- One of the two numbers of a page is given without the other. -/
def Lone (arguments : Dictionary Value) : Prop :=
  (arguments.get? "limit").any (!·.isNull) ≠ (arguments.get? "offset").any (!·.isNull)

/-- A filter expression that was given cannot be written as a mapping. -/
def Unmapped (arguments : Dictionary Value) (fault : Fault) : Prop :=
  ∃ name v, arguments.get? name.text = some v ∧ optionValue name v = .error fault

theorem isSome_of_number {name : OptionName} {n : Option Int}
    (h : number arguments name = .ok n) :
    n.isSome = (arguments.get? name.text).any (!·.isNull) := by
  rw [number] at h
  split at h
  · next hnone =>
    cases h
    rw [hnone]
    rfl
  · next v hv =>
    rw [hv, Option.any_some]
    rw [Field.optional.eq_def] at h
    split at h
    · cases h
      rfl
    · next hnull =>
      obtain ⟨_, -, rfl⟩ := map_eq_ok.mp h
      cases v <;> first | rfl | exact absurd rfl hnull

theorem check_failsOnly (arguments : Dictionary Value) :
    FailsOnly (fun fault => (∃ problems, fault = .badOptions problems) ∨ Unmapped arguments fault)
      (check arguments) := by
  have hreads (name : OptionName) (found : List Problem) :
      FailsOnly (fun fault => (∃ problems, fault = Fault.badOptions problems) ∨
        Unmapped arguments fault) ((readNamed arguments name).run found) := by
    rw [readNamed]
    cases hv : arguments.get? name.text with
    | none =>
      rw [readOption_absent hv]
      exact .ok _
    | some v =>
      rw [readOption_given hv]
      cases hvalue : optionValue name v with
      | error fault => exact .error (.inr ⟨name, v, hv, hvalue⟩)
      | ok read =>
        refine .bind (.ok read) fun read => ?_
        cases reader name read <;> exact .ok _
  rw [check, readAll_eq]
  simp only [StateT.run_bind]
  refine .bind ?_ fun _ => .guarded (.inl ⟨_, rfl⟩) fun _ => .guarded (.inl ⟨_, rfl⟩) fun _ => .ok _
  refine .bind (hreads _ _) fun _ => .bind (hreads _ _) fun _ => .bind (hreads _ _) fun _ => ?_
  exact .bind (hreads _ _) fun _ => .bind (hreads _ _) fun _ => .bind (hreads _ _) fun _ =>
    .bind (hreads _ _) fun _ => .ok _

/-- One number alone is refused. -/
theorem check_lone (h : Lone arguments) : ∃ fault, check arguments = .error fault ∧
    ((∃ problems, fault = .badOptions problems) ∨ Unmapped arguments fault) := by
  cases hcheck : check arguments with
  | error fault => exact ⟨fault, rfl, check_failsOnly arguments fault hcheck⟩
  | ok o =>
    obtain ⟨hlimit, hoffset, -⟩ := check_readsPage hcheck
    obtain ⟨-, -, hboth⟩ := check_eq_ok hcheck
    exact absurd ((isSome_of_number hlimit).symm.trans (hboth.trans (isSome_of_number hoffset))) h

end FindOptions

/-! ## 3. Arguments from a source -/

namespace OptionSource

open FindOptions

/-- The arguments that a source and named arguments on top of it come to. -/
def arguments (source : OptionSource) (more : Dictionary Value) : Except Fault (Dictionary Value) :=
  match source with
  | .nothing => .ok more
  | .entries given => (namedArguments given).map (Dictionary.update · more)
  | .unusable => .error .wrongType
  | .checked o => .ok (Dictionary.update o.arguments more)

/-- Options that were checked before come from a check. -/
def Checked (source : OptionSource) : Prop :=
  ∀ o, source = .checked o → ∃ arguments, check arguments = .ok o

theorem parse_eq_check {source : OptionSource} (h : source.Checked) (more : Dictionary Value) :
    parse source more = source.arguments more >>= check := by
  cases source with
  | nothing | unusable => rfl
  | entries given =>
    rw [parse, arguments]
    cases namedArguments given <;> rfl
  | checked o =>
    obtain ⟨first, hfirst⟩ := h o rfl
    rw [parse]
    cases more with
    | nil => exact hfirst.symm.trans (check_update_arguments hfirst []).symm
    | cons entry rest => rfl

end OptionSource

/-! ## 4. The selection of a page -/

/-- A number that has more digits than are written. -/
def Overlong (n : Int) : Prop := Numeral.maxDigits < (toString n.natAbs).length

theorem overlong_iff (n : Int) : Overlong n ↔ 10 ^ Numeral.maxDigits ≤ n.natAbs := by
  have hlength := Nat.length_toDigits_le_iff (b := 10) (n := n.natAbs) (k := Numeral.maxDigits)
    (by decide) (by decide)
  have htext : (toString n.natAbs).length = (Nat.toDigits 10 n.natAbs).length := by
    simp [Nat.toString_eq_repr, Nat.repr]
  rw [Overlong, htext, ← Nat.not_le, hlength, Nat.not_lt]

theorem overlong_product {k : Nat} (h : Numeral.maxDigits ≤ k + k) :
    Overlong ((10 ^ k + 1 - 1) * 10 ^ k) := by
  rw [overlong_iff, Int.add_sub_cancel, ← pow_add, Int.natAbs_pow]
  exact Nat.pow_le_pow_right (by decide) h

namespace Sql

theorem integerText_int {n : Int} (h : ¬Overlong n) :
    (Value.int n).integerText = .ok (toString n) := if_neg h

theorem integerText_overlong {n : Int} (h : Overlong n) :
    (Value.int n).integerText = .error (.badValue .tooLongToWrite) := if_pos h

/-- What pages a selection: the size of the page and the number of rows before it. -/
def pageText (limit rows : Int) : String :=
  " LIMIT " ++ toString limit ++ " OFFSET " ++ toString rows

theorem pagingPart_int (limit rows : Int) : pagingPart (.int limit) (.int rows) = (do
    let size ← (Value.int limit).integerText
    let start ← (Value.int rows).integerText
    return " LIMIT " ++ size ++ " OFFSET " ++ start) := rfl

theorem pagingPart_written {limit rows : Int} (hlimit : ¬Overlong limit) (hrows : ¬Overlong rows) :
    pagingPart (.int limit) (.int rows) = .ok (pageText limit rows) := by
  rw [pagingPart_int, integerText_int hlimit, integerText_int hrows]
  rfl

theorem pagingPart_overlong {limit rows : Int} (h : Overlong limit ∨ Overlong rows) :
    pagingPart (.int limit) (.int rows) = .error (.badValue .tooLongToWrite) := by
  rw [pagingPart_int]
  by_cases hlimit : Overlong limit
  · rw [integerText_overlong hlimit]
    rfl
  · rw [integerText_int hlimit, integerText_overlong (h.resolve_left hlimit)]
    rfl

/-- The paging of a selection is what comes last, in its text and in its checks. -/
theorem statement_paged (s : Select) : s.statement = (do
    let f ← { s with limit := .null, offset := .null }.statement
    let paging ← pagingPart s.limit s.offset
    return ⟨f.text ++ paging, f.params⟩) := by
  have hnone : pagingPart .null .null = .ok "" := rfl
  simp only [Select.statement, hnone, bind_assoc, pure_bind]
  refine bind_congr fun table => bind_congr fun columns => bind_congr fun group =>
    bind_congr fun order => ?_
  show _ = pagingPart s.limit s.offset >>= _
  simp only [String.append_empty]

end Sql

namespace World

variable {w : World} {session : String} {model : Nat} {m : Mapper} {o : FindOptions}

theorem selection_paged (m : Mapper) (o : FindOptions) (limit offset : Option Int) :
    selection m o limit offset = (do
      let f ← selection m o none none
      let paging ← Sql.pagingPart (limit.elim .null .int) (offset.elim .null .int)
      return ⟨f.text ++ paging, f.params⟩) := by
  rw [selection, selection, bind_assoc]
  exact bind_congr fun filter => Sql.statement_paged _

/-- Without numbers, a selection has no paging. -/
theorem selection_unpaged {f : Sql.Fragment} (h : selection m o none none = .ok f) :
    Sql.Unpaged f.text := by
  obtain ⟨filter, hfilter, h⟩ := bind_eq_ok.mp h
  obtain ⟨text, paging, htext, hpaging, hf⟩ := Sql.unpagedLaw.statement (fun part hpart => by
    cases hpart
    exact Sql.unpagedLaw.compile (orFault_eq_ok.mp hfilter)) h
  cases hpaging
  rwa [hf, String.append_empty]

/-! ## 5. Finding all rows -/

/-- Finds the rows that options ask for, which come from a source with named ones on top. -/
def findAllWith (session : String) (model : Nat) (source : OptionSource)
    (more : Dictionary Value) : Action World (List EntityRef) := do
  findAll session model (← Action.ofExcept (FindOptions.parse source more))

/-- What was run in a world sent a statement and nothing else; or it sent nothing, because the
statement had to be reported and its values cannot be printed. -/
def SendsOnly {α : Type} (w : World) (f : Sql.Fragment) (run : Except Fault α × World) : Prop :=
  (∃ x : Exchange, run.2.trace = w.trace ++ [x] ∧
    x.call = .statement f.text (f.params.map w.expand)) ∨
  ∃ why, run.1 = .error (.ofUnprintable why) ∧ run.2.trace = w.trace ∧
    w.engine.logStatements = true ∧ w.literal (.list (f.params.map w.expand)) = .error why

/-- How finding all rows goes, in a world: the selection without its page is refused, and then
nothing is sent; or without numbers it is sent as it is, and pages nothing; or its only paging is
that of the page, at its end; or a number of the page cannot be written, and nothing is sent. -/
inductive FindsPage (w : World) (m : Mapper) (o : FindOptions) :
    Except Fault (List EntityRef) × World → Prop
  | refused {fault : Fault} (h : selection m o none none = .error fault) :
      FindsPage w m o (.error fault, w)
  | whole {f : Sql.Fragment} {run : Except Fault (List EntityRef) × World}
      (hlimit : o.limit = none) (hoffset : o.offset = none)
      (h : selection m o none none = .ok f) (hpages : ¬Sql.Pages f.text)
      (hsends : SendsOnly w f run) : FindsPage w m o run
  | page {f : Sql.Fragment} {l p : Int} {run : Except Fault (List EntityRef) × World}
      (hlimit : o.limit = some l) (hoffset : o.offset = some p)
      (hl : ¬Overlong l) (hrows : ¬Overlong ((p - 1) * l))
      (h : selection m o none none = .ok f) (hpages : ¬Sql.Pages f.text)
      (hsends : SendsOnly w ⟨f.text ++ Sql.pageText l ((p - 1) * l), f.params⟩ run) :
      FindsPage w m o run
  | overlong {f : Sql.Fragment} {l p : Int} (hlimit : o.limit = some l) (hoffset : o.offset = some p)
      (hlong : Overlong l ∨ Overlong ((p - 1) * l)) (h : selection m o none none = .ok f) :
      FindsPage w m o (.error (.badValue .tooLongToWrite), w)

theorem select_sendsOnly (session : String) (model : Nat) (excluded : List String)
    (f : Sql.Fragment) (w : World) : SendsOnly w f ((select session model excluded f).runOn w) := by
  rcases select_ends session model excluded f w with hsent | ⟨why, t, hrun, htrace, hlog, hprint⟩
  · exact .inl hsent
  · exact .inr ⟨why, by rw [hrun], by rw [hrun, htrace], hlog, hprint⟩

theorem findAll_run (hm : w.mapper model = .ok m) : (findAll session model o).runOn w =
    (Action.ofExcept (selection m o o.limit o.rowOffset) >>= fun f =>
      select session model o.exclude f).runOn w := by
  rw [findAll, Action.runOn_bind, runOn_reading, hm]

/-- The selection of all rows of a page, for the paging that its numbers make. -/
theorem findAll_run_paged (hm : w.mapper model = .ok m) {f : Sql.Fragment}
    (hselection : selection m o none none = .ok f) : (findAll session model o).runOn w =
      (Action.ofExcept (Sql.pagingPart (o.limit.elim .null .int) (o.rowOffset.elim .null .int)) >>=
        fun paging => select session model o.exclude ⟨f.text ++ paging, f.params⟩).runOn w := by
  rw [findAll_run hm, selection_paged, hselection, Action.runOn_bind, Action.runOn_bind,
    Action.runOn_ofExcept, Action.runOn_ofExcept]
  cases Sql.pagingPart (o.limit.elim .null .int) (o.rowOffset.elim .null .int) <;> rfl

theorem findAll_findsPage (hm : w.mapper model = .ok m)
    (hpage : FindOptions.IsPage o.limit o.offset) :
    FindsPage w m o ((findAll session model o).runOn w) := by
  cases hselection : selection m o none none with
  | error fault =>
    rw [findAll_run hm, selection_paged, hselection]
    exact .refused hselection
  | ok f =>
    have hpages := (selection_unpaged hselection).not_pages
    have hrun : (findAll session model o).runOn w = _ := findAll_run_paged hm hselection
    generalize hlimit : o.limit = limit at hpage
    generalize hoffset : o.offset = offset at hpage
    rw [FindOptions.rowOffset, hlimit, hoffset] at hrun
    cases hpage with
    | all =>
      have hsent : (findAll session model o).runOn w =
          (select session model o.exclude ⟨f.text ++ "", f.params⟩).runOn w := hrun
      rw [String.append_empty] at hsent
      exact .whole hlimit hoffset hselection hpages (hsent ▸ select_sendsOnly ..)
    | @page l p _ _ =>
      by_cases hlong : Overlong l ∨ Overlong ((p - 1) * l)
      · have hpaging := Sql.pagingPart_overlong hlong
        rw [hrun]
        show FindsPage w m o ((Action.ofExcept (Sql.pagingPart (.int l) (.int ((p - 1) * l))) >>=
          _).runOn w)
        rw [hpaging]
        exact .overlong hlimit hoffset hlong hselection
      · obtain ⟨hl, hrows⟩ := not_or.mp hlong
        have hpaging := Sql.pagingPart_written hl hrows
        have hsent : (findAll session model o).runOn w =
            (select session model o.exclude
              ⟨f.text ++ Sql.pageText l ((p - 1) * l), f.params⟩).runOn w := by
          rw [hrun]
          show (Action.ofExcept (Sql.pagingPart (.int l) (.int ((p - 1) * l))) >>= _).runOn w = _
          rw [hpaging]
          rfl
        exact .page hlimit hoffset hl hrows hselection hpages (hsent ▸ select_sendsOnly ..)

end World

/-! ## 6. The rows on pages -/

/-- The positions of the rows on a page, counted from zero: as many as its size, from the first row
behind the pages before it. -/
def window (l p : Int) : List Nat := List.range' ((p - 1) * l).toNat l.toNat

theorem mem_window {l p : Int} (hl : 1 ≤ l) (hp : 1 ≤ p) (i : Nat) :
    i ∈ window l p ↔ (p - 1) * l ≤ i ∧ i < p * l := by
  have hstart : 0 ≤ (p - 1) * l := Int.mul_nonneg (by omega) (by omega)
  have hend : p * l = (p - 1) * l + l := by ring
  rw [window, List.mem_range'_1, hend]
  omega

/-- The next page goes on where a page ends. -/
theorem window_append {l p : Int} (hl : 1 ≤ l) (hp : 1 ≤ p) : window l p ++ window l (p + 1) =
    List.range' ((p - 1) * l).toNat (2 * l).toNat := by
  have hstart : 0 ≤ (p - 1) * l := Int.mul_nonneg (by omega) (by omega)
  have hnext : (p + 1 - 1) * l = (p - 1) * l + l := by ring
  have hbegin : ((p + 1 - 1) * l).toNat = ((p - 1) * l).toNat + l.toNat := by
    rw [hnext, Int.toNat_add hstart (by omega)]
  have hsize : (2 * l).toNat = l.toNat + l.toNat := by omega
  rw [window, window, hbegin, hsize, List.range'_append_1]

/-- No row is on two pages. -/
theorem window_disjoint {l p q : Int} (hl : 1 ≤ l) (hp : 1 ≤ p) (h : p < q) :
    (window l p).Disjoint (window l q) := by
  intro i hi hi'
  have hend := ((mem_window hl hp i).mp hi).2
  have hstart := ((mem_window hl (by omega) i).mp hi').1
  have hle : p * l ≤ (q - 1) * l := Int.mul_le_mul_of_nonneg_right (by omega) (by omega)
  omega

/-- The first pages have the first rows, each once and in their order: so it is for one page more. -/
theorem flatMap_window {l : Int} (hl : 1 ≤ l) (n : Nat) :
    (List.range n).flatMap (fun k : Nat => window l (k + 1)) = List.range (n * l.toNat) := by
  induction n with
  | zero => simp
  | succ n ih =>
    have hstart : (((n : Int) + 1 - 1) * l).toNat = n * l.toNat := by
      rw [Int.add_sub_cancel, Int.toNat_mul (by omega) (by omega), Int.toNat_natCast]
    rw [List.range_succ, List.flatMap_append, ih, List.flatMap_singleton, window, hstart,
      List.range_eq_range', List.range_eq_range', Nat.succ_mul]
    simpa using List.range'_append_1 (s := 0) (m := n * l.toNat) (n := l.toNat)

namespace World

/-- A script finds all rows with the options that its terms come to. -/
theorem run_findAll {w : World} {session key : String} {model : Nat} {m : Mapper}
    {source more : Term} {given : OptionSource} {named : Dictionary Value}
    (hmodel : w.registry.find key = .ok model) (hm : w.mapper model = .ok m)
    (hsource : source.source w.scope = .ok given) (hmore : more.named w.scope = .ok named) :
    ((Script.Operation.findAll key source more).run session).runOn w =
      (findAllWith session model given named >>= fun refs =>
        pure (Script.entityList refs)).runOn w := by
  have hkey : (Script.model key).runOn w = (.ok model, w) := by
    rw [Script.model, runOn_reading, hmodel]
  have hquery : (discard (reading (·.mapper model))).runOn w = (.ok ⟨⟩, w) := by
    rw [Action.discard_eq, Action.runOn_bind_pure, runOn_reading, hm]
    rfl
  have hoptions : (Script.options model source more).runOn w =
      (FindOptions.parse given named, w) := by
    rw [Script.options, Action.runOn_bind_ok (by rw [runOn_reading, hsource]),
      Action.runOn_bind_ok (by rw [runOn_reading, hmore]), Action.runOn_bind_ok hquery,
      Action.runOn_ofExcept]
  rw [Script.Operation.run, Action.runOn_bind_ok hkey, findAllWith, bind_assoc, Action.runOn_bind,
    hoptions, Action.runOn_bind, Action.runOn_ofExcept]

/-- **Pages tile the rows.**  Options that are accepted have both numbers of a page, from one on and
as they were given, or neither, and finding all rows then sends the selection with just the paging
of the page, or with none; it sends nothing if the selection is refused or a number of the page
cannot be written.  One number alone is refused without a statement.  The windows of the pages lie
one behind the other, have no row in common, and those of the first pages together have the first
rows. -/
theorem pages_tile_the_rows {source : OptionSource} {more arguments : Dictionary Value}
    (hsource : source.Checked) (harguments : source.arguments more = .ok arguments) :
    (∀ o, FindOptions.parse source more = .ok o → FindOptions.ReadsPage arguments o ∧
      ∀ w session model m, w.mapper model = .ok m →
        FindsPage w m o ((findAllWith session model source more).runOn w)) ∧
    (FindOptions.Lone arguments → ∃ fault,
      ((∃ problems, fault = .badOptions problems) ∨ FindOptions.Unmapped arguments fault) ∧
      ∀ w session model, (findAllWith session model source more).runOn w = (.error fault, w)) ∧
    ∀ l : Int, 1 ≤ l →
      (∀ p, 1 ≤ p → window l p ++ window l (p + 1) =
        List.range' ((p - 1) * l).toNat (2 * l).toNat) ∧
      (∀ p q, 1 ≤ p → p < q → (window l p).Disjoint (window l q)) ∧
      ∀ n : Nat, (List.range n).flatMap (fun k : Nat => window l (k + 1)) =
        List.range (n * l.toNat) := by
  have hparse : FindOptions.parse source more = FindOptions.check arguments := by
    rw [source.parse_eq_check hsource, harguments]
    rfl
  refine ⟨fun o ho => ?_, fun hlone => ?_, fun l hl =>
    ⟨fun p hp => window_append hl hp, fun p q hp hpq => window_disjoint hl hp hpq,
      flatMap_window hl⟩⟩
  · have hpage := FindOptions.check_readsPage (hparse.symm.trans ho)
    refine ⟨hpage, fun w session model m hm => ?_⟩
    have hrun : (findAllWith session model source more).runOn w =
        (findAll session model o).runOn w := by
      rw [findAllWith, ho]
      rfl
    rw [hrun]
    exact findAll_findsPage hm hpage.isPage
  · obtain ⟨fault, hfault, hwhy⟩ := FindOptions.check_lone hlone
    refine ⟨fault, hwhy, fun w session model => ?_⟩
    rw [findAllWith, hparse, hfault]
    rfl

/-- Animals, by a page that is given loosely. -/
theorem page_of_animals : ∃ m arguments,
    OptionSource.Checked (.entries FindOptions.loosePage) ∧
    OptionSource.arguments (.entries FindOptions.loosePage) [] = .ok arguments ∧
    FindOptions.parse (.entries FindOptions.loosePage) [] = .ok FindOptions.firstPage ∧
    housing.mapper 1 = .ok m ∧ FindsPage housing m FindOptions.firstPage
      ((findAllWith "session" 1 (.entries FindOptions.loosePage) []).runOn housing) := by
  obtain ⟨m, hm, -⟩ := animals_keyed
  have hsource : OptionSource.Checked (.entries FindOptions.loosePage) := nofun
  have harguments : OptionSource.arguments (.entries FindOptions.loosePage) [] = .ok _ := rfl
  obtain ⟨hpage, -⟩ := pages_tile_the_rows hsource harguments
  exact ⟨m, _, hsource, rfl, rfl, hm, (hpage _ rfl).2 housing "session" 1 m hm⟩

/-! ## 7. A page that cannot be written -/

/-- The options of a page. -/
def pageOf (l p : Int) : FindOptions :=
  { limit := some l, offset := some p, given := [.limit, .offset] }

/-- The page of a number and a size, as it is asked for. -/
def pageArguments (l p : Int) : Dictionary Value := [("limit", .int l), ("offset", .int p)]

/-- Numbers from one on are accepted, however large they are. -/
theorem parse_pageArguments {l p : Int} (hl : 1 ≤ l) (hp : 1 ≤ p) :
    FindOptions.parse .nothing (pageArguments l p) = .ok (pageOf l p) := by
  refine FindOptions.check_of_took (o := pageOf l p) (fun name => ?_) rfl rfl rfl
  cases name with
  | limit => exact ⟨_, rfl, FindOptions.readPositive_int hl⟩
  | offset => exact ⟨_, rfl, FindOptions.readPositive_int hp⟩
  | _ => rfl

/-- A page with a number that cannot be written is not sent. -/
theorem findAllWith_overlong {f : Sql.Fragment} {l p : Int} (hm : w.mapper model = .ok m)
    (hselection : selection m (pageOf l p) none none = .ok f) (hl : 1 ≤ l) (hp : 1 ≤ p)
    (hlong : Overlong l ∨ Overlong ((p - 1) * l)) :
    (findAllWith session model .nothing (pageArguments l p)).runOn w =
      (.error (.badValue .tooLongToWrite), w) := by
  have hrun : (findAllWith session model .nothing (pageArguments l p)).runOn w =
      (Action.ofExcept (Sql.pagingPart (.int l) (.int ((p - 1) * l))) >>= fun paging =>
        select session model [] ⟨f.text ++ paging, f.params⟩).runOn w := by
    rw [findAllWith, parse_pageArguments hl hp]
    exact findAll_run_paged hm hselection
  rw [hrun, Sql.pagingPart_overlong hlong]
  rfl

/-- Whether the rows of a class can be selected. -/
def selectsRows : Except Fault Mapper → Bool
  | .ok m => (selection m {} none none).isOk
  | .error _ => false

/-- A page of the animals is accepted but not sent: the number of rows before it has 4401 digits. -/
theorem huge_page_is_not_sent :
    FindOptions.parse .nothing (pageArguments (10 ^ 2200) (10 ^ 2200 + 1)) =
        .ok (pageOf (10 ^ 2200) (10 ^ 2200 + 1)) ∧
      (findAllWith "session" 1 .nothing (pageArguments (10 ^ 2200) (10 ^ 2200 + 1))).runOn housing =
        (.error (.badValue .tooLongToWrite), housing) := by
  have hselects : selectsRows (housing.mapper 1) = true := by decide +kernel
  have hl : (1 : Int) ≤ 10 ^ 2200 := one_le_pow₀ (by decide)
  have hp : (1 : Int) ≤ 10 ^ 2200 + 1 := by omega
  have hlong : Overlong ((10 ^ 2200 + 1 - 1) * 10 ^ 2200) := overlong_product (by decide)
  generalize housing = w at hselects ⊢
  refine ⟨parse_pageArguments hl hp, ?_⟩
  cases hm : w.mapper 1 with
  | error fault =>
    rw [hm] at hselects
    cases hselects
  | ok m =>
    rw [hm] at hselects
    cases hselection : selection m {} none none with
    | error fault =>
      rw [selectsRows, hselection] at hselects
      cases hselects
    | ok f => exact findAllWith_overlong hm hselection hl hp (.inr hlong)

end World
end RowMapper
