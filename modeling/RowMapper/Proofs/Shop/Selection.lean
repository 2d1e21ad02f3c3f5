import RowMapper.Proofs.Finder.Paging
import RowMapper.Proofs.Json.Reader
import RowMapper.Proofs.Shop.Product
import RowMapper.Proofs.Where.Plain

/-!
# Requests that list products
-/
namespace RowMapper.Shop

open FindOptions (IsPage)
open Model (Mapper)

variable {r : Request} {w : World}

/-! ## 1. What is asked for -/

/-- The number under a name of the query, if the name is there. -/
def numberOf (r : Request) (name : String) : Except ProblemKind (Option Int) :=
  match lastOf r.parameters name with
  | none => .ok none
  | some text => (Field.integerText text).map some

/-- The filter of a request: nothing, or the entries of the object that its text is. -/
inductive GivesFilter (r : Request) : Entries → Prop
  | nothing (h : (lastOf r.parameters "where").getD "" = "") : GivesFilter r []
  | object {text : String} {entries : Entries} (h : lastOf r.parameters "where" = some text)
      (hread : Json.readText text.toList = .ok (.mapping entries)) : GivesFilter r entries

/-- The order part of a request: nothing, or its checked clause. -/
inductive GivesOrder (r : Request) : String → Prop
  | nothing (h : (lastOf r.parameters "order").getD "" = "") : GivesOrder r ""
  | clause {text checked : String} (h : lastOf r.parameters "order" = some text) (htext : text ≠ "")
      (hcheck : Sql.checkClause "ORDER BY" text = .ok checked) :
      GivesOrder r (" ORDER BY " ++ checked)

/-- The paging part of a request: nothing, or the page of a number, which is counted from one. -/
inductive GivesPage (r : Request) : String → Prop
  | all (hlimit : numberOf r "limit" = .ok none) (hnumber : numberOf r "offset" = .ok none) :
      GivesPage r ""
  | page {limit number : Int} (hlimit : numberOf r "limit" = .ok (some limit))
      (hnumber : numberOf r "offset" = .ok (some number)) (h : 1 ≤ limit) (h' : 1 ≤ number) :
      GivesPage r (" LIMIT " ++ toString limit ++ " OFFSET " ++ toString ((number - 1) * limit))

/-- The selection of products that a request asks for, when it carries the compiled filter, the
checked order clause and the page. -/
inductive Asks (r : Request) : Sql.Fragment → Prop
  | mk {entries : Entries} {filter : Sql.Fragment} {order page : String}
      (hfilter : GivesFilter r entries) (hcompile : Where.compile (.mapping entries) = .ok filter)
      (horder : GivesOrder r order) (hpage : GivesPage r page) :
      Asks r ⟨"SELECT * FROM \"products\"" ++ (Sql.wherePart (some filter)).text ++ order ++ page,
        (Sql.wherePart (some filter)).params⟩

/-- An integer with more digits than can be written. -/
def TooLong (n : Int) : Prop := Numeral.maxDigits < (toString n.natAbs).length

/-- A request with a part that goes beyond a limit of the language: an integer in the filter with
too many digits, a filter that goes too deep to be read or to be compiled, or a page whose numbers
have too many digits. -/
inductive Unfit (r : Request) : Prop
  | digits {text : String} {count : Nat} (h : lastOf r.parameters "where" = some text)
      (hread : Json.readText text.toList = .error (.tooManyDigits count))
  | nesting {text : String} (h : lastOf r.parameters "where" = some text)
      (hread : Json.readText text.toList = .error .tooDeep)
  | depth {entries : Entries} (h : GivesFilter r entries)
      (hdepth : maxFilterDepth < Where.entriesDepth entries)
  | page {limit number : Int} (hlimit : numberOf r "limit" = .ok (some limit))
      (hnumber : numberOf r "offset" = .ok (some number)) (h : 1 ≤ limit) (h' : 1 ≤ number)
      (hlong : TooLong limit ∨ TooLong ((number - 1) * limit))

/-! ## 2. Find options -/

/-- The options of a page. -/
def pageOptions (d : Dictionary Value) (limit number : Option Int) (order : Option String) :
    FindOptions :=
  { filter := d, limit, offset := number, order, given := [.filter, .limit, .offset, .order] }

theorem run_bind_of_ok {α β σ : Type} {x : StateT σ (Except Fault) α}
    {f : α → StateT σ (Except Fault) β} {s t : σ} {a : α} (h : x.run s = .ok (a, t)) :
    (x >>= f).run s = (f a).run t := by
  rw [StateT.run_bind, h]
  rfl

section Reading

variable {α : Type} {arguments : Dictionary Value} {name : OptionName} {absent : α}
  {read : Value → FindOptions.Reading α}

theorem readOption_absent (h : arguments.get? name.text = none) (found : List Problem) :
    (FindOptions.readOption arguments name absent read).run found = .ok (absent, found) := by
  rw [FindOptions.readOption_absent h]
  rfl

/-- An option that stands for itself is noted, or else its problems are. -/
theorem readOption_plain {v : Value} (h : arguments.get? name.text = some v)
    (hv : v.isExpression = false) (found : List Problem) :
    (FindOptions.readOption arguments name absent read).run found =
      match read v with
      | .ok a => .ok (a, found)
      | .error problems => .ok (absent, found ++ problems) := by
  have hvalue : FindOptions.optionValue name v = .ok v := by
    rw [FindOptions.optionValue, hv, Bool.and_false]
    rfl
  rw [FindOptions.readOption_given h, hvalue]
  rfl

end Reading

/-- A number of a page as it is checked, and what is wrong with it. -/
def checkedNumber (name : OptionName) : Option Int → Option Int × List Problem
  | none => (none, [])
  | some n => if n < 1 then (none, [⟨[.str name.text], .atLeast⟩]) else (some n, [])

theorem readNumber_run {arguments : Dictionary Value} {name : OptionName} {n : Option Int}
    (h : arguments.get? name.text = some (n.elim .null .int)) (found : List Problem) :
    (FindOptions.readOption arguments name none
      (FindOptions.readField name (Field.optional Field.positive))).run found =
        .ok ((checkedNumber name n).1, found ++ (checkedNumber name n).2) := by
  rw [readOption_plain h (by cases n <;> rfl)]
  cases n with
  | none => exact congrArg (fun noted => Except.ok (none, noted)) (List.append_nil found).symm
  | some n =>
    have hpositive : Field.positive (.int n) = if n < 1 then .error .atLeast else .ok n := rfl
    have hoptional : Field.optional Field.positive (.int n) = (Field.positive (.int n)).map some :=
      rfl
    rw [Option.elim_some, FindOptions.readField, hoptional, hpositive, checkedNumber]
    by_cases hn : n < 1
    · rw [if_pos hn, if_pos hn]
      rfl
    · rw [if_neg hn, if_neg hn]
      exact congrArg (fun noted => Except.ok (some n, noted)) (List.append_nil found).symm

/-- The arguments of a page. -/
def pageArguments (d : Dictionary Value) (limit number : Option Int) (order : Option String) :
    Dictionary Value :=
  [("where", named d), ("limit", limit.elim .null .int), ("offset", number.elim .null .int),
    ("order", order.elim .null .str)]

theorem readAll_page {d : Dictionary Value} (hnodup : d.names.Nodup) (limit number : Option Int)
    (order : Option String) : (FindOptions.readAll (pageArguments d limit number order)).run [] =
      .ok (pageOptions d (checkedNumber .limit limit).1 (checkedNumber .offset number).1 order,
        (checkedNumber .limit limit).2 ++ (checkedNumber .offset number).2) := by
  have hfilter : FindOptions.readFilter (named d) = .ok d := by
    rw [named, Value.mapping, FindOptions.readFilter,
      FindOptions.filterEntries_ofNamed]
    exact congrArg Except.ok (Dictionary.ofList_of_nodup hnodup)
  have horder : FindOptions.readField .order (Field.optional Field.text) (order.elim .null .str) =
      .ok order := by cases order <;> rfl
  have hread : (FindOptions.readOption (pageArguments d limit number order) .filter []
      FindOptions.readFilter).run [] = .ok (d, []) := by
    rw [readOption_plain rfl rfl, hfilter]
  have hsort (found : List Problem) : (FindOptions.readOption (pageArguments d limit number order)
      .order none (FindOptions.readField .order (Field.optional Field.text))).run found =
        .ok (order, found) := by
    rw [readOption_plain rfl (by cases order <;> rfl), horder]
  rw [FindOptions.readAll, run_bind_of_ok hread, run_bind_of_ok (readOption_absent rfl _),
    run_bind_of_ok (readOption_absent rfl _), run_bind_of_ok (readNumber_run rfl _),
    run_bind_of_ok (readNumber_run rfl _), List.nil_append, run_bind_of_ok (hsort _),
    run_bind_of_ok (readOption_absent rfl _)]
  rfl

/-- Options of a page are well-formed just when both numbers are given, from one on, or neither. -/
theorem parse_page {d : Dictionary Value} (hnodup : d.names.Nodup) (limit number : Option Int)
    (order : Option String) :
    (IsPage limit number ∧ FindOptions.parse .nothing (pageArguments d limit number order) =
        .ok (pageOptions d limit number order)) ∨
      (¬IsPage limit number ∧ ∃ problems,
        FindOptions.parse .nothing (pageArguments d limit number order) =
          .error (.badOptions problems)) := by
  have hread := readAll_page hnodup limit number order
  have hunknown : FindOptions.unknownNames (pageArguments d limit number order) = [] := by
    rw [FindOptions.unknownNames]
    rfl
  rw [FindOptions.parse, FindOptions.check, hread, hunknown]
  rcases limit with _ | limit <;> rcases number with _ | number
  · exact .inl ⟨.all, rfl⟩
  · by_cases hnumber : number < 1 <;> simp only [checkedNumber, hnumber, if_true, if_false] <;>
      exact .inr ⟨(fun hpage => by cases hpage), _, rfl⟩
  · by_cases hlimit : limit < 1 <;> simp only [checkedNumber, hlimit, if_true, if_false] <;>
      exact .inr ⟨(fun hpage => by cases hpage), _, rfl⟩
  · by_cases hlimit : limit < 1 <;> by_cases hnumber : number < 1 <;>
      simp only [checkedNumber, hlimit, hnumber, if_true, if_false]
    · exact .inr ⟨fun hpage => by cases hpage; omega, _, rfl⟩
    · exact .inr ⟨fun hpage => by cases hpage; omega, _, rfl⟩
    · exact .inr ⟨fun hpage => by cases hpage; omega, _, rfl⟩
    · exact .inl ⟨.page (by omega) (by omega), rfl⟩

/-! ## 3. How a listing is settled -/

variable {α β : Type} {m : Mapper}

/-- A step of a listing goes well, or it is refused, or it goes beyond a limit. -/
inductive Settles (r : Request) (P : α → Prop) : Except Fault α → Prop
  | ok {a : α} (h : P a) : Settles r P (.ok a)
  | refused {fault : Fault} (h : ∀ w, (responseOf w fault).status = 422) :
      Settles r P (.error fault)
  | beyond {fault : Fault} (hunfit : Unfit r) (h : ∀ w, responseOf w fault = internalError) :
      Settles r P (.error fault)

theorem Settles.bind {P : α → Prop} {Q : β → Prop} {x : Except Fault α} {f : α → Except Fault β}
    (h : Settles r P x) (hnext : ∀ a, P a → Settles r Q (f a)) : Settles r Q (x >>= f) := by
  cases h with
  | ok ha => exact hnext _ ha
  | refused h => exact .refused h
  | beyond hunfit h => exact .beyond hunfit h

theorem status_rejected {why : Rejection} {text : String}
    (h : (Fault.rejected why).inWords w.literal = (.rejected why, some text)) :
    (responseOf w (.rejected why)).status = 422 := by
  rw [responseOf, h]
  rfl

theorem GivesFilter.isObject {entries : Entries} (h : GivesFilter r entries) : entries.IsObject := by
  cases h with
  | nothing => exact .nil
  | object _ hread => exact (Json.readText_isRead hread).object _ _ rfl

theorem filterOf_given {entries : Entries} (h : GivesFilter r entries) :
    filterOf (textOf r.parameters "where") = .ok (.mapping entries) := by
  rw [textOf]
  cases h with
  | nothing h =>
    cases hlast : lastOf r.parameters "where" with
    | none => rfl
    | some text =>
      rw [hlast] at h
      obtain rfl : text = "" := h
      rfl
  | @object text _ h hread =>
    rw [h]
    show (if text.isEmpty then _ else _) = _
    have hempty : ¬text.isEmpty := by
      intro hempty
      rw [String.isEmpty_iff.mp hempty] at hread
      cases hread
    rw [if_neg hempty, hread]

theorem filterOf_settles (r : Request) :
    Settles r (fun v => ∃ entries, v = .mapping entries ∧ GivesFilter r entries)
      (filterOf (textOf r.parameters "where")) := by
  by_cases hnothing : (lastOf r.parameters "where").getD "" = ""
  · rw [filterOf_given (.nothing hnothing)]
    exact .ok ⟨[], rfl, .nothing hnothing⟩
  · cases hlast : lastOf r.parameters "where" with
    | none =>
      rw [hlast] at hnothing
      exact absurd rfl hnothing
    | some text =>
      rw [hlast] at hnothing
      have htext : ¬text.isEmpty := fun hempty => hnothing (String.isEmpty_iff.mp hempty)
      rw [textOf, hlast]
      show Settles r _ (if text.isEmpty then _ else _)
      rw [if_neg htext]
      split
      · next entries place hread =>
        -- what is read from a text lies on no shelf
        cases (Json.readText_isRead hread).plain
        exact .ok ⟨entries, rfl, .object hlast hread⟩
      · exact .refused fun w => rfl
      · exact .refused fun w => rfl
      · next hread => exact .beyond (.digits hlast hread) fun w => rfl
      · next hread => exact .beyond (.nesting hlast hread) fun w => rfl

theorem compile_settles {entries : Entries} (hplain : (Value.mapping entries).IsPlain) :
    Settles r (fun f => Where.compile (.mapping entries) = .ok f)
      (orFault (Where.compile (.mapping entries))) := by
  cases hcompile : Where.compile (.mapping entries) with
  | ok f => exact .ok rfl
  | error why =>
    refine .refused fun w => ?_
    obtain ⟨text, htext⟩ := Where.inWords_of_plain hcompile hplain w
    exact status_rejected htext

theorem entriesDepth_le {limit : Nat} (hlimit : 1 ≤ limit) (entries : Entries) :
    Where.entriesDepth entries ≤ limit ↔ ∀ entry ∈ entries, Where.entriesDepth [entry] ≤ limit := by
  induction entries with
  | nil => simpa [Where.entriesDepth] using hlimit
  | cons entry rest ih =>
    obtain ⟨key, value⟩ := entry
    rw [List.forall_mem_cons, ← ih]
    simp only [Where.entriesDepth]
    omega

/-- A filter that fits is not refused for its depth. -/
theorem checkDepth_fitting {d : Dictionary Value}
    (h : Where.entriesDepth (Entries.ofNamed d) ≤ maxFilterDepth) : checkDepth d = .ok () := by
  have hall : (Entries.ofNamed d).all (fun entry =>
      decide (Where.entriesDepth [entry] ≤ maxFilterDepth)) = true := by
    simpa using (entriesDepth_le (by decide) _).mp h
  rw [checkDepth, hall]
  rfl

theorem checkDepth_settles {d : Dictionary Value} (hfilter : GivesFilter r (Entries.ofNamed d)) :
    Settles r (fun _ => Where.entriesDepth (Entries.ofNamed d) ≤ maxFilterDepth) (checkDepth d) := by
  by_cases hfits : Where.entriesDepth (Entries.ofNamed d) ≤ maxFilterDepth
  · rw [checkDepth_fitting hfits]
    exact .ok hfits
  · have hall : (Entries.ofNamed d).all (fun entry =>
        decide (Where.entriesDepth [entry] ≤ maxFilterDepth)) = false := by
      rw [entriesDepth_le (by decide)] at hfits
      simpa using hfits
    rw [checkDepth, hall]
    -- what stands before the first entry that goes too deep is compiled, and may be refused
    generalize hbefore : List.takeWhile _ (Entries.ofNamed d) = before
    have hplain : (Value.mapping before).IsPlain := by
      have hsub : before ⊆ Entries.ofNamed d := hbefore ▸ (List.takeWhile_sublist _).subset
      cases hfilter.isObject.isPlain with
      | mapping hkeys hvalues =>
        exact .mapping (fun entry hentry => hkeys entry (hsub hentry))
          fun entry hentry => hvalues entry (hsub hentry)
    have hcompile : Where.compileEntries before = Where.compile (.mapping before) := by
      cases before <;> rfl
    rw [hcompile]
    show Settles r _ (discard (orFault (Where.compile (.mapping before))) >>= fun _ =>
      Except.error .tooDeep)
    have hdiscard : discard (orFault (Where.compile (.mapping before))) =
        orFault (Where.compile (.mapping before)) >>= fun _ => Except.ok () := by
      cases orFault (Where.compile (.mapping before)) <;> rfl
    rw [hdiscard]
    exact ((compile_settles hplain).bind fun _ _ => .ok trivial).bind (P := fun _ => True)
      fun _ _ => .beyond (.depth hfilter (Nat.lt_of_not_le hfits)) fun _ => rfl

/-! ## 4. The statement -/

/-- The selection that lists products, or why there is none. -/
def listing (m : Mapper) (filter limit offset order : Value) : Except Fault Sql.Fragment := do
  let filter ← filterOf filter
  let options ← FindOptions.parse .nothing [("where", filter), ("limit", limit),
    ("offset", offset), ("order", order)]
  checkDepth options.filter
  World.selection m options options.limit options.rowOffset

/-- Products are listed by one selection. -/
theorem listProducts_runOn (hm : w.mapper (modelOf product) = .ok m)
    (filter limit offset order : Value) : (listProducts filter limit offset order).runOn w =
      (Action.ofExcept (listing m filter limit offset order) >>= fun f =>
        World.select session (modelOf product) [] f >>= listOf).runOn w := by
  rw [listProducts, listing]
  cases filterOf filter with
  | error fault => rfl
  | ok filter =>
    show (Action.ofExcept (FindOptions.parse .nothing [("where", filter), ("limit", limit),
      ("offset", offset), ("order", order)]) >>= fun options => Action.ofExcept (checkDepth
        options.filter) >>= fun _ => World.findAll session (modelOf product) options >>=
          listOf).runOn w =
      (Action.ofExcept (FindOptions.parse .nothing [("where", filter), ("limit", limit),
        ("offset", offset), ("order", order)] >>= fun options => checkDepth options.filter >>=
          fun _ => World.selection m options options.limit options.rowOffset) >>= _).runOn w
    cases hparse : FindOptions.parse .nothing [("where", filter), ("limit", limit),
      ("offset", offset), ("order", order)] with
    | error fault => rfl
    | ok options =>
      show (Action.ofExcept (checkDepth options.filter) >>= fun _ => _).runOn w =
        (Action.ofExcept (checkDepth options.filter >>= fun _ => _) >>= _).runOn w
      cases checkDepth options.filter with
      | error fault => rfl
      | ok _ =>
        have hexclude : options.exclude = [] := World.exclude_eq_nil rfl hparse
        have hread : (World.reading (·.mapper (modelOf product))).runOn w = (.ok m, w) := by
          rw [World.runOn_reading, hm]
        show (World.findAll session (modelOf product) options >>= listOf).runOn w =
          (Action.ofExcept (World.selection m options options.limit options.rowOffset) >>=
            fun f => World.select session (modelOf product) [] f >>= listOf).runOn w
        rw [World.findAll, bind_assoc, Action.runOn_bind_ok hread, bind_assoc, hexclude]

theorem clausePart_text {text : String} (h : text ≠ "") :
    Sql.clausePart "ORDER BY" (.str text) =
      (orFault (Sql.checkClause "ORDER BY" text)).map (" ORDER BY " ++ ·) := by
  have htruthy : (Value.str text).truthy = true := by
    simpa [Value.truthy, Value.str, String.isEmpty_iff] using h
  rw [Sql.clausePart, if_pos htruthy]
  cases Sql.checkClause "ORDER BY" text <;> rfl

/-- The order part of a request. -/
def orderPart (r : Request) : Except Fault String :=
  Sql.clausePart "ORDER BY" ((lastOf r.parameters "order").elim .null .str)

theorem orderPart_given {order : String} (h : GivesOrder r order) : orderPart r = .ok order := by
  rw [orderPart]
  cases h with
  | nothing h =>
    cases hlast : lastOf r.parameters "order" with
    | none => rfl
    | some text =>
      rw [hlast] at h
      obtain rfl : text = "" := h
      rfl
  | @clause text checked h htext hcheck =>
    rw [h, Option.elim_some, clausePart_text htext, hcheck]
    rfl

theorem orderPart_settles (r : Request) : Settles r (GivesOrder r) (orderPart r) := by
  by_cases hnothing : (lastOf r.parameters "order").getD "" = ""
  · rw [orderPart_given (.nothing hnothing)]
    exact .ok (.nothing hnothing)
  · cases hlast : lastOf r.parameters "order" with
    | none =>
      rw [hlast] at hnothing
      exact absurd rfl hnothing
    | some text =>
      replace hnothing : text ≠ "" := by simpa [hlast] using hnothing
      cases hcheck : Sql.checkClause "ORDER BY" text with
      | ok checked =>
        have horder := GivesOrder.clause hlast hnothing hcheck
        rw [orderPart_given horder]
        exact .ok horder
      | error why =>
        rw [orderPart, hlast, Option.elim_some, clausePart_text hnothing, hcheck]
        rw [Sql.checkClause] at hcheck
        split at hcheck <;> cases hcheck
        exact .refused fun w => rfl

/-- The paging part for the numbers of a page. -/
def pagePart (limit number : Option Int) : Except Fault String :=
  Sql.pagingPart (limit.elim .null .int)
    ((pageOptions [] limit number none).rowOffset.elim .null .int)

theorem pagePart_settles {limit number : Option Int} (hlimit : numberOf r "limit" = .ok limit)
    (hnumber : numberOf r "offset" = .ok number) (hpage : IsPage limit number) :
    Settles r (fun page => GivesPage r page ∧ ∀ l n, limit = some l → number = some n →
      ¬TooLong l ∧ ¬TooLong ((n - 1) * l)) (pagePart limit number) := by
  cases hpage with
  | all => exact .ok ⟨.all hlimit hnumber, nofun⟩
  | @page limit number h h' =>
    by_cases hlong : TooLong limit ∨ TooLong ((number - 1) * limit)
    · have hfault : pagePart (some limit) (some number) = .error (.badValue .tooLongToWrite) :=
        Sql.pagingPart_overlong hlong
      rw [hfault]
      exact .beyond (.page hlimit hnumber h h' hlong) fun w => rfl
    · obtain ⟨hl, hn⟩ := not_or.mp hlong
      have hpage : pagePart (some limit) (some number) =
          .ok (" LIMIT " ++ toString limit ++ " OFFSET " ++ toString ((number - 1) * limit)) :=
        Sql.pagingPart_written hl hn
      rw [hpage]
      refine .ok ⟨.page hlimit hnumber h h', ?_⟩
      rintro _ _ ⟨⟩ ⟨⟩
      exact ⟨hl, hn⟩

theorem selection_page (hm : m.tableName = .str "products") (d : Dictionary Value)
    (limit number : Option Int) :
    World.selection m (pageOptions d limit number (lastOf r.parameters "order")) limit
      (pageOptions d limit number (lastOf r.parameters "order")).rowOffset = (do
        let filter ← orFault (Where.compile (named d))
        let order ← orderPart r
        let page ← pagePart limit number
        return ⟨"SELECT * FROM \"products\"" ++ (Sql.wherePart (some filter)).text ++ order ++ page,
          (Sql.wherePart (some filter)).params⟩) :=
  selection_products hm rfl rfl _ _

theorem GivesFilter.unique {entries entries' : Entries} (h : GivesFilter r entries)
    (h' : GivesFilter r entries') : entries = entries' := by
  have hsame := (filterOf_given h).symm.trans (filterOf_given h')
  cases hsame
  rfl

theorem GivesFilter.readable {entries : Entries} {text : String} {stop : Json.Stop}
    (h : GivesFilter r entries) (htext : lastOf r.parameters "where" = some text)
    (hread : Json.readText text.toList = .error stop) : ∃ complaint left, stop = .malformed complaint left := by
  cases h with
  | nothing h =>
    rw [htext] at h
    obtain rfl : text = "" := h
    cases hread
    exact ⟨_, _, rfl⟩
  | object h hread' =>
    cases htext.symm.trans h
    cases hread.symm.trans hread'

/-- No limit is passed by a filter that was read and does not go too deep, and a page that can be
written. -/
theorem fit_of_given {entries : Entries} {limit number : Option Int}
    (hfilter : GivesFilter r entries) (hdepth : Where.entriesDepth entries ≤ maxFilterDepth)
    (hlimit : numberOf r "limit" = .ok limit) (hnumber : numberOf r "offset" = .ok number)
    (hpage : ∀ l n, limit = some l → number = some n → ¬TooLong l ∧ ¬TooLong ((n - 1) * l)) :
    ¬Unfit r := by
  rintro (⟨htext, hread⟩ | ⟨htext, hread⟩ | ⟨hgiven, hdeep⟩ | ⟨hl, hn, -, -, hlong⟩)
  · obtain ⟨_, _, hstop⟩ := hfilter.readable htext hread
    cases hstop
  · obtain ⟨_, _, hstop⟩ := hfilter.readable htext hread
    cases hstop
  · cases hgiven.unique hfilter
    exact absurd hdepth (Nat.not_le_of_lt hdeep)
  · cases hlimit.symm.trans hl
    cases hnumber.symm.trans hn
    obtain ⟨hlimit, hrows⟩ := hpage _ _ rfl rfl
    exact hlong.elim hlimit hrows

theorem textOf_eq (query : List (String × String)) (name : String) :
    textOf query name = (lastOf query name).elim .null .str := by
  rw [textOf]
  cases lastOf query name <;> rfl

/-- The steps of a listing whose numbers make a page, once its filter is read. -/
theorem parse_bind_page (hm : m.tableName = .str "products") {d : Dictionary Value}
    (hnodup : d.names.Nodup) {limit number : Option Int} (hpage : IsPage limit number) :
    (do
      let options ← FindOptions.parse .nothing
        (pageArguments d limit number (lastOf r.parameters "order"))
      checkDepth options.filter
      World.selection m options options.limit options.rowOffset) = (do
        checkDepth d
        let filter ← orFault (Where.compile (named d))
        let order ← orderPart r
        let page ← pagePart limit number
        return ⟨"SELECT * FROM \"products\"" ++ (Sql.wherePart (some filter)).text ++ order ++ page,
          (Sql.wherePart (some filter)).params⟩) := by
  have hparse := (parse_page hnodup limit number (lastOf r.parameters "order")).resolve_right
    fun h => h.1 hpage
  rw [hparse.2, ← selection_page hm]
  rfl

/-- What a listing sends, where it goes well, is what the request asks for, and no limit is passed. -/
theorem listing_settles (hm : m.tableName = .str "products") {limit number : Option Int}
    (hlimit : numberOf r "limit" = .ok limit) (hnumber : numberOf r "offset" = .ok number) :
    Settles r (fun f => Asks r f ∧ ¬Unfit r) (listing m (textOf r.parameters "where")
      (limit.elim .null .int) (number.elim .null .int) (textOf r.parameters "order")) := by
  rw [listing, textOf_eq _ "order"]
  refine (filterOf_settles r).bind ?_
  rintro _ ⟨entries, rfl, hfilter⟩
  obtain ⟨d, rfl, hnodup, -⟩ := hfilter.isObject
  show Settles r _ (FindOptions.parse .nothing
    (pageArguments d limit number (lastOf r.parameters "order")) >>= _)
  rcases parse_page hnodup limit number (lastOf r.parameters "order") with
    ⟨hpage, -⟩ | ⟨-, problems, hparse⟩
  · rw [parse_bind_page hm hnodup hpage]
    refine (checkDepth_settles hfilter).bind fun _ hdepth => ?_
    refine (compile_settles hfilter.isObject.isPlain).bind fun filter hcompile => ?_
    refine (orderPart_settles r).bind fun order horder => ?_
    refine (pagePart_settles hlimit hnumber hpage).bind fun page hgiven => ?_
    exact .ok ⟨.mk hfilter hcompile horder hgiven.1,
      fit_of_given hfilter hdepth hlimit hnumber hgiven.2⟩
  · rw [hparse]
    exact .refused fun w => rfl

/-- A listing sends what its request asks for. -/
theorem listing_asked (hm : m.tableName = .str "products") {f : Sql.Fragment} (h : Asks r f)
    (hfit : ¬Unfit r) : ∃ limit number, numberOf r "limit" = .ok limit ∧
      numberOf r "offset" = .ok number ∧ listing m (textOf r.parameters "where")
        (limit.elim .null .int) (number.elim .null .int) (textOf r.parameters "order") = .ok f := by
  cases h with
  | @mk entries filter order page hfilter hcompile horder hpage =>
    obtain ⟨d, rfl, hnodup, -⟩ := hfilter.isObject
    have hdepth : checkDepth d = .ok () :=
      checkDepth_fitting (Nat.le_of_not_lt fun hdeep => hfit (.depth hfilter hdeep))
    have hsent {limit number : Option Int} (hnumbers : IsPage limit number)
        (hwritten : pagePart limit number = .ok page) : listing m (textOf r.parameters "where")
          (limit.elim .null .int) (number.elim .null .int) (textOf r.parameters "order") =
        .ok ⟨"SELECT * FROM \"products\"" ++ (Sql.wherePart (some filter)).text ++ order ++ page,
          (Sql.wherePart (some filter)).params⟩ := by
      rw [listing, filterOf_given hfilter, textOf_eq _ "order"]
      show (FindOptions.parse .nothing
        (pageArguments d limit number (lastOf r.parameters "order")) >>= _) = _
      rw [parse_bind_page hm hnodup hnumbers, hdepth, hwritten, orderPart_given horder]
      show (orFault (Where.compile (.mapping (Entries.ofNamed d))) >>= _) = _
      rw [hcompile]
      rfl
    cases hpage with
    | all hlimit hnumber => exact ⟨none, none, hlimit, hnumber, hsent .all rfl⟩
    | @page limit number hlimit hnumber h h' =>
      refine ⟨some limit, some number, hlimit, hnumber, hsent (.page h h') (Sql.pagingPart_written ?_ ?_)⟩
      · exact fun hlong => hfit (.page hlimit hnumber h h' (.inl hlong))
      · exact fun hlong => hfit (.page hlimit hnumber h h' (.inr hlong))

end RowMapper.Shop
