import RowMapper.Finder.Options
import RowMapper.Proofs.Dictionary
import RowMapper.Proofs.Outcome
import RowMapper.Proofs.World.Holding

/-!
# Options in steps

Options that were checked can be given again, with more on top.  What an option holds is then
written down as a value and read a second time, so a reader has to read what it wrote as what it
held (`reader_dump`), and the options that were left out have to stay left out (`get?_arguments`).
Names that are no options come from the second step only, since the first one was accepted
(`unknownNames_update`).
-/
namespace RowMapper.FindOptions

/-! ## 1. What an option holds -/

/-- What stands under the name of an option. -/
abbrev Content : OptionName → Type
  | .filter => Dictionary Value
  | .attributes => Option (List String)
  | .exclude => List String
  | .limit => Option Int
  | .offset => Option Int
  | .order => Option String
  | .group => Option String

/-- What options hold under a name. -/
def content (o : FindOptions) : (name : OptionName) → Content name
  | .filter => o.filter
  | .attributes => o.attributes
  | .exclude => o.exclude
  | .limit => o.limit
  | .offset => o.offset
  | .order => o.order
  | .group => o.group

/-- What stands under the name of an option that was left out. -/
def absent : (name : OptionName) → Content name
  | .filter => []
  | .attributes => none
  | .exclude => []
  | .limit => none
  | .offset => none
  | .order => none
  | .group => none

/-- How the option of a name is read. -/
def reader : (name : OptionName) → Value → Reading (Content name)
  | .filter => readFilter
  | .attributes => fun v => if v.isNull then .ok none else (readNameList .attributes v).map some
  | .exclude => fun v => if v.isNull then .ok [] else readNameList .exclude v
  | .limit => readField .limit (Field.optional Field.positive)
  | .offset => readField .offset (Field.optional Field.positive)
  | .order => readField .order (Field.optional Field.text)
  | .group => readField .group (Field.optional Field.text)

/-- The value that what stands under a name is written down as. -/
def dump : (name : OptionName) → Content name → Value
  | .filter => fun named => .mapping (Entries.ofNamed named)
  | .attributes => fun names => names.elim .null fun names => .list (names.map .str)
  | .exclude => fun names => .list (names.map .str)
  | .limit => fun n => n.elim .null .int
  | .offset => fun n => n.elim .null .int
  | .order => fun text => text.elim .null .str
  | .group => fun text => text.elim .null .str

theorem valueOf_eq (o : FindOptions) (name : OptionName) :
    o.valueOf name = dump name (o.content name) := by
  cases name with
  | attributes => cases h : o.attributes <;> simp only [valueOf, dump, content, h] <;> rfl
  | _ => rfl

/-! ## 2. Reading what was written down -/

theorem filterEntries_ofNamed (d : Dictionary Value) :
    filterEntries (Entries.ofNamed d) = (d, []) := by
  induction d with
  | nil => rfl
  | cons entry rest ih =>
    show filterEntries ((.str entry.1, entry.2) :: Entries.ofNamed rest) = _
    rw [filterEntries, ih]
    rfl

/-- A filter that was read is a dictionary. -/
theorem nodup_of_readFilter {v : Value} {d : Dictionary Value} (h : readFilter v = .ok d) :
    d.names.Nodup := by
  rw [readFilter.eq_def] at h
  split at h
  · cases h
    exact List.nodup_nil
  · split at h
    · cases h
      exact Dictionary.nodup_names_ofList _
    · cases h
  · cases h

theorem readNames_texts (name : OptionName) (names : List String) (index : Nat) :
    readNames name index (names.map .str) = (names, []) := by
  induction names generalizing index with
  | nil => rfl
  | cons first rest ih =>
    rw [List.map_cons, readNames, ih]
    rfl

theorem readNameList_texts (name : OptionName) (names : List String) :
    readNameList name (.list (names.map .str)) = .ok names := by
  simp only [readNameList, Value.sequence?, readNames_texts]

theorem readField_eq_ok {α : Type} {name : OptionName} {read : Value → Except ProblemKind α}
    {v : Value} {a : α} (h : readField name read v = .ok a) : read v = .ok a := by
  rw [readField] at h
  split at h
  · next hread => rw [hread, Except.ok.inj h]
  · cases h

theorem readField_some {α : Type} {name : OptionName} {read : Value → Except ProblemKind α}
    {v : Value} {a : α} (hoptional : Field.optional read v = (read v).map some)
    (h : read v = .ok a) : readField name (Field.optional read) v = .ok (some a) := by
  rw [readField, hoptional, h]
  rfl

/-- A field that may be null is read again from what was read, if a proper one is. -/
theorem readField_again {α : Type} {name : OptionName} {read : Value → Except ProblemKind α}
    {write : α → Value} {v : Value} {a : Option α}
    (hwrite : ∀ b, (∃ u, read u = .ok b) →
      Field.optional read (write b) = (read (write b)).map some ∧ read (write b) = .ok b)
    (h : readField name (Field.optional read) v = .ok a) :
    readField name (Field.optional read) (a.elim .null write) = .ok a := by
  cases a with
  | none => rfl
  | some b =>
    have hread : Field.optional read v = .ok (some b) := readField_eq_ok h
    have hv : ∃ u, read u = .ok b := by
      rw [Field.optional.eq_def] at hread
      split at hread
      · cases Except.ok.inj hread
      · obtain ⟨b', hb, heq⟩ := map_eq_ok.mp hread
        exact ⟨_, hb.trans (by rw [Option.some.inj heq])⟩
    obtain ⟨hoptional, hagain⟩ := hwrite b hv
    exact readField_some hoptional hagain

/-- A number that was read is at least one. -/
theorem one_le_of_positive {v : Value} {n : Int} (h : Field.positive v = .ok n) : 1 ≤ n := by
  obtain ⟨m, -, hm⟩ := bind_eq_ok.mp h
  split at hm
  · cases hm
  · next hlow =>
    cases hm
    omega

theorem positive_int {n : Int} (h : 1 ≤ n) : Field.positive (.int n) = .ok n :=
  if_neg (Int.not_lt.mpr h)

theorem readPositive_int {name : OptionName} {n : Int} (h : 1 ≤ n) :
    readField name (Field.optional Field.positive) (.int n) = .ok (some n) :=
  readField_some rfl (positive_int h)

theorem readPositive_again {name : OptionName} {v : Value} {n : Option Int}
    (h : readField name (Field.optional Field.positive) v = .ok n) :
    readField name (Field.optional Field.positive) (n.elim .null .int) = .ok n :=
  readField_again (fun _ ⟨_, hu⟩ => ⟨rfl, positive_int (one_le_of_positive hu)⟩) h

theorem readText_again {name : OptionName} {v : Value} {text : Option String}
    (h : readField name (Field.optional Field.text) v = .ok text) :
    readField name (Field.optional Field.text) (text.elim .null .str) = .ok text :=
  readField_again (fun _ _ => ⟨rfl, rfl⟩) h

/-- What was read as an option, written down as a value, is read as the same. -/
theorem reader_dump {name : OptionName} {v : Value} {a : Content name}
    (h : reader name v = .ok a) : reader name (dump name a) = .ok a := by
  cases name with
  | filter =>
    show readFilter (.mapping (Entries.ofNamed a)) = _
    rw [Value.mapping, readFilter, filterEntries_ofNamed]
    exact congrArg Except.ok (Dictionary.ofList_of_nodup (nodup_of_readFilter h))
  | attributes =>
    cases a with
    | none => rfl
    | some names =>
      show (readNameList .attributes (.list (names.map .str))).map some = _
      rw [readNameList_texts]
      rfl
  | exclude => exact readNameList_texts .exclude a
  | limit => exact readPositive_again h
  | offset => exact readPositive_again h
  | order => exact readText_again h
  | group => exact readText_again h

/-- What is written down is no filter expression. -/
theorem optionValue_dump (name : OptionName) (a : Content name) :
    optionValue name (dump name a) = .ok (dump name a) := by
  have hplain : (dump name a).isExpression = false := by
    cases name with
    | filter | exclude => rfl
    | _ => cases a <;> rfl
  rw [optionValue, hplain, Bool.and_false]
  rfl

/-- Whoever finds something wrong says what. -/
theorem reader_problems {name : OptionName} {v : Value} {problems : List Problem}
    (h : reader name v = .error problems) : problems ≠ [] := by
  have hlist {name : OptionName} (h : readNameList name v = .error problems) : problems ≠ [] := by
    rw [readNameList] at h
    split at h
    · cases h
      exact List.cons_ne_nil _ _
    · split at h
      · cases h
      · next hall _ =>
        cases h
        exact hall
  have hfield {α : Type} {name : OptionName} {read : Value → Except ProblemKind α}
      (h : readField name read v = .error problems) : problems ≠ [] := by
    rw [readField] at h
    split at h <;> cases h
    exact List.cons_ne_nil _ _
  cases name with
  | filter =>
    change readFilter v = _ at h
    rw [readFilter.eq_def] at h
    split at h
    · cases h
    · split at h
      · cases h
      · next hall _ =>
        cases h
        exact hall
    · cases h
      exact List.cons_ne_nil _ _
  | attributes =>
    change (if v.isNull then _ else _) = _ at h
    split at h
    · cases h
    · exact hlist (map_eq_error.mp h)
  | exclude =>
    change (if v.isNull then _ else _) = _ at h
    split at h
    · cases h
    · exact hlist h
  | limit | offset | order | group => exact hfield h

/-! ## 3. Reading options by name -/

section Reading

variable {α : Type} {arguments : Dictionary Value} {name : OptionName} {absent : α}
  {read : Value → Reading α}

theorem readOption_absent (h : arguments.get? name.text = none) :
    readOption arguments name absent read = pure absent := by
  rw [readOption, h]

/-- An option that was given is noted, or else its problems are. -/
theorem readOption_given {v : Value} (h : arguments.get? name.text = some v)
    (found : List Problem) :
    (readOption arguments name absent read).run found =
      optionValue name v >>= fun given => match read given with
        | .ok a => .ok (a, found)
        | .error problems => .ok (absent, found ++ problems) := by
  rw [readOption, h]
  show ((optionValue name v : StateT (List Problem) (Except Fault) Value) >>= _).run found = _
  cases optionValue name v with
  | error fault => rfl
  | ok given =>
    show StateT.run (match read given with | .ok a => _ | .error problems => _) found =
      match read given with | .ok a => _ | .error problems => _
    cases read given <;> rfl

end Reading

/-- Reads the option of a name. -/
def readNamed (arguments : Dictionary Value) (name : OptionName) :
    StateT (List Problem) (Except Fault) (Content name) :=
  readOption arguments name (absent name) (reader name)

theorem readAll_eq (arguments : Dictionary Value) : readAll arguments = (do
    let filter ← readNamed arguments .filter
    let attributes ← readNamed arguments .attributes
    let exclude ← readNamed arguments .exclude
    let limit ← readNamed arguments .limit
    let offset ← readNamed arguments .offset
    let order ← readNamed arguments .order
    let group ← readNamed arguments .group
    return { filter, attributes, exclude, limit, offset, order, group,
             given := OptionName.all.filter (fun name => arguments.has name.text) }) := rfl

/-- An option was left out, or what was given for it reads as what it holds. -/
def Took (arguments : Dictionary Value) (name : OptionName) (a : Content name) : Prop :=
  match arguments.get? name.text with
  | none => a = absent name
  | some v => ∃ read, optionValue name v = .ok read ∧ reader name read = .ok a

variable {arguments arguments' first : Dictionary Value} {name : OptionName} {o : FindOptions}

theorem readNamed_congr (h : arguments.get? name.text = arguments'.get? name.text) :
    readNamed arguments name = readNamed arguments' name := by
  rw [readNamed, readNamed, readOption, readOption, h]

theorem readNamed_took {a : Content name} (h : Took arguments name a) :
    readNamed arguments name = pure a := by
  rw [Took] at h
  split at h
  · next hnone => rw [readNamed, readOption_absent hnone, h]
  · next v hv =>
    obtain ⟨read, hread, ha⟩ := h
    refine StateT.ext fun found => ?_
    rw [readNamed, readOption_given hv]
    exact bind_eq_ok.mpr ⟨read, hread, by rw [ha]⟩

/-- A reading after which nothing is noted has noted nothing itself. -/
theorem took_of_run {found : List Problem} {a : Content name}
    (h : (readNamed arguments name).run found = .ok (a, [])) :
    found = [] ∧ Took arguments name a := by
  rw [readNamed] at h
  rw [Took]
  cases hv : arguments.get? name.text with
  | none =>
    rw [readOption_absent hv] at h
    obtain ⟨rfl, rfl⟩ := Prod.mk.inj (Except.ok.inj h)
    exact ⟨rfl, rfl⟩
  | some v =>
    rw [readOption_given hv] at h
    obtain ⟨read, hread, h⟩ := bind_eq_ok.mp h
    cases ha : reader name read with
    | ok value =>
      rw [ha] at h
      obtain ⟨rfl, rfl⟩ := Prod.mk.inj (Except.ok.inj h)
      exact ⟨rfl, read, hread, ha⟩
    | error problems =>
      rw [ha] at h
      have hnoted : found ++ problems = [] := congrArg Prod.snd (Except.ok.inj h)
      exact absurd (List.append_eq_nil_iff.mp hnoted).2 (reader_problems ha)

theorem readAll_congr (h : ∀ name, readNamed arguments name = readNamed arguments' name)
    (hhas : ∀ name : OptionName, arguments.has name.text = arguments'.has name.text) :
    readAll arguments = readAll arguments' := by
  simp only [readAll_eq, h, hhas]

/-- Options in which nothing wrong was noted hold what was given, and remember which were given. -/
theorem took_of_readAll (h : (readAll arguments).run [] = .ok (o, [])) :
    (∀ name, Took arguments name (o.content name)) ∧
      o.given = OptionName.all.filter fun name => arguments.has name.text := by
  rw [readAll_eq] at h
  simp only [StateT.run_bind] at h
  obtain ⟨⟨filter, _⟩, hfilter, h⟩ := bind_eq_ok.mp h
  obtain ⟨⟨attributes, _⟩, hattributes, h⟩ := bind_eq_ok.mp h
  obtain ⟨⟨exclude, _⟩, hexclude, h⟩ := bind_eq_ok.mp h
  obtain ⟨⟨limit, _⟩, hlimit, h⟩ := bind_eq_ok.mp h
  obtain ⟨⟨offset, _⟩, hoffset, h⟩ := bind_eq_ok.mp h
  obtain ⟨⟨order, _⟩, horder, h⟩ := bind_eq_ok.mp h
  obtain ⟨⟨group, _⟩, hgroup, h⟩ := bind_eq_ok.mp h
  obtain ⟨rfl, rfl⟩ := Prod.mk.inj (Except.ok.inj h)
  -- nothing is noted at the end, so nothing was noted before each step either
  obtain ⟨rfl, hgroup⟩ := took_of_run hgroup
  obtain ⟨rfl, horder⟩ := took_of_run horder
  obtain ⟨rfl, hoffset⟩ := took_of_run hoffset
  obtain ⟨rfl, hlimit⟩ := took_of_run hlimit
  obtain ⟨rfl, hexclude⟩ := took_of_run hexclude
  obtain ⟨rfl, hattributes⟩ := took_of_run hattributes
  obtain ⟨-, hfilter⟩ := took_of_run hfilter
  refine ⟨fun name => ?_, rfl⟩
  cases name <;> assumption

theorem check_eq_ok (h : check arguments = .ok o) :
    (readAll arguments).run [] = .ok (o, []) ∧ unknownNames arguments = [] ∧
      o.limit.isSome = o.offset.isSome := by
  obtain ⟨⟨options, problems⟩, hread, h⟩ := bind_eq_ok.mp h
  obtain ⟨hproblems, h⟩ := guarded_eq_ok.mp h
  obtain ⟨hpaging, h⟩ := guarded_eq_ok.mp h
  obtain rfl := pure_eq_ok.mp h
  obtain ⟨rfl, hunknown⟩ : problems = [] ∧ unknownNames arguments = [] := by simpa using hproblems
  exact ⟨hread, hunknown, by simpa using hpaging⟩

/-- Options that hold what was given are what is read, if nothing else is given and no number of a
page is alone. -/
theorem check_of_took (htook : ∀ name, Took arguments name (o.content name))
    (hgiven : o.given = OptionName.all.filter fun name => arguments.has name.text)
    (hunknown : unknownNames arguments = []) (hpaging : o.limit.isSome = o.offset.isSome) :
    check arguments = .ok o := by
  have hall : readAll arguments = pure o := by
    simp only [readAll_eq, readNamed_took (htook _), pure_bind, ← hgiven]
    rfl
  have hpage : (o.limit.isSome != o.offset.isSome) = false := by simpa using hpaging
  rw [check, hall, hunknown]
  show (if (o.limit.isSome != o.offset.isSome) = true then _ else _) = _
  rw [hpage]
  rfl

theorem check_congr (h : readAll arguments = readAll arguments')
    (hunknown : unknownNames arguments = unknownNames arguments') :
    check arguments = check arguments' := by
  rw [check, check, h, hunknown]

/-! ## 4. Options given again -/

theorem text_inj {a b : OptionName} : a.text = b.text ↔ a = b := by
  cases a <;> cases b <;> decide

/-- What checked options give again is what was given, written down. -/
theorem get?_arguments (hgiven : o.given = OptionName.all.filter fun name => first.has name.text)
    (name : OptionName) :
    o.arguments.get? name.text = (first.get? name.text).map fun _ => o.valueOf name := by
  have hget (names : List OptionName) :
      Dictionary.get? (names.map fun name => (name.text, o.valueOf name)) name.text =
        if name ∈ names then some (o.valueOf name) else none := by
    induction names with
    | nil => rfl
    | cons other rest ih =>
      rw [List.map_cons, Dictionary.get?, ih]
      by_cases hname : other = name
      · simp [hname]
      · simp [text_inj, hname, Ne.symm hname]
  have hmem : name ∈ o.given ↔ (first.get? name.text).isSome := by
    rw [hgiven, List.mem_filter, and_iff_right, Dictionary.has_eq_isSome]
    cases name <;> decide
  rw [FindOptions.arguments, hget]
  cases hv : first.get? name.text <;> simp [hmem, hv]

/-- Checked options give nothing that is no option. -/
theorem unknownNames_arguments (o : FindOptions) : unknownNames o.arguments = [] := by
  have hknown (name : OptionName) : (OptionName.all.map OptionName.text).contains name.text := by
    cases name <;> decide
  rw [unknownNames, List.filter_eq_nil_iff]
  intro name hname
  obtain ⟨entry, hentry, rfl⟩ := List.mem_map.mp hname
  obtain ⟨known, -, rfl⟩ := List.mem_map.mp hentry
  simp only [hknown, Bool.not_true, Bool.false_eq_true, not_false_eq_true]

/-- With nothing but options in the first step, what is no option comes from the second. -/
theorem unknownNames_update {d d' : Dictionary Value} (h : unknownNames d = unknownNames d')
    (more : Dictionary Value) :
    unknownNames (Dictionary.update d more) = unknownNames (Dictionary.update d' more) := by
  induction more generalizing d d' with
  | nil => exact h
  | cons entry rest ih => exact ih (Dictionary.filter_names_insert h entry.1 entry.2 entry.2)

/-- Options that were checked, with more on top, are the options that they were checked from with
the same on top. -/
theorem check_update_arguments (h : check first = .ok o) (more : Dictionary Value) :
    check (Dictionary.update o.arguments more) = check (Dictionary.update first more) := by
  obtain ⟨hread, hunknown, -⟩ := check_eq_ok h
  obtain ⟨htook, hgiven⟩ := took_of_readAll hread
  have hget (name : OptionName) : o.arguments.get? name.text =
      (first.get? name.text).map fun _ => o.valueOf name := get?_arguments hgiven name
  refine check_congr (readAll_congr (fun name => ?_) fun name => ?_)
    (unknownNames_update ((unknownNames_arguments o).trans hunknown.symm) more)
  · cases hmore : more.has name.text with
    | true => exact readNamed_congr (Dictionary.get?_update_of_has hmore _ _)
    | false =>
      have hold := htook name
      rw [Took] at hold
      cases hv : first.get? name.text with
      | none =>
        refine readNamed_congr ?_
        rw [Dictionary.get?_update_of_not_has hmore, Dictionary.get?_update_of_not_has hmore, hget,
          hv, Option.map_none]
      | some v =>
        -- what was given reads as what is held, and so does what is written down for it
        rw [hv] at hold
        obtain ⟨read, hvalue, hreads⟩ := hold
        rw [readNamed_took (a := o.content name), readNamed_took (a := o.content name)]
        · rw [Took, Dictionary.get?_update_of_not_has hmore, hv]
          exact ⟨read, hvalue, hreads⟩
        · rw [Took, Dictionary.get?_update_of_not_has hmore, hget, hv, Option.map_some, valueOf_eq]
          exact ⟨_, optionValue_dump _ _, reader_dump hreads⟩
  · rw [Dictionary.has_update, Dictionary.has_update, Dictionary.has_eq_isSome o.arguments, hget,
      Option.isSome_map, Dictionary.has_eq_isSome first]

/-- Entries with more entries of named values on top are named by the same names. -/
theorem namedArguments_update {entries : Entries} {named : Dictionary Value}
    (h : namedArguments entries = .ok named) (more : Dictionary Value) :
    namedArguments (Entries.update entries (Entries.ofNamed more)) =
      .ok (Dictionary.update named more) := by
  have hnamed : entries.named? = some named := by
    rw [namedArguments] at h
    split at h
    · next hsome => rw [hsome, Except.ok.inj h]
    · cases h
  rw [namedArguments, Entries.named?_update_ofNamed hnamed]

/-- **Options can be given in steps**: with any named options on top, checked options are read like
the mapping that they were checked from with the same named options written into it.  The seven
options, which of them were given and with them the number of rows before the page come out alike,
and so does every complaint. -/
theorem options_in_steps {entries : Entries} {o : FindOptions}
    (h : parse (.entries entries) [] = .ok o) (more : Dictionary Value) :
    parse (.checked o) more = parse (.entries (Entries.update entries (Entries.ofNamed more))) [] := by
  obtain ⟨named, hnamed, hcheck⟩ := bind_eq_ok.mp h
  have hsecond : parse (.entries (Entries.update entries (Entries.ofNamed more))) [] =
      check (Dictionary.update named more) := by
    rw [parse, namedArguments_update hnamed]
    rfl
  rw [hsecond, parse]
  cases more with
  | nil => exact hcheck.symm
  | cons entry rest => exact check_update_arguments hcheck _

/-- The first page of five, given as loosely as it can be. -/
def loosePage : Entries :=
  [(.str "limit", .str " 5 "), (.str "offset", .bool true), (.str "order", .null),
    (.str "exclude", .tuple [.str "note"])]

/-- The first page of five. -/
def firstPage : FindOptions where
  exclude := ["note"]
  limit := some 5
  offset := some 1
  given := [.exclude, .limit, .offset, .order]

/-- The next page, on top of the first one. -/
theorem next_page_on_top :
    parse (.entries loosePage) [] = .ok firstPage ∧
      parse (.checked firstPage) [("offset", .str "2")] =
        parse (.entries (Entries.update loosePage (Entries.ofNamed [("offset", .str "2")]))) [] :=
  ⟨rfl, options_in_steps rfl _⟩

end RowMapper.FindOptions
