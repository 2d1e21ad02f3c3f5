import Mathlib.Data.List.Forall2
import RowMapper.Proofs.Sql.Marks
import RowMapper.Proofs.Where.Columns

/-!
# Quoted names

A database takes what stands between double quotes for a name; two quotes side by side inside a name
are one of its characters.  `quotedNames?` reads the names of a text in this way.  `Named names text`
says that a text has the names `names`, all of them safe, and leaves none open: such texts can be put
together with something between them, and their names follow one another.

`quoted_names_are_given` is about all texts in which names are quoted: these are the names
that were given, and they are words unless a name that was given ends in a line feed.
-/
namespace RowMapper.Sql

/-! ## 1. Words -/

/-- A letter of ASCII or an underscore, and then letters, digits and underscores. -/
inductive IsWord : List Char → Prop
  | mk {first : Char} {rest : List Char} (hfirst : first.isAlpha = true ∨ first = '_')
      (hrest : ∀ c ∈ rest, c.isAlphanum = true ∨ c = '_') : IsWord (first :: rest)

theorem isWordChar_iff {c : Char} : isWordChar c = true ↔ c.isAlphanum = true ∨ c = '_' := by
  rw [isWordChar, Bool.or_eq_true, beq_iff_eq]

/-- What follows the first character of a safe name are characters of words, and perhaps a line
feed. -/
theorem exists_of_safeRest {cs : List Char} (h : safeRest cs = true) :
    ∃ word, (∀ c ∈ word, isWordChar c = true) ∧ (cs = word ∨ cs = word ++ ['\n']) := by
  induction cs with
  | nil => exact ⟨[], nofun, .inl rfl⟩
  | cons c cs ih =>
    rw [safeRest, Bool.or_eq_true, Bool.and_eq_true, Bool.and_eq_true] at h
    rcases h with ⟨hfeed, hend⟩ | ⟨hchar, hrest⟩
    · rw [beq_iff_eq.mp hfeed, List.isEmpty_iff.mp hend]
      exact ⟨[], nofun, .inr rfl⟩
    · obtain ⟨word, hword, hcs⟩ := ih hrest
      exact ⟨c :: word, List.forall_mem_cons.mpr ⟨hchar, hword⟩,
        hcs.imp (congrArg (c :: ·)) (congrArg (c :: ·))⟩

/-- A safe name is a word, or a word and a line feed. -/
theorem word_of_isSafeName {cs : List Char} (h : isSafeName cs = true) :
    IsWord cs ∨ ∃ word, IsWord word ∧ cs = word ++ ['\n'] := by
  cases cs with
  | nil => cases h
  | cons c cs =>
    obtain ⟨hstart, hrest⟩ := Bool.and_eq_true_iff.mp h
    obtain ⟨word, hword, hcs⟩ := exists_of_safeRest hrest
    have hfirst : IsWord (c :: word) :=
      .mk (by simpa [isWordStart] using hstart) fun d hd => isWordChar_iff.mp (hword d hd)
    rcases hcs with rfl | rfl
    · exact .inl hfirst
    · exact .inr ⟨c :: word, hfirst, rfl⟩

theorem not_mem_of_isWord {cs : List Char} (h : IsWord cs) : '\n' ∉ cs := by
  obtain ⟨hfirst, hrest⟩ := h
  have hfeed : ¬('\n'.isAlpha = true ∨ '\n' = '_') ∧ ¬('\n'.isAlphanum = true ∨ '\n' = '_') := by
    decide
  rw [List.mem_cons, not_or]
  exact ⟨fun heq => hfeed.1 (heq ▸ hfirst), fun hmem => hfeed.2 (hrest _ hmem)⟩

/-- A safe name is a word just if it does not end in a line feed. -/
theorem isWord_iff_of_isSafeName {cs : List Char} (h : isSafeName cs = true) :
    IsWord cs ↔ cs.getLast? ≠ some '\n' := by
  constructor
  · exact fun hword hlast => not_mem_of_isWord hword (List.mem_of_getLast? hlast)
  · intro hlast
    rcases word_of_isSafeName h with hword | ⟨word, -, rfl⟩
    · exact hword
    · exact absurd List.getLast?_concat hlast

/-! ## 2. Reading names -/

/-- A text read up to some place, with the names so far: the place is outside the quotes, inside, or
right behind a quote that ends a name unless another quote follows. -/
inductive NameReader where
  | outside (names : List String)
  | inside (names : List String) (read : List Char)
  | behind (names : List String) (read : List Char)

/-- Reads one character. -/
def NameReader.step : NameReader → Char → NameReader
  | .outside names, c => if c = '"' then .inside names [] else .outside names
  | .inside names read, c => if c = '"' then .behind names read else .inside names (c :: read)
  | .behind names read, c =>
    if c = '"' then .inside names ('"' :: read)
    else .outside (names ++ [String.ofList read.reverse])

/-- The names of a text that ends here, if none is left open. -/
def NameReader.names? : NameReader → Option (List String)
  | .outside names => some names
  | .inside _ _ => none
  | .behind names read => some (names ++ [String.ofList read.reverse])

/-- The names between double quotes in a text. -/
def quotedNames? (text : String) : Option (List String) :=
  (text.toList.foldl NameReader.step (.outside [])).names?

/-- A text with these names, in order, all of them safe. -/
structure Named (names : List String) (text : String) : Prop where
  safe : ∀ name ∈ names, isSafeName name.toList = true
  reads : ∀ before, (text.toList.foldl NameReader.step (.outside before)).names? =
    some (before ++ names)

/-- A text without quotes. -/
def Unquoted (text : String) : Prop := '"' ∉ text.toList

instance (text : String) : Decidable (Unquoted text) :=
  inferInstanceAs (Decidable ('"' ∉ text.toList))

theorem foldl_unquoted {cs : List Char} (h : '"' ∉ cs) (names : List String) :
    cs.foldl NameReader.step (.outside names) = .outside names := by
  induction cs with
  | nil => rfl
  | cons c cs ih =>
    obtain ⟨hc, hcs⟩ := not_or.mp (mt List.mem_cons.mpr h)
    rw [List.foldl_cons, NameReader.step, if_neg (Ne.symm hc), ih hcs]

/-- What does not begin with a quote is read alike outside and behind a name. -/
theorem names?_foldl {s : NameReader} {names : List String} (hs : s.names? = some names)
    {cs : List Char} (hcs : cs.head? ≠ some '"') :
    (cs.foldl NameReader.step s).names? = (cs.foldl NameReader.step (.outside names)).names? := by
  cases s with
  | outside read =>
    cases hs
    rfl
  | inside read name => cases hs
  | behind read name =>
    cases hs
    cases cs with
    | nil => rfl
    | cons c cs =>
      have hc : c ≠ '"' := fun heq => hcs (by rw [heq]; rfl)
      rw [List.foldl_cons, List.foldl_cons, NameReader.step, NameReader.step, if_neg hc, if_neg hc]

namespace Named

variable {xs ys : List String} {a b gap text : String}

theorem quotedNames?_eq (h : Named xs text) : quotedNames? text = some xs := h.reads []

theorem of_unquoted (h : Unquoted text) : Named [] text where
  safe := nofun
  reads before := by rw [foldl_unquoted h, NameReader.names?, List.append_nil]

theorem append (ha : Named xs a) (hb : Named ys b) (hhead : b.toList.head? ≠ some '"') :
    Named (xs ++ ys) (a ++ b) where
  safe := List.forall_mem_append.mpr ⟨ha.safe, hb.safe⟩
  reads before := by
    rw [String.toList_append, List.foldl_append, names?_foldl (ha.reads before) hhead, hb.reads,
      List.append_assoc]

/-- A text without quotes goes in front of any other. -/
theorem after (ha : Unquoted a) (hb : Named ys b) : Named ys (a ++ b) where
  safe := hb.safe
  reads before := by rw [String.toList_append, List.foldl_append, foldl_unquoted ha, hb.reads]

/-- A text without quotes goes behind any other. -/
theorem followed (ha : Named xs a) (hb : Unquoted b) : Named xs (a ++ b) := by
  have hhead : b.toList.head? ≠ some '"' := fun h => hb (List.mem_of_head? h)
  simpa using ha.append (of_unquoted hb) hhead

/-- Two texts with something between them. -/
theorem join (ha : Named xs a) (hgap : Unquoted gap) (hne : gap ≠ "") (hb : Named ys b) :
    Named (xs ++ ys) (a ++ gap ++ b) := by
  have hhead : (gap ++ b).toList.head? ≠ some '"' := by
    have hgapne : gap.toList ≠ [] := by simpa using hne
    rw [String.toList_append, List.head?_append_of_ne_nil _ hgapne]
    exact fun h => hgap (List.mem_of_head? h)
  simpa [String.append_assoc] using ha.append (hb.after hgap) hhead

theorem eq_nil (h : Named xs "") : xs = [] := Option.some.inj (h.reads []).symm

/-- Texts put together with a separator. -/
theorem intercalate (hgap : Unquoted gap) (hne : gap ≠ "") {names : List (List String)}
    {texts : List String} (h : List.Forall₂ Named names texts) :
    Named names.flatten (gap.intercalate texts) := by
  induction h with
  | nil => exact of_unquoted (by simp [Unquoted])
  | cons hfirst hrest ih =>
    cases hrest with
    | nil => simpa using hfirst
    | cons hsecond hrest =>
      rw [String.intercalate_cons_cons, List.flatten_cons]
      exact hfirst.join hgap hne ih

theorem intercalate_map (hgap : Unquoted gap) (hne : gap ≠ "") {α : Type} {names : α → List String}
    {texts : α → String} {items : List α} (h : ∀ x ∈ items, Named (names x) (texts x)) :
    Named (items.flatMap names) (gap.intercalate (items.map texts)) := by
  rw [List.flatMap_def]
  refine intercalate hgap hne ?_
  rw [List.forall₂_map_left_iff, List.forall₂_map_right_iff, List.forall₂_same]
  exact h

/-- Texts without quotes put together. -/
theorem intercalate_unquoted (hgap : Unquoted gap) (hne : gap ≠ "") {texts : List String}
    (h : ∀ text ∈ texts, Unquoted text) : Named [] (gap.intercalate texts) := by
  have hmap := intercalate_map hgap hne fun text htext => of_unquoted (h text htext)
  rwa [List.flatMap_eq_nil_iff.mpr fun _ _ => rfl, List.map_id'] at hmap

end Named

/-! ## 3. Names -/

theorem foldl_inside {cs : List Char} (h : '"' ∉ cs) (names : List String) (read : List Char) :
    cs.foldl NameReader.step (.inside names read) = .inside names (cs.reverse ++ read) := by
  induction cs generalizing read with
  | nil => rfl
  | cons c cs ih =>
    obtain ⟨hc, hcs⟩ := not_or.mp (mt List.mem_cons.mpr h)
    rw [List.foldl_cons, NameReader.step, if_neg (Ne.symm hc), ih hcs]
    simp

theorem named_quote {name : String} (safe : isSafeName name.toList = true) :
    Named [name] (quote name) where
  safe := List.forall_mem_singleton.mpr safe
  reads before := by
    have htext : (quote name).toList = '"' :: (name.toList ++ ['"']) := by simp [quote]
    have hopen : NameReader.step (.outside before) '"' = .inside before [] := rfl
    rw [htext, List.foldl_cons, List.foldl_append, hopen, foldl_inside (not_mem_of_isSafeName safe)]
    simp [NameReader.step, NameReader.names?]

theorem named_quoteIdentifier {identifier : Value} {text : String}
    (h : orFault (quoteIdentifier identifier) = .ok text) : Named [nameText identifier] text := by
  obtain ⟨name, hname, -, rfl⟩ := quoteIdentifier_eq_ok h
  obtain ⟨-, safe, rfl⟩ := Where.safeName_eq_ok.mp hname
  exact named_quote safe

theorem named_quoteAll {identifiers : List Value} {texts : List String}
    (h : quoteAll identifiers = .ok texts) :
    List.Forall₂ Named (identifiers.map fun v => [nameText v]) texts := by
  induction identifiers generalizing texts with
  | nil =>
    cases h
    exact .nil
  | cons identifier rest ih =>
    rw [quoteAll, List.mapM_cons] at h
    obtain ⟨first, hfirst, h⟩ := bind_eq_ok.mp h
    obtain ⟨others, hothers, h⟩ := bind_eq_ok.mp h
    cases h
    exact .cons (named_quoteIdentifier hfirst) (ih hothers)

theorem unquoted_of_bare {text : String} (h : Bare text.toList) : Unquoted text :=
  fun hmem => (h _ hmem).1 rfl

/-! ## 4. Conditions -/

theorem Named.brackets {names : List String} {text : String} (h : Named names text) :
    Named names ("(" ++ text ++ ")") :=
  (h.after (by decide : Unquoted "(")).followed (by decide)

theorem unquoted_logic (logic : Where.Logic) : Unquoted (" " ++ logic.token ++ " ") := by
  cases logic <;> decide

theorem named_parts (logic : Where.Logic) {cs : List Where.Condition}
    (h : ∀ c ∈ cs, Named c.columns c.sql) :
    Named (cs.flatMap Where.Condition.columns)
      ((" " ++ logic.token ++ " ").intercalate (cs.map Where.Condition.sql)) :=
  Named.intercalate_map (unquoted_logic logic) (by cases logic <;> decide) h

theorem named_entry {entry : List Where.Condition} (h : ∀ c ∈ entry, Named c.columns c.sql) :
    Named (entry.flatMap Where.Condition.columns)
      (Where.groupEntry (entry.map Where.Condition.sql)) := by
  match entry with
  | [] => exact Named.of_unquoted (by decide)
  | [c] => simpa [Where.groupEntry] using h
  | c :: d :: rest => exact (named_parts .all h).brackets

/-- Question marks with commas between them. -/
theorem named_marks {α : Type} (items : List α) :
    Named [] (", ".intercalate (items.map fun _ => "?")) :=
  Named.intercalate_unquoted (by decide) (by decide)
    (List.forall_mem_map.mpr fun _ _ => (by decide : Unquoted "?"))

theorem named_condition {c : Where.Condition} (hc : c.WellFormed) : Named c.columns c.sql := by
  induction hc with
  | @compare column comparison operand safe =>
    have htoken : Unquoted (" " ++ comparison.token ++ " ?") := by cases comparison <;> decide
    simpa [Where.Condition.sql, Where.Condition.columns, String.append_assoc] using
      (named_quote safe).followed htoken
  | @nullness column negated safe =>
    have htoken : Unquoted (" " ++ (Where.Operator.nullness negated).token) := by
      cases negated <;> decide
    simpa [Where.Condition.sql, Where.Condition.columns, String.append_assoc] using
      (named_quote safe).followed htoken
  | @member column negated operands safe _ =>
    have htoken : Unquoted (" " ++ (Where.Operator.member negated).token ++ " (") := by
      cases negated <;> decide
    have hmarks := named_marks operands
    have hright : Unquoted ")" := by decide
    simpa [Where.Condition.sql, Where.Condition.columns, String.append_assoc] using
      ((named_quote safe).join htoken (by cases negated <;> decide) hmarks).followed hright
  | @range column negated low high safe =>
    have htoken : Unquoted (" " ++ (Where.Operator.range negated).token ++ " ? AND ?") := by
      cases negated <;> decide
    simpa [Where.Condition.sql, Where.Condition.columns, String.append_assoc] using
      (named_quote safe).followed htoken
  | @constant holds => cases holds <;> exact Named.of_unquoted (by decide)
  | @group logic entries _ _ _ ih =>
    have hentries := Named.intercalate_map (unquoted_logic logic) (by cases logic <;> decide)
      fun entry hentry => named_entry (ih entry hentry)
    rw [Where.Condition.sql, Where.Condition.columns, Where.Condition.entriesSql_eq_map,
      Where.Condition.entriesColumns_eq_flatMap]
    exact hentries.brackets
  | @negation conjuncts _ _ ih =>
    rw [Where.Condition.sql, Where.Condition.columns, Where.Condition.allSql_eq_map,
      Where.Condition.allColumns_eq_flatMap]
    exact ((named_parts .all ih).after (by decide : Unquoted "NOT (")).followed (by decide)

/-- The names in a compiled filter are the columns that it restricts. -/
theorem named_compile {filter : Value} {part : Fragment} (h : Where.compile filter = .ok part) :
    ∃ names, Named names part.text ∧ ∀ t, t ∈ names ↔ Where.Restricted filter t := by
  rcases Where.compile_eq_ok.mp h with ⟨-, hmapping, rfl⟩ | ⟨entries, place, cs, rfl, hcs, rfl⟩
  · refine ⟨[], Named.of_unquoted (by decide), fun t => iff_of_false List.not_mem_nil ?_⟩
    rintro ⟨column, value, hgiven, -, -⟩
    cases hgiven <;> cases hmapping
  · refine ⟨Where.Condition.allColumns cs, ?_,
      fun t => Where.mem_columns_conditions entries place hcs⟩
    have hparts := named_parts .all fun c hc =>
      named_condition ((Where.conditions_wellFormed entries hcs).1 c hc)
    rw [← Where.Condition.allColumns_eq_flatMap, ← Where.Condition.allSql_eq_map] at hparts
    exact hparts

/-! ## 5. Selections -/

/-- A value is one of the columns of a selection. -/
def IsElement (v columns : Value) : Prop := ∃ items, columns.elements = .ok items ∧ v ∈ items

theorem named_columnList {columns : Value} {text : String} (h : columnList columns = .ok text) :
    ∃ names, Named names text ∧ ∀ t, t ∈ names ↔ ∃ v, IsElement v columns ∧ nameText v = t := by
  unfold columnList at h
  split at h
  · obtain ⟨items, hitems, h⟩ := bind_eq_ok.mp h
    obtain ⟨texts, htexts, h⟩ := bind_eq_ok.mp h
    cases h
    refine ⟨_, Named.intercalate (by decide) (by decide) (named_quoteAll htexts), fun t => ?_⟩
    simp [IsElement, hitems, eq_comm]
  · next hfalse =>
    cases h
    refine ⟨[], Named.of_unquoted (by decide), fun t => iff_of_false List.not_mem_nil ?_⟩
    rintro ⟨v, ⟨items, hitems, hv⟩, -⟩
    -- what counts as false has no elements
    cases columns <;> cases hitems <;> simp_all [Value.truthy]

theorem Named.where {names columns : List String} {text : String} {part : Fragment}
    (h : Named names text) (hpart : Named columns part.text) :
    Named (names ++ columns) (text ++ (wherePart (some part)).text) := by
  unfold wherePart
  dsimp only
  split
  · next hempty =>
    rw [String.isEmpty_iff.mp hempty] at hpart
    simpa [hpart.eq_nil] using h
  · simpa [String.append_assoc] using h.join (by decide : Unquoted " WHERE ") (by decide) hpart

theorem unquoted_clausePart {keyword : String} (hkeyword : Unquoted (" " ++ keyword ++ " "))
    {clause : Value} {text : String} (h : clausePart keyword clause = .ok text) : Unquoted text := by
  unfold clausePart at h
  split at h
  · split at h
    · obtain ⟨checked, hchecked, h⟩ := bind_eq_ok.mp h
      cases h
      have hclause := unquoted_of_bare (bare_checkClause (orFault_eq_ok.mp hchecked))
      rw [Unquoted, String.toList_append, List.mem_append, not_or]
      exact ⟨hkeyword, hclause⟩
    · cases h
  · cases h
    decide

theorem unquoted_pagingPart {limit offset : Value} {text : String}
    (h : pagingPart limit offset = .ok text) : Unquoted text := by
  have hnumber {v : Value} {digits : String} (hv : v.integerText = .ok digits) :
      '"' ∉ digits.toList :=
    unquoted_of_bare (bare_integerText hv)
  unfold pagingPart at h
  split at h
  · cases h
    decide
  · obtain ⟨start, hstart, h⟩ := bind_eq_ok.mp h
    cases h
    simpa [Unquoted] using hnumber hstart
  · obtain ⟨size, hsize, h⟩ := bind_eq_ok.mp h
    cases h
    simpa [Unquoted] using hnumber hsize
  · obtain ⟨size, hsize, h⟩ := bind_eq_ok.mp h
    obtain ⟨start, hstart, h⟩ := bind_eq_ok.mp h
    cases h
    simpa [Unquoted] using ⟨hnumber hsize, hnumber hstart⟩

theorem named_statement {s : Select} {part : Fragment} {columns : List String}
    (hfilter : s.filter = some part) (hpart : Named columns part.text) {f : Fragment}
    (h : s.statement = .ok f) :
    ∃ names, Named (names ++ [nameText s.table] ++ columns) f.text ∧
      ∀ t, t ∈ names ↔ ∃ v, IsElement v s.columns ∧ nameText v = t := by
  obtain ⟨table, htable, h⟩ := bind_eq_ok.mp h
  obtain ⟨list, hlist, h⟩ := bind_eq_ok.mp h
  obtain ⟨group, hgroup, h⟩ := bind_eq_ok.mp h
  obtain ⟨order, horder, h⟩ := bind_eq_ok.mp h
  obtain ⟨paging, hpaging, h⟩ := bind_eq_ok.mp h
  cases h
  obtain ⟨names, hnames, hmem⟩ := named_columnList hlist
  have hselect := hnames.after (by decide : Unquoted "SELECT ")
  have hfrom := hselect.join (by decide : Unquoted " FROM ") (by decide)
    (named_quoteIdentifier htable)
  rw [hfilter]
  exact ⟨names, (((hfrom.where hpart).followed (unquoted_clausePart (by decide) hgroup)).followed
    (unquoted_clausePart (by decide) horder)).followed (unquoted_pagingPart hpaging), hmem⟩

/-! ## 6. Rows and tables -/

/-- A value is a key of the data of a write. -/
def IsKey (v data : Value) : Prop :=
  ∃ entries place value, data = .mappingAt entries place ∧ (v, value) ∈ entries

theorem isKey_iff {data : Value} {entries : Entries} (h : dataEntries data = .ok entries)
    {t : String} :
    t ∈ (entries.map (·.1)).map nameText ↔ ∃ v, IsKey v data ∧ nameText v = t := by
  cases data <;> cases h
  simp [IsKey]

theorem not_isKey_of_falsy {data : Value} (h : data.truthy = false) (v : Value) :
    ¬IsKey v data := by
  rintro ⟨entries, place, value, rfl, hmem⟩
  have hempty : entries = [] := by simpa [Value.truthy] using h
  rw [hempty] at hmem
  cases hmem

theorem flatten_singletons {α : Type} (f : α → String) (xs : List α) :
    (xs.map fun x => [f x]).flatten = xs.map f := List.flatMap_pure_eq_map f xs

theorem named_insertRow {table data : Value} {f : Fragment} (h : insertRow table data = .ok f) :
    ∃ names, Named names f.text ∧
      ∀ t, t ∈ names ↔ nameText table = t ∨ ∃ v, IsKey v data ∧ nameText v = t := by
  obtain ⟨quoted, hquoted, h⟩ := bind_eq_ok.mp h
  have hstart := (named_quoteIdentifier hquoted).after (by decide : Unquoted "INSERT INTO ")
  split at h
  · next hfalse =>
    cases h
    refine ⟨_, hstart.followed (by decide : Unquoted " DEFAULT VALUES"), fun t => ?_⟩
    simp [not_isKey_of_falsy (by simpa using hfalse), eq_comm]
  · obtain ⟨entries, hentries, h⟩ := bind_eq_ok.mp h
    obtain ⟨texts, htexts, h⟩ := bind_eq_ok.mp h
    cases h
    have hnames := Named.intercalate (by decide : Unquoted ", ") (by decide) (named_quoteAll htexts)
    rw [flatten_singletons] at hnames
    have hfront := hstart.join (by decide : Unquoted " (") (by decide) hnames
    have hall := (hfront.join (by decide : Unquoted ") VALUES (") (by decide)
      (named_marks entries)).followed (by decide : Unquoted ")")
    refine ⟨_, hall, fun t => ?_⟩
    rw [List.append_nil, List.mem_append, isKey_iff hentries, List.mem_singleton, eq_comm]

theorem named_updateRow {table data key column : Value} {f : Fragment}
    (h : updateRow table data key column = .ok f) :
    ∃ names, Named names f.text ∧
      ∀ t, t ∈ names ↔ nameText table = t ∨ nameText column = t ∨
        ∃ v, IsKey v data ∧ nameText v = t := by
  unfold updateRow at h
  obtain ⟨-, h⟩ := guarded_eq_ok.mp h
  obtain ⟨-, h⟩ := guarded_eq_ok.mp h
  obtain ⟨quotedTable, htable, h⟩ := bind_eq_ok.mp h
  obtain ⟨entries, hentries, h⟩ := bind_eq_ok.mp h
  obtain ⟨texts, htexts, h⟩ := bind_eq_ok.mp h
  obtain ⟨quotedKey, hcolumn, h⟩ := bind_eq_ok.mp h
  cases h
  have hstart := (named_quoteIdentifier htable).after (by decide : Unquoted "UPDATE ")
  have hsettings : List.Forall₂ Named ((entries.map (·.1)).map fun v => [nameText v])
      (texts.map (· ++ " = ?")) :=
    List.forall₂_map_right_iff.mpr
      ((named_quoteAll htexts).imp fun _ _ hname => hname.followed (by decide))
  have hcolumns := Named.intercalate (by decide : Unquoted ", ") (by decide) hsettings
  rw [flatten_singletons] at hcolumns
  have hfront := hstart.join (by decide : Unquoted " SET ") (by decide) hcolumns
  have hall := (hfront.join (by decide : Unquoted " WHERE ") (by decide)
    (named_quoteIdentifier hcolumn)).followed (by decide : Unquoted " = ?")
  refine ⟨_, hall, fun t => ?_⟩
  rw [List.mem_append, List.mem_append, isKey_iff hentries, List.mem_singleton, List.mem_singleton,
    or_assoc, or_comm (a := ∃ v, _), eq_comm, eq_comm (a := t)]

theorem named_deleteRow {table key column : Value} {f : Fragment}
    (h : deleteRow table key column = .ok f) : Named [nameText table, nameText column] f.text := by
  obtain ⟨tableName, keyName, htable, hcolumn, -, safe, rfl⟩ := deleteRow_eq_ok h
  obtain ⟨-, -, rfl⟩ := Where.safeName_eq_ok.mp htable
  obtain ⟨-, -, rfl⟩ := Where.safeName_eq_ok.mp hcolumn
  have hquoted := named_quote (safe (nameText table) List.mem_cons_self)
  have hstart := hquoted.after (by decide : Unquoted "DELETE FROM ")
  have hkey := named_quote (safe (nameText column) (by simp))
  exact (hstart.join (by decide : Unquoted " WHERE ") (by decide) hkey).followed (by decide)

theorem named_columnDefinition {name : String} {c : Model.Column} {isKey : Bool} {text : String}
    (h : World.columnDefinition name c isKey = .ok text) : Named [name] text := by
  obtain ⟨quoted, hquoted, h⟩ := bind_eq_ok.mp h
  cases h
  have hquote := named_quoteIdentifier (orFault_eq_ok.mpr hquoted)
  have htype : Unquoted c.type.sql := by cases c.type <;> decide
  have hknown : ∀ part ∈ ["PRIMARY KEY AUTOINCREMENT", "PRIMARY KEY", "NOT NULL", "UNIQUE"],
      Unquoted part := by decide
  have hconstraints : ∀ part ∈ World.constraints c isKey, Unquoted part := by
    refine fun part hpart => hknown part ?_
    unfold World.constraints at hpart
    grind
  have hrest := Named.intercalate_unquoted (by decide : Unquoted " ") (by decide)
    (List.forall_mem_cons.mpr ⟨htype, hconstraints⟩)
  rw [String.intercalate_cons_cons]
  exact hquote.join (by decide) (by decide) hrest

theorem named_columnDefinitions {key : String} {columns : List (String × Model.Column)}
    {texts : List String} (h : World.columnDefinitions key columns = .ok texts) :
    List.Forall₂ Named (columns.map fun column => [column.1]) texts := by
  induction columns generalizing texts with
  | nil =>
    cases h
    exact .nil
  | cons column rest ih =>
    obtain ⟨first, hfirst, h⟩ := bind_eq_ok.mp h
    obtain ⟨others, hothers, h⟩ := bind_eq_ok.mp h
    cases h
    exact .cons (named_columnDefinition hfirst) (ih hothers)

theorem named_tableDefinition {r : Model.Registry} {m : Model.Mapper} {text : String}
    (h : World.tableDefinition r m = .ok text) :
    Named (nameText m.tableName :: (r.columnsOf m).map (·.1)) text := by
  obtain ⟨columns, hcolumns, h⟩ := bind_eq_ok.mp h
  obtain ⟨table, htable, h⟩ := bind_eq_ok.mp h
  cases h
  have hstart := (named_quoteIdentifier (orFault_eq_ok.mpr htable)).after
    (by decide : Unquoted "CREATE TABLE IF NOT EXISTS ")
  have hlist := Named.intercalate (by decide : Unquoted ", ") (by decide)
    (named_columnDefinitions hcolumns)
  rw [flatten_singletons] at hlist
  exact (hstart.join (by decide : Unquoted " (") (by decide) hlist).followed (by decide)

/-! ## 7. All texts with names -/

/-- What a text with quoted names is written from.  The filter of a selection is compiled first. -/
inductive Writing where
  | condition (filter : Value)
  | selection (table columns filter group order limit offset : Value)
  | insertion (table data : Value)
  | change (table data key column : Value)
  | removal (table key column : Value)
  | definition (registry : Model.Registry) (mapper : Model.Mapper)

/-- The text that is written. -/
def Writing.text : Writing → Except Fault String
  | .condition filter => do return (← orFault (Where.compile filter)).text
  | .selection table columns filter group order limit offset => do
    let part ← orFault (Where.compile filter)
    let select : Select := ⟨table, columns, some part, group, order, limit, offset⟩
    return (← select.statement).text
  | .insertion table data => do return (← insertRow table data).text
  | .change table data key column => do return (← updateRow table data key column).text
  | .removal table key column => do return (← deleteRow table key column).text
  | .definition registry mapper => orFault (World.tableDefinition registry mapper)

/-- A value is given as a name: as the table, as a column, as a key of the data, or as a column that
a filter restricts. -/
def Writing.Gives (v : Value) : Writing → Prop
  | .condition filter => ∃ value, Where.Given v value filter ∧ Where.Restricts value
  | .selection table columns filter _ _ _ _ =>
    v = table ∨ IsElement v columns ∨ ∃ value, Where.Given v value filter ∧ Where.Restricts value
  | .insertion table data => v = table ∨ IsKey v data
  | .change table data _ column => v = table ∨ v = column ∨ IsKey v data
  | .removal table _ column => v = table ∨ v = column
  | .definition registry mapper =>
    v = mapper.tableName ∨ ∃ column ∈ registry.columnsOf mapper, v = .str column.1

theorem restricted_iff {filter : Value} {t : String} : Where.Restricted filter t ↔
    ∃ v, (∃ value, Where.Given v value filter ∧ Where.Restricts value) ∧ nameText v = t := by
  simp only [Where.Restricted, exists_and_right, ← and_assoc]

/-- The names in a text are the texts of what was given as a name. -/
theorem Writing.named {w : Writing} {text : String} (h : w.text = .ok text) :
    ∃ names, Named names text ∧ ∀ t, t ∈ names ↔ ∃ v, w.Gives v ∧ nameText v = t := by
  cases w with
  | condition filter =>
    obtain ⟨part, hpart, h⟩ := bind_eq_ok.mp h
    cases h
    obtain ⟨names, hnames, hmem⟩ := named_compile (orFault_eq_ok.mp hpart)
    exact ⟨names, hnames, fun t => (hmem t).trans restricted_iff⟩
  | selection table columns filter group order limit offset =>
    obtain ⟨part, hpart, h⟩ := bind_eq_ok.mp h
    obtain ⟨f, hf, h⟩ := bind_eq_ok.mp h
    cases h
    obtain ⟨restricted, hrestricted, hfilter⟩ := named_compile (orFault_eq_ok.mp hpart)
    obtain ⟨names, hnames, hcolumns⟩ := named_statement rfl hrestricted hf
    refine ⟨_, hnames, fun t => ?_⟩
    rw [List.mem_append, List.mem_append, List.mem_singleton, hcolumns, hfilter, restricted_iff,
      or_comm (a := ∃ v, _)]
    simp [Writing.Gives, or_and_right, exists_or, or_assoc, eq_comm]
  | insertion table data =>
    obtain ⟨f, hf, h⟩ := bind_eq_ok.mp h
    cases h
    obtain ⟨names, hnames, hmem⟩ := named_insertRow hf
    refine ⟨names, hnames, fun t => ?_⟩
    simp [hmem, Writing.Gives, or_and_right, exists_or]
  | change table data key column =>
    obtain ⟨f, hf, h⟩ := bind_eq_ok.mp h
    cases h
    obtain ⟨names, hnames, hmem⟩ := named_updateRow hf
    refine ⟨names, hnames, fun t => ?_⟩
    simp [hmem, Writing.Gives, or_and_right, exists_or]
  | removal table key column =>
    obtain ⟨f, hf, h⟩ := bind_eq_ok.mp h
    cases h
    refine ⟨_, named_deleteRow hf, fun t => ?_⟩
    simp [Writing.Gives, or_and_right, exists_or, eq_comm]
  | definition registry mapper =>
    refine ⟨_, named_tableDefinition (orFault_eq_ok.mp h), fun t => ?_⟩
    simp [Writing.Gives, or_and_right, exists_or, eq_comm, nameText]

/-- **Every quoted name was given, and is a word.**  A text that is written leaves no name open, and
the names in it are the texts of what was given as a name.  Each is a word, or a word with one line
feed behind it; so all are words exactly if nothing that was given as a name ends in a line feed. -/
theorem quoted_names_are_given (w : Writing) (text : String) (h : w.text = .ok text) :
    ∃ names, quotedNames? text = some names ∧
      (∀ name, name ∈ names ↔ ∃ v, w.Gives v ∧ nameText v = name) ∧
      (∀ name ∈ names, IsWord name.toList ∨
        ∃ word, IsWord word ∧ name.toList = word ++ ['\n']) ∧
      ((∀ name ∈ names, IsWord name.toList) ↔
        ∀ v, w.Gives v → (nameText v).toList.getLast? ≠ some '\n') := by
  obtain ⟨names, hnames, hmem⟩ := Writing.named h
  refine ⟨names, hnames.quotedNames?_eq, hmem, fun name hname =>
    word_of_isSafeName (hnames.safe name hname), ?_⟩
  have hword : ∀ name ∈ names, (IsWord name.toList ↔ name.toList.getLast? ≠ some '\n') :=
    fun name hname => isWord_iff_of_isSafeName (hnames.safe name hname)
  rw [forall₂_congr hword]
  constructor
  · exact fun hall v hv => hall (nameText v) ((hmem _).mpr ⟨v, hv, rfl⟩)
  · intro hall name hname
    obtain ⟨v, hv, rfl⟩ := (hmem name).mp hname
    exact hall v hv

/-- The columns of a selection, its table and the column that its filter restricts; an empty list
leaves its column out. -/
theorem names_of_a_selection :
    let filter : Value := .mapping [(.str "or", .list [
      .mapping [(.str "age", .mapping [(.str "gt", .int 3)])],
      .mapping [(.str "name\n", .mapping [(.str "in", .list [])])]])]
    let w : Writing :=
      .selection (.str "users") (.list [.str "id", .str "name"]) filter .null (.str "id DESC") .null
        .null
    let text :=
      "SELECT \"id\", \"name\" FROM \"users\" WHERE (\"age\" > ? OR 1 = 0) ORDER BY id DESC"
    w.text = .ok text ∧ quotedNames? text = some ["id", "name", "users", "age"] ∧
      (∃ v, w.Gives v ∧ nameText v = "age") ∧ ¬(∃ v, w.Gives v ∧ nameText v = "name\n") := by
  intro filter w text
  have htext : w.text = .ok text := rfl
  have hread : quotedNames? text = some ["id", "name", "users", "age"] := by decide +kernel
  obtain ⟨names, hnames, hgiven, -, -⟩ := quoted_names_are_given w text htext
  cases hnames.symm.trans hread
  exact ⟨htext, hread, (hgiven "age").mp (by decide),
    fun h => absurd ((hgiven _).mpr h) (by decide)⟩

/-- One line feed behind a word is taken for the end of the name, and quoted with it. -/
theorem line_feed_is_quoted :
    let w : Writing := .condition (.mapping [(.str "a\n", .int 1)])
    w.text = .ok "\"a\n\" = ?" ∧ quotedNames? "\"a\n\" = ?" = some ["a\n"] ∧
      ¬IsWord "a\n".toList :=
  ⟨rfl, rfl, fun h => not_mem_of_isWord h (by decide)⟩

end RowMapper.Sql
