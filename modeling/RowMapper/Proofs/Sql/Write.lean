import RowMapper.Dictionary
import RowMapper.Proofs.Sql.Row
import RowMapper.Proofs.Sql.Token

/-!
# Reading statements that write

What a database takes from a statement that writes: the table, the columns, and the column of the
key.  `Write.read?` cuts the text into tokens and reads it from left to right: keywords, names, and
lists with commas between their items.  The text of an insertion, of a change and of a removal is
read as what it was made from (`read?_insertionText`, `read?_changeText`, `read?_removalText`),
whatever the names are, so two statements with the same text say the same.
-/
namespace RowMapper.Sql

deriving instance DecidableEq for Token

/-! ## 1. Parts of a text -/

/-- What follows the keywords with which a text begins. -/
def keywords? : List String → List TextToken → Option (List TextToken)
  | [], ts => some ts
  | keyword :: more, .word text :: ts => if text = keyword then keywords? more ts else none
  | _ :: _, _ => none

/-- The name with which a text begins, and what follows. -/
def name? : List TextToken → Option (String × List TextToken)
  | .name text :: ts => some (text, ts)
  | _ => none

/-- What stands before the first token of a kind, and what stands from there on. -/
def upTo (stop : TextToken) (ts : List TextToken) : List TextToken × List TextToken :=
  (ts.takeWhile (· ≠ stop), ts.dropWhile (· ≠ stop))

/-- What stands in the brackets with which a text begins, and what follows. -/
def brackets? : List TextToken → Option (List TextToken × List TextToken)
  | .left :: ts =>
    match upTo .right ts with
    | (inside, .right :: rest) => some (inside, rest)
    | _ => none
  | _ => none

/-- The column that an item of a list names. -/
def column? : List TextToken → Option String
  | [.name column] => some column
  | _ => none

/-- The column that an item equates with a parameter. -/
def setting? : List TextToken → Option String
  | [.name column, .sign "=", .mark ()] => some column
  | _ => none

theorem keywords?_append (keywords : List String) (ts : List TextToken) :
    keywords? keywords (keywords.map .word ++ ts) = some ts := by
  induction keywords with
  | nil => rfl
  | cons keyword more ih => simpa [keywords?] using ih

theorem upTo_append {stop : TextToken} {before : List TextToken} (h : stop ∉ before)
    (after : List TextToken) : upTo stop (before ++ stop :: after) = (before, stop :: after) := by
  have hne : ∀ t ∈ before, decide (t ≠ stop) = true := by
    intro t ht
    refine decide_eq_true fun heq => h ?_
    rwa [← heq]
  rw [upTo, List.takeWhile_append_of_pos hne, List.dropWhile_append_of_pos hne]
  simp

theorem brackets?_append {inside : List TextToken} (h : .right ∉ inside)
    (after : List TextToken) :
    brackets? (.left :: (inside ++ .right :: after)) = some (inside, after) := by
  rw [brackets?, upTo_append h]

/-- The items of a list are found between its commas. -/
theorem splitOn_items {α : Type} {item : α → List TextToken} (hitem : ∀ x, .comma ∉ item x)
    {xs : List α} (h : xs ≠ []) :
    ([.comma].intercalate (xs.map item)).splitOn .comma = xs.map item := by
  refine List.splitOn_intercalate _ ?_ (by simpa using h)
  simpa using fun x _ => hitem x

/-- What no item has, and is no comma, is nowhere in a list. -/
theorem not_mem_items {α : Type} {item : α → List TextToken} {t : TextToken} (hcomma : t ≠ .comma)
    (hitem : ∀ x, t ∉ item x) : ∀ xs : List α, t ∉ [.comma].intercalate (xs.map item)
  | [] => by simp
  | [x] => by simpa using hitem x
  | x :: y :: rest => by
    have hrest := not_mem_items hcomma hitem (y :: rest)
    rw [List.map_cons] at hrest
    simpa [List.intercalate_cons_cons, hitem x, hcomma] using hrest

/-- Items that are read one by one. -/
theorem mapM_items {α : Type} (item : α → List TextToken) (read : List TextToken → Option α)
    (hread : ∀ x, read (item x) = some x) (xs : List α) : (xs.map item).mapM read = some xs := by
  induction xs with
  | nil => rfl
  | cons x rest ih => simp [hread, ih]

/-! ## 2. Writes -/

/-- A statement that writes: a new row with values for columns, new values for columns of the row
with a key, or no row with a key any more.  The values are parameters. -/
inductive Write where
  | insertion (table : String) (columns : List String)
  | change (table : String) (columns : List String) (key : String)
  | removal (table key : String)
  deriving DecidableEq

/-- Inserts a row. -/
def insertionText (table : String) (columns : List String) : String :=
  if columns = [] then "INSERT INTO " ++ quote table ++ " DEFAULT VALUES"
  else "INSERT INTO " ++ quote table ++ " (" ++ ", ".intercalate (columns.map quote) ++
    ") VALUES (" ++ ", ".intercalate (columns.map fun _ => "?") ++ ")"

namespace Write

/-- The text of a write. -/
def text : Write → String
  | insertion table columns => insertionText table columns
  | change table columns key => changeText table columns key
  | removal table key => removalText table key

/-- The names in a write. -/
def names : Write → List String
  | insertion table columns => table :: columns
  | change table columns key => table :: key :: columns
  | removal table key => [table, key]

/-- Names that may be quoted; a change says something. -/
structure WellFormed (write : Write) : Prop where
  safe : ∀ name ∈ write.names, isSafeName name.toList = true
  changes : ∀ table columns key, write = change table columns key → columns ≠ []

/-- A list of columns. -/
def columnTokens (columns : List String) : List TextToken :=
  [.comma].intercalate (columns.map fun column => [.name column])

/-- A list of settings. -/
def settingTokens (columns : List String) : List TextToken :=
  [.comma].intercalate (columns.map fun column => [.name column, .sign "=", .mark ()])

/-- A list of marks. -/
def markTokens (columns : List String) : List TextToken :=
  [.comma].intercalate (columns.map fun _ => [.mark ()])

/-- The tokens of a write. -/
def tokens : Write → List TextToken
  | insertion table columns => ["INSERT", "INTO"].map .word ++ .name table ::
      if columns = [] then ["DEFAULT", "VALUES"].map .word
      else .left :: (columnTokens columns ++ .right :: (["VALUES"].map .word ++
        .left :: (markTokens columns ++ [.right])))
  | change table columns key => ["UPDATE"].map .word ++ .name table :: (["SET"].map .word ++
      (settingTokens columns ++ (["WHERE"].map .word ++ [.name key, .sign "=", .mark ()])))
  | removal table key => ["DELETE", "FROM"].map .word ++ .name table ::
      (["WHERE"].map .word ++ [.name key, .sign "=", .mark ()])

/-! ## 3. Reading -/

/-- Reads an insertion. -/
def insertion? (ts : List TextToken) : Option Write := do
  let (table, ts) ← name? (← keywords? ["INSERT", "INTO"] ts)
  if ts = ["DEFAULT", "VALUES"].map .word then return insertion table []
  let (inside, ts) ← brackets? ts
  let columns ← (inside.splitOn .comma).mapM column?
  let (marks, ts) ← brackets? (← keywords? ["VALUES"] ts)
  if ts ≠ [] ∨ marks ≠ markTokens columns then none
  return insertion table columns

/-- Reads a change. -/
def change? (ts : List TextToken) : Option Write := do
  let (table, ts) ← name? (← keywords? ["UPDATE"] ts)
  let (settings, ts) := upTo (.word "WHERE") (← keywords? ["SET"] ts)
  let columns ← (settings.splitOn .comma).mapM setting?
  return change table columns (← setting? (← keywords? ["WHERE"] ts))

/-- Reads a removal. -/
def removal? (ts : List TextToken) : Option Write := do
  let (table, ts) ← name? (← keywords? ["DELETE", "FROM"] ts)
  return removal table (← setting? (← keywords? ["WHERE"] ts))

/-- Reads a text as a write. -/
def read? (text : String) : Option Write := do
  let ts ← tokens? text
  insertion? ts <|> change? ts <|> removal? ts

variable {table key : String} {columns : List String}

theorem insertion?_tokens (table : String) (columns : List String) :
    insertion? (insertion table columns).tokens = some (insertion table columns) := by
  rw [insertion?, tokens, keywords?_append]
  by_cases hcolumns : columns = []
  · subst hcolumns
    rfl
  · have hright : .right ∉ columnTokens columns := not_mem_items (by simp) (by simp) columns
    have hmarks : .right ∉ markTokens columns := not_mem_items (by simp) (by simp) columns
    have hread := mapM_items (fun column => [.name column]) column? (fun _ => rfl) columns
    simp only [Option.bind_eq_bind, Option.bind_some, name?, if_neg hcolumns]
    rw [if_neg (by simp), brackets?_append hright, Option.bind_some]
    dsimp only
    rw [columnTokens, splitOn_items (by simp) hcolumns, hread, Option.bind_some,
      keywords?_append, Option.bind_some, brackets?_append hmarks]
    simp

theorem change?_tokens (table key : String) (h : columns ≠ []) :
    change? (change table columns key).tokens = some (change table columns key) := by
  have hwhere : .word "WHERE" ∉ settingTokens columns := not_mem_items (by simp) (by simp) columns
  have hread := mapM_items (fun column => [.name column, .sign "=", .mark ()]) setting?
    (fun _ => rfl) columns
  have hcut := upTo_append hwhere [.name key, .sign "=", .mark ()]
  rw [change?, tokens, keywords?_append]
  simp only [Option.bind_eq_bind, Option.bind_some, name?]
  rw [keywords?_append, Option.bind_some]
  rw [show (["WHERE"].map Token.word ++ [.name key, .sign "=", .mark ()] : List TextToken) =
    .word "WHERE" :: [.name key, .sign "=", .mark ()] from rfl, hcut]
  dsimp only
  rw [settingTokens, splitOn_items (by simp) h, hread, Option.bind_some]
  simp [keywords?, setting?]

theorem removal?_tokens (table key : String) :
    removal? (removal table key).tokens = some (removal table key) := by
  rw [removal?, tokens, keywords?_append]
  rfl

/-! ## 4. The text of a write -/

theorem lexes_of_safe {name : String} (h : isSafeName name.toList = true) :
    Lexes (quote name).toList [.name name] := lexes_quote (not_mem_of_isSafeName h)

/-- A quoted name behind keywords. -/
theorem lexes_named {keywords : String} {ts : List TextToken}
    (hkeywords : LexesAlways keywords.toList ts) {name : String}
    (h : isSafeName name.toList = true) :
    Lexes (keywords ++ quote name).toList (ts ++ [.name name]) := by
  rw [String.toList_append]
  exact hkeywords.append (lexes_of_safe h)

/-- A list with commas. -/
theorem lexes_commas {α : Type} (text : α → String) (item : α → List TextToken) {xs : List α}
    (h : ∀ x ∈ xs, Lexes (text x).toList (item x)) :
    Lexes (", ".intercalate (xs.map text)).toList ([.comma].intercalate (xs.map item)) := by
  have hcomma : LexesAlways ", ".toList [.comma] := rfl
  rw [String.toList_intercalate, List.map_map]
  exact lexes_intercalate hcomma (by simp [Breaks]) (fun x => (text x).toList) item xs h

/-- A setting. -/
theorem lexes_setting {column : String} (h : isSafeName column.toList = true) :
    Lexes (quote column ++ " = ?").toList [.name column, .sign "=", .mark ()] := by
  have hmark : LexesAlways " = ?".toList [.sign "=", .mark ()] := rfl
  rw [String.toList_append]
  exact lexes_append (lexes_of_safe h) hmark.lexes (by simp [Breaks])

theorem lexes_insertion (h : ∀ name ∈ table :: columns, isSafeName name.toList = true) :
    Lexes (insertionText table columns).toList (insertion table columns).tokens := by
  obtain ⟨htable, hcolumns⟩ := List.forall_mem_cons.mp h
  have hinto : LexesAlways "INSERT INTO ".toList [.word "INSERT", .word "INTO"] := rfl
  have hfirst := lexes_named hinto htable
  rw [insertionText, tokens]
  split
  · have hdefault : Lexes " DEFAULT VALUES".toList [.word "DEFAULT", .word "VALUES"] :=
      ⟨_, _, _, rfl, rfl, rfl⟩
    have hall := lexes_append hfirst hdefault (by simp [Breaks])
    simpa using hall
  · have hleft : LexesAlways " (".toList [.left] := rfl
    have hvalues : LexesAlways ") VALUES (".toList [.right, .word "VALUES", .left] := rfl
    have hright : LexesAlways ")".toList [.right] := rfl
    have hnames := lexes_commas quote (fun column => [.name column])
      fun column hmem => lexes_of_safe (hcolumns column hmem)
    have hmark : LexesAlways "?".toList [.mark ()] := rfl
    have hmarks : Lexes (", ".intercalate (columns.map fun _ => "?")).toList (markTokens columns) :=
      lexes_commas _ _ fun _ _ => hmark.lexes
    have hlists := hleft.append (lexes_append hnames
      (hvalues.append (lexes_append hmarks hright.lexes (by simp [Breaks]))) (by simp [Breaks]))
    have hall := lexes_append hfirst hlists (by simp [Breaks])
    simpa [columnTokens, markTokens] using hall

theorem lexes_change (h : ∀ name ∈ table :: key :: columns, isSafeName name.toList = true) :
    Lexes (changeText table columns key).toList (change table columns key).tokens := by
  obtain ⟨htable, h⟩ := List.forall_mem_cons.mp h
  obtain ⟨hkey, hcolumns⟩ := List.forall_mem_cons.mp h
  have hupdate : LexesAlways "UPDATE ".toList [.word "UPDATE"] := rfl
  have hset : LexesAlways " SET ".toList [.word "SET"] := rfl
  have hwhere : LexesAlways " WHERE ".toList [.word "WHERE"] := rfl
  have hsettings := lexes_commas (fun column => quote column ++ " = ?") _
    fun column hmem => lexes_setting (hcolumns column hmem)
  have hrest := hset.append (lexes_append hsettings (hwhere.append (lexes_setting hkey))
    (by simp [Breaks]))
  have hall := lexes_append (lexes_named hupdate htable) hrest (by simp [Breaks])
  simpa [changeText, tokens, settingTokens] using hall

theorem lexes_removal (h : ∀ name ∈ [table, key], isSafeName name.toList = true) :
    Lexes (removalText table key).toList (removal table key).tokens := by
  obtain ⟨htable, h⟩ := List.forall_mem_cons.mp h
  have hdelete : LexesAlways "DELETE FROM ".toList [.word "DELETE", .word "FROM"] := rfl
  have hwhere : LexesAlways " WHERE ".toList [.word "WHERE"] := rfl
  have hkey := hwhere.append (lexes_setting (h key (List.mem_singleton_self key)))
  have hall := lexes_append (lexes_named hdelete htable) hkey (by simp [Breaks])
  simpa [removalText, tokens] using hall

/-- **A write is read back from its text.** -/
theorem read?_text {write : Write} (h : write.WellFormed) : read? write.text = some write := by
  have hsafe := h.safe
  cases write with
  | insertion table columns =>
    rw [read?, text, tokens?_of_lexes (lexes_insertion hsafe)]
    simp [insertion?_tokens]
  | change table columns key =>
    have hnot : insertion? (change table columns key).tokens = none := rfl
    rw [read?, text, tokens?_of_lexes (lexes_change hsafe)]
    simp [hnot, change?_tokens table key (h.changes table columns key rfl)]
  | removal table key =>
    have hnot : insertion? (removal table key).tokens = none := rfl
    have hnot' : change? (removal table key).tokens = none := rfl
    rw [read?, text, tokens?_of_lexes (lexes_removal hsafe)]
    simp [hnot, hnot', removal?_tokens]

end Write

/-! ## 5. Writes of named data -/

variable {table : Value} {data : Dictionary Value} {f : Fragment}

/-- Names that are texts are quoted as they are. -/
theorem quoteAll_texts {names : List String} {texts : List String}
    (h : quoteAll (names.map .str) = .ok texts) :
    texts = names.map quote ∧ ∀ name ∈ names, isSafeName name.toList = true := by
  induction names generalizing texts with
  | nil =>
    cases h
    exact ⟨rfl, List.forall_mem_nil _⟩
  | cons first rest ih =>
    rw [List.map_cons, quoteAll, List.mapM_cons] at h
    obtain ⟨quoted, hfirst, h⟩ := bind_eq_ok.mp h
    obtain ⟨others, hothers, h⟩ := bind_eq_ok.mp h
    obtain ⟨name, hname, safe, rfl⟩ := quoteIdentifier_eq_ok hfirst
    obtain ⟨-, -, rfl⟩ := Where.safeName_eq_ok.mp hname
    obtain ⟨rfl, hsafe⟩ := ih hothers
    cases h
    exact ⟨rfl, List.forall_mem_cons.mpr ⟨safe, hsafe⟩⟩

/-- A value is a mapping with texts as keys, which gives the data in their order. -/
def Gives (v : Value) (data : Dictionary Value) : Prop :=
  ∃ entries place, v = .mappingAt entries place ∧ Entries.named? entries = some data

theorem gives_ofNamed (data : Dictionary Value) : Gives (.mapping (Entries.ofNamed data)) data := by
  refine ⟨_, _, rfl, ?_⟩
  induction data with
  | nil => rfl
  | cons entry rest ih =>
    show (Entries.named? (Entries.ofNamed rest)).bind _ = _
    rw [ih]
    rfl

theorem safeName_text {v : Value} {name known : String} (hv : v.text? = some name)
    (h : safeName v = .ok known) : known = name := by
  obtain ⟨-, -, rfl⟩ := Where.safeName_eq_ok.mp h
  cases v <;> cases hv
  rfl

/-- The names and the values of data in a mapping. -/
theorem quoteAll_named {entries : Entries} {texts : List String}
    (hdata : Entries.named? entries = some data) (h : quoteAll (entries.map (·.1)) = .ok texts) :
    texts = data.names.map quote ∧ ∀ name ∈ data.names, isSafeName name.toList = true := by
  induction entries generalizing data texts with
  | nil =>
    cases hdata
    cases h
    exact ⟨rfl, List.forall_mem_nil _⟩
  | cons entry rest ih =>
    obtain ⟨name, hname, hdata⟩ := Option.bind_eq_some_iff.mp hdata
    obtain ⟨others, hothers, hdata⟩ := Option.bind_eq_some_iff.mp hdata
    cases hdata
    rw [List.map_cons, quoteAll, List.mapM_cons] at h
    obtain ⟨first, hfirst, h⟩ := bind_eq_ok.mp h
    obtain ⟨quoted, hquoted, h⟩ := bind_eq_ok.mp h
    cases h
    obtain ⟨known, hknown, safe, rfl⟩ := quoteIdentifier_eq_ok hfirst
    obtain rfl := safeName_text hname hknown
    obtain ⟨rfl, hsafe⟩ := ih hothers hquoted
    exact ⟨rfl, List.forall_mem_cons.mpr ⟨safe, hsafe⟩⟩

theorem values_named {entries : Entries} (hdata : Entries.named? entries = some data) :
    entries.map (·.2) = data.map (·.2) := by
  induction entries generalizing data with
  | nil =>
    cases hdata
    rfl
  | cons entry rest ih =>
    obtain ⟨name, hname, hdata⟩ := Option.bind_eq_some_iff.mp hdata
    obtain ⟨others, hothers, hdata⟩ := Option.bind_eq_some_iff.mp hdata
    cases hdata
    rw [List.map_cons, List.map_cons, ih hothers]

theorem Gives.nonempty {entries : Entries} {place : Place} (h : (Value.mappingAt entries place).truthy)
    (hdata : Entries.named? entries = some data) : data.names ≠ [] := by
  rintro hnil
  obtain rfl : data = [] := List.map_eq_nil_iff.mp hnil
  have hvalues := values_named hdata
  rw [List.map_nil, List.map_eq_nil_iff] at hvalues
  subst hvalues
  cases h

/-- An insertion names the columns of its data, in their order. -/
theorem insertRow_gives {v : Value} (hdata : Gives v data) (h : insertRow table v = .ok f) :
    ∃ name, safeName table = .ok name ∧ (Write.insertion name data.names).WellFormed ∧
      f = ⟨insertionText name data.names, data.map (·.2)⟩ := by
  obtain ⟨entries, place, rfl, hnamed⟩ := hdata
  unfold insertRow at h
  obtain ⟨quotedTable, htable, h⟩ := bind_eq_ok.mp h
  obtain ⟨name, hname, safe, rfl⟩ := quoteIdentifier_eq_ok htable
  by_cases htruthy : (Value.mappingAt entries place).truthy
  · rw [htruthy] at h
    obtain ⟨_, hentries, h⟩ := bind_eq_ok.mp h
    cases hentries
    obtain ⟨texts, htexts, h⟩ := bind_eq_ok.mp h
    obtain ⟨rfl, hsafe⟩ := quoteAll_named hnamed htexts
    cases h
    refine ⟨name, hname, ⟨List.forall_mem_cons.mpr ⟨safe, hsafe⟩, by simp⟩, ?_⟩
    have hmarks : (entries.map fun _ => "?") = data.names.map fun _ => "?" := by
      have hvalues := congrArg (List.map fun _ => "?") (values_named hnamed)
      simpa [Dictionary.names, Function.comp_def] using hvalues
    rw [insertionText, if_neg (Gives.nonempty htruthy hnamed), hmarks, values_named hnamed]
  · cases entries with
    | nil =>
      cases hnamed
      cases h
      exact ⟨name, hname, ⟨by simpa [Write.names, Dictionary.names] using safe, by simp⟩, rfl⟩
    | cons => exact absurd rfl htruthy

theorem insertRow_ofNamed (h : insertRow table (.mapping (Entries.ofNamed data)) = .ok f) :
    ∃ name, safeName table = .ok name ∧ (Write.insertion name data.names).WellFormed ∧
      f = ⟨insertionText name data.names, data.map (·.2)⟩ :=
  insertRow_gives (gives_ofNamed data) h

/-- A change names the columns of its data, in their order, and the column of the key. -/
theorem updateRow_gives {v key keyColumn : Value} {column : String} (hdata : Gives v data)
    (hcolumn : keyColumn.text? = some column) (h : updateRow table v key keyColumn = .ok f) :
    ∃ name, safeName table = .ok name ∧ key.isNull = false ∧
      (Write.change name data.names column).WellFormed ∧
      f = ⟨changeText name data.names column, data.map (·.2) ++ [key]⟩ := by
  obtain ⟨entries, place, rfl, hnamed⟩ := hdata
  unfold updateRow at h
  obtain ⟨hkey, h⟩ := guarded_eq_ok.mp h
  obtain ⟨htruthy, h⟩ := guarded_eq_ok.mp h
  obtain ⟨quotedTable, htable, h⟩ := bind_eq_ok.mp h
  obtain ⟨_, hentries, h⟩ := bind_eq_ok.mp h
  cases hentries
  obtain ⟨texts, htexts, h⟩ := bind_eq_ok.mp h
  obtain ⟨quotedKey, hquotedKey, h⟩ := bind_eq_ok.mp h
  obtain ⟨name, hname, safe, rfl⟩ := quoteIdentifier_eq_ok htable
  obtain ⟨keyName, hkeyName, safeKey, rfl⟩ := quoteIdentifier_eq_ok hquotedKey
  obtain rfl := safeName_text hcolumn hkeyName
  obtain ⟨rfl, hsafe⟩ := quoteAll_named hnamed htexts
  cases h
  refine ⟨name, hname, by simpa using hkey, ⟨?_, ?_⟩, ?_⟩
  · exact List.forall_mem_cons.mpr ⟨safe, List.forall_mem_cons.mpr ⟨safeKey, hsafe⟩⟩
  · rintro _ _ _ ⟨⟩
    exact Gives.nonempty (by simpa using htruthy) hnamed
  · rw [values_named hnamed, List.map_map]
    rfl

theorem updateRow_ofNamed {key : Value} {column : String}
    (h : updateRow table (.mapping (Entries.ofNamed data)) key (.str column) = .ok f) :
    ∃ name, safeName table = .ok name ∧ key.isNull = false ∧
      (Write.change name data.names column).WellFormed ∧
      f = ⟨changeText name data.names column, data.map (·.2) ++ [key]⟩ :=
  updateRow_gives (gives_ofNamed data) rfl h

/-- A removal names the column of the key. -/
theorem deleteRow_named {key : Value} {column : String}
    (h : deleteRow table key (.str column) = .ok f) :
    ∃ name, safeName table = .ok name ∧ key.isNull = false ∧
      (Write.removal name column).WellFormed ∧ f = ⟨removalText name column, [key]⟩ := by
  obtain ⟨name, keyName, hname, hkeyName, hkey, hsafe, rfl⟩ := deleteRow_eq_ok h
  obtain ⟨-, -, rfl⟩ := Where.safeName_eq_ok.mp hkeyName
  exact ⟨name, hname, hkey, ⟨hsafe, by simp⟩, rfl⟩

end RowMapper.Sql
