import RowMapper.Proofs.Sql.Write

/-!
# Reading back what is written

The text of a write has the columns and its parameters have the values, and the two are made one
after the other.  `readInsertion?` and `readChange?` put them together again: the columns of the
text with the parameters, one by one, and the column of the key with the last parameter.  What they
read from a statement that was accepted is what it was made from (`writes_are_read_back`), so
statements made from different data differ.
-/
namespace RowMapper.Sql

/-! ## 1. Reading a statement with its parameters -/

/-- Columns with their values; there have to be as many of these as of those. -/
def pair? (columns : List String) (values : List Value) : Option (Dictionary Value) :=
  if columns.length = values.length then some (columns.zip values) else none

/-- The table of an insertion, and its columns with their values. -/
def readInsertion? (f : Fragment) : Option (String × Dictionary Value) :=
  match Write.read? f.text with
  | some (.insertion table columns) => do return (table, ← pair? columns f.params)
  | _ => none

/-- What a change says. -/
structure Change where
  table : String
  data : Dictionary Value
  key : String
  keyValue : Value

/-- The table of a change, its columns with all values but the last, and the column of the key with
the last one. -/
def readChange? (f : Fragment) : Option Change :=
  match Write.read? f.text with
  | some (.change table columns key) => do
    let keyValue ← f.params.getLast?
    return { table, data := ← pair? columns f.params.dropLast, key, keyValue }
  | _ => none

theorem pair?_names (data : Dictionary Value) : pair? data.names (data.map (·.2)) = some data := by
  have hzip : data.names.zip (data.map (·.2)) = data := by
    rw [Dictionary.names, List.zip_map', List.map_id']
  rw [pair?, if_pos (by simp [Dictionary.names]), hzip]

/-! ## 2. Statements that are accepted -/

variable {table v key keyColumn : Value} {name column : String} {data : Dictionary Value}
  {f : Fragment}

theorem readInsertion?_insertRow (htable : table.text? = some name) (hdata : Gives v data)
    (h : insertRow table v = .ok f) : readInsertion? f = some (name, data) := by
  obtain ⟨known, hknown, hwell, rfl⟩ := insertRow_gives hdata h
  obtain rfl := safeName_text htable hknown
  have hread := Write.read?_text hwell
  rw [Write.text] at hread
  rw [readInsertion?, hread]
  show (pair? data.names (data.map (·.2))).bind _ = _
  rw [pair?_names]
  rfl

theorem readChange?_updateRow (htable : table.text? = some name) (hdata : Gives v data)
    (hcolumn : keyColumn.text? = some column) (h : updateRow table v key keyColumn = .ok f) :
    readChange? f = some ⟨name, data, column, key⟩ := by
  obtain ⟨known, hknown, -, hwell, rfl⟩ := updateRow_gives hdata hcolumn h
  obtain rfl := safeName_text htable hknown
  have hread := Write.read?_text hwell
  rw [Write.text] at hread
  rw [readChange?, hread]
  have hvalues : (data.map (·.2) ++ [key]).dropLast = data.map (·.2) := List.dropLast_concat
  have hlast : (data.map (·.2) ++ [key]).getLast? = some key := List.getLast?_concat
  show ((data.map (·.2) ++ [key]).getLast?).bind (fun keyValue =>
    (pair? data.names (data.map (·.2) ++ [key]).dropLast).bind _) = _
  rw [hlast, hvalues, Option.bind_some, pair?_names]
  rfl

/-! ## 3. What was written -/

/-- **Writes are read back.**  What an accepted insertion and an accepted change say is the table,
the columns with their values, and for a change the column and the value of the key, that they were
made from.  So no two of them with different inputs are the same statement with the same
parameters. -/
theorem writes_are_read_back {table table' v v' keyColumn keyColumn' : Value}
    {name name' column column' : String} {data data' : Dictionary Value}
    (htable : table.text? = some name) (htable' : table'.text? = some name')
    (hdata : Gives v data) (hdata' : Gives v' data') (hcolumn : keyColumn.text? = some column)
    (hcolumn' : keyColumn'.text? = some column') :
    (∀ f, insertRow table v = .ok f → readInsertion? f = some (name, data)) ∧
    (∀ key f, updateRow table v key keyColumn = .ok f →
      readChange? f = some ⟨name, data, column, key⟩) ∧
    (∀ f, insertRow table v = .ok f → insertRow table' v' = .ok f → name = name' ∧ data = data') ∧
    ∀ key key' f, updateRow table v key keyColumn = .ok f →
      updateRow table' v' key' keyColumn' = .ok f →
      name = name' ∧ data = data' ∧ column = column' ∧ key = key' := by
  refine ⟨fun f => readInsertion?_insertRow htable hdata,
    fun key f => readChange?_updateRow htable hdata hcolumn, fun f h h' => ?_,
    fun key key' f h h' => ?_⟩
  · have hread := readInsertion?_insertRow htable hdata h
    rw [readInsertion?_insertRow htable' hdata' h'] at hread
    cases hread
    exact ⟨rfl, rfl⟩
  · have hread := readChange?_updateRow htable hdata hcolumn h
    rw [readChange?_updateRow htable' hdata' hcolumn' h'] at hread
    cases hread
    exact ⟨rfl, rfl, rfl, rfl⟩

/-- The data of an animal. -/
def rex : Dictionary Value := [("name", .str "Rex"), ("age", .int 3)]

/-- The animal that is inserted, and changed, is read back. -/
theorem rex_is_read_back : Gives (.mapping (Entries.ofNamed rex)) rex ∧
    (∃ f, insertRow (.str "animals") (.mapping (Entries.ofNamed rex)) = .ok f ∧
      readInsertion? f = some ("animals", rex)) ∧
    ∃ f, updateRow (.str "animals") (.mapping (Entries.ofNamed rex)) (.int 7) (.str "id") = .ok f ∧
      readChange? f = some ⟨"animals", rex, "id", .int 7⟩ := by
  obtain ⟨hinsertion, hchange, -⟩ := @writes_are_read_back (.str "animals")
    (.str "animals") _ _ (.str "id") (.str "id") _ _ _ _ _ _ rfl rfl (gives_ofNamed rex)
    (gives_ofNamed rex) rfl rfl
  exact ⟨gives_ofNamed rex, ⟨_, rfl, hinsertion _ rfl⟩, ⟨_, rfl, hchange _ _ rfl⟩⟩

end RowMapper.Sql
