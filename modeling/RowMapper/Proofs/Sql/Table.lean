import RowMapper.Proofs.Sql.Write
import RowMapper.TableDefinition

/-!
# Reading definitions of tables

What a database takes from the statement that makes a table: its name, and its columns with their
types and constraints, in order.  `Table.read?` reads the text that `World.tableDefinition` makes as
the table that the mapper describes (`read?_tableDefinition`).
-/
namespace RowMapper

open Model (Column Mapper Registry)

namespace Sql

/-! ## 1. Tables -/

/-- What a definition demands of a column. -/
inductive Constraint where
  | primaryKey (counted : Bool)
  | notNull
  | unique
  deriving DecidableEq

/-- A column of a table. -/
structure TableColumn where
  name : String
  type : String
  constraints : List Constraint
  deriving DecidableEq

/-- A table as it is defined. -/
structure Table where
  name : String
  columns : List TableColumn
  deriving DecidableEq

/-- Whether a constraint makes a column the primary key. -/
def Constraint.isPrimaryKey : Constraint → Bool
  | .primaryKey _ => true
  | _ => false

namespace Table

/-- The names of the columns in order. -/
def names (t : Table) : List String := t.columns.map (·.name)

/-- The column of every primary-key constraint that stands in the definition. -/
def primaryKeys (t : Table) : List String :=
  t.columns.flatMap fun c => (c.constraints.filter (·.isPrimaryKey)).map fun _ => c.name

/-! ## 2. Reading -/

/-- The constraints that stand behind the type of a column. -/
def constraints? : List TextToken → Option (List Constraint)
  | [] => some []
  | .word "PRIMARY" :: .word "KEY" :: .word "AUTOINCREMENT" :: rest =>
    (constraints? rest).map (.primaryKey true :: ·)
  | .word "PRIMARY" :: .word "KEY" :: rest => (constraints? rest).map (.primaryKey false :: ·)
  | .word "NOT" :: .word "NULL" :: rest => (constraints? rest).map (.notNull :: ·)
  | .word "UNIQUE" :: rest => (constraints? rest).map (.unique :: ·)
  | _ => none

/-- A column with its type and its constraints. -/
def column? : List TextToken → Option TableColumn
  | .name name :: .word type :: rest => do
    return { name, type, constraints := ← constraints? rest }
  | _ => none

/-- A statement without the semicolon that ends it. -/
def unended? (text : String) : Option String :=
  match text.toList.reverse with
  | ';' :: rest => some (String.ofList rest.reverse)
  | _ => none

/-- Reads a text as the definition of a table. -/
def read? (text : String) : Option Table := do
  let ts ← tokens? (← unended? text)
  let (name, ts) ← name? (← keywords? ["CREATE", "TABLE", "IF", "NOT", "EXISTS"] ts)
  let (inside, ts) ← brackets? ts
  if ts ≠ [] then none
  return { name, columns := ← (inside.splitOn .comma).mapM column? }

end Table

/-! ## 3. The text of a definition -/

/-- The tokens of a constraint. -/
def Constraint.tokens : Constraint → List TextToken
  | .primaryKey true => [.word "PRIMARY", .word "KEY", .word "AUTOINCREMENT"]
  | .primaryKey false => [.word "PRIMARY", .word "KEY"]
  | .notNull => [.word "NOT", .word "NULL"]
  | .unique => [.word "UNIQUE"]

/-- The text of a constraint. -/
def Constraint.text : Constraint → String
  | .primaryKey true => "PRIMARY KEY AUTOINCREMENT"
  | .primaryKey false => "PRIMARY KEY"
  | .notNull => "NOT NULL"
  | .unique => "UNIQUE"

theorem lexes_constraint (c : Constraint) : Lexes c.text.toList c.tokens := by
  cases c with
  | primaryKey counted => cases counted <;> exact ⟨_, _, _, rfl, rfl, rfl⟩
  | notNull => exact ⟨_, _, _, rfl, rfl, rfl⟩
  | unique => exact ⟨_, _, _, rfl, rfl, rfl⟩

/-- No constraint goes on with the one before it. -/
theorem constraints?_tokens (cs : List Constraint) :
    Table.constraints? (cs.flatMap Constraint.tokens) = some cs := by
  induction cs with
  | nil => rfl
  | cons c rest ih =>
    rw [List.flatMap_cons]
    cases c with
    | notNull => simp [Constraint.tokens, Table.constraints?, ih]
    | unique => simp [Constraint.tokens, Table.constraints?, ih]
    | primaryKey counted =>
      cases counted with
      | true => simp [Constraint.tokens, Table.constraints?, ih]
      | false =>
        have hrest : ∀ ts, rest.flatMap Constraint.tokens ≠ .word "AUTOINCREMENT" :: ts := by
          intro ts
          cases rest with
          | nil => simp
          | cons d more =>
            cases d with
            | primaryKey counted => cases counted <;> simp [Constraint.tokens]
            | notNull => simp [Constraint.tokens]
            | unique => simp [Constraint.tokens]
        rw [Constraint.tokens, List.cons_append, List.cons_append, List.nil_append,
          Table.constraints?, ih, Option.map_some]
        exact hrest

/-- The tokens of a column. -/
def TableColumn.tokens (c : TableColumn) : List TextToken :=
  .name c.name :: .word c.type :: c.constraints.flatMap Constraint.tokens

theorem column?_tokens (c : TableColumn) : Table.column? c.tokens = some c := by
  simp [Table.column?, TableColumn.tokens, constraints?_tokens]

/-- A list of constraints has no commas and no brackets. -/
theorem not_mem_columnTokens {t : TextToken} (h : ∀ name, t ≠ .name name) (h' : ∀ word, t ≠ .word word)
    (c : TableColumn) : t ∉ c.tokens := by
  have hconstraint : ∀ d : Constraint, t ∉ d.tokens := by
    intro d
    cases d with
    | primaryKey counted => cases counted <;> simp [Constraint.tokens, h']
    | notNull => simp [Constraint.tokens, h']
    | unique => simp [Constraint.tokens, h']
  simp [TableColumn.tokens, h, h', hconstraint]

/-- The tokens of a definition. -/
def Table.tokens (t : Table) : List TextToken :=
  ["CREATE", "TABLE", "IF", "NOT", "EXISTS"].map .word ++ .name t.name :: .left ::
    ([.comma].intercalate (t.columns.map TableColumn.tokens) ++ [.right])

theorem Table.unended?_append (text : String) : unended? (text ++ ";") = some text := by
  simp [unended?]

theorem Table.read?_of_lexes {t : Table} {text : String} (hcolumns : t.columns ≠ [])
    (h : Lexes text.toList t.tokens) : read? (text ++ ";") = some t := by
  have hright : .right ∉ [.comma].intercalate (t.columns.map TableColumn.tokens) :=
    not_mem_items (by simp) (not_mem_columnTokens (by simp) (by simp)) t.columns
  have hread := mapM_items TableColumn.tokens _ column?_tokens t.columns
  rw [read?, unended?_append]
  simp only [Option.bind_eq_bind, Option.bind_some]
  rw [tokens?_of_lexes h, Option.bind_some, Table.tokens, keywords?_append, Option.bind_some, name?,
    Option.bind_some]
  dsimp only
  rw [brackets?_append hright, Option.bind_some]
  dsimp only
  rw [splitOn_items (not_mem_columnTokens (by simp) (by simp)) hcolumns, hread]
  simp

end Sql

namespace World

open Sql (Constraint Lexes LexesAlways Table TableColumn TextToken)

/-- What a column demands, given whether it is the key. -/
def constraintsOf (c : Column) (isKey : Bool) : List Constraint :=
  (if isKey then [.primaryKey (c.type = .integer)] else []) ++
  (if c.nullable then [] else [.notNull]) ++
  (if c.unique && !isKey then [.unique] else [])

/-- A column of a mapper in the table. -/
def tableColumn (key : String) (entry : String × Column) : TableColumn where
  name := entry.1
  type := entry.2.type.sql
  constraints := constraintsOf entry.2 (entry.1 == key)

theorem constraints_eq (c : Column) (isKey : Bool) :
    constraints c isKey = (constraintsOf c isKey).map Constraint.text := by
  obtain ⟨name, spelling, type, key, nullable, unique, absent⟩ := c
  by_cases htype : type = .integer <;> cases isKey <;> cases nullable <;> cases unique <;>
    simp [constraints, constraintsOf, Constraint.text, htype]

theorem lexes_type (type : Model.ColumnType) : Lexes type.sql.toList [.word type.sql] := by
  cases type <;> exact ⟨_, _, _, rfl, rfl, rfl⟩

theorem intercalate_nil_separator {α : Type} (ls : List (List α)) :
    [].intercalate ls = ls.flatten := by
  induction ls with
  | nil => rfl
  | cons first rest ih =>
    cases rest with
    | nil => simp
    | cons second more => simp [List.intercalate_cons_cons, ih]

/-- Pieces with blanks between them. -/
theorem lexes_blanks {α : Type} {text : α → String} {item : α → List TextToken} {xs : List α}
    (h : ∀ x ∈ xs, Lexes (text x).toList (item x)) :
    Lexes (" ".intercalate (xs.map text)).toList (xs.flatMap item) := by
  have hblank : LexesAlways " ".toList [] := rfl
  have hall := Sql.lexes_intercalate hblank (by simp [Sql.Breaks]) (fun x => (text x).toList) item xs h
  rw [String.toList_intercalate, List.map_map]
  rwa [intercalate_nil_separator] at hall

/-- The text of a column whose name may be quoted. -/
def definedText (key : String) (entry : String × Column) : String :=
  " ".intercalate (Sql.quote entry.1 :: entry.2.type.sql ::
    constraints entry.2 (entry.1 == key))

theorem columnDefinitions_eq_ok {key : String} {columns : List (String × Column)}
    {texts : List String} (h : columnDefinitions key columns = .ok texts) :
    texts = columns.map (definedText key) ∧
      ∀ entry ∈ columns, Sql.isSafeName entry.1.toList = true := by
  induction columns generalizing texts with
  | nil =>
    cases h
    exact ⟨rfl, List.forall_mem_nil _⟩
  | cons entry rest ih =>
    obtain ⟨first, hfirst, h⟩ := bind_eq_ok.mp h
    obtain ⟨others, hothers, h⟩ := bind_eq_ok.mp h
    obtain ⟨rfl, hrest⟩ := ih hothers
    obtain ⟨quoted, hquoted, hfirst⟩ := bind_eq_ok.mp hfirst
    obtain ⟨known, hknown, rfl⟩ := map_eq_ok.mp hquoted
    obtain ⟨-, safe, hname⟩ := Where.safeName_eq_ok.mp hknown
    obtain rfl : entry.1 = known := hname.symm
    cases hfirst
    cases h
    exact ⟨rfl, List.forall_mem_cons.mpr ⟨safe, hrest⟩⟩

/-- The name, the type and the constraints stand with blanks between them. -/
theorem lexes_column (key : String) {entry : String × Column}
    (safe : Sql.isSafeName entry.1.toList = true) :
    Lexes (definedText key entry).toList (tableColumn key entry).tokens := by
  let pieces : List (String × List TextToken) :=
    (Sql.quote entry.1, [.name entry.1]) :: (entry.2.type.sql, [.word entry.2.type.sql]) ::
      (constraintsOf entry.2 (entry.1 == key)).map fun d => (d.text, d.tokens)
  have hpieces : ∀ piece ∈ pieces, Lexes piece.1.toList piece.2 := by
    refine List.forall_mem_cons.mpr ⟨Sql.Write.lexes_of_safe safe, List.forall_mem_cons.mpr
      ⟨lexes_type entry.2.type, fun piece hmem => ?_⟩⟩
    obtain ⟨d, -, rfl⟩ := List.mem_map.mp hmem
    exact Sql.lexes_constraint d
  have hall := lexes_blanks hpieces
  rw [definedText, constraints_eq]
  simpa [pieces, tableColumn, TableColumn.tokens, List.flatMap_map, Function.comp_def] using hall

/-- The table that a mapper describes. -/
def describedTable (r : Registry) (m : Mapper) (name : String) : Table where
  name
  columns := (r.columnsOf m).map (tableColumn m.key)

/-- **A definition of a table is read as the table of the mapper**: it has the columns of the mapper
in their order, with their types and constraints. -/
theorem read?_tableDefinition {r : Registry} {m : Mapper} {text : String} (hcolumns : m.columns ≠ [])
    (h : tableDefinition r m = .ok text) :
    ∃ name, Sql.safeName m.tableName = .ok name ∧
      Table.read? text = some (describedTable r m name) := by
  obtain ⟨texts, htexts, h⟩ := bind_eq_ok.mp h
  obtain ⟨quoted, hquoted, h⟩ := bind_eq_ok.mp h
  obtain ⟨name, hname, rfl⟩ := map_eq_ok.mp hquoted
  obtain ⟨-, safe, rfl⟩ := Where.safeName_eq_ok.mp hname
  obtain ⟨rfl, hsafe⟩ := columnDefinitions_eq_ok htexts
  cases h
  refine ⟨_, hname, ?_⟩
  have hcreate : LexesAlways "CREATE TABLE IF NOT EXISTS ".toList
      (["CREATE", "TABLE", "IF", "NOT", "EXISTS"].map .word) := rfl
  have hleft : LexesAlways " (".toList [.left] := rfl
  have hright : LexesAlways ")".toList [.right] := rfl
  have hlist := Sql.Write.lexes_commas _ _ fun entry hmem => lexes_column m.key (hsafe entry hmem)
  have hlexes := Sql.lexes_append (Sql.Write.lexes_named hcreate safe)
    (hleft.append (Sql.lexes_append hlist hright.lexes (by simp [Sql.Breaks]))) (by simp [Sql.Breaks])
  have hread : Table.read? ("CREATE TABLE IF NOT EXISTS " ++ Sql.quote (Sql.nameText m.tableName) ++
      " (" ++ ", ".intercalate ((r.columnsOf m).map (definedText m.key)) ++ ")" ++ ";") =
      some (describedTable r m (Sql.nameText m.tableName)) := by
    refine Table.read?_of_lexes ?_ ?_
    · simpa [describedTable, Registry.columnsOf] using hcolumns
    · simpa [Table.tokens, describedTable, Function.comp_def] using hlexes
  rw [String.append_assoc] at hread
  exact hread

end World
end RowMapper
