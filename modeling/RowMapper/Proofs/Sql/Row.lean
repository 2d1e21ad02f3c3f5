import RowMapper.Proofs.Where.Acceptance
import RowMapper.Sql.Statement

/-!
# Statements about one row

A row is changed or removed by its key: the statement names the table, and its only condition is
that the column of the key equals the last parameter.  `updateRow_eq_ok` and `deleteRow_eq_ok` say
so of whatever table, data and key the statement is made from, and that there is such a key.
-/
namespace RowMapper.Sql

/-! ## 1. Quoted names -/

theorem quoteIdentifier_eq_ok {identifier : Value} {text : String}
    (h : orFault (quoteIdentifier identifier) = .ok text) :
    ∃ name, safeName identifier = .ok name ∧ isSafeName name.toList = true ∧ text = quote name := by
  obtain ⟨name, hname, rfl⟩ := map_eq_ok.mp (orFault_eq_ok.mp h)
  refine ⟨name, hname, ?_, rfl⟩
  obtain ⟨-, safe, rfl⟩ := Where.safeName_eq_ok.mp hname
  exact safe

/-- Quoted names stand in the places of the values they come from. -/
theorem quoteAll_eq_ok {identifiers : List Value} {texts : List String}
    (h : quoteAll identifiers = .ok texts) :
    ∃ names : List String, (∀ name ∈ names, isSafeName name.toList = true) ∧
      texts = names.map quote ∧ names.length = identifiers.length := by
  induction identifiers generalizing texts with
  | nil =>
    cases h
    exact ⟨[], by simp⟩
  | cons identifier rest ih =>
    rw [quoteAll, List.mapM_cons] at h
    obtain ⟨first, hfirst, h⟩ := bind_eq_ok.mp h
    obtain ⟨others, hothers, h⟩ := bind_eq_ok.mp h
    obtain ⟨name, -, safe, rfl⟩ := quoteIdentifier_eq_ok hfirst
    obtain ⟨names, hnames, rfl, hlength⟩ := ih hothers
    cases h
    refine ⟨name :: names, ?_, rfl, by simp [hlength]⟩
    simpa using ⟨safe, hnames⟩

/-! ## 2. Changing and removing -/

/-- Changes columns of the row with a key. -/
def changeText (table : String) (columns : List String) (key : String) : String :=
  "UPDATE " ++ quote table ++ " SET " ++ ", ".intercalate (columns.map fun c => quote c ++ " = ?") ++
    " WHERE " ++ quote key ++ " = ?"

/-- Removes the row with a key. -/
def removalText (table key : String) : String :=
  "DELETE FROM " ++ quote table ++ " WHERE " ++ quote key ++ " = ?"

/-- The two start with different words. -/
theorem changeText_ne_removalText (table key table' key' : String) (columns : List String) :
    changeText table columns key ≠ removalText table' key' := by
  intro h
  have hchange : (changeText table columns key).toList.head? = some 'U' := by
    simp only [changeText, String.toList_append, List.append_assoc]
    rfl
  have hremoval : (removalText table' key').toList.head? = some 'D' := by
    simp only [removalText, String.toList_append, List.append_assoc]
    rfl
  rw [h, hremoval] at hchange
  cases hchange

theorem updateRow_eq_ok {table data key column : Value} {f : Fragment}
    (h : updateRow table data key column = .ok f) :
    ∃ tableName columns values keyName, safeName table = .ok tableName ∧
      safeName column = .ok keyName ∧ key.isNull = false ∧
      (∀ name ∈ tableName :: keyName :: columns, isSafeName name.toList = true) ∧
      columns ≠ [] ∧ columns.length = values.length ∧
      f = ⟨changeText tableName columns keyName, values ++ [key]⟩ := by
  unfold updateRow at h
  obtain ⟨hkey, h⟩ := guarded_eq_ok.mp h
  obtain ⟨hdata, h⟩ := guarded_eq_ok.mp h
  obtain ⟨quotedTable, htable, h⟩ := bind_eq_ok.mp h
  obtain ⟨entries, hentries, h⟩ := bind_eq_ok.mp h
  obtain ⟨texts, htexts, h⟩ := bind_eq_ok.mp h
  obtain ⟨quotedKey, hcolumn, h⟩ := bind_eq_ok.mp h
  obtain ⟨tableName, htableName, safeTable, rfl⟩ := quoteIdentifier_eq_ok htable
  obtain ⟨keyName, hkeyName, safeKey, rfl⟩ := quoteIdentifier_eq_ok hcolumn
  obtain ⟨columns, safeColumns, rfl, hlength⟩ := quoteAll_eq_ok htexts
  rw [List.length_map] at hlength
  cases h
  refine ⟨tableName, columns, entries.map (·.2), keyName, htableName, hkeyName, by simpa using hkey,
    by simpa using ⟨safeTable, safeKey, safeColumns⟩, ?_, by simp [hlength], ?_⟩
  · -- data without entries counts as false
    rintro rfl
    cases data <;> cases hentries
    exact hdata (by simpa [Value.truthy] using hlength.symm)
  · simp [changeText, List.map_map, Function.comp_def]

theorem deleteRow_eq_ok {table key column : Value} {f : Fragment}
    (h : deleteRow table key column = .ok f) :
    ∃ tableName keyName, safeName table = .ok tableName ∧ safeName column = .ok keyName ∧
      key.isNull = false ∧ (∀ name ∈ [tableName, keyName], isSafeName name.toList = true) ∧
      f = ⟨removalText tableName keyName, [key]⟩ := by
  unfold deleteRow at h
  obtain ⟨hkey, h⟩ := guarded_eq_ok.mp h
  obtain ⟨quotedTable, htable, h⟩ := bind_eq_ok.mp h
  obtain ⟨quotedKey, hcolumn, h⟩ := bind_eq_ok.mp h
  obtain ⟨tableName, htableName, safeTable, rfl⟩ := quoteIdentifier_eq_ok htable
  obtain ⟨keyName, hkeyName, safeKey, rfl⟩ := quoteIdentifier_eq_ok hcolumn
  cases h
  exact ⟨tableName, keyName, htableName, hkeyName, by simpa using hkey,
    by simpa using ⟨safeTable, safeKey⟩, rfl⟩

end RowMapper.Sql
