import RowMapper.Proofs.Sql.Row
import RowMapper.Proofs.World.Call

/-!
# The first word of a statement

Selections, insertions, changes and removals each start with a word of their own, and the four words
are of one length, so that a statement starts with one of them at most.
-/
namespace RowMapper

/-- A statement whose text starts with a word. -/
def Call.StartsWith (word : String) : Call → Prop
  | .statement text _ => word.toList <+: text.toList
  | .script _ => False
  | .close => False

instance (word : String) : DecidablePred (Call.StartsWith word)
  | .statement text _ => inferInstanceAs (Decidable (word.toList <+: text.toList))
  | .script _ => inferInstanceAs (Decidable False)
  | .close => inferInstanceAs (Decidable False)

namespace Call

theorem startsWith_append {word start : String} (h : word.toList <+: start.toList) (rest : String)
    (params : List Value) : (Call.statement (start ++ rest) params).StartsWith word := by
  rw [StartsWith, String.toList_append]
  exact h.trans (List.prefix_append _ _)

/-- Of two words of one length a statement starts with one. -/
theorem StartsWith.unique {word other : String} {call : Call} (h : call.StartsWith word)
    (h' : call.StartsWith other) (hlength : word.toList.length = other.toList.length) :
    word = other := by
  cases call with
  | statement text params =>
    have hsame : word.toList = other.toList :=
      (List.prefix_of_prefix_length_le h h' (Nat.le_of_eq hlength)).eq_of_length hlength
    exact String.toList_inj.mp hsame
  | script text => exact h.elim
  | close => exact h.elim

end Call

namespace World

/-- The word with which statements of a kind start. -/
def CallKind.word? : CallKind → Option String
  | .selection => some "SELECT"
  | .insertion => some "INSERT"
  | .change => some "UPDATE"
  | .removal => some "DELETE"
  | _ => none

theorem Asked.startsWith {kind : CallKind} {call : Call} (h : Asked kind call) {word : String}
    (hword : kind.word? = some word) : call.StartsWith word := by
  cases h with
  | selection look hfilter h =>
    cases hword
    obtain ⟨table, -, h⟩ := bind_eq_ok.mp h
    obtain ⟨columns, -, h⟩ := bind_eq_ok.mp h
    obtain ⟨group, -, h⟩ := bind_eq_ok.mp h
    obtain ⟨order, -, h⟩ := bind_eq_ok.mp h
    obtain ⟨paging, -, h⟩ := bind_eq_ok.mp h
    cases h
    simp only [String.append_assoc]
    exact Call.startsWith_append (by decide) _ _
  | insertion look h =>
    cases hword
    obtain ⟨table, -, h⟩ := bind_eq_ok.mp h
    split at h
    · cases h
      simp only [String.append_assoc]
      exact Call.startsWith_append (by decide) _ _
    · obtain ⟨entries, -, h⟩ := bind_eq_ok.mp h
      obtain ⟨names, -, h⟩ := bind_eq_ok.mp h
      cases h
      simp only [String.append_assoc]
      exact Call.startsWith_append (by decide) _ _
  | change look h =>
    cases hword
    obtain ⟨table, columns, values, column, -, -, -, -, -, -, rfl⟩ := Sql.updateRow_eq_ok h
    rw [Sql.changeText]
    simp only [String.append_assoc]
    exact Call.startsWith_append (by decide) _ _
  | removal look h =>
    cases hword
    obtain ⟨table, column, -, -, -, -, rfl⟩ := Sql.deleteRow_eq_ok h
    rw [Sql.removalText]
    simp only [String.append_assoc]
    exact Call.startsWith_append (by decide) _ _
  | _ => cases hword

end World
end RowMapper
