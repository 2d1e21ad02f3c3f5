/-!
# Dictionaries in the order of first insertion

A `Dictionary` is a list of named entries.  Writing a name that is present changes its value where
it stands; a new name goes to the end.  Rows, the attributes of entities, the columns and the
associations of a model are dictionaries.
-/
namespace RowMapper

/-- Named entries in the order in which the names were first written. -/
abbrev Dictionary (α : Type) := List (String × α)

namespace Dictionary

variable {α β : Type}

/-- The value under a name. -/
def get? : Dictionary α → String → Option α
  | [], _ => none
  | (known, value) :: rest, name => if known = name then some value else get? rest name

/-- Whether a name is present. -/
def has : Dictionary α → String → Bool
  | [], _ => false
  | (known, _) :: rest, name => known == name || has rest name

/-- The names in order. -/
def names (d : Dictionary α) : List String := d.map (·.1)

/-- Writes a value under a name. -/
def insert : Dictionary α → String → α → Dictionary α
  | [], name, value => [(name, value)]
  | (known, old) :: rest, name, value =>
    if known = name then (known, value) :: rest else (known, old) :: insert rest name value

/-- Writes entries one after another. -/
def update (d : Dictionary α) (entries : List (String × α)) : Dictionary α :=
  entries.foldl (fun acc entry => insert acc entry.1 entry.2) d

/-- The dictionary of entries written one after another. -/
def ofList (entries : List (String × α)) : Dictionary α := update [] entries

/-- Looking up a name just written gives the value written. -/
theorem get?_insert_self (d : Dictionary α) (name : String) (value : α) :
    get? (insert d name value) name = some value := by
  induction d with
  | nil => simp [insert, get?]
  | cons entry rest ih =>
    obtain ⟨known, old⟩ := entry
    by_cases h : known = name <;> simp [insert, get?, h, ih]

/-- Writing a name leaves the others as they were. -/
theorem get?_insert_of_ne (d : Dictionary α) {name other : String} (h : name ≠ other) (value : α) :
    get? (insert d name value) other = get? d other := by
  induction d with
  | nil => simp [insert, get?, h]
  | cons entry rest ih =>
    obtain ⟨known, old⟩ := entry
    by_cases hk : known = name
    · subst hk
      simp [insert, get?, h]
    · by_cases ho : known = other
      · subst ho
        simp [insert, get?, hk]
      · simp [insert, get?, hk, ho, ih]

/-- Writing a name that is present keeps the order of the names. -/
theorem names_insert_of_has (d : Dictionary α) (name : String) (value : α)
    (h : has d name = true) : names (insert d name value) = names d := by
  induction d with
  | nil => simp [has] at h
  | cons entry rest ih =>
    obtain ⟨known, old⟩ := entry
    by_cases hk : known = name
    · simp [insert, names, hk]
    · have hr : has rest name = true := by simpa [has, hk] using h
      have := ih hr
      simp only [names] at this
      simp [insert, names, hk, this]

/-- A new name goes to the end. -/
theorem insert_of_not_has (d : Dictionary α) (name : String) (value : α)
    (h : has d name = false) : insert d name value = d ++ [(name, value)] := by
  induction d with
  | nil => rfl
  | cons entry rest ih =>
    obtain ⟨known, old⟩ := entry
    simp only [has, Bool.or_eq_false_iff, beq_eq_false_iff_ne] at h
    simp [insert, h.1, ih h.2]

end Dictionary
end RowMapper
