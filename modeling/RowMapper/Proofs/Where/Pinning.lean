import RowMapper.Finder.Query
import RowMapper.Proofs.Sql.Evaluation
import RowMapper.Proofs.Value.Plain
import RowMapper.Proofs.Where.Reading

/-!
# What a filter pins down

A filter is read twice: as a condition on rows, and for the values that it pins down, from which a
row is made.  `Pins entries key v` says that the entries give a column one value: as a plain value,
as the operand of `eq`, or in a mapping of an `and` group, at any depth.  What stands below `or` and
`not` pins nothing.

The values that are read off a filter are those that it pins (`pinEntries_eq_update`), and they hold
of every row that the compiled filter holds of (`pinned_values_hold`).
-/
namespace RowMapper

/-! ## 1. Writing entries -/

/-- What is written under a key is put under another one: the same, or an equal one. -/
def Value.Takes (known key : Value) : Prop := known = key ∨ known.sameKey key = true

namespace Entries

variable {entries writes : Entries} {key v : Value} {p : Value × Value}

/-- Whatever stands in entries after a write was there or was written; no other key is there. -/
theorem mem_insert (h : p ∈ insert entries key v) :
    (p.1 = key ∨ ∃ u, (p.1, u) ∈ entries) ∧ (p ∈ entries ∨ p.2 = v ∧ p.1.Takes key) := by
  induction entries with
  | nil =>
    cases List.mem_singleton.mp h
    exact ⟨.inl rfl, .inr ⟨rfl, .inl rfl⟩⟩
  | cons entry rest ih =>
    obtain ⟨known, old⟩ := entry
    rw [insert] at h
    split at h
    · next hknown =>
      rcases List.mem_cons.mp h with rfl | hrest
      · exact ⟨.inr ⟨old, List.mem_cons_self⟩, .inr ⟨rfl, .inr hknown⟩⟩
      · have hmem := List.mem_cons_of_mem (known, old) hrest
        exact ⟨.inr ⟨p.2, hmem⟩, .inl hmem⟩
    · rcases List.mem_cons.mp h with rfl | hrest
      · exact ⟨.inr ⟨old, List.mem_cons_self⟩, .inl List.mem_cons_self⟩
      · obtain ⟨hkey, hvalue⟩ := ih hrest
        exact ⟨hkey.imp_right (Exists.imp fun _ => List.mem_cons_of_mem _),
          hvalue.imp_left (List.mem_cons_of_mem _)⟩

/-- What is written can be found, and no key is lost. -/
theorem exists_mem_insert (entries : Entries) (key v : Value) :
    (∃ known, (known, v) ∈ insert entries key v ∧ known.Takes key) ∧
      ∀ p ∈ entries, ∃ u, (p.1, u) ∈ insert entries key v := by
  induction entries with
  | nil => exact ⟨⟨key, List.mem_singleton_self _, .inl rfl⟩, nofun⟩
  | cons entry rest ih =>
    obtain ⟨known, old⟩ := entry
    obtain ⟨⟨found, hfound, htakes⟩, hkept⟩ := ih
    rw [insert]
    split
    · next hknown =>
      refine ⟨⟨known, List.mem_cons_self, .inr hknown⟩, fun p hp => ?_⟩
      rcases List.mem_cons.mp hp with rfl | hp
      · exact ⟨v, List.mem_cons_self⟩
      · exact ⟨p.2, List.mem_cons_of_mem _ hp⟩
    · refine ⟨⟨found, List.mem_cons_of_mem _ hfound, htakes⟩, fun p hp => ?_⟩
      rcases List.mem_cons.mp hp with rfl | hp
      · exact ⟨old, List.mem_cons_self⟩
      · obtain ⟨u, hu⟩ := hkept p hp
        exact ⟨u, List.mem_cons_of_mem _ hu⟩

/-- Whatever stands in entries after some writes was there or was written; no other key is there. -/
theorem mem_update (h : p ∈ update entries writes) :
    (∃ u, (p.1, u) ∈ entries ++ writes) ∧
      (p ∈ entries ∨ ∃ key, (key, p.2) ∈ writes ∧ p.1.Takes key) := by
  induction writes generalizing entries with
  | nil =>
    rw [List.append_nil]
    exact ⟨⟨p.2, h⟩, .inl h⟩
  | cons write rest ih =>
    obtain ⟨key, v⟩ := write
    obtain ⟨⟨u, hkey⟩, hvalue⟩ := ih h
    constructor
    · rcases List.mem_append.mp hkey with hkey | hkey
      · rcases (mem_insert hkey).1 with heq | ⟨u, hu⟩
        · exact ⟨v, by simp [show p.1 = key from heq]⟩
        · exact ⟨u, List.mem_append_left _ hu⟩
      · exact ⟨u, by simp [hkey]⟩
    · rcases hvalue with hmem | ⟨key', hkey', htakes⟩
      · rcases (mem_insert hmem).2 with hmem | ⟨rfl, htakes⟩
        · exact .inl hmem
        · exact .inr ⟨key, List.mem_cons_self, htakes⟩
      · exact .inr ⟨key', List.mem_cons_of_mem _ hkey', htakes⟩

/-- Whatever is written has a key afterwards. -/
theorem exists_mem_update (entries : Entries) (writes : Entries) :
    (∀ p ∈ entries, ∃ u, (p.1, u) ∈ update entries writes) ∧
      ∀ p ∈ writes, ∃ known u, (known, u) ∈ update entries writes ∧ known.Takes p.1 := by
  induction writes generalizing entries with
  | nil => exact ⟨fun p hp => ⟨p.2, hp⟩, nofun⟩
  | cons write rest ih =>
    obtain ⟨key, v⟩ := write
    obtain ⟨hkept, hwritten⟩ := ih (insert entries key v)
    obtain ⟨⟨known, hknown, htakes⟩, hold⟩ := exists_mem_insert entries key v
    refine ⟨fun p hp => ?_, List.forall_mem_cons.mpr ⟨?_, hwritten⟩⟩
    · obtain ⟨u, hu⟩ := hold p hp
      exact hkept (p.1, u) hu
    · obtain ⟨u, hu⟩ := hkept _ hknown
      exact ⟨known, u, hu, htakes⟩

end Entries

namespace Where

open Sql (Formula)
open World (pinEntries pinEntry pinItem pinItems)

/-! ## 2. What is pinned -/

/-- Entries pin the value of a column. -/
inductive Pins : Entries → Value → Value → Prop
  | plain {entries : Entries} {key v : Value} (hmem : (key, v) ∈ entries)
      (hrole : roleOf key = .column) (hv : v.isMapping = false) : Pins entries key v
  | operand {entries operators : Entries} {place : Place} {key v : Value}
      (hmem : (key, .mappingAt operators place) ∈ entries) (hrole : roleOf key = .column)
      (heq : Entries.get? operators (.str "eq") = some v) : Pins entries key v
  | conjunct {entries inner : Entries} {place : Place} {items : List Value}
      {word group key v : Value} (hmem : (word, group) ∈ entries)
      (hrole : roleOf word = .join .all) (hgroup : group.sequence? = some items)
      (hitem : .mappingAt inner place ∈ items) (h : Pins inner key v) : Pins entries key v

/-- One of some mappings pins the value of a column. -/
def ItemPins (items : List Value) (key v : Value) : Prop :=
  ∃ inner place, Value.mappingAt inner place ∈ items ∧ Pins inner key v

theorem not_pins_nil {key v : Value} : ¬Pins [] key v := by
  intro h
  cases h with
  | plain hmem => cases hmem
  | operand hmem => cases hmem
  | conjunct hmem => cases hmem

theorem pins_cons {key value column v : Value} {rest : Entries} :
    Pins ((key, value) :: rest) column v ↔ Pins [(key, value)] column v ∨ Pins rest column v := by
  constructor
  · intro h
    cases h with
    | plain hmem hrole hv =>
      rcases List.mem_cons.mp hmem with heq | hmem
      · exact .inl (.plain (List.mem_singleton.mpr heq) hrole hv)
      · exact .inr (.plain hmem hrole hv)
    | operand hmem hrole heq =>
      rcases List.mem_cons.mp hmem with hentry | hmem
      · exact .inl (.operand (List.mem_singleton.mpr hentry) hrole heq)
      · exact .inr (.operand hmem hrole heq)
    | conjunct hmem hrole hgroup hitem h =>
      rcases List.mem_cons.mp hmem with heq | hmem
      · exact .inl (.conjunct (List.mem_singleton.mpr heq) hrole hgroup hitem h)
      · exact .inr (.conjunct hmem hrole hgroup hitem h)
  · have hmono {entries : Entries} (hsub : entries ⊆ (key, value) :: rest)
        (h : Pins entries column v) : Pins ((key, value) :: rest) column v := by
      cases h with
      | plain hmem hrole hv => exact .plain (hsub hmem) hrole hv
      | operand hmem hrole heq => exact .operand (hsub hmem) hrole heq
      | conjunct hmem hrole hgroup hitem h => exact .conjunct (hsub hmem) hrole hgroup hitem h
    rintro (h | h)
    · exact hmono (by simp) h
    · exact hmono (by simp) h

/-- A function writes what a relation says. -/
def Writes (write : Entries → Entries) (pinned : Value → Value → Prop) : Prop :=
  ∃ writes : Entries, (∀ data, write data = Entries.update data writes) ∧
    ∀ key v, (key, v) ∈ writes ↔ pinned key v

theorem writes_nothing : Writes id fun _ _ => False := ⟨[], fun _ => rfl, by simp⟩

theorem writes_one (column v : Value) :
    Writes (fun data => Entries.insert data column v) fun key u => key = column ∧ u = v :=
  ⟨[(column, v)], fun _ => rfl, by simp⟩

theorem Writes.comp {first second : Entries → Entries} {pinned others : Value → Value → Prop}
    (h : Writes first pinned) (h' : Writes second others) :
    Writes (fun data => second (first data)) fun key v => pinned key v ∨ others key v := by
  obtain ⟨writes, hwrites, hmem⟩ := h
  obtain ⟨more, hmore, hmem'⟩ := h'
  refine ⟨writes ++ more, fun data => ?_, fun key v => ?_⟩
  · show second (first data) = _
    rw [hmore, hwrites, Entries.update, Entries.update, Entries.update, List.foldl_append]
  · rw [List.mem_append, hmem, hmem']

theorem Writes.congr {write write' : Entries → Entries} {pinned pinned' : Value → Value → Prop}
    (h : Writes write pinned) (hwrite : ∀ data, write' data = write data)
    (hpinned : ∀ key v, pinned' key v ↔ pinned key v) : Writes write' pinned' := by
  obtain ⟨writes, hwrites, hmem⟩ := h
  exact ⟨writes, fun data => (hwrite data).trans (hwrites data),
    fun key v => (hmem key v).trans (hpinned key v).symm⟩

/-! ### How each entry is read -/

section Reading

variable {v : Value} {items : List Value} (key : Value) (data : Entries)

theorem pinItem_of_not_isMapping (h : v.isMapping = false) : pinItem v data = data := by
  cases v <;> first
    | (simp [pinItem]; done)
    | cases h

theorem pinEntry_column (h : v.isMapping = false) :
    pinEntry .column key v data = Entries.insert data key v := by
  cases v <;> first
    | simp [pinEntry]
    | cases h

theorem pinEntry_operators (operators : Entries) (place : Place) :
    pinEntry .column key (.mappingAt operators place) data =
      (Entries.get? operators (.str "eq")).elim data (Entries.insert data key) := by
  cases h : Entries.get? operators (.str "eq") <;> simp [pinEntry, h]

theorem pinEntry_group (h : v.sequence? = some items) :
    pinEntry (.join .all) key v data = pinItems items data := by
  cases v <;> simp only [Value.sequence?, Option.some.injEq, reduceCtorEq] at h <;> subst h <;>
    simp [pinEntry]

/-- What stands under `or` and `not` pins nothing, nor does a group without items. -/
theorem pinEntry_nothing {role : Role} (hcolumn : role ≠ .column)
    (hgroup : role = .join .all → v.sequence? = none) : pinEntry role key v data = data := by
  cases role with
  | column => exact absurd rfl hcolumn
  | negation => cases v <;> simp [pinEntry]
  | join logic =>
    cases logic with
    | any => cases v <;> simp [pinEntry]
    | all =>
      have hnone := hgroup rfl
      cases v <;> simp_all [pinEntry, Value.sequence?]

end Reading

/-- The mappings of a group write what they pin. -/
theorem writes_pinItems {items : List Value}
    (h : ∀ inner place, Value.mappingAt inner place ∈ items →
      Writes (pinEntries inner) (Pins inner)) :
    Writes (pinItems items) (ItemPins items) := by
  induction items with
  | nil =>
    refine writes_nothing.congr
      (fun data => by rw [pinItems, id]) fun key v => ?_
    simp [ItemPins]
  | cons item rest ih =>
    have hrest := ih fun inner place hmem => h inner place (List.mem_cons_of_mem _ hmem)
    have hitem : Writes (pinItem item) (ItemPins [item]) := by
      cases hmapping : item.isMapping with
      | true =>
        cases item with
        | mappingAt inner place =>
          refine (h inner place List.mem_cons_self).congr (fun data => by rw [pinItem])
            fun key v => ?_
          simp [ItemPins]
        | _ => cases hmapping
      | false =>
        refine writes_nothing.congr
          (fun data => pinItem_of_not_isMapping data hmapping) fun key v => iff_false_intro ?_
        rintro ⟨inner, place, hmem, -⟩
        cases List.mem_singleton.mp hmem
        cases hmapping
    refine (hitem.comp hrest).congr (fun data => by rw [pinItems]) fun key v => ?_
    simp only [ItemPins, List.mem_cons, List.not_mem_nil, or_false, ← exists_or, or_and_right]

/-- What the only entry of a mapping pins, by the role of its key. -/
theorem pins_singleton {key value column v : Value} : Pins [(key, value)] column v ↔
    (roleOf key = .column ∧ column = key ∧ (value.isMapping = false ∧ v = value ∨
      ∃ operators place, value = .mappingAt operators place ∧
        Entries.get? operators (.str "eq") = some v)) ∨
    (roleOf key = .join .all ∧
      ∃ items, value.sequence? = some items ∧ ItemPins items column v) := by
  constructor
  · intro h
    cases h with
    | plain hmem hrole hv =>
      cases List.mem_singleton.mp hmem
      exact .inl ⟨hrole, rfl, .inl ⟨hv, rfl⟩⟩
    | operand hmem hrole heq =>
      cases List.mem_singleton.mp hmem
      exact .inl ⟨hrole, rfl, .inr ⟨_, _, rfl, heq⟩⟩
    | conjunct hmem hrole hgroup hitem h =>
      cases List.mem_singleton.mp hmem
      exact .inr ⟨hrole, _, hgroup, _, _, hitem, h⟩
  · rintro (⟨hrole, rfl, ⟨hv, rfl⟩ | ⟨operators, place, rfl, heq⟩⟩ |
      ⟨hrole, items, hgroup, inner, place, hitem, h⟩)
    · exact .plain (List.mem_singleton_self _) hrole hv
    · exact .operand (List.mem_singleton_self _) hrole heq
    · exact .conjunct (List.mem_singleton_self _) hrole hgroup hitem h

/-- What is neither a column nor a group writes nothing. -/
theorem writes_pinNothing {key value : Value} (hcolumn : roleOf key ≠ .column)
    (hgroup : roleOf key = .join .all → value.sequence? = none) :
    Writes (pinEntry (roleOf key) key value) (Pins [(key, value)]) := by
  refine writes_nothing.congr
    (fun data => pinEntry_nothing key data hcolumn hgroup) fun column v => iff_false_intro ?_
  rw [pins_singleton]
  rintro (⟨hrole, -⟩ | ⟨hrole, items, hitems, -⟩)
  · exact hcolumn hrole
  · cases (hgroup hrole).symm.trans hitems

/-- A value for a column is written for it. -/
theorem writes_pinColumn {key value : Value} (hcolumn : roleOf key = .column)
    (hmapping : value.isMapping = false) :
    Writes (pinEntry (roleOf key) key value) (Pins [(key, value)]) := by
  refine (writes_one key value).congr
    (fun data => by rw [hcolumn, pinEntry_column key data hmapping]) fun column v => ?_
  rw [pins_singleton, hcolumn]
  constructor
  · rintro (⟨-, rfl, ⟨-, rfl⟩ | ⟨operators, place, rfl, -⟩⟩ | ⟨hrole, -⟩)
    · exact ⟨rfl, rfl⟩
    · cases hmapping
    · cases hrole
  · rintro ⟨rfl, rfl⟩
    exact .inl ⟨rfl, rfl, .inl ⟨hmapping, rfl⟩⟩

/-- Of operators for a column only the operand of an equality is written. -/
theorem writes_pinOperators {key : Value} {operators : Entries} {place : Place}
    (hcolumn : roleOf key = .column) :
    Writes (pinEntry (roleOf key) key (.mappingAt operators place))
      (Pins [(key, .mappingAt operators place)]) := by
  have hpins (column v : Value) : Pins [(key, .mappingAt operators place)] column v ↔
      column = key ∧ Entries.get? operators (.str "eq") = some v := by
    rw [pins_singleton, hcolumn]
    constructor
    · rintro (⟨-, rfl, ⟨hnot, -⟩ | ⟨_, _, heq, hoperand⟩⟩ | ⟨hrole, -⟩)
      · cases hnot
      · cases heq
        exact ⟨rfl, hoperand⟩
      · cases hrole
    · rintro ⟨rfl, hoperand⟩
      exact .inl ⟨rfl, rfl, .inr ⟨operators, place, rfl, hoperand⟩⟩
  cases hoperand : Entries.get? operators (.str "eq") with
  | none =>
    refine writes_nothing.congr
      (fun data => by rw [hcolumn, pinEntry_operators, hoperand]; rfl) fun column v => ?_
    simp [hpins, hoperand]
  | some operand =>
    refine (writes_one key operand).congr
      (fun data => by rw [hcolumn, pinEntry_operators, hoperand]; rfl) fun column v => ?_
    simp [hpins, hoperand, eq_comm]

/-- One entry writes what it pins. -/
theorem writes_pinEntry {key value : Value} (h : ∀ items, value.sequence? = some items →
      Writes (pinItems items) (ItemPins items)) :
    Writes (pinEntry (roleOf key) key value) (Pins [(key, value)]) := by
  by_cases hcolumn : roleOf key = .column
  · cases hmapping : value.isMapping with
    | false => exact writes_pinColumn hcolumn hmapping
    | true =>
      obtain ⟨operators, place, rfl⟩ : ∃ operators place, value = .mappingAt operators place := by
        cases value <;> first
          | exact ⟨_, _, rfl⟩
          | cases hmapping
      exact writes_pinOperators hcolumn
  · cases hgroup : value.sequence? with
    | none => exact writes_pinNothing hcolumn fun _ => hgroup
    | some items =>
      by_cases hall : roleOf key = .join .all
      · refine (h items hgroup).congr (fun data => by rw [hall, pinEntry_group key data hgroup])
          fun column v => ?_
        simp [pins_singleton, hall, hgroup]
      · exact writes_pinNothing hcolumn fun hrole => absurd hrole hall

/-- **Reading a filter for values writes what it pins**, one after another. -/
theorem writes_pinEntries (entries : Entries) : Writes (pinEntries entries) (Pins entries) := by
  induction entries using entries_induction with
  | nil =>
    refine writes_nothing.congr
      (fun data => by rw [pinEntries, id]) fun key v => iff_false_intro not_pins_nil
  | cons key value rest ihMapping ihItems ihRest =>
    have hentry : Writes (pinEntry (roleOf key) key value) (Pins [(key, value)]) :=
      writes_pinEntry fun items hitems => writes_pinItems (ihItems items hitems)
    exact (hentry.comp ihRest).congr (fun data => by rw [pinEntries]) fun _ _ => pins_cons

/-! ## 3. What is pinned holds -/

/-- A conjunction is true if everything in it is. -/
theorem eval_all_eq_yes {db : Sql.Comparing} {row : Sql.RowValues} {fs : List Formula} :
    Formula.eval db row (.join .all fs) = .yes ↔ ∀ f ∈ fs, Formula.eval db row f = .yes := by
  rw [Formula.eval_join]
  induction fs with
  | nil => simp [Sql.Truth.joined, Sql.Truth.ofNone]
  | cons f rest ih =>
    rw [List.map_cons, Sql.Truth.joined_cons, List.forall_mem_cons, ← ih]
    cases Formula.eval db row f <;> cases Sql.Truth.joined .all (rest.map (Formula.eval db row)) <;>
      simp [Sql.Truth.join]

/-- A row has a value in a column: the column is null for null, and equals any other value. -/
def HasValue (db : Sql.Comparing) (row : Sql.RowValues) (column : String) (v : Value) : Prop :=
  if v.isNull then (row column).isNull = true else Sql.compared db row column .eq v = .yes

/-- The formula of a value that is pinned. -/
def valueFormula (column : String) (v : Value) : Formula :=
  if v.isNull then .nullness column false else .compare column .eq v

theorem eval_valueFormula {db : Sql.Comparing} {row : Sql.RowValues} {column : String} {v : Value} :
    Formula.eval db row (valueFormula column v) = .yes ↔ HasValue db row column v := by
  unfold valueFormula HasValue
  split
  · rw [Formula.eval]
    cases (row column).isNull <;> simp [Sql.Truth.notIf, Sql.Truth.ofBool]
  · rw [Formula.eval]

theorem columnFormulas_of_not_isMapping {column : String} {v : Value} (h : v.isMapping = false) :
    columnFormulas column v = [valueFormula column v] := by
  cases v <;> first
    | rfl
    | cases h

theorem valueFormula_mem_operatorFormulas {operators : Entries} {column : String} {v : Value}
    (h : Entries.get? operators (.str "eq") = some v) :
    valueFormula column v ∈ operatorFormulas column operators := by
  unfold Entries.get? at h
  induction operators with
  | nil => cases h
  | cons entry rest ih =>
    obtain ⟨word, operand⟩ := entry
    rw [operatorFormulas, List.mem_append]
    rw [List.find?_cons] at h
    split at h
    · next hword =>
      cases h
      rw [Value.sameKey_str, beq_iff_eq] at hword
      refine .inl ?_
      have hop : Operator.ofWord? "eq" = some (.compare .eq) := rfl
      rw [hword, Option.bind_some, hop]
      have hformula : operatorFormula? column (.compare .eq) operand =
          some (valueFormula column operand) := by
        cases operand <;> rfl
      simp [hformula]
    · exact .inr (ih h)

theorem roleFormulas_subset {entries : Entries} {key value : Value} (h : (key, value) ∈ entries) :
    roleFormulas (roleOf key) key value ⊆ entryFormulas entries := by
  induction entries with
  | nil => cases h
  | cons entry rest ih =>
    obtain ⟨known, old⟩ := entry
    rw [entryFormulas]
    rcases List.mem_cons.mp h with heq | hrest
    · cases heq
      exact List.subset_append_left _ _
    · exact List.subset_append_of_subset_right _ (ih hrest)

theorem join_mem_itemFormulas {items : List Value} {inner : Entries} {place : Place}
    (h : Value.mappingAt inner place ∈ items) :
    Formula.join .all (entryFormulas inner) ∈ itemFormulas items := by
  induction items with
  | nil => cases h
  | cons item rest ih =>
    rcases List.mem_cons.mp h with rfl | hrest
    · rw [itemFormulas]
      exact List.mem_cons_self
    · have hsub : itemFormulas rest ⊆ itemFormulas (item :: rest) := by
        cases item <;> simp [itemFormulas]
      exact hsub (ih hrest)

/-- A value that is pinned holds of a row of which all entries hold. -/
theorem Pins.holds {db : Sql.Comparing} {row : Sql.RowValues} {entries : Entries} {key v : Value}
    (h : Pins entries key v) (hrow : ∀ f ∈ entryFormulas entries, f.eval db row = .yes) :
    HasValue db row (Sql.nameText key) v := by
  induction h with
  | plain hmem hrole hv =>
    have hsub := roleFormulas_subset hmem
    rw [hrole, roleFormulas_column, columnFormulas_of_not_isMapping hv] at hsub
    exact eval_valueFormula.mp (hrow _ (hsub (List.mem_singleton_self _)))
  | operand hmem hrole heq =>
    have hsub := roleFormulas_subset hmem
    rw [hrole, roleFormulas_column, columnFormulas] at hsub
    exact eval_valueFormula.mp (hrow _ (hsub (valueFormula_mem_operatorFormulas heq)))
  | @conjunct entries inner place items word group key v hmem hrole hgroup hitem _ ih =>
    have hsub := roleFormulas_subset hmem
    have hgroup : roleFormulas (.join .all) word group = [.join .all (itemFormulas items)] := by
      cases group <;> cases hgroup <;> rfl
    rw [hrole, hgroup] at hsub
    have hall := eval_all_eq_yes.mp (hrow _ (hsub (List.mem_singleton_self _)))
    exact ih (eval_all_eq_yes.mp (hall _ (join_mem_itemFormulas hitem)))

/-! ## 4. The names of keys -/

/-- The values that can be the name of a column. -/
inductive NamesColumn : Value → Prop
  | text (s : String) (place : Place) : NamesColumn (.strAt s place)
  | true : NamesColumn (.bool true)
  | nan (place : Place) : NamesColumn (.floatAt .nan place)
  | infinity (place : Place) : NamesColumn (.floatAt (.infinity false) place)

/-- Characters that start as a number does: with a digit or a minus sign. -/
def StartsAsNumber (cs : List Char) : Prop :=
  ∃ c rest, cs = c :: rest ∧ (c.isDigit = true ∨ c = '-')

theorem StartsAsNumber.not_isSafeName {cs : List Char} (h : StartsAsNumber cs) :
    Sql.isSafeName cs = false := by
  obtain ⟨c, rest, rfl, hc⟩ := h
  have hstart : Sql.isWordStart c = false := by
    rcases hc with hc | rfl
    · have hne : (c == '_') = false := by
        rw [beq_eq_false_iff_ne]
        rintro rfl
        exact absurd hc (by decide)
      simp only [Char.isDigit, Bool.and_eq_true, decide_eq_true_eq, ge_iff_le,
        UInt32.le_iff_toNat_le] at hc
      have hhigh : c.toNat ≤ 57 := hc.2
      delta Sql.isWordStart Char.isAlpha Char.isUpper Char.isLower
      simp [UInt32.le_iff_toNat_le, hne]
      omega
    · decide
  rw [Sql.isSafeName, hstart, Bool.false_and]

theorem StartsAsNumber.append {cs : List Char} (h : StartsAsNumber cs) (more : List Char) :
    StartsAsNumber (cs ++ more) := by
  obtain ⟨c, rest, rfl, hc⟩ := h
  exact ⟨c, rest ++ more, rfl, hc⟩

theorem startsAsNumber_digits (n : Nat) : StartsAsNumber (Nat.toDigits 10 n) := by
  cases h : Nat.toDigits 10 n with
  | nil => exact absurd h Nat.toDigits_ne_nil
  | cons c rest =>
    have hdigit := Nat.isDigit_of_mem_toDigits (n := n) (c := c) (b := 10) (by decide) (by decide)
    exact ⟨c, rest, rfl, .inl (hdigit (h ▸ List.mem_cons_self))⟩

theorem startsAsNumber_int (n : Int) : StartsAsNumber (toString n).toList := by
  have hnat (m : Nat) : StartsAsNumber (Nat.repr m).toList := by
    rw [Nat.repr, String.toList_ofList]
    exact startsAsNumber_digits m
  rw [Int.toString_eq_repr, Int.repr_eq_if]
  split
  · exact hnat _
  · rw [String.toList_append]
    exact ⟨'-', _, rfl, .inr rfl⟩

theorem startsAsNumber_positional {digits : List Char} (h : StartsAsNumber digits) (point : Int) :
    StartsAsNumber (Binary64.positional digits point) := by
  unfold Binary64.positional
  split
  · exact ⟨'0', _, rfl, .inl rfl⟩
  split
  · rw [List.append_assoc]
    exact h.append _
  · obtain ⟨c, rest, rfl, hc⟩ := h
    obtain ⟨k, hk⟩ : ∃ k, point.toNat = k + 1 := ⟨point.toNat - 1, by omega⟩
    rw [hk, List.take_succ_cons]
    exact ⟨c, _, rfl, hc⟩

theorem startsAsNumber_scientific {digits : List Char} (h : StartsAsNumber digits) (point : Int) :
    StartsAsNumber (Binary64.scientific digits point) := by
  obtain ⟨c, rest, rfl, hc⟩ := h
  cases rest <;> exact ⟨c, _, rfl, hc⟩

theorem startsAsNumber_finite (negative : Bool) (m : Nat) (e : Int) :
    StartsAsNumber (Binary64.finite negative m e).text.toList := by
  have hmagnitude : StartsAsNumber (Binary64.magnitudeText m e).toList := by
    unfold Binary64.magnitudeText
    split
    · exact ⟨'0', ['.', '0'], by decide, .inl rfl⟩
    · dsimp only
      rw [String.toList_ofList]
      split
      · exact startsAsNumber_positional (startsAsNumber_digits _) _
      · exact startsAsNumber_scientific (startsAsNumber_digits _) _
  rw [Binary64.text, String.toList_append]
  cases negative with
  | false => exact hmagnitude
  | true => exact ⟨'-', _, rfl, .inr rfl⟩

theorem namesColumn_of_safeName {key : Value} {column : String}
    (h : Sql.safeName key = .ok column) : NamesColumn key := by
  obtain ⟨htruthy, hsafe, -⟩ := safeName_eq_ok.mp h
  have hnumber (hstarts : StartsAsNumber (Sql.nameText key).toList) : NamesColumn key :=
    absurd (hsafe.symm.trans hstarts.not_isSafeName) (by decide)
  cases key with
  | strAt s place => exact .text s place
  | bool b =>
    cases b with
    | false => cases htruthy
    | true => exact .true
  | intAt n place => exact hnumber (startsAsNumber_int n)
  | floatAt x place =>
    cases x with
    | nan => exact .nan place
    | infinity negative =>
      cases negative with
      | false => exact .infinity place
      | true => exact hnumber ⟨'-', ['i', 'n', 'f'], by rw [Sql.nameText]; decide, .inr rfl⟩
    | finite negative m e => exact hnumber (startsAsNumber_finite negative m e)
  | _ => cases hsafe

/-- Keys that can be names of columns are equal only under one name. -/
theorem nameText_eq_of_sameKey {a b : Value} (ha : NamesColumn a) (hb : NamesColumn b)
    (h : a.sameKey b = true) : a.sharePlace b = true ∨ Sql.nameText a = Sql.nameText b := by
  cases ha <;> cases hb <;>
    simp [Value.sameKey, Value.asInt?, Binary64.toInt?, Binary64.isIntegral, Binary64.equals,
      Binary64.isZero, Sql.nameText] at h ⊢
  all_goals first
    | exact h
    | exact .inl h

theorem entryConditions_of_mem {entries : Entries} {key value : Value} {cs : List Condition}
    (hmem : (key, value) ∈ entries) (h : conditions entries = .ok cs) :
    ∃ first, entryConditions (roleOf key) key value = .ok first := by
  induction entries generalizing cs with
  | nil => cases hmem
  | cons entry rest ih =>
    obtain ⟨known, old⟩ := entry
    obtain ⟨first, others, hfirst, hothers, -⟩ := conditions_cons.mp h
    rcases List.mem_cons.mp hmem with heq | hrest
    · cases heq
      exact ⟨first, hfirst⟩
    · exact ih hrest hothers

theorem conditions_of_mem {logic : Logic} {items : List Value} {inner : Entries} {place : Place}
    {parts : List (List Condition)} (hmem : Value.mappingAt inner place ∈ items)
    (h : groupConditions logic items = .ok parts) : ∃ cs, conditions inner = .ok cs := by
  induction items generalizing parts with
  | nil => cases hmem
  | cons item rest ih =>
    obtain ⟨first, others, hfirst, hothers, -⟩ := groupConditions_cons.mp h
    rcases List.mem_cons.mp hmem with rfl | hrest
    · obtain ⟨_, _, heq, -, hinner⟩ := itemConditions_eq_ok.mp hfirst
      cases heq
      exact ⟨first, hinner⟩
    · exact ih hrest hothers

/-- What an accepted filter pins is the value of a column that can be named. -/
theorem Pins.namesColumn {entries : Entries} {key v : Value} {cs : List Condition}
    (h : Pins entries key v) (hcs : conditions entries = .ok cs) : NamesColumn key := by
  have hcolumn {entries : Entries} {key value : Value} {cs : List Condition}
      (hmem : (key, value) ∈ entries) (hrole : roleOf key = .column)
      (hcs : conditions entries = .ok cs) : NamesColumn key := by
    obtain ⟨first, hfirst⟩ := entryConditions_of_mem hmem hcs
    rw [hrole, entryConditions_column] at hfirst
    obtain ⟨column, hname, -⟩ := columnConditions_eq_ok.mp hfirst
    exact namesColumn_of_safeName hname
  induction h generalizing cs with
  | plain hmem hrole => exact hcolumn hmem hrole hcs
  | operand hmem hrole => exact hcolumn hmem hrole hcs
  | conjunct hmem hrole hgroup hitem _ ih =>
    obtain ⟨first, hfirst⟩ := entryConditions_of_mem hmem hcs
    rw [hrole] at hfirst
    obtain ⟨items, parts, hitems, -, hparts, -⟩ := entryConditions_join.mp hfirst
    cases hgroup.symm.trans hitems
    obtain ⟨inner, hinner⟩ := conditions_of_mem hitem hparts
    exact ih hinner

/-! ## 5. The values that are read off a filter -/

/-- Keys of a filter that lie in one place are the very same. -/
def OneKeyAPlace (entries : Entries) : Prop :=
  ∀ a b u v, Pins entries a u → Pins entries b v → a.sharePlace b = true → a = b

/-- Among the columns that a filter pins, what is written under one is put under its name. -/
theorem nameText_eq_of_takes {entries : Entries} {cs : List Condition} {known key u v : Value}
    (hcs : conditions entries = .ok cs) (hplaces : OneKeyAPlace entries)
    (hknown : Pins entries known u) (hkey : Pins entries key v) (h : known.Takes key) :
    Sql.nameText known = Sql.nameText key := by
  rcases h with rfl | h
  · rfl
  · rcases nameText_eq_of_sameKey (hknown.namesColumn hcs) (hkey.namesColumn hcs) h with
      hplace | heq
    · rw [hplaces _ _ _ _ hknown hkey hplace]
    · exact heq

/-- **The values that are read off a filter are those that it pins, and they hold.**  Whatever a
compiled filter is true of has every value that is read off the filter in its column.  Each of them
is pinned under the name of that column, so none comes from below `or` or `not`; and every column
that is pinned has a value among them. -/
theorem pinned_values_hold (entries : Entries) (place : Place) (fragment : Sql.Fragment)
    (h : compile (.mappingAt entries place) = .ok fragment) (hplaces : OneKeyAPlace entries) :
    (∃ f, fragment.read? = some f ∧ ∀ db row, Formula.eval db row f = .yes →
      ∀ key v, (key, v) ∈ pinEntries entries [] → HasValue db row (Sql.nameText key) v) ∧
    (∀ key v, (key, v) ∈ pinEntries entries [] →
      ∃ source, Pins entries source v ∧ Sql.nameText source = Sql.nameText key) ∧
    (∀ key v, Pins entries key v →
      ∃ known u, (known, u) ∈ pinEntries entries [] ∧ Sql.nameText known = Sql.nameText key) := by
  obtain ⟨cs, hcs, rfl⟩ := compile_mapping.mp h
  obtain ⟨writes, hwrites, hpins⟩ := writes_pinEntries entries
  rw [hwrites]
  have hsource : ∀ key v, (key, v) ∈ Entries.update [] writes →
      ∃ source, Pins entries source v ∧ Sql.nameText source = Sql.nameText key := by
    intro key v hmem
    obtain ⟨⟨u, hkey⟩, hvalue⟩ := Entries.mem_update hmem
    obtain ⟨source, hsource, htakes⟩ := hvalue.resolve_left nofun
    have hpinned := (hpins source v).mp hsource
    exact ⟨source, hpinned,
      (nameText_eq_of_takes hcs hplaces ((hpins key u).mp hkey) hpinned htakes).symm⟩
  refine ⟨⟨_, read?_of_conditions hcs, fun db row hrow key v hmem => ?_⟩, hsource, ?_⟩
  · obtain ⟨source, hpinned, hname⟩ := hsource key v hmem
    rw [← hname]
    exact hpinned.holds (eval_all_eq_yes.mp hrow)
  · intro key v hpinned
    obtain ⟨known, u, hmem, htakes⟩ :=
      (Entries.exists_mem_update [] writes).2 _ ((hpins key v).mpr hpinned)
    obtain ⟨⟨u', hkey⟩, -⟩ := Entries.mem_update hmem
    exact ⟨known, u, hmem,
      nameText_eq_of_takes hcs hplaces ((hpins known u').mp hkey) hpinned htakes⟩

/-- The keys of a filter of which nothing comes from a shelf lie in no place. -/
theorem Pins.unplaced {entries : Entries} {key v : Value} (h : Pins entries key v)
    (hplain : (Value.mapping entries).IsPlain) : key.place = none := by
  induction h with
  | plain hmem => cases hplain with
    | mapping hkeys => exact (hkeys _ hmem).place_eq
  | operand hmem => cases hplain with
    | mapping hkeys => exact (hkeys _ hmem).place_eq
  | @conjunct entries inner place items word group key v hmem _ hgroup hitem _ ih =>
    cases hplain with
    | mapping _ hvalues =>
      have hinner : (Value.mappingAt inner place).IsPlain := by
        cases hvalues _ hmem with
        | list hitems =>
          cases hgroup
          exact hitems _ hitem
        | tuple hitems =>
          cases hgroup
          exact hitems _ hitem
        | _ => cases hgroup
      obtain rfl : place = none := hinner.place_eq
      exact ih hinner

theorem oneKeyAPlace_of_plain {entries : Entries} (h : (Value.mapping entries).IsPlain) :
    OneKeyAPlace entries := by
  intro a b u v ha _ hplace
  rw [Value.sharePlace, ha.unplaced h] at hplace
  cases hplace

/-- A name, an age in a group, and two towns of which one has to be the right one. -/
def namedAndAged : Entries := [
  (.str "name", .str "Ann"),
  (.str "and", .list [.mapping [(.str "age", .mapping [(.str "eq", .int 3)])]]),
  (.str "or", .list [.mapping [(.str "town", .str "Rome")], .mapping [(.str "town", .null)]])]

theorem namedAndAged_plain : (Value.mapping namedAndAged).IsPlain := by
  have htown (v : Value) (hv : v.IsPlain) : (Value.mapping [(.str "town", v)]).IsPlain :=
    .mapping (by simpa using .str "town") (by simpa using hv)
  have hage : (Value.mapping [(.str "age", .mapping [(.str "eq", .int 3)])]).IsPlain :=
    .mapping (by simpa using .str "age")
      (by simpa using .mapping (by simpa using .str "eq") (by simpa using .int 3))
  refine .mapping ?_ ?_
  · simpa [namedAndAged] using ⟨.str "name", .str "and", .str "or"⟩
  · simpa [namedAndAged] using ⟨.str "Ann", .list (by simpa using hage),
      .list (by simpa using ⟨htown _ (.str "Rome"), htown _ .null⟩)⟩

theorem pinEntries_namedAndAged :
    pinEntries namedAndAged [] = [(.str "name", .str "Ann"), (.str "age", .int 3)] := by
  simp [namedAndAged, pinEntries, pinEntry, pinItems, pinItem, roleOf, Entries.get?, Entries.insert,
    Value.sameKey, Value.sharePlace, Value.place]

/-- Whoever is found by a name and an age has that name and that age. -/
theorem namedAndAged_hold : OneKeyAPlace namedAndAged ∧ ∃ fragment,
    compile (.mapping namedAndAged) = .ok fragment ∧ ∃ f, fragment.read? = some f ∧
      ∀ db row, Formula.eval db row f = .yes →
        HasValue db row "name" (.str "Ann") ∧ HasValue db row "age" (.int 3) := by
  have hplaces := oneKeyAPlace_of_plain namedAndAged_plain
  obtain ⟨⟨f, hread, hholds⟩, -, -⟩ := pinned_values_hold namedAndAged none _ rfl hplaces
  refine ⟨hplaces, _, rfl, f, hread, fun db row hrow => ?_⟩
  have hvalues := hholds db row hrow
  rw [pinEntries_namedAndAged] at hvalues
  exact ⟨hvalues (.str "name") (.str "Ann") (by simp), hvalues (.str "age") (.int 3) (by simp)⟩

end Where
end RowMapper
