import RowMapper.Proofs.Sql.Store
import RowMapper.Proofs.Where.Binding
import RowMapper.Proofs.Where.Pinning

/-!
# Filters of equalities

A filter that asks for nothing but equalities can be turned around: it is true of a row that has a
pinned value in every pinned column (`Equalities.holds`).  A column may be pinned more than once,
and only one of the values can be put into the row.  That is enough if any row at all has all of
them, as long as the equality of the database is transitive (`HasValue.transfer`).
-/
namespace RowMapper

/-- What equals two values in a column lets them equal each other: the first of them, kept in the
column, equals the second. -/
def Sql.Comparing.Transitive (db : Sql.Comparing) : Prop :=
  ∀ column kept a b, db column .eq kept a = true → db column .eq kept b = true →
    db column .eq a.unplaced b = true

theorem Value.isNull_unplaced (v : Value) : v.unplaced.isNull = v.isNull := by
  cases v <;> rfl

namespace Where

open Sql (Comparing Formula RowValues)

variable {db : Comparing} {row made : RowValues} {entries : Entries}

/-! ## 1. Rows with values -/

theorem HasValue.isNull_eq {column : String} {v : Value} (h : HasValue db row column v) :
    (row column).isNull = v.isNull := by
  unfold HasValue at h
  split at h
  · next hv => rw [h, hv]
  · next hv =>
    unfold Sql.compared at h
    split at h
    · cases h
    · next hnull =>
      rw [Bool.not_eq_true, Bool.or_eq_false_iff] at hnull
      rw [hnull.1, hnull.2]

theorem hasValue_of_not_null {column : String} {v : Value} (hv : v.isNull = false) :
    HasValue db row column v ↔
      (row column).isNull = false ∧ db column .eq (row column) v = true := by
  unfold HasValue Sql.compared
  rw [hv]
  cases (row column).isNull <;> cases db column .eq (row column) v <;> simp [Sql.Truth.ofBool]

/-- If a row has two values in a column, then a row in which the first is kept has the second. -/
theorem HasValue.transfer {column : String} {u v : Value} (hdb : db.Transitive)
    (hu : HasValue db row column u) (hv : HasValue db row column v)
    (hmade : made column = u.unplaced) : HasValue db made column v := by
  have hnull : u.isNull = v.isNull := hu.isNull_eq.symm.trans hv.isNull_eq
  cases hcase : v.isNull with
  | true =>
    unfold HasValue
    rw [if_pos hcase, hmade, u.isNull_unplaced, hnull, hcase]
  | false =>
    rw [hcase] at hnull
    rw [hasValue_of_not_null hcase, hmade, u.isNull_unplaced]
    exact ⟨hnull, hdb column (row column) u v ((hasValue_of_not_null hnull).mp hu).2
      ((hasValue_of_not_null hcase).mp hv).2⟩

/-! ## 2. Equalities -/

/-- Entries that ask for equalities and for nothing else: plain values, operands of `eq`, and groups
of such entries. -/
inductive Equalities : Entries → Prop
  | nil : Equalities []
  | plain {rest : Entries} {key v : Value} (hrole : roleOf key = .column) (hv : v.isMapping = false)
      (hrest : Equalities rest) : Equalities ((key, v) :: rest)
  | operand {rest : Entries} {key word v : Value} {place : Place} (hrole : roleOf key = .column)
      (hword : word.text? = some "eq") (hrest : Equalities rest) :
      Equalities ((key, .mappingAt [(word, v)] place) :: rest)
  | group {rest : Entries} {word value : Value} {items : List Value}
      (hrole : roleOf word = .join .all) (hgroup : value.sequence? = some items)
      (hitems : ∀ inner place, Value.mappingAt inner place ∈ items → Equalities inner)
      (hrest : Equalities rest) : Equalities ((word, value) :: rest)

theorem get?_eq {word v : Value} (h : word.text? = some "eq") :
    Entries.get? [(word, v)] (.str "eq") = some v := by
  simp [Entries.get?, Value.sameKey_str, h]

theorem operatorFormulas_eq_operand {column : String} {word v : Value}
    (h : word.text? = some "eq") :
    operatorFormulas column [(word, v)] = [valueFormula column v] := by
  have hop : Operator.ofWord? "eq" = some (.compare .eq) := rfl
  have hformula : operatorFormula? column (.compare .eq) v = some (valueFormula column v) := by
    cases v <;> rfl
  simp [operatorFormulas, h, hop, hformula]

theorem roleFormulas_group {word value : Value} {items : List Value}
    (h : value.sequence? = some items) :
    roleFormulas (.join .all) word value = [.join .all (itemFormulas items)] := by
  cases value <;> cases h <;> rfl

theorem mem_itemFormulas {items : List Value} {f : Formula} (h : f ∈ itemFormulas items) :
    ∃ inner place, Value.mappingAt inner place ∈ items ∧ f = .join .all (entryFormulas inner) := by
  induction items with
  | nil => cases h
  | cons item rest ih =>
    have hlater (h : f ∈ itemFormulas rest) : ∃ inner place,
        Value.mappingAt inner place ∈ item :: rest ∧ f = .join .all (entryFormulas inner) := by
      obtain ⟨inner, place, hmem, hf⟩ := ih h
      exact ⟨inner, place, List.mem_cons_of_mem _ hmem, hf⟩
    cases item with
    | mappingAt inner place =>
      rw [itemFormulas] at h
      rcases List.mem_cons.mp h with rfl | h
      · exact ⟨inner, place, List.mem_cons_self, rfl⟩
      · exact hlater h
    | _ => exact hlater (by simpa [itemFormulas] using h)

/-- **Equalities hold of a row that has the pinned values.** -/
theorem Equalities.holds (h : Equalities entries)
    (hrow : ∀ key v, Pins entries key v → HasValue db row (Sql.nameText key) v) :
    ∀ f ∈ entryFormulas entries, f.eval db row = .yes := by
  have hlater {key value : Value} {rest : Entries} (hrow : ∀ column v,
      Pins ((key, value) :: rest) column v → HasValue db row (Sql.nameText column) v) (column v) :
      Pins rest column v → HasValue db row (Sql.nameText column) v :=
    fun hpins => hrow column v (pins_cons.mpr (.inr hpins))
  induction h with
  | nil => exact List.forall_mem_nil _
  | @plain rest key v hrole hv _ ih =>
    rw [entryFormulas, hrole, roleFormulas_column, columnFormulas_of_not_isMapping hv]
    exact List.forall_mem_cons.mpr
      ⟨eval_valueFormula.mpr (hrow key v (.plain List.mem_cons_self hrole hv)), ih (hlater hrow)⟩
  | @operand rest key word v place hrole hword _ ih =>
    rw [entryFormulas, hrole, roleFormulas_column, columnFormulas,
      operatorFormulas_eq_operand hword]
    exact List.forall_mem_cons.mpr
      ⟨eval_valueFormula.mpr (hrow key v (.operand List.mem_cons_self hrole (get?_eq hword))),
        ih (hlater hrow)⟩
  | @group rest word value items hrole hgroup _ _ ihItems ih =>
    rw [entryFormulas, hrole, roleFormulas_group hgroup]
    refine List.forall_mem_cons.mpr ⟨eval_all_eq_yes.mpr fun f hf => ?_, ih (hlater hrow)⟩
    obtain ⟨inner, place, hitem, rfl⟩ := mem_itemFormulas hf
    exact eval_all_eq_yes.mpr <| ihItems inner place hitem fun column v hpins =>
      hrow column v (.conjunct List.mem_cons_self hrole hgroup hitem hpins)

/-! ## 3. Equalities and their values -/

theorem eq_of_mem_columnLeaves {x v : Value} (hv : v.isMapping = false) (h : x ∈ columnLeaves v) :
    x = v := by
  cases v with
  | mappingAt => cases hv
  | null => cases h
  | _ => exact List.mem_singleton.mp h

theorem eq_of_mem_operandLeaf {x word v : Value} {place : Place} (hword : word.text? = some "eq")
    (h : x ∈ columnLeaves (.mappingAt [(word, v)] place)) : x = v := by
  have hop : Operator.ofWord? "eq" = some (.compare .eq) := rfl
  rw [columnLeaves, operatorLeaves, hword, Option.bind_some, hop] at h
  cases v with
  | null => simp [operandLeaves, operatorLeaves] at h
  | _ => simpa [operandLeaves, operatorLeaves] using h

theorem mem_itemLeaves {items : List Value} {x : Value} (h : x ∈ itemLeaves items) :
    ∃ inner place, Value.mappingAt inner place ∈ items ∧ x ∈ entryLeaves inner := by
  induction items with
  | nil => cases h
  | cons item rest ih =>
    have hlater (h : x ∈ itemLeaves rest) : ∃ inner place,
        Value.mappingAt inner place ∈ item :: rest ∧ x ∈ entryLeaves inner := by
      obtain ⟨inner, place, hmem, hx⟩ := ih h
      exact ⟨inner, place, List.mem_cons_of_mem _ hmem, hx⟩
    cases item with
    | mappingAt inner place =>
      rw [itemLeaves] at h
      rcases List.mem_append.mp h with h | h
      · exact ⟨inner, place, List.mem_cons_self, h⟩
      · exact hlater h
    | _ => exact hlater (by simpa [itemLeaves] using h)

/-- Whatever equalities bind is pinned. -/
theorem Equalities.pins_of_mem_leaves (h : Equalities entries) :
    ∀ x ∈ entryLeaves entries, ∃ key, Pins entries key x := by
  have hlater {key value : Value} {rest : Entries} {x : Value} :
      (∃ column, Pins rest column x) → ∃ column, Pins ((key, value) :: rest) column x :=
    fun ⟨column, hpins⟩ => ⟨column, pins_cons.mpr (.inr hpins)⟩
  induction h with
  | nil => exact List.forall_mem_nil _
  | @plain rest key v hrole hv _ ih =>
    intro x hx
    rw [entryLeaves, hrole, roleLeaves_column, List.mem_append] at hx
    refine hx.elim (fun hx => ?_) fun hx => hlater (ih x hx)
    obtain rfl := eq_of_mem_columnLeaves hv hx
    exact ⟨key, .plain List.mem_cons_self hrole hv⟩
  | @operand rest key word v place hrole hword _ ih =>
    intro x hx
    rw [entryLeaves, hrole, roleLeaves_column, List.mem_append] at hx
    refine hx.elim (fun hx => ?_) fun hx => hlater (ih x hx)
    obtain rfl := eq_of_mem_operandLeaf hword hx
    exact ⟨key, .operand List.mem_cons_self hrole (get?_eq hword)⟩
  | @group rest word value items hrole hgroup _ _ ihItems ih =>
    intro x hx
    rw [entryLeaves, hrole, roleLeaves_join hgroup, List.mem_append] at hx
    refine hx.elim (fun hx => ?_) fun hx => hlater (ih x hx)
    obtain ⟨inner, place, hitem, hinner⟩ := mem_itemLeaves hx
    obtain ⟨key, hpins⟩ := ihItems inner place hitem x hinner
    exact ⟨key, .conjunct List.mem_cons_self hrole hgroup hitem hpins⟩

/-! ## 4. Rows made of equalities -/

/-- A compiled filter is true of a row. -/
def Matches (db : Comparing) (filter : Value) (row : RowValues) : Prop :=
  ∃ fragment f, compile filter = .ok fragment ∧ fragment.read? = some f ∧ f.eval db row = .yes

theorem matches_mapping {place : Place} : Matches db (.mappingAt entries place) row ↔
    (∃ cs, conditions entries = .ok cs) ∧ ∀ f ∈ entryFormulas entries, f.eval db row = .yes := by
  constructor
  · rintro ⟨fragment, f, hcompile, hread, hf⟩
    obtain ⟨cs, hcs, rfl⟩ := compile_mapping.mp hcompile
    cases (read?_of_conditions hcs).symm.trans hread
    exact ⟨⟨cs, hcs⟩, eval_all_eq_yes.mp hf⟩
  · rintro ⟨⟨cs, hcs⟩, hall⟩
    exact ⟨_, _, compile_mapping.mpr ⟨cs, hcs, rfl⟩, read?_of_conditions hcs,
      eval_all_eq_yes.mpr hall⟩

/-- **A row made of the values that equalities pin matches them**, if any row does.  One of the
values that are pinned to a column is enough. -/
theorem Equalities.matches_of_kept {place : Place} (h : Equalities entries) (hdb : db.Transitive)
    (hrow : Matches db (.mappingAt entries place) row)
    (hmade : ∀ key v, Pins entries key v → ∃ source u, Pins entries source u ∧
      Sql.nameText source = Sql.nameText key ∧ made (Sql.nameText key) = u.unplaced) :
    Matches db (.mappingAt entries place) made := by
  obtain ⟨haccepted, hall⟩ := matches_mapping.mp hrow
  refine matches_mapping.mpr ⟨haccepted, h.holds fun key v hpins => ?_⟩
  obtain ⟨source, u, hsource, hname, hkept⟩ := hmade key v hpins
  have hu := hsource.holds hall
  rw [hname] at hu
  exact hu.transfer hdb (hpins.holds hall) hkept

end Where
end RowMapper
