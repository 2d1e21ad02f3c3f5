import RowMapper.Proofs.Where.Composite
import RowMapper.Proofs.Where.Truth

/-!
# Membership and equalities

That a column is in a list can be said at once, with `in`, and item by item, with a disjunction of
equalities; that it is not in the list, with `notIn` and with a conjunction of inequalities.  The
two ways check their items differently.  `eq` and `ne` refuse composite values and turn null into a
test for null, while `in` and `notIn` bind every item as it is, and then a comparison with null is
unknown.

`membership_by_items` says where the two ways agree and where they part.
-/
namespace RowMapper.Where

open Sql (Comparing Formula RowValues Truth compared)

variable {db : Comparing} {row : RowValues} {c x list : Value} {items : List Value}

/-! ## 1. Two ways to say it -/

/-- The word for membership in a list, or for absence from it. -/
def memberWord (negated : Bool) : String := if negated then "notIn" else "in"

/-- The word for equality with one value, or for inequality. -/
def equalityWord (negated : Bool) : String := if negated then "ne" else "eq"

/-- Equal to one of the items, or unequal to all. -/
def itemsLogic (negated : Bool) : Logic := if negated then .all else .any

/-- Membership in a list, item by item. -/
def byItems (negated : Bool) (column : Value) (items : List Value) : Value :=
  groupOf (itemsLogic negated) (items.map (operatorOn column (equalityWord negated)))

/-- The truth of the equality of a column with one value, if null equals null. -/
def equalTo (db : Comparing) (row : RowValues) (column : String) (x : Value) : Truth :=
  if x.isNull then .ofBool (row column).isNull else compared db row column .eq x

theorem ofWord?_memberWord (negated : Bool) :
    Operator.ofWord? (memberWord negated) = some (.member negated) := by
  cases negated <;> rfl

theorem ofWord?_equalityWord (negated : Bool) :
    Operator.ofWord? (equalityWord negated) = some (.compare (if negated then .ne else .eq)) := by
  cases negated <;> rfl

theorem isNull_iff : x.isNull = true ↔ x = .null := by
  cases x <;> simp [Value.isNull]

/-! ## 2. One item -/

theorem accepted_equality {negated : Bool} (hrole : roleOf c = .column) :
    Accepted (operatorOn c (equalityWord negated) x) ↔
      (∃ quoted, Sql.quoteIdentifier c = .ok quoted) ∧ ¬x.IsComposite := by
  rw [← isScalar_or_null_iff, accepted_operatorOn hrole (ofWord?_equalityWord negated) nofun]
  cases negated <;> simp [Operator.Takes]

/-- An equality with a single value says that the column has it, and an inequality the opposite. -/
theorem eval_equality (negated : Bool) (hrole : roleOf c = .column) (hdb : db.Complementary) :
    (meaning (operatorOn c (equalityWord negated) x)).eval db row =
      .notIf negated (equalTo db row (Sql.nameText c) x) := by
  by_cases hnull : x = .null
  · subst hnull
    have hmeaning : meaning (operatorOn c (equalityWord negated) .null) =
        .nullness (Sql.nameText c) negated := by
      cases negated <;> exact meaning_operatorOn hrole rfl rfl
    rw [hmeaning, Formula.eval]
    rfl
  · have hequal : equalTo db row (Sql.nameText c) x = compared db row (Sql.nameText c) .eq x :=
      if_neg fun h => hnull (isNull_iff.mp h)
    rw [meaning_operatorOn hrole (ofWord?_equalityWord negated)
      (operatorFormula?_of_ne_null _ _ hnull), Formula.eval, hequal]
    cases negated with
    | false => rfl
    | true => exact Sql.compared_ne hdb _ _

/-! ## 3. All items -/

theorem accepted_membership {negated : Bool} (hrole : roleOf c = .column)
    (hitems : list.sequence? = some items) :
    Accepted (operatorOn c (memberWord negated) list) ↔
      ∃ quoted, Sql.quoteIdentifier c = .ok quoted := by
  have htakes : (Operator.member negated).Takes list := ⟨items, hitems⟩
  rw [accepted_operatorOn hrole (ofWord?_memberWord negated) nofun, and_iff_left htakes]

theorem eval_membership {negated : Bool} (hrole : roleOf c = .column)
    (hitems : list.sequence? = some items) (hne : items ≠ []) :
    (meaning (operatorOn c (memberWord negated) list)).eval db row =
      .notIf negated (.joined .any (items.map (compared db row (Sql.nameText c) .eq))) := by
  have hfits : operatorFormula? (Sql.nameText c) (.member negated) list =
      some (.member (Sql.nameText c) negated items) := by
    cases items with
    | nil => exact absurd rfl hne
    | cons item rest =>
      rw [operatorFormula?, hitems]
      rfl
  rw [meaning_operatorOn hrole (ofWord?_memberWord negated) hfits, Formula.eval]

/-- Item by item a list is accepted if the column can be quoted and no item is composite. -/
theorem accepted_byItems {negated : Bool} (hrole : roleOf c = .column) (hne : items ≠ []) :
    Accepted (byItems negated c items) ↔
      (∃ quoted, Sql.quoteIdentifier c = .ok quoted) ∧ ∀ x ∈ items, ¬x.IsComposite := by
  have hitem (x : Value) : NonemptyFilter (operatorOn c (equalityWord negated) x) ↔
      (∃ quoted, Sql.quoteIdentifier c = .ok quoted) ∧ ¬x.IsComposite := by
    rw [nonemptyFilter_iff, ← accepted_equality hrole]
    exact and_iff_left rfl
  rw [byItems, accepted_group, and_iff_right (by simpa using hne), List.forall_mem_map]
  simp only [hitem]
  constructor
  · intro h
    obtain ⟨first, hfirst⟩ := List.exists_mem_of_ne_nil items hne
    exact ⟨(h first hfirst).1, fun x hx => (h x hx).2⟩
  · rintro ⟨hquoted, hsingle⟩ x hx
    exact ⟨hquoted, hsingle x hx⟩

theorem eval_byItems {negated : Bool} (hrole : roleOf c = .column) (hdb : db.Complementary)
    (haccepted : Accepted (byItems negated c items)) :
    (meaning (byItems negated c items)).eval db row =
      .notIf negated (.joined .any (items.map (equalTo db row (Sql.nameText c)))) := by
  rw [byItems, eval_group (accepted_group.mp haccepted).2, List.map_map]
  have htruths : (items.map ((fun item => (meaning item).eval db row) ∘
      operatorOn c (equalityWord negated))) =
      items.map fun x => .notIf negated (equalTo db row (Sql.nameText c) x) :=
    List.map_congr_left fun x _ => eval_equality negated hrole hdb
  rw [htruths]
  cases negated with
  | false => rfl
  | true =>
    show Truth.joined .all (items.map fun x => (equalTo db row (Sql.nameText c) x).not) =
      (Truth.joined .any (items.map (equalTo db row (Sql.nameText c)))).not
    rw [Truth.not_joined_any, List.map_map]
    rfl

/-! ## 4. Where the two ways agree -/

/-- Some item equals the value in the column. -/
def HasEqual (db : Comparing) (row : RowValues) (column : String) (items : List Value) : Prop :=
  ∃ x ∈ items, compared db row column .eq x = .yes

theorem equalTo_of_yes {column : String} (h : compared db row column .eq x = .yes) :
    equalTo db row column x = .yes := by
  have hnull : x.isNull = false := by
    unfold compared at h
    split at h
    · cases h
    · next hnull => exact (Bool.or_eq_false_iff.mp (by simpa using hnull)).2
  rw [equalTo, hnull]
  exact h

/-- Where the column holds a value, what is not unequal to an item compares as equal with it. -/
theorem yes_of_equalTo {column : String} (hrow : (row column).isNull = false)
    (h : equalTo db row column x ≠ .no) : compared db row column .eq x = .yes := by
  unfold equalTo at h
  split at h
  · rw [hrow] at h
    exact absurd rfl h
  · next hnull =>
    have hx : x.isNull = false := Bool.eq_false_iff.mpr hnull
    unfold compared at h ⊢
    rw [hrow, hx] at h ⊢
    cases hdb : db column .eq (row column) x with
    | false =>
      rw [hdb] at h
      exact absurd rfl h
    | true => rfl

/-- Comparing null with the column and testing the column for null come to the same only if no item
is null, or another item decides. -/
theorem joined_compared_eq_iff {column : String} :
    Truth.joined .any (items.map (compared db row column .eq)) =
        .joined .any (items.map (equalTo db row column)) ↔
      .null ∉ items ∨ HasEqual db row column items := by
  have hyes : Truth.joined .any (items.map (compared db row column .eq)) = .yes ↔
      HasEqual db row column items := by
    rw [Truth.joined_any_eq_yes, List.mem_map]
    rfl
  constructor
  · intro heq
    by_contra hnot
    obtain ⟨hnull, hnone⟩ := not_or.mp hnot
    rw [not_not] at hnull
    -- a null among the items keeps the first side from being false, and no item makes it true
    have hunknown : Truth.joined .any (items.map (compared db row column .eq)) ≠ .no := by
      rw [Ne, Truth.joined_any_eq_no, List.forall_mem_map]
      intro h
      have hnullItem : compared db row column .eq .null = .unknown := by
        simp [compared, Value.isNull]
      cases hnullItem.symm.trans (h _ hnull)
    cases hrow : (row column).isNull with
    | true =>
      refine hnone (hyes.mp (heq.trans (Truth.joined_any_eq_yes.mpr ?_)))
      refine List.mem_map.mpr ⟨_, hnull, ?_⟩
      rw [equalTo, hrow]
      rfl
    | false =>
      rw [heq, Ne, Truth.joined_any_eq_no, List.forall_mem_map, not_forall] at hunknown
      obtain ⟨x, hx⟩ := hunknown
      obtain ⟨hmem, hx⟩ := Classical.not_imp.mp hx
      exact hnone ⟨x, hmem, yes_of_equalTo hrow hx⟩
  · rintro (hnull | hequal)
    · refine congrArg _ (List.map_congr_left fun x hx => (if_neg fun h => hnull ?_).symm)
      exact isNull_iff.mp h ▸ hx
    · rw [hyes.mpr hequal]
      obtain ⟨x, hx, hx'⟩ := hequal
      exact (Truth.joined_any_eq_yes.mpr (List.mem_map.mpr ⟨x, hx, equalTo_of_yes hx'⟩)).symm

/-- **Membership is a disjunction of equalities, but for composite items and null.**  On a column
and with a list that is not empty, the form item by item is accepted just if the list is and none of
its items is composite.  Then the two forms have the same truth about a row if null is no item, and
if it is one, only about the rows whose value equals some item.  The same holds of absence from the
list and the conjunction of inequalities. -/
theorem membership_by_items (negated : Bool) (c list : Value) (items : List Value)
    (free : ∀ word ∈ reservedWords, c.text? ≠ some word) (hitems : list.sequence? = some items)
    (hne : items ≠ []) :
    (Accepted (byItems negated c items) ↔
      Accepted (operatorOn c (memberWord negated) list) ∧ ∀ x ∈ items, ¬x.IsComposite) ∧
    (Accepted (byItems negated c items) → ∀ db row, db.Complementary →
      (truth? db row (operatorOn c (memberWord negated) list) =
          truth? db row (byItems negated c items) ↔
        .null ∉ items ∨ HasEqual db row (Sql.nameText c) items)) := by
  have hrole : roleOf c = .column := roleOf_eq_column.mpr free
  have haccepted : Accepted (byItems negated c items) ↔
      Accepted (operatorOn c (memberWord negated) list) ∧ ∀ x ∈ items, ¬x.IsComposite := by
    rw [accepted_byItems hrole hne, accepted_membership hrole hitems]
  refine ⟨haccepted, fun h db row hdb => ?_⟩
  rw [truth?_of_accepted h, truth?_of_accepted (haccepted.mp h).1, Option.some.injEq,
    eval_membership hrole hitems hne, eval_byItems hrole hdb h, Truth.notIf_inj, joined_compared_eq_iff]

/-- With null in the list the two forms agree about a row with its number, and part about a row with
another one. -/
theorem membership_of_list_with_null :
    let listed : Value := operatorOn (.str "stock") (memberWord false) (.list [.int 1, .null])
    let oneByOne : Value := byItems false (.str "stock") [.int 1, .null]
    let db := Comparing.ofEqual fun kept v => kept.asInt? == v.asInt?
    (∀ word ∈ reservedWords, (Value.str "stock").text? ≠ some word) ∧ db.Complementary ∧
      Accepted listed ∧ Accepted oneByOne ∧
      truth? db (fun _ => .int 1) listed = truth? db (fun _ => .int 1) oneByOne ∧
      truth? db (fun _ => .int 2) listed ≠ truth? db (fun _ => .int 2) oneByOne := by
  intro listed oneByOne db
  have hfree : ∀ word ∈ reservedWords, (Value.str "stock").text? ≠ some word := by decide
  have hdb : db.Complementary := Comparing.complementary_ofEqual _
  have hlisted : Accepted listed := ⟨⟨"\"stock\" IN (?, ?)", [.int 1, .null]⟩, rfl⟩
  obtain ⟨haccepted, htruth⟩ := membership_by_items false (.str "stock")
    (.list [.int 1, .null]) [.int 1, .null] hfree rfl (List.cons_ne_nil _ _)
  have honeByOne : Accepted oneByOne := by
    refine haccepted.mpr ⟨hlisted, fun x hx => isScalar_or_null_iff.mp ?_⟩
    rcases List.mem_pair.mp hx with rfl | rfl
    · exact .inl ⟨nofun, nofun, rfl⟩
    · exact .inr rfl
  refine ⟨hfree, hdb, hlisted, honeByOne, (htruth honeByOne db _ hdb).mpr (.inr ?_),
    fun h => ?_⟩
  · exact ⟨.int 1, List.mem_cons_self, rfl⟩
  · rcases (htruth honeByOne db _ hdb).mp h with hnull | ⟨x, hx, hequal⟩
    · exact hnull (by simp)
    · rcases List.mem_pair.mp hx with rfl | rfl <;> cases hequal

/-- A list of null matches nothing, not even null, and a list among the items is accepted where no
equality with it is. -/
theorem list_of_null_matches_nothing :
    let db := Comparing.ofEqual fun kept v => kept.asInt? == v.asInt?
    let name : Value := .str "name"
    let sizes : Value := .list [.str "S"]
    truth? db (fun _ => .null) (operatorOn (.str "name") "in" (.list [.null])) = some .unknown ∧
      truth? db (fun _ => .null) (byItems false (.str "name") [.null]) = some .yes ∧
      compile (operatorOn (.str "name") "in" (.list [sizes])) =
        .ok ⟨"\"name\" IN (?)", [sizes]⟩ ∧
      compile (byItems false (.str "name") [sizes]) = .error (.notSingle "eq" name sizes) := by
  refine ⟨?_, ?_, rfl, rfl⟩
  · rw [truth?_of_accepted ⟨⟨"\"name\" IN (?)", [.null]⟩, rfl⟩]
    rfl
  · rw [truth?_of_accepted ⟨⟨"(\"name\" IS NULL)", []⟩, rfl⟩]
    rfl

end RowMapper.Where
