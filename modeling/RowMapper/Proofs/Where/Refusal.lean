import RowMapper.Proofs.Where.Grammar
import RowMapper.World.Observation

/-!
# Refused filters

A value that is no filter is rejected, and whatever the rejection shows stands in that value
(`compile_blames`).  The rejection is put into words by printing what it shows, and that is where
something else can go wrong: an entity without a key and a value that leads back to itself cannot be
printed, and then the failure of the printing is all that is left of the rejection.

`filter_is_compiled_or_refused` puts this together with the grammar, and
`unprintable_operand_hides_the_refusal` is a filter whose rejection never gets out.
-/
namespace RowMapper

/-! ## 1. Rejections in words -/

/-- The values that the message of a rejection prints. -/
def Rejection.shows : Rejection → List Value
  | .unsafeIdentifier identifier => [identifier]
  | .groupEntry _ entry => [entry]
  | .noOperators column => [column]
  | .columnIsList column => [column]
  | .unknownOperator operator column => [operator, column]
  | .logicAsOperator _ column => [column]
  | .notSingle _ column operand => [column, operand]
  | .comparedWithNull _ column => [column]
  | .notList _ column operand => [column, operand]
  | .notTwo _ column operand => [column, operand]
  | .notTrue _ column operand => [column, operand]
  | .nothingToUpdate table => [table]
  | .unsavedOwner relation owner => [relation, .entity owner]
  | _ => []

variable {literal : Value → Printed}

theorem displayBy_eq_error {v : Value} {u : Unprintable} (h : v.displayBy literal = .error u) :
    literal v = .error u := by
  unfold Value.displayBy at h
  split at h
  · cases h
  · exact h

/-- A rejection has no wording only because something that it shows cannot be printed. -/
theorem Rejection.message_eq_error {why : Rejection} {u : Unprintable}
    (h : why.message literal = .error u) : ∃ x ∈ why.shows, literal x = .error u := by
  have hpure (text : String) : (pure text : Printed) ≠ .error u := fun h => nomatch h
  cases why <;> simp only [message, bind_eq_error, hpure, and_false, exists_false, or_false] at h
  case unsafeIdentifier | groupEntry => exact ⟨_, by simp [shows], h⟩
  case unknownOperator | notSingle | notList | notTwo | notTrue | unsavedOwner =>
    rcases h with h | ⟨_, -, h⟩
    · exact ⟨_, by simp [shows], displayBy_eq_error h⟩
    · first
        | exact ⟨_, by simp [shows], displayBy_eq_error h⟩
        | exact ⟨_, by simp [shows], h⟩
  all_goals exact ⟨_, by simp [shows], displayBy_eq_error h⟩

end RowMapper

namespace RowMapper.Where

/-! ## 2. What a rejection shows -/

/-- The value is another one or stands in it, as a key, under a key or as an item. -/
inductive Within (x : Value) : Value → Prop
  | here : Within x x
  | key {entries : Entries} {place : Place} {key value : Value} (mem : (key, value) ∈ entries)
      (inner : Within x key) : Within x (.mappingAt entries place)
  | value {entries : Entries} {place : Place} {key value : Value} (mem : (key, value) ∈ entries)
      (inner : Within x value) : Within x (.mappingAt entries place)
  | item {v : Value} {items : List Value} {item : Value} (isSequence : v.sequence? = some items)
      (mem : item ∈ items) (inner : Within x item) : Within x v

/-- The value stands in a key of the mapping or under one. -/
def WithinEntries (x : Value) (entries : Entries) : Prop :=
  ∃ key value, (key, value) ∈ entries ∧ (Within x key ∨ Within x value)

theorem WithinEntries.mapping {x : Value} {entries : Entries} {place : Place}
    (h : WithinEntries x entries) : Within x (.mappingAt entries place) := by
  obtain ⟨key, value, hmem, hkey | hvalue⟩ := h
  · exact .key hmem hkey
  · exact .value hmem hvalue

theorem WithinEntries.cons {x : Value} {entry : Value × Value} {rest : Entries}
    (h : WithinEntries x rest) : WithinEntries x (entry :: rest) := by
  obtain ⟨key, value, hmem, hin⟩ := h
  exact ⟨key, value, List.mem_cons_of_mem _ hmem, hin⟩

/-- If something is rejected, then what the rejection shows is so. -/
abbrev Blames {α : Type} (P : Value → Prop) (outcome : Except Rejection α) : Prop :=
  FailsOnly (fun why => ∀ x ∈ why.shows, P x) outcome

theorem Blames.mono {α : Type} {P Q : Value → Prop} {outcome : Except Rejection α}
    (h : Blames P outcome) (himp : ∀ x, P x → Q x) : Blames Q outcome :=
  h.imp fun _ hshows x hx => himp x (hshows x hx)

theorem safeName_blames (key : Value) : Blames (· = key) (Sql.safeName key) := by
  unfold Sql.safeName
  dsimp only
  split
  · exact .ok _
  · exact .error (by simp [Rejection.shows])

theorem operatorOf_blames (key operator : Value) :
    Blames (fun x => x = key ∨ x = operator) (operatorOf key operator) := by
  have hunknown : ∀ x ∈ (Rejection.unknownOperator operator key).shows, x = key ∨ x = operator := by
    simp [Rejection.shows, or_comm]
  unfold operatorOf
  split
  · split
    · exact .ok _
    · exact .error hunknown
  · exact .error hunknown

theorem operatorCondition_blames (key : Value) (column word : String) {op : Operator}
    (hop : op ≠ .negation) (operand : Value) :
    Blames (fun x => x = key ∨ x = operand) (operatorCondition key column word op operand) := by
  unfold operatorCondition
  split
  · split
    · exact .error (by simp [Rejection.shows])
    · exact .error (by simp [Rejection.shows])
    · exact .error (by simp [Rejection.shows])
    · split
      · exact .ok _
      · exact .ok _
      · exact .error (by simp [Rejection.shows])
    · exact .ok _
  · split
    · exact .error (by simp [Rejection.shows])
    · exact .ok _
    · exact .ok _
  · split
    · exact .ok _
    · exact .error (by simp [Rejection.shows])
  · split
    · exact .ok _
    · exact .error (by simp [Rejection.shows])
  · exact .error (by simp [Rejection.shows])
  · exact absurd rfl hop

theorem negatedColumn_blames_of {key value : Value} {column : String}
    (ih : ∀ entries place, value = .mappingAt entries place →
      Blames (fun x => x = key ∨ WithinEntries x entries)
        (operatorConditions key column entries)) :
    Blames (fun x => x = key ∨ Within x value) (negatedColumn key column value) := by
  cases value with
  | mappingAt entries place =>
    rw [negatedColumn]
    split
    · exact .error (by simp [Rejection.shows])
    · exact (ih entries place rfl).mono fun x hx => hx.imp_right WithinEntries.mapping
  | listAt items place => exact .error (by simp [Rejection.shows])
  | tupleAt items place => exact .error (by simp [Rejection.shows])
  | _ => exact .ok _

theorem operatorConditions_blames (key : Value) (column : String) (entries : Entries) :
    Blames (fun x => x = key ∨ WithinEntries x entries)
      (operatorConditions key column entries) := by
  induction entries using entries_induction with
  | nil => exact .ok _
  | cons operator operand rest ihMapping _ ihRest =>
    have hoperand {x : Value} (hx : x = key ∨ Within x operand) :
        x = key ∨ WithinEntries x ((operator, operand) :: rest) :=
      hx.imp_right fun hin => ⟨operator, operand, by simp, .inr hin⟩
    rw [operatorConditions_eq_bind]
    refine .bind ((operatorOf_blames key operator).mono ?_) fun named =>
      .bind ?_ fun first => .bind (ihRest.mono fun x hx => hx.imp_right WithinEntries.cons)
        fun others => .ok _
    · rintro x (hx | rfl)
      · exact .inl hx
      · exact .inr ⟨x, operand, by simp, .inl .here⟩
    · unfold operatorEntry
      split
      · exact ((negatedColumn_blames_of ihMapping).mono fun x => hoperand).map _
      · rename_i hop
        refine (operatorCondition_blames key column _ hop operand).mono ?_
        rintro x (hx | rfl)
        · exact .inl hx
        · exact hoperand (.inr .here)

theorem columnConditions_blames (key value : Value) :
    Blames (fun x => Within x key ∨ Within x value) (columnConditions key value) := by
  refine .bind ((safeName_blames key).mono ?_) fun column =>
    (negatedColumn_blames_of fun entries _ _ =>
      operatorConditions_blames key column entries).mono ?_
  · rintro x rfl
    exact .inl .here
  · rintro x (rfl | hx)
    · exact .inl .here
    · exact .inr hx

/-- Whatever is blamed for the items of a group stands in one of them. -/
theorem groupConditions_blames_of (logic : Logic) : ∀ items : List Value,
    (∀ entries place, Value.mappingAt entries place ∈ items →
      Blames (WithinEntries · entries) (conditions entries)) →
    Blames (fun x => ∃ item ∈ items, Within x item) (groupConditions logic items)
  | [], _ => .ok _
  | item :: rest, ih => by
    have hitem : Blames (Within · item) (itemConditions logic item) := by
      cases item with
      | mappingAt entries place =>
        rw [itemConditions]
        split
        · exact .error (by simpa [Rejection.shows] using .here)
        · exact (ih entries place (by simp)).mono fun _ => WithinEntries.mapping
      | _ => exact .error (by simpa [Rejection.shows] using .here)
    have hrest := groupConditions_blames_of logic rest
      fun entries place hmem => ih entries place (List.mem_cons_of_mem _ hmem)
    rw [groupConditions]
    refine .bind (hitem.mono fun x hx => ⟨item, by simp, hx⟩) fun first =>
      .bind (hrest.mono ?_) fun others => .ok _
    rintro x ⟨other, hmem, hx⟩
    exact ⟨other, List.mem_cons_of_mem _ hmem, hx⟩

theorem conditions_blames (entries : Entries) :
    Blames (WithinEntries · entries) (conditions entries) := by
  induction entries using entries_induction with
  | nil => exact .ok _
  | cons key value rest ihMapping ihItems ihRest =>
    have hentry : Blames (fun x => Within x key ∨ Within x value)
        (entryConditions (roleOf key) key value) := by
      cases hrole : roleOf key with
      | join logic =>
        have hgroup {items : List Value} (hitems : value.sequence? = some items) :
            Blames (fun x => Within x key ∨ Within x value) (groupConditions logic items) := by
          refine (groupConditions_blames_of logic items (ihItems items hitems)).mono ?_
          rintro x ⟨item, hmem, hx⟩
          exact .inr (.item hitems hmem hx)
        cases value with
        | listAt items place | tupleAt items place =>
          rw [entryConditions]
          split
          · exact .error (by simp [Rejection.shows])
          · exact (hgroup rfl).map _
        | _ => exact .error (by simp [Rejection.shows])
      | negation =>
        cases value with
        | mappingAt entries place =>
          rw [entryConditions]
          split
          · exact .error (by simp [Rejection.shows])
          · exact ((ihMapping entries place rfl).mono fun _ hx => .inr hx.mapping).map _
        | _ => exact .error (by simp [Rejection.shows])
      | column =>
        rw [entryConditions_column]
        exact columnConditions_blames key value
    rw [conditions]
    refine .bind (hentry.mono fun x hx => ⟨key, value, by simp, hx⟩) fun first =>
      .bind (ihRest.mono fun _ => WithinEntries.cons) fun others => .ok _

/-- Whatever the rejection of a filter shows stands in the filter. -/
theorem compile_blames (v : Value) : Blames (Within · v) (compile v) := by
  unfold compile
  split
  · split
    · exact ((conditions_blames _).mono fun _ => WithinEntries.mapping).map _
    · exact .error (by simp [Rejection.shows])
  · exact .ok _

/-! ## 3. Compiled or refused -/

theorem inWords_rejected (literal : Value → Printed) (why : Rejection) :
    (∃ text, (Fault.rejected why).inWords literal = (.rejected why, some text)) ∨
      ∃ x u, x ∈ why.shows ∧ literal x = .error u ∧
        (Fault.rejected why).inWords literal = (.ofUnprintable u, none) := by
  have hwords : (Fault.rejected why).message? literal = (why.message literal).map some := rfl
  unfold Fault.inWords
  rw [hwords]
  cases hmessage : why.message literal with
  | ok text => exact .inl ⟨text, rfl⟩
  | error u =>
    obtain ⟨x, hx, hu⟩ := why.message_eq_error hmessage
    exact .inr ⟨x, u, hx, hu, rfl⟩

/-- A value is compiled if and only if it is a filter, and every part of a group has something in
it.  What is no filter is refused with a rejection in words, for every way in which values are
printed, unless something in the value cannot be printed: then that failure gets out instead. -/
theorem filter_is_compiled_or_refused (v : Value) :
    ((∃ fragment, compile v = .ok fragment) ↔ IsFilter v) ∧
    (∀ logic item cs, itemConditions logic item = .ok cs → cs ≠ []) ∧
    (¬IsFilter v → ∃ why, compile v = .error why ∧ ∀ literal : Value → Printed,
      (∃ text, (Fault.rejected why).inWords literal = (.rejected why, some text)) ∨
        ∃ x u, Within x v ∧ literal x = .error u ∧
          (Fault.rejected why).inWords literal = (.ofUnprintable u, none)) := by
  refine ⟨compile_isOk v, fun logic item cs => itemConditions_ne_nil, fun hnot => ?_⟩
  cases hcompile : compile v with
  | ok fragment => exact absurd ((compile_isOk v).mp ⟨fragment, hcompile⟩) hnot
  | error why =>
    refine ⟨why, rfl, fun literal => (inWords_rejected literal why).imp_right ?_⟩
    rintro ⟨x, u, hx, hu, hwords⟩
    exact ⟨x, u, compile_blames v why hcompile x hx, hu, hwords⟩

/-- `eq` does not take a list.  In this one there is an entity of the root of all models, which has
no key and cannot be printed, so that the missing key is what gets out. -/
theorem unprintable_operand_hides_the_refusal :
    let w : World := { entities := [{ model := ⟨0, "Model", "mappify.base"⟩ }] }
    let filter : Value :=
      .mapping [(.str "name", .mapping [(.str "eq", .list [.entity ⟨0, "Model"⟩])])]
    ¬IsFilter filter ∧ ∃ why, compile filter = .error why ∧
      (Fault.rejected why).inWords w.literal = (.noAttribute, none) := by
  intro w filter
  refine ⟨fun h => ?_, .notSingle "eq" (.str "name") (.list [.entity ⟨0, "Model"⟩]), rfl, rfl⟩
  obtain ⟨fragment, hfragment⟩ := (compile_isOk filter).mpr h
  cases hfragment

end RowMapper.Where
