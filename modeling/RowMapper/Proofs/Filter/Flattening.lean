import RowMapper.Proofs.Filter.Compiled
import RowMapper.Proofs.Where.Truth

/-!
# Flattened groups

A group that is put together out of filters takes up the parts of those among them that are groups
of its logic.  It looks no deeper than that, and need not: in what is built no group is a part of a
group of the same logic (`flat_build`).

Beside the mapping of the flattened filter stands the mapping that keeps every group of the
expression (`Expression.nested`).  If that one is accepted, so is the flattened one, and it has the
same truth about every row (`flattening_keeps_truth`).
-/
namespace RowMapper

open Sql (Comparing RowValues Truth)
open Where (Accepted Logic NonemptyFilter groupOf meaning truth?)

/-! ## 1. Expressions -/

namespace Expression

/-- The mapping of an expression. -/
def toWhere (e : Expression Value) : Except Fault Value := do
  Filter.toWhere (.filter (← e.build))

/-- The expression is not put together from others. -/
def isLeaf {α : Type} : Expression α → Bool
  | .both _ _ _ => false
  | .invert _ => false
  | .combine _ _ => false
  | _ => true

@[elab_as_elim]
theorem induction_connectives {motive : Expression Value → Prop}
    (leaf : ∀ e, e.isLeaf = true → motive e)
    (both : ∀ logic left right, motive left → motive right → motive (.both logic left right))
    (invert : ∀ inner, motive inner → motive (.invert inner))
    (combine : ∀ word parts, (∀ e ∈ parts, motive e) → motive (.combine word parts)) :
    ∀ e, motive e
  | .call _ _ _ => leaf _ rfl
  | .reflected _ _ _ => leaf _ rfl
  | .column _ => leaf _ rfl
  | .blank => leaf _ rfl
  | .comparison _ _ _ => leaf _ rfl
  | .both logic left right =>
    both logic left right (induction_connectives leaf both invert combine left)
      (induction_connectives leaf both invert combine right)
  | .invert inner => invert inner (induction_connectives leaf both invert combine inner)
  | .combine word parts =>
    combine word parts fun e _ => induction_connectives leaf both invert combine e

theorem toWhere_eq_ok {e : Expression Value} {w : Value} :
    e.toWhere = .ok w ↔ ∃ f, e.build = .ok f ∧ Filter.toWhere (.filter f) = .ok w := bind_eq_ok

end Expression

/-! ## 2. No group in a group of its logic -/

namespace Filter

/-- The logic of a group. -/
def groupLogic? : Value → Option Logic
  | .filterAt (.combined logic _) _ => some logic
  | _ => none

/-- Filters in which no group is a part of a group of its own logic. -/
inductive Flat : Value → Prop
  | blank {place} : Flat (.filterAt .blank place)
  | column {name place} : Flat (.filterAt (.column name) place)
  | comparison {name operator operand place} :
      Flat (.filterAt (.comparison name operator operand) place)
  | negation {inner place} (h : Flat inner) : Flat (.filterAt (.negation inner) place)
  | combined {logic parts place place'} (apart : ∀ part ∈ parts, groupLogic? part ≠ some logic)
      (each : ∀ part ∈ parts, Flat part) :
      Flat (.filterAt (.combined logic (.tupleAt parts place)) place')

variable {logic : Logic} {f : Filter Value} {fs : List (Filter Value)}

/-- A filter that is no group of a logic is the one part that it adds to such a group. -/
theorem partsUnder_of_apart (h : groupLogic? (.filter f) ≠ some logic) :
    partsUnder logic f = [.filter f] := by
  unfold partsUnder
  split
  · exact if_neg fun hsame => h (congrArg some hsame)
  · rfl

theorem partsUnder_combine (logic : Logic) (fs : List (Filter Value)) :
    partsUnder logic (combine logic fs) = fs.flatMap (partsUnder logic) := if_pos rfl

/-- What a flat filter adds to a group is flat and no group of that logic. -/
theorem flat_partsUnder (h : Flat (.filter f)) :
    ∀ part ∈ partsUnder logic f, groupLogic? part ≠ some logic ∧ Flat part := by
  by_cases hsame : groupLogic? (.filter f) = some logic
  · cases h with
    | combined apart each =>
      cases hsame
      intro part hpart
      rw [partsUnder, if_pos rfl] at hpart
      exact ⟨apart part hpart, each part hpart⟩
    | _ => cases hsame
  · rw [partsUnder_of_apart hsame]
    intro part hpart
    cases List.mem_singleton.mp hpart
    exact ⟨hsame, h⟩

theorem flat_combine (h : ∀ f ∈ fs, Flat (.filter f)) : Flat (.filter (combine logic fs)) := by
  have hparts : ∀ part ∈ fs.flatMap (partsUnder logic),
      groupLogic? part ≠ some logic ∧ Flat part := by
    intro part hpart
    obtain ⟨f, hf, hpart⟩ := List.mem_flatMap.mp hpart
    exact flat_partsUnder (h f hf) part hpart
  exact .combined (fun part hpart => (hparts part hpart).1) fun part hpart => (hparts part hpart).2

/-- A leaf of an expression is built without groups. -/
theorem flat_leaf {e : Expression Value} (he : e.isLeaf = true) (h : e.build = .ok f) :
    Flat (.filter f) := by
  cases e with
  | call =>
    cases compares_build rfl h
    exact .comparison
  | reflected =>
    cases compares_build rfl h
    exact .comparison
  | column =>
    cases h
    exact .column
  | blank =>
    cases h
    exact .blank
  | comparison =>
    cases h
    exact .comparison
  | _ => cases he

theorem flat_buildAll : ∀ {parts : List (Expression Value)} {fs : List (Filter Value)},
    buildAll parts = .ok fs → (∀ e ∈ parts, ∀ {f}, e.build = .ok f → Flat (.filter f)) →
    ∀ f ∈ fs, Flat (.filter f)
  | [], _, h, _ => by
    cases h
    exact List.forall_mem_nil _
  | e :: rest, _, h, ih => by
    obtain ⟨first, others, hfirst, hothers, rfl⟩ := buildAll_cons.mp h
    exact List.forall_mem_cons.mpr ⟨ih e List.mem_cons_self hfirst,
      flat_buildAll hothers fun e he => ih e (List.mem_cons_of_mem _ he)⟩

/-- Whatever is built is flat. -/
theorem flat_build (e : Expression Value) : ∀ {f}, e.build = .ok f → Flat (.filter f) := by
  induction e using Expression.induction_connectives with
  | leaf e he => exact flat_leaf he
  | both logic left right ihLeft ihRight =>
    intro f h
    obtain ⟨first, second, hfirst, hsecond, -, rfl⟩ := Expression.build_both.mp h
    exact flat_combine (by simpa using ⟨ihLeft hfirst, ihRight hsecond⟩)
  | invert inner ih =>
    intro f h
    obtain ⟨filter, hfilter, -, rfl⟩ := Expression.build_invert.mp h
    exact .negation (ih hfilter)
  | combine word parts ih =>
    intro f h
    obtain ⟨filters, logic, hfilters, -, rfl⟩ := Expression.build_combine.mp h
    exact flat_combine (flat_buildAll hfilters ih)

end Filter

/-! ## 3. The mapping that keeps all groups -/

mutual

/-- The mapping of an expression with every group in it kept. -/
def Expression.nested : Expression Value → Except Fault Value
  | .call column method arguments => (Expression.call column method arguments).toWhere
  | .reflected operand operator column => (Expression.reflected operand operator column).toWhere
  | .column name => (Expression.column name).toWhere
  | .blank => Expression.blank.toWhere
  | .comparison column operator operand => (Expression.comparison column operator operand).toWhere
  | .both logic left right => do
    let first ← left.nested
    let second ← right.nested
    return groupOf logic [first, second]
  | .invert inner => do return .mapping [(.str "not", ← inner.nested)]
  | .combine word parts => do
    let items ← nestedAll parts
    return groupOf (← logicOf word) items

/-- The mappings of expressions with every group in them kept. -/
def nestedAll : List (Expression Value) → Except Fault (List Value)
  | [] => .ok []
  | e :: rest => do
    let first ← e.nested
    let others ← nestedAll rest
    return first :: others

end

namespace Filter

variable {logic : Logic} {f : Filter Value} {fs : List (Filter Value)} {kept : Value}
  {ws us keeps keeps' : List Value}

theorem nested_leaf {e : Expression Value} (h : e.isLeaf = true) : e.nested = e.toWhere := by
  cases e <;> first
    | rfl
    | cases h

theorem toWheres_append {parts parts' : List Value} (h : toWheres parts = .ok ws)
    (h' : toWheres parts' = .ok us) : toWheres (parts ++ parts') = .ok (ws ++ us) := by
  induction parts generalizing ws with
  | nil =>
    cases h
    exact h'
  | cons part rest ih =>
    obtain ⟨first, hfirst, h⟩ := bind_eq_ok.mp h
    obtain ⟨others, hothers, h⟩ := bind_eq_ok.mp h
    cases h
    rw [List.cons_append, toWheres, hfirst, ih hothers]
    rfl

/-- Only a filter that can be combined has a mapping. -/
theorem isExpression_of_toWhere {w : Value} (h : toWhere (.filter f) = .ok w) :
    f.isExpression = true := by
  cases f with
  | column => cases h
  | _ => rfl

theorem toWhere_combine (logic : Logic) (fs : List (Filter Value)) :
    toWhere (.filter (combine logic fs)) =
      (toWheres (fs.flatMap (partsUnder logic))).map (groupOf logic) := by
  rw [combine, toWhere]
  cases toWheres (fs.flatMap (partsUnder logic)) <;> rfl

theorem truthy_of_toWhere {v w : Value} (h : toWhere v = .ok w) : w.truthy = true := by
  have hentry {key value : Value} (h : entry key value = .ok w) : w.truthy = true := by
    rw [entry_eq_ok h]
    rfl
  unfold toWhere at h
  split at h
  · cases h
  · obtain ⟨_, -, h⟩ := bind_eq_ok.mp h
    exact hentry h
  · obtain ⟨_, -, h⟩ := bind_eq_ok.mp h
    exact hentry h
  · obtain ⟨_, -, h⟩ := bind_eq_ok.mp h
    exact hentry h
  · cases h

/-- A mapping with groups kept has an entry. -/
theorem truthy_of_nested {e : Expression Value} (h : e.nested = .ok kept) :
    kept.truthy = true := by
  cases e with
  | both =>
    obtain ⟨_, -, h⟩ := bind_eq_ok.mp h
    obtain ⟨_, -, h⟩ := bind_eq_ok.mp h
    cases h
    rfl
  | invert =>
    obtain ⟨_, -, h⟩ := bind_eq_ok.mp h
    cases h
    rfl
  | combine =>
    obtain ⟨_, -, h⟩ := bind_eq_ok.mp h
    obtain ⟨_, -, h⟩ := bind_eq_ok.mp h
    cases h
    rfl
  | _ =>
    rw [nested_leaf rfl] at h
    obtain ⟨_, -, h⟩ := Expression.toWhere_eq_ok.mp h
    exact truthy_of_toWhere h

/-! ## 4. Flattening keeps the truth -/

/-- The truths of filters about a row. -/
def truths (db : Comparing) (row : RowValues) (filters : List Value) : List Truth :=
  filters.map fun w => (meaning w).eval db row

/-- Items of a group that say together what the items that were kept say together. -/
structure Regroups (logic : Logic) (ws keeps : List Value) : Prop where
  length_le : keeps.length ≤ ws.length
  each : ∀ w ∈ ws, NonemptyFilter w
  same : ∀ db row, Truth.joined logic (truths db row ws) = .joined logic (truths db row keeps)

theorem Regroups.nil : Regroups logic [] [] := ⟨Nat.le_refl _, List.forall_mem_nil _, fun _ _ => rfl⟩

theorem Regroups.append (h : Regroups logic ws keeps) (h' : Regroups logic us keeps') :
    Regroups logic (ws ++ us) (keeps ++ keeps') where
  length_le := by
    rw [List.length_append, List.length_append]
    exact Nat.add_le_add h.length_le h'.length_le
  each := List.forall_mem_append.mpr ⟨h.each, h'.each⟩
  same db row := by
    rw [truths, truths, List.map_append, List.map_append, Truth.joined_append, Truth.joined_append]
    exact congrArg₂ (Truth.join logic) (h.same db row) (h'.same db row)

/-- A built filter has a mapping that says what the kept one says. -/
def SaysKept (f : Filter Value) (kept : Value) : Prop :=
  ∃ w, toWhere (.filter f) = .ok w ∧ NonemptyFilter w ∧
    ∀ db row, (meaning w).eval db row = (meaning kept).eval db row

theorem SaysKept.isExpression (h : SaysKept f kept) : f.isExpression = true := by
  obtain ⟨w, hw, -⟩ := h
  exact isExpression_of_toWhere hw

/-- The parts that a filter adds to a group say what its mapping says. -/
theorem regroups_partsUnder (logic : Logic) (h : SaysKept f kept) :
    ∃ ws, toWheres (partsUnder logic f) = .ok ws ∧ Regroups logic ws [kept] := by
  obtain ⟨w, hw, hfilter, hsame⟩ := h
  have hkept (db : Comparing) (row : RowValues) :
      Truth.joined logic (truths db row [kept]) = (meaning kept).eval db row :=
    Truth.joined_singleton logic _
  -- only a group of this logic is taken apart, and its mapping joins what its parts say
  by_cases hgroup : groupLogic? (.filter f) = some logic
  · cases f with
    | combined inner parts =>
      cases hgroup
      cases parts with
      | tupleAt parts place =>
        obtain ⟨ws, hws, hentry⟩ := bind_eq_ok.mp hw
        cases entry_eq_ok hentry
        obtain ⟨hne, hitems⟩ := Where.accepted_group.mp (Where.nonemptyFilter_iff.mp hfilter).1
        rw [partsUnder, if_pos rfl]
        refine ⟨ws, hws, List.length_pos_iff.mpr hne, hitems, fun db row => ?_⟩
        rw [hkept, ← hsame]
        exact (Where.eval_group hitems).symm
      | _ => cases hw
    | _ => cases hgroup
  · rw [partsUnder_of_apart hgroup]
    refine ⟨[w], by rw [toWheres, hw]; rfl, Nat.le_refl _, by simpa using hfilter,
      fun db row => ?_⟩
    rw [hkept, ← hsame]
    exact Truth.joined_singleton logic _

theorem regroups_flatMap (logic : Logic) (h : List.Forall₂ SaysKept fs keeps) :
    ∃ ws, toWheres (fs.flatMap (partsUnder logic)) = .ok ws ∧ Regroups logic ws keeps := by
  induction h with
  | nil => exact ⟨[], rfl, .nil⟩
  | cons hfirst _ ih =>
    obtain ⟨ws, hws, hregroups⟩ := regroups_partsUnder logic hfirst
    obtain ⟨us, hus, hregroups'⟩ := ih
    exact ⟨ws ++ us, toWheres_append hws hus, hregroups.append hregroups'⟩

/-- A flattened group says what the group says that keeps its items. -/
theorem saysKept_combine (h : List.Forall₂ SaysKept fs keeps)
    (hkept : NonemptyFilter (groupOf logic keeps)) :
    SaysKept (combine logic fs) (groupOf logic keeps) := by
  obtain ⟨hne, hitems⟩ := Where.accepted_group.mp (Where.nonemptyFilter_iff.mp hkept).1
  obtain ⟨ws, hws, hregroups⟩ := regroups_flatMap logic h
  have hne' : ws ≠ [] :=
    List.length_pos_iff.mp (Nat.lt_of_lt_of_le (List.length_pos_iff.mpr hne) hregroups.length_le)
  refine ⟨groupOf logic ws, by rw [toWhere_combine, hws]; rfl,
    Where.nonemptyFilter_iff.mpr ⟨Where.accepted_group.mpr ⟨hne', hregroups.each⟩, rfl⟩,
    fun db row => ?_⟩
  rw [Where.eval_group hregroups.each, Where.eval_group hitems]
  exact hregroups.same db row

theorem saysKept_buildAll : ∀ {parts : List (Expression Value)} {keeps : List Value},
    nestedAll parts = .ok keeps → (∀ kept ∈ keeps, NonemptyFilter kept) →
    (∀ e ∈ parts, ∀ {kept}, e.nested = .ok kept → NonemptyFilter kept →
      ∃ f, e.build = .ok f ∧ SaysKept f kept) →
    ∃ fs, buildAll parts = .ok fs ∧ List.Forall₂ SaysKept fs keeps
  | [], _, h, _, _ => by
    cases h
    exact ⟨[], rfl, .nil⟩
  | e :: rest, _, h, hkeeps, ih => by
    obtain ⟨first, hfirst, h⟩ := bind_eq_ok.mp h
    obtain ⟨others, hothers, h⟩ := bind_eq_ok.mp h
    cases h
    obtain ⟨hkept, hrest⟩ := List.forall_mem_cons.mp hkeeps
    obtain ⟨f, hf, hsays⟩ := ih e List.mem_cons_self hfirst hkept
    obtain ⟨fs, hfs, hall⟩ :=
      saysKept_buildAll hothers hrest fun e he => ih e (List.mem_cons_of_mem _ he)
    exact ⟨f :: fs, buildAll_cons.mpr ⟨f, fs, hf, hfs, rfl⟩, .cons hsays hall⟩

/-- What is built says what the mapping says that keeps all groups. -/
theorem saysKept_build (e : Expression Value) : ∀ {kept}, e.nested = .ok kept →
    NonemptyFilter kept → ∃ f, e.build = .ok f ∧ SaysKept f kept := by
  induction e using Expression.induction_connectives with
  | leaf e he =>
    intro kept h hkept
    rw [nested_leaf he] at h
    obtain ⟨f, hf, hw⟩ := Expression.toWhere_eq_ok.mp h
    exact ⟨f, hf, kept, hw, hkept, fun _ _ => rfl⟩
  | both logic left right ihLeft ihRight =>
    intro kept h hkept
    obtain ⟨first, hfirst, h⟩ := bind_eq_ok.mp h
    obtain ⟨second, hsecond, h⟩ := bind_eq_ok.mp h
    cases h
    have hitems := (Where.accepted_group.mp (Where.nonemptyFilter_iff.mp hkept).1).2
    simp only [List.forall_mem_cons] at hitems
    obtain ⟨f, hf, hsays⟩ := ihLeft hfirst hitems.1
    obtain ⟨g, hg, hsays'⟩ := ihRight hsecond hitems.2.1
    exact ⟨_, Expression.build_both.mpr ⟨f, g, hf, hg, hsays.isExpression, rfl⟩,
      saysKept_combine (.cons hsays (.cons hsays' .nil)) hkept⟩
  | invert inner ih =>
    intro kept h hkept
    obtain ⟨inside, hinside, h⟩ := bind_eq_ok.mp h
    cases h
    have hfilter := Where.accepted_negation.mp (Where.nonemptyFilter_iff.mp hkept).1
    obtain ⟨f, hf, hsays⟩ := ih hinside hfilter
    have hexpression : f.isExpression = true := hsays.isExpression
    obtain ⟨w, hw, hfilter', hsame⟩ := hsays
    refine ⟨_, Expression.build_invert.mpr ⟨f, hf, hexpression, rfl⟩,
      .mapping [(.str "not", w)], by rw [toWhere, hw]; rfl,
      Where.nonemptyFilter_iff.mpr ⟨Where.accepted_negation.mpr hfilter', rfl⟩, fun db row => ?_⟩
    rw [Where.eval_negation hfilter', Where.eval_negation hfilter, hsame]
  | combine word parts ih =>
    intro kept h hkept
    obtain ⟨items, hitems, h⟩ := bind_eq_ok.mp h
    obtain ⟨logic, hlogic, h⟩ := bind_eq_ok.mp h
    cases h
    have heach := (Where.accepted_group.mp (Where.nonemptyFilter_iff.mp hkept).1).2
    obtain ⟨fs, hfs, hall⟩ := saysKept_buildAll hitems heach ih
    exact ⟨_, Expression.build_combine.mpr ⟨fs, logic, hfs, hlogic, rfl⟩,
      saysKept_combine hall hkept⟩

/-- If the mapping that keeps all groups is accepted, the flattened one is, and they have the same
truth about every row. -/
theorem flattening_keeps_truth {e : Expression Value} (h : e.nested = .ok kept)
    (hkept : Accepted kept) : ∃ w, e.toWhere = .ok w ∧ Accepted w ∧
      ∀ db row, truth? db row w = truth? db row kept := by
  have hfilter : NonemptyFilter kept := Where.nonemptyFilter_iff.mpr ⟨hkept, truthy_of_nested h⟩
  obtain ⟨f, hf, w, hw, hfilter', hsame⟩ := saysKept_build e h hfilter
  have haccepted : Accepted w := (Where.nonemptyFilter_iff.mp hfilter').1
  refine ⟨w, Expression.toWhere_eq_ok.mpr ⟨f, hf, hw⟩, haccepted, fun db row => ?_⟩
  rw [Where.truth?_of_accepted haccepted, Where.truth?_of_accepted hkept, hsame]

end Filter
end RowMapper
