import RowMapper.Proofs.Value.Plain
import RowMapper.Proofs.Where.Binding
import RowMapper.Proofs.Where.Refusal

/-!
# Plain filters

Everything that a plain filter binds is plain, and so is everything that its rejection shows.  Hence
a plain filter that is rejected is rejected in words, in every world.
-/
namespace RowMapper.Where

variable {x v : Value}

theorem Within.isPlain (h : Within x v) (hv : v.IsPlain) : x.IsPlain := by
  induction h with
  | here => exact hv
  | key hmem _ ih =>
    cases hv with
    | mapping hkeys _ => exact ih (hkeys _ hmem)
  | value hmem _ ih =>
    cases hv with
    | mapping _ hvalues => exact ih (hvalues _ hmem)
  | item hsequence hmem _ ih =>
    cases hv <;> cases hsequence
    · next hitems => exact ih (hitems _ hmem)
    · next hitems => exact ih (hitems _ hmem)

/-! ## 1. Leaves -/

theorem within_of_mem_sequence (hx : x ∈ v.sequence?.getD []) :
    Within x v := by
  cases hitems : v.sequence? with
  | none =>
    rw [hitems] at hx
    cases hx
  | some items =>
    rw [hitems] at hx
    exact .item hitems hx .here

theorem within_of_mem_operandLeaves {op : Operator} (hx : x ∈ operandLeaves op v) :
    Within x v := by
  unfold operandLeaves at hx
  split at hx
  · cases hx
  · exact List.mem_singleton.mp hx ▸ .here
  · exact within_of_mem_sequence hx
  · exact within_of_mem_sequence hx
  · cases hx

theorem within_of_mem_columnLeaves
    (ih : ∀ entries place, v = .mappingAt entries place →
      ∀ x ∈ operatorLeaves entries, WithinEntries x entries)
    (hx : x ∈ columnLeaves v) : Within x v := by
  cases v with
  | mappingAt entries place => exact (ih entries place rfl x hx).mapping
  | null => cases hx
  | _ => exact List.mem_singleton.mp hx ▸ .here

theorem within_of_mem_operatorLeaves (entries : Entries) :
    ∀ x ∈ operatorLeaves entries, WithinEntries x entries := by
  induction entries using entries_induction with
  | nil => exact List.forall_mem_nil _
  | cons operator operand rest ihMapping _ ihRest =>
    intro x hx
    have hoperand (h : Within x operand) : WithinEntries x ((operator, operand) :: rest) :=
      ⟨operator, operand, List.mem_cons_self, .inr h⟩
    rw [operatorLeaves, List.mem_append] at hx
    rcases hx with hx | hx
    · split at hx
      · exact hoperand (within_of_mem_columnLeaves ihMapping hx)
      · exact hoperand (within_of_mem_operandLeaves hx)
      · cases hx
    · exact (ihRest x hx).cons

theorem within_of_mem_itemLeaves {items : List Value}
    (ih : ∀ entries place, Value.mappingAt entries place ∈ items →
      ∀ x ∈ entryLeaves entries, WithinEntries x entries)
    (hx : x ∈ itemLeaves items) : ∃ item ∈ items, Within x item := by
  induction items with
  | nil => cases hx
  | cons item rest ihRest =>
    have hrest (h : x ∈ itemLeaves rest) : ∃ other ∈ item :: rest, Within x other := by
      obtain ⟨other, hother, hin⟩ :=
        ihRest (fun entries place hmem => ih entries place (List.mem_cons_of_mem _ hmem)) h
      exact ⟨other, List.mem_cons_of_mem _ hother, hin⟩
    cases item with
    | mappingAt entries place =>
      rw [itemLeaves, List.mem_append] at hx
      rcases hx with hx | hx
      · exact ⟨_, List.mem_cons_self, (ih entries place List.mem_cons_self x hx).mapping⟩
      · exact hrest hx
    | _ => exact hrest hx

theorem within_of_mem_roleLeaves {role : Role}
    (ihMapping : ∀ entries place, v = .mappingAt entries place →
      ∀ x ∈ entryLeaves entries, WithinEntries x entries)
    (ihItems : ∀ items, v.sequence? = some items → ∀ entries place,
      Value.mappingAt entries place ∈ items → ∀ x ∈ entryLeaves entries, WithinEntries x entries)
    (hx : x ∈ roleLeaves role v) : Within x v := by
  have hcolumn (h : x ∈ columnLeaves v) : Within x v :=
    within_of_mem_columnLeaves (fun entries _ _ => within_of_mem_operatorLeaves entries) h
  have hitems {items : List Value} (hsequence : v.sequence? = some items)
      (h : x ∈ itemLeaves items) : Within x v := by
    obtain ⟨item, hitem, hin⟩ := within_of_mem_itemLeaves (ihItems items hsequence) h
    exact .item hsequence hitem hin
  cases role with
  | column => exact hcolumn (roleLeaves_column v ▸ hx)
  | join logic =>
    cases v with
    | listAt items place => exact hitems rfl hx
    | tupleAt items place => exact hitems rfl hx
    | _ => cases hx
  | negation =>
    cases v with
    | mappingAt entries place => exact (ihMapping entries place rfl x hx).mapping
    | _ => cases hx

theorem within_of_mem_entryLeaves (entries : Entries) :
    ∀ x ∈ entryLeaves entries, WithinEntries x entries := by
  induction entries using entries_induction with
  | nil => exact List.forall_mem_nil _
  | cons key value rest ihMapping ihItems ihRest =>
    intro x hx
    rw [entryLeaves, List.mem_append] at hx
    rcases hx with hx | hx
    · exact ⟨key, value, List.mem_cons_self, .inr (within_of_mem_roleLeaves ihMapping ihItems hx)⟩
    · exact (ihRest x hx).cons

/-- Every value that is bound in a filter stands in it. -/
theorem within_of_mem_leaves (hx : x ∈ leaves v) : Within x v := by
  cases v with
  | mappingAt entries place => exact (within_of_mem_entryLeaves entries x hx).mapping
  | _ => cases hx

/-! ## 2. Compiling -/

/-- What is bound in a plain filter is plain. -/
theorem params_isPlain {f : Sql.Fragment} (h : compile v = .ok f) (hv : v.IsPlain) :
    ∀ x ∈ f.params, x.IsPlain := by
  intro x hx
  rw [← leaves_eq_params h] at hx
  exact (within_of_mem_leaves hx).isPlain hv

/-- The rejection of a plain filter can be put into words. -/
theorem inWords_of_plain {why : Rejection} (h : compile v = .error why) (hv : v.IsPlain)
    (w : World) : ∃ text, (Fault.rejected why).inWords w.literal = (.rejected why, some text) := by
  refine (inWords_rejected w.literal why).resolve_right ?_
  rintro ⟨x, u, hx, hu, -⟩
  obtain ⟨text, htext⟩ := ((compile_blames v why h x hx).isPlain hv).literal_isOk w
  cases hu.symm.trans htext

end RowMapper.Where
