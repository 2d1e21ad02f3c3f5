import RowMapper.Proofs.Entity.Joining
import RowMapper.Proofs.Entity.Partial
import RowMapper.Proofs.Finder.Options

/-!
# The same lookup again

A value that lies on the shelf is the same value in each of its places, so a lookup by it comes to
the same from wherever it was taken.  Two such lookups from one world are reported in the same
words, sent with the same text and answered alike, and entities are made of the answer without a
look at what was sent (`IgnoresTrace`).  So the same entity is found, and the two worlds differ in
their traces and in nothing else (`findOne_again`).
-/
namespace RowMapper

open Model (Mapper)

/-! ## 1. The same statement -/

namespace Engine

/-- Other parameters change the trace and nothing else. -/
theorem execute_again (c : Connection) (text : String) (params params' : List Value)
    (seen seen' : List View) : c.execute text params' seen' =
      ((c.execute text params seen).1, { (c.execute text params seen).2 with
        trace := (c.execute text params' seen').2.trace }) := by
  unfold Connection.execute
  split <;> rfl

/-- A statement that is reported in the same words is answered alike. -/
theorem query_again {o : Observer} {text : String} {params params' : List Value} {e e' : Engine}
    {answer : Answer}
    (hmessage : statementMessage o text params' = statementMessage o text params)
    (h : (query o text params).runOn e = (.ok answer, e')) :
    ∃ trace, (query o text params').runOn e =
      (.ok answer, { e' with connection := { e'.connection with trace } }) := by
  obtain ⟨_, e₁, hreported, h⟩ := Action.runOn_bind_eq_ok.mp h
  obtain ⟨reply, e₂, hsend, h⟩ := Action.runOn_bind_eq_ok.mp h
  rw [send_runOn] at hsend
  cases hsend
  have hagain := execute_again e₁.connection text params params' (params.map o.view)
    (params'.map o.view)
  rw [query, hmessage, Action.runOn_bind_ok hreported, Action.runOn_bind_ok (send_runOn ..), hagain]
  generalize (e₁.connection.execute text params' (params'.map o.view)).2.trace = trace
  cases hreply : (e₁.connection.execute text params (params.map o.view)).1 with
  | error refusal =>
    rw [hreply] at h
    cases refusal <;> cases h
  | ok reply =>
    rw [hreply] at h
    cases h
    exact ⟨trace, rfl⟩

end Engine

namespace World

variable {α β γ : Type} {w t u : World} {shape : Shape} {o : FindOptions} {m : Mapper}
  {key x x' v : Value} {column session : String} {model : Nat} {excluded : List String}
  {f : Sql.Fragment} {limit offset : Option Int}

/-! ## 2. What does not depend on the trace -/

/-- The world with another trace. -/
def retraced (trace : List Exchange) (w : World) : World :=
  { w with engine := { w.engine with connection := { w.engine.connection with trace } } }

/-- An action neither reads the trace nor changes it. -/
def IgnoresTrace (action : Action World α) : Prop :=
  ∀ trace w, action.runOn (w.retraced trace) =
    ((action.runOn w).1, (action.runOn w).2.retraced trace)

namespace IgnoresTrace

theorem pure (a : α) : IgnoresTrace (Pure.pure a) := fun _ _ => rfl

theorem throw (fault : Fault) : IgnoresTrace (MonadExcept.throw fault : Action World α) :=
  fun _ _ => rfl

theorem ofExcept (outcome : Except Fault α) : IgnoresTrace (Action.ofExcept outcome) := by
  intro trace w
  rw [Action.runOn_ofExcept, Action.runOn_ofExcept]

theorem bind {action : Action World α} {next : α → Action World β} (h : IgnoresTrace action)
    (hnext : ∀ a, IgnoresTrace (next a)) : IgnoresTrace (action >>= next) := by
  intro trace w
  rw [Action.runOn_bind, Action.runOn_bind, h]
  rcases action.runOn w with ⟨fault | a, t⟩
  · rfl
  · exact hnext a trace t

/-- What is read of a world may be anything but the trace. -/
theorem get_bind {next : World → Action World α} (hnext : ∀ w, IgnoresTrace (next w))
    (hsame : ∀ trace w, next (w.retraced trace) = next w) : IgnoresTrace (get >>= next) := by
  intro trace w
  rw [Action.runOn_bind_ok (Action.runOn_get _), Action.runOn_bind_ok (Action.runOn_get _), hsame]
  exact hnext w trace w

theorem mapM {items : List γ} {action : γ → Action World α}
    (h : ∀ item, IgnoresTrace (action item)) : IgnoresTrace (items.mapM action) := by
  induction items with
  | nil => exact pure _
  | cons item rest ih =>
    rw [List.mapM_cons]
    exact (h item).bind fun _ => ih.bind fun _ => pure _

end IgnoresTrace

theorem holdAttribute_ignoresTrace (ref : EntityRef) (name value : Value) :
    IgnoresTrace (holdAttribute ref name value) := fun _ _ => rfl

theorem setAttribute_ignoresTrace (ref : EntityRef) (name : String) (value : Value) :
    IgnoresTrace (setAttribute ref name value) := by
  refine .get_bind (fun w => ?_) fun _ _ => rfl
  split
  · exact .bind (.throw _) fun _ => holdAttribute_ignoresTrace ref _ value
  · exact holdAttribute_ignoresTrace ref _ value

theorem setEntries_ignoresTrace (ref : EntityRef) (entries : Entries) :
    IgnoresTrace (setEntries ref entries) := by
  induction entries with
  | nil => exact .pure _
  | cons entry rest ih =>
    rw [setEntries]
    split
    · exact .bind (setAttribute_ignoresTrace ref _ _) fun _ => ih
    · exact .throw _

theorem hydrate_ignoresTrace (model : Nat) (session : String) (excluded : List String) (row : Row) :
    IgnoresTrace (hydrate model session excluded row) := by
  rw [hydrate_eq]
  refine .get_bind (fun w => ?_) fun _ _ => rfl
  exact .bind (fun _ _ => rfl) fun ref => .bind (setEntries_ignoresTrace ref _) fun _ =>
    .bind (fun _ _ => rfl) fun _ => .pure _

/-! ## 3. Another value in the same place -/

/-- A filter of one entry says what it says if the key is a text. -/
theorem readFilter_one (hkey : Field.text key = .ok column) (x : Value) :
    FindOptions.readFilter (.mapping [(key, x)]) = .ok [(column, x)] := by
  rw [Value.mapping, FindOptions.readFilter, FindOptions.filterEntries, hkey]
  rfl

theorem text_of_readFilter {d : Dictionary Value}
    (h : FindOptions.readFilter (.mapping [(key, x)]) = .ok d) :
    ∃ column, Field.text key = .ok column := by
  rw [Value.mapping, FindOptions.readFilter, FindOptions.filterEntries] at h
  cases hkey : Field.text key with
  | error kind =>
    rw [hkey] at h
    cases h
  | ok column => exact ⟨column, rfl⟩

/-- Options that ask for one value of a column are read in the same way with any other value. -/
theorem relatedOptions_again (h : relatedOptions (.mapping [(key, x)]) shape = .ok o) :
    ∃ column, o.filter = [(column, x)] ∧ ∀ x', relatedOptions (.mapping [(key, x')]) shape =
      .ok { o with filter := [(column, x')] } := by
  obtain ⟨hread, hunknown, hpaging⟩ := FindOptions.check_eq_ok h
  obtain ⟨htook, hgiven⟩ := FindOptions.took_of_readAll hread
  obtain ⟨given, hvalue, hfilter⟩ := htook .filter
  cases hvalue
  obtain ⟨column, hkey⟩ := text_of_readFilter hfilter
  refine ⟨column, Except.ok.inj (hfilter.symm.trans (readFilter_one hkey x)), fun x' => ?_⟩
  refine FindOptions.check_of_took (fun name => ?_) hgiven hunknown hpaging
  cases name with
  | filter => exact ⟨_, rfl, readFilter_one hkey x'⟩
  | attributes => exact htook .attributes
  | exclude => exact htook .exclude
  | limit => exact htook .limit
  | offset => exact htook .offset
  | order => exact htook .order
  | group => exact htook .group

theorem isScalar_of_datum (hx : x.unplaced.isDatum = true) (hnull : x.isNull = false) :
    Where.IsScalar x := by
  cases x <;> first
    | cases hnull; done
    | cases hx; done
    | exact ⟨nofun, nofun, rfl⟩

/-- A filter with one value is accepted if it compares a column with the value. -/
theorem compile_scalar (hx : Where.IsScalar x)
    (h : Where.compile (.mapping [(.str column, x)]) = .ok f) :
    f = Where.compileConjunction [.compare column .eq x] ∧ ∀ x', Where.IsScalar x' →
      Where.compile (.mapping [(.str column, x')]) =
        .ok (Where.compileConjunction [.compare column .eq x']) := by
  obtain ⟨cs, hcs, rfl⟩ := Where.compile_mapping.mp h
  obtain ⟨first, others, hfirst, hothers, rfl⟩ := Where.conditions_cons.mp hcs
  cases hothers
  rw [List.append_nil]
  cases hrole : Where.roleOf (.str column) with
  | join logic =>
    rw [hrole] at hfirst
    obtain ⟨items, -, hitems, -⟩ := Where.entryConditions_join.mp hfirst
    cases hx.notSequence.symm.trans hitems
  | negation =>
    rw [hrole] at hfirst
    obtain ⟨entries, place, -, hmapping, -⟩ := Where.entryConditions_negation.mp hfirst
    exact absurd hmapping (hx.notMapping entries place)
  | column =>
    rw [hrole, Where.entryConditions_column] at hfirst
    obtain ⟨name, hname, -⟩ := Where.columnConditions_eq_ok.mp hfirst
    obtain rfl : column = name := (Where.safeName_eq_ok.mp hname).2.2.symm
    have hcompared {x' : Value} (hx' : Where.IsScalar x') :
        Where.columnConditions (.str column) x' = .ok [.compare column .eq x'] :=
      Where.columnConditions_eq_ok.mpr
        ⟨column, hname, Where.negatedColumn_eq_ok.mpr (.inr (.inr ⟨hx', rfl⟩))⟩
    rw [Except.ok.inj (hfirst.symm.trans (hcompared hx))]
    refine ⟨rfl, fun x' hx' => Where.compile_mapping.mpr
      ⟨_, Where.conditions_cons.mpr ⟨_, [], ?_, rfl, List.append_nil _⟩, rfl⟩⟩
    rw [hrole, Where.entryConditions_column, hcompared hx']

/-- A selection by one value of a column is written in the same way with any other value. -/
theorem selection_again (hx : Where.IsScalar x)
    (h : selection m { o with filter := [(column, x)] } limit offset = .ok f) :
    ∃ text, f = ⟨text, [x]⟩ ∧ ∀ x', Where.IsScalar x' →
      selection m { o with filter := [(column, x')] } limit offset = .ok ⟨text, [x']⟩ := by
  obtain ⟨part, hpart, hstatement⟩ := bind_eq_ok.mp h
  obtain ⟨rfl, hother⟩ := compile_scalar hx (orFault_eq_ok.mp hpart)
  obtain ⟨table, htable, hstatement⟩ := bind_eq_ok.mp hstatement
  obtain ⟨columns, hcolumns, hstatement⟩ := bind_eq_ok.mp hstatement
  obtain ⟨group, hgroup, hstatement⟩ := bind_eq_ok.mp hstatement
  obtain ⟨order, horder, hstatement⟩ := bind_eq_ok.mp hstatement
  obtain ⟨paging, hpaging, hstatement⟩ := bind_eq_ok.mp hstatement
  obtain rfl := pure_eq_ok.mp hstatement
  simp only [wherePart_equality]
  refine ⟨_, rfl, fun x' hx' => ?_⟩
  refine bind_eq_ok.mpr ⟨_, orFault_eq_ok.mpr (hother x' hx'), ?_⟩
  refine bind_eq_ok.mpr ⟨table, htable, bind_eq_ok.mpr ⟨columns, hcolumns, ?_⟩⟩
  refine bind_eq_ok.mpr ⟨group, hgroup, bind_eq_ok.mpr ⟨order, horder, ?_⟩⟩
  refine bind_eq_ok.mpr ⟨paging, hpaging, ?_⟩
  simp only [wherePart_equality]
  rfl

/-! ## 4. Asking again -/

/-- A value is reported as it reads without a place. -/
theorem literal_unplaced (w : World) (x : Value) :
    w.literal (.list [x]) = w.literal (.list [x.unplaced]) := by
  cases x <;> rfl

/-- Two runs from one world send one statement each, with the same text and the same value, and are
answered alike. -/
theorem query_again {text : String} {answer : Answer} (hx : w.shelf.Scalar x)
    (hx' : w.shelf.Scalar x') (hsame : x'.unplaced = x.unplaced)
    (h : (query ⟨text, [x]⟩).runOn w = (.ok answer, t)) : ∃ e e' : Exchange,
      t.trace = w.trace ++ [e] ∧ e.call = .statement text [x] ∧
      (query ⟨text, [x']⟩).runOn w = (.ok answer, t.retraced (w.trace ++ [e'])) ∧
      e'.call = .statement text [x'] ∧ e'.result = e.result := by
  have hexpand {x : Value} (hx : w.shelf.Scalar x) : [x].map w.expand = [x] := by
    rw [List.map_singleton, show w.expand x = x from hx.replaceShared_eq _]
  have hmessage : Engine.statementMessage w.observer text [x'] =
      Engine.statementMessage w.observer text [x] := by
    have hliteral : w.observer.literal (.list [x']) = w.observer.literal (.list [x]) := by
      show w.literal _ = w.literal _
      rw [literal_unplaced, hsame, ← literal_unplaced]
    rw [Engine.statementMessage, Engine.statementMessage, hliteral]
    rfl
  obtain ⟨e, htrace, hcall, hresult⟩ := query_exchanged h
  have hagain : ∃ trace, (query ⟨text, [x']⟩).runOn w = (.ok answer, t.retraced trace) := by
    rw [query, Action.runOn_bind_ok (Action.runOn_get w), onEngine_runOn] at h ⊢
    rw [hexpand hx] at h
    rw [hexpand hx']
    rcases hengine : (Engine.query w.observer text [x]).runOn w.expectantEngine with ⟨outcome, c⟩
    rw [hengine] at h
    cases h
    obtain ⟨trace, hengine'⟩ := Engine.query_again hmessage hengine
    rw [hengine']
    exact ⟨trace, rfl⟩
  obtain ⟨trace, hagain⟩ := hagain
  obtain ⟨e', htrace', hcall', hresult'⟩ := query_exchanged hagain
  obtain rfl : trace = w.trace ++ [e'] := htrace'
  rw [hexpand hx] at hcall
  rw [hexpand hx'] at hcall'
  exact ⟨e, e', htrace, hcall, hagain, hcall', hresult'.trans hresult.symm⟩

/-- Selections by the same value make the same entities. -/
theorem select_again {text : String} {refs : List EntityRef} (hx : w.shelf.Scalar x)
    (hx' : w.shelf.Scalar x') (hsame : x'.unplaced = x.unplaced)
    (h : (select session model excluded ⟨text, [x]⟩).runOn w = (.ok refs, u)) : ∃ e e' : Exchange,
      u.trace = w.trace ++ [e] ∧ e.call = .statement text [x] ∧
      (select session model excluded ⟨text, [x']⟩).runOn w =
        (.ok refs, u.retraced (w.trace ++ [e'])) ∧
      e'.call = .statement text [x'] ∧ e'.result = e.result := by
  have htrace := select_trace session model excluded ⟨text, [x]⟩ w
  rw [h] at htrace
  obtain ⟨answer, t, hquery, h⟩ := Action.runOn_bind_eq_ok.mp h
  rw [hquery] at htrace
  obtain ⟨e, e', hsent, hcall, hagain, hcall', hresult⟩ := query_again hx hx' hsame hquery
  have hmade : IgnoresTrace (Action.ofExcept (rowsOf answer) >>= fun rows =>
      rows.mapM (hydrate model session excluded)) :=
    .bind (.ofExcept _) fun _ => .mapM (hydrate_ignoresTrace model session excluded)
  refine ⟨e, e', htrace.trans hsent, hcall, ?_, hcall', hresult⟩
  rw [select, Action.runOn_bind_ok hagain, hmade _ t, h]

/-- What came of the value of a foreign key in two runs from one world: nothing is asked and nothing
found where it is null, and otherwise both send one lookup of it, which is answered alike, and find
something if a row was answered. -/
inductive Followed (v : Value) (before : List Exchange) :
    List Exchange → List Exchange → Option EntityRef → Prop
  | nowhere (h : v.isNull = true) : Followed v before before before none
  | lookup {text : String} {e e' : Exchange} {found : Option EntityRef} (h : v.isNull = false)
      (hone : Seeks text v e) (hother : Seeks text v e') (hresult : e'.result = e.result)
      (hfound : found.isSome = (firstRow? e).isSome) :
      Followed v before (before ++ [e]) (before ++ [e']) found

/-- Nothing is sent just if the foreign key is null. -/
theorem Followed.quiet_iff {before after after' : List Exchange} {found : Option EntityRef}
    (h : Followed v before after after' found) : after = before ↔ v.isNull = true := by
  cases h with
  | nowhere h => simp [h]
  | lookup h _ _ _ _ => simp [h]

/-- Looking a row up by the same value finds the same entity. -/
theorem findOne_again {found : Option EntityRef} (hx : w.shelf.Scalar x) (hx' : w.shelf.Scalar x')
    (hv : x.unplaced = v) (hv' : x'.unplaced = v) (hnull : v.isNull = false)
    (h : (findOne session model { o with filter := [(column, x)] }).runOn w = (.ok found, u)) :
    ∃ trace, (findOne session model { o with filter := [(column, x')] }).runOn w =
        (.ok found, u.retraced trace) ∧ Followed v w.trace u.trace trace found := by
  have hscalar {x : Value} (hx : w.shelf.Scalar x) (hv : x.unplaced = v) : Where.IsScalar x :=
    isScalar_of_datum hx.datum (by rw [← x.isNull_unplaced, hv, hnull])
  obtain ⟨m, _, hread, -⟩ := Action.runOn_bind_eq_ok.mp h
  obtain ⟨hm, -⟩ := reading_eq_ok.mp hread
  rw [findOne_filtered hm (List.cons_ne_nil _ _)] at h ⊢
  obtain ⟨f, _, hstatement, hrun⟩ := Action.runOn_bind_eq_ok.mp h
  obtain ⟨hf, rfl⟩ := ofExcept_eq_ok.mp hstatement
  obtain ⟨refs, u, hselect, hlast⟩ := Action.runOn_bind_eq_ok.mp hrun
  cases hlast
  obtain ⟨text, rfl, hother⟩ := selection_again (hscalar hx hv) hf
  obtain ⟨e, e', htrace, hcall, hagain, hcall', hresult⟩ :=
    select_again hx hx' (hv'.trans hv.symm) hselect
  have hfound : refs.head?.isSome = (firstRow? e).isSome := by
    obtain ⟨rows, ⟨read, hread, -, hrows⟩, hmade⟩ := select_brought hm hf hselect
    cases List.append_cancel_left (hread.symm.trans htrace)
    rw [firstRow?, hrows]
    cases hmade <;> rfl
  refine ⟨w.trace ++ [e'], ?_,
    htrace ▸ .lookup hnull ⟨x, hcall, hv⟩ ⟨x', hcall', hv'⟩ hresult hfound⟩
  rw [hother x' (hscalar hx' hv')]
  exact Action.runOn_bind_ok hagain

end World
end RowMapper
