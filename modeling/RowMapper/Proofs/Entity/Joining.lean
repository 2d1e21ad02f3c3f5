import RowMapper.Proofs.Entity.Related
import RowMapper.Proofs.Where.Equality

/-!
# Loading through a joining table

A many-to-many relation is loaded in two rounds: the rows of the joining table that belong to the
owner are selected, and then, for each of them that names a row of the target, that row is looked
up.  As long as the replies are rows of which entities can be made, this is all that is sent, and
the related entities are those of the first rows of the replies, in their order
(`many_to_many_loading_is_exact`).
-/
namespace RowMapper

open Model (Association Column Mapper)

namespace World

variable {owner r : EntityRef} {relation held v : Value} {w t u w' : World} {shape : Shape}
  {o : FindOptions} {a : Association} {session columns : String} {row : Row}

/-! ## 1. What leads to the target -/

/-- The classes, tables and columns that a many-to-many relation leads through. -/
structure Crossing where
  through : Nat
  target : Nat
  joinTable : String
  foreignKey : String
  otherKey : String
  targetTable : String
  key : String

namespace Crossing

/-- The table of a class has a safe name. -/
def Stored (model : Nat) (table : String) (w : World) : Prop :=
  ∃ m, w.mapper model = .ok m ∧ Sql.safeName m.tableName = .ok table

/-- A value names a column by a safe name that is no word of a filter. -/
structure Names (v : Value) (column : String) : Prop where
  text_eq : v.text? = some column
  safe : Sql.safeName (.str column) = .ok column
  no_word : column ∉ ["and", "or", "not"]

/-- An association leads through classes, tables and columns.  Their names are safe, the joining
class has nothing but a column under the name of the other key, and the association can be named in
a report. -/
structure Describes (c : Crossing) (a : Association) (w : World) : Prop where
  through_eq : resolvedModel a.resolvedThrough = .ok c.through
  target_eq : resolvedModel a.resolved = .ok c.target
  kind_eq : ∃ through otherKey key, a.kind = .belongsToMany through otherKey key ∧
    Names otherKey c.otherKey ∧ Names key c.key
  foreignKey_names : Names a.foreignKey c.foreignKey
  join_stored : Stored c.through c.joinTable w
  target_stored : Stored c.target c.targetTable w
  other_column : ∀ found, w.registry.attribute? (w.registry.classAt c.through).ref.id c.otherKey =
    some found → ∃ index, found = .column index
  reported : ∀ u : World, ∃ text, u.display a.name = .ok text

/-- What a row of the joining table says of the target. -/
def otherValue (c : Crossing) (row : Row) : Value :=
  ((Dictionary.ofList row).get? c.otherKey).getD .null

/-- The keys that are looked up for rows of the joining table. -/
def others (c : Crossing) (rows : List Row) : List Value :=
  (rows.map c.otherValue).filter fun v => !v.isNull

theorem Stored.grows {model : Nat} {table : String} (h : Stored model table w)
    (hgrows : Grows w t) : Stored model table t := by
  obtain ⟨m, hm, hname⟩ := h
  obtain ⟨m', hm', hname', -⟩ := mapper_later hm (.of_registry hgrows.registry_eq)
    hgrows.shelf_prefix hname
  exact ⟨m', hm', hname'⟩

theorem Describes.grows {c : Crossing} (h : c.Describes a w) (hgrows : Grows w t) :
    c.Describes a t :=
  { h with
    join_stored := h.join_stored.grows hgrows
    target_stored := h.target_stored.grows hgrows
    other_column := by rw [hgrows.registry_eq]; exact h.other_column }

end Crossing

variable {c : Crossing}

/-- An exchange asks for the rows with a value in a column. -/
def Seeks (text : String) (v : Value) (x : Exchange) : Prop :=
  ∃ sent, x.call = .statement text [sent] ∧ sent.unplaced = v

/-- What is loaded of a reply: its first row. -/
def firstRow? (x : Exchange) : Option Row :=
  match x.result with
  | .ok (.rows rows) => rows.head?
  | _ => none

/-- A reply answers rows of which entities of a class can be made, some columns left out. -/
def Brings (r : Model.Registry) (model : Nat) (excluded : List String) (x : Exchange) : Prop :=
  ∃ rows, x.result = .ok (.rows rows) ∧ ∀ row ∈ rows, Free r model (kept excluded row)

/-! ## 2. The rows of the joining table -/

theorem kept_null (s : Shelf) : s.Kept .null .null := ⟨[], [], rfl, List.nil_prefix⟩

/-- An entity has no attribute for a column that its row does not have. -/
theorem Mirrors.get?_eq_none {d : Dictionary Value} {name : String} (h : Mirrors d r w)
    (hnone : d.get? name = none) : Entries.get? (w.entityAt r).attributes (.str name) = none := by
  obtain ⟨held, hattributes, halike⟩ := h
  have hvalue := halike.get? name
  rw [hattributes, Entries.get?_ofNamed]
  rw [hnone] at hvalue
  generalize Dictionary.get? held name = found at hvalue ⊢
  cases hvalue
  rfl

/-- What an entity of a joining row tells of the target is what the row says. -/
theorem OfRow.foreignValue {start : Nat} {otherKey : Value}
    (h : OfRow start session c.through [] row r w) (hc : c.Describes a w)
    (hother : otherKey.text? = some c.otherKey) :
    ∃ held, foreignValue w r otherKey = .ok held ∧ w.shelf.Kept (c.otherValue row) held := by
  obtain ⟨place, rfl⟩ := Value.eq_strAt_of_text? hother
  have hread : w.readAttribute r c.otherKey = w.heldAttribute r c.otherKey := by
    have hproperty : w.property? r c.otherKey = none := by
      rw [property?, h.hydrated.model_eq]
      cases hfound : w.registry.attribute? (w.registry.classAt c.through).ref.id c.otherKey with
      | none => rfl
      | some found =>
        obtain ⟨index, rfl⟩ := hc.other_column found hfound
        rfl
    rw [readAttribute, hproperty]
  simp only [World.foreignValue, hread, heldAttribute, Crossing.otherValue]
  cases hrow : Dictionary.get? (Dictionary.ofList row) c.otherKey with
  | some v =>
    obtain ⟨held, hheld, hkept⟩ := h.hydrated.holds c.otherKey v List.not_mem_nil hrow
    rw [hheld]
    exact ⟨held, rfl, hkept⟩
  | none =>
    have hkept : kept [] row = Dictionary.ofList row := List.filter_eq_self.mpr fun _ _ => rfl
    rw [h.mirrors.get?_eq_none (hkept ▸ hrow), h.hydrated.model_eq]
    refine ⟨.null, ?_, kept_null _⟩
    -- a column that the row does not have reads as null, and so does what nothing declares
    simp only [inherited]
    cases hfound : w.registry.attribute? (w.registry.classAt c.through).ref.id c.otherKey with
    | none => rfl
    | some found =>
      obtain ⟨index, rfl⟩ := hc.other_column found hfound
      rfl

/-- Finding all rows with a value in a column: one selection is sent, and the entities of the rows
that are answered are found. -/
theorem findAll_pinned {table column : String} {name : Value} {model : Nat}
    (hstored : Crossing.Stored model table w) (hname : Crossing.Names name column)
    (hv : w.shelf.Scalar v) (hnull : v.isNull = false) (session : String) :
    ∃ x : Exchange,
      ((findAll session model (pinned column v)).runOn w).2.trace = w.trace ++ [x] ∧
      x.call = .statement (Sql.matchText "*" table column) [v] ∧
      ∀ rows, x.result = .ok (.rows rows) → (∀ row ∈ rows, Free w.registry model row) →
        ∃ refs w', (findAll session model (pinned column v)).runOn w = (.ok refs, w') ∧
          List.Forall₂ (OfRow w.entities.length session model [] · · w') rows refs := by
  obtain ⟨m, hm, htable⟩ := hstored
  have hselection : selection m (pinned column v) none none =
      .ok ⟨Sql.matchText "*" table column ++ "", [v]⟩ :=
    selection_equality (o := pinned column v) none htable hname.safe hname.no_word rfl rfl rfl rfl
      hv.datum hnull
  rw [String.append_empty] at hselection
  have hread : (reading (·.mapper model)).runOn w = (.ok m, w) := by rw [runOn_reading, hm]
  have hstatement : (Action.ofExcept (selection m (pinned column v) none none) :
      Action World Sql.Fragment).runOn w = (.ok ⟨Sql.matchText "*" table column, [v]⟩, w) := by
    rw [Action.runOn_ofExcept, hselection]
  have hrun : (findAll session model (pinned column v)).runOn w =
      (select session model [] ⟨Sql.matchText "*" table column, [v]⟩).runOn w := by
    rw [findAll, Action.runOn_bind_ok hread]
    exact Action.runOn_bind_ok hstatement
  rw [hrun]
  obtain ⟨x, hsent, hcall, hfound⟩ := select_of_scalars
    (f := ⟨Sql.matchText "*" table column, [v]⟩)
    (fun p hp => by rwa [List.mem_singleton.mp hp]) session model []
  exact ⟨x, hsent, hcall, fun rows hrows hfree =>
    hfound rows hrows fun row hrow => (hfree row hrow).kept []⟩

/-- Looking up the row with a value in a column: the lookup is sent, and the entity of the first row
that is answered is found. -/
theorem findOne_pinned {table column : String} {name : Value} {model : Nat}
    (hstored : Crossing.Stored model table w) (hname : Crossing.Names name column)
    (hv : w.shelf.Scalar v) (hnull : v.isNull = false)
    (hclauses : o.group = none ∧ o.order = none)
    (hcolumns : Sql.columnList (o.valueOf .attributes) = .ok columns) (session : String) :
    ∃ x : Exchange,
      ((findOne session model { o with filter := [(column, v)] }).runOn w).2.trace =
        w.trace ++ [x] ∧
      x.call = .statement (Sql.matchText columns table column ++ " LIMIT 1") [v] ∧
      (Brings w.registry model o.exclude x → ∃ found w',
        (findOne session model { o with filter := [(column, v)] }).runOn w = (.ok found, w') ∧
        List.Forall₂ (OfRow w.entities.length session model o.exclude · · w')
          (firstRow? x).toList found.toList) := by
  obtain ⟨m, hm, htable⟩ := hstored
  have hselection := selection_equality (some 1) htable hname.safe hname.no_word hcolumns
    hclauses.1 hclauses.2 rfl hv.datum hnull
  obtain ⟨x, htrace, hcall, hfound⟩ := select_of_scalars
    (f := ⟨Sql.matchText columns table column ++ " LIMIT 1", [v]⟩)
    (fun p hp => by rwa [List.mem_singleton.mp hp]) session model o.exclude
  have hrun : (findOne session model { o with filter := [(column, v)] }).runOn w =
      (select session model o.exclude
        ⟨Sql.matchText columns table column ++ " LIMIT 1", [v]⟩ >>= fun found =>
        pure found.head?).runOn w := by
    rw [findOne_filtered hm (List.cons_ne_nil _ _), hselection]
    rfl
  rw [hrun]
  refine ⟨x, by rwa [Action.after_bind_pure], hcall, fun ⟨rows, hrows, hfree⟩ => ?_⟩
  obtain ⟨refs, w', hselect, hrefs⟩ := hfound rows hrows hfree
  refine ⟨refs.head?, w', by rw [Action.runOn_bind_ok hselect]; rfl, ?_⟩
  rw [firstRow?, hrows]
  cases hrefs with
  | nil => exact .nil
  | cons hfirst _ => exact .cons hfirst .nil

/-! ## 3. From the joining rows to the target -/

/-- A joining row that names no row of the target. -/
theorem joined_null {start : Nat} {otherKey : Value} (key : Value) (shape : Shape)
    (h : OfRow start session c.through [] row r w) (hc : c.Describes a w)
    (hother : otherKey.text? = some c.otherKey) (hnull : (c.otherValue row).isNull = true) :
    (joined session c.target otherKey key shape r).runOn w = (.ok none, w) := by
  obtain ⟨held, hread, hkept⟩ := h.foreignValue hc hother
  have hreads : (reading (World.foreignValue · r otherKey)).runOn w = (.ok held, w) := by
    rw [runOn_reading, hread]
  rw [joined, Action.runOn_bind_ok hreads, hkept.isNull_eq, hnull]
  rfl

/-- A joining row that names a row of the target has that looked up. -/
theorem joined_datum {start : Nat} {otherKey key : Value}
    (h : OfRow start session c.through [] row r w) (hc : c.Describes a w)
    (hother : otherKey.text? = some c.otherKey) (hkey : Crossing.Names key c.key)
    (hdatum : (c.otherValue row).isDatum = true) (hnull : (c.otherValue row).isNull = false)
    (ho : relatedOptions .null shape = .ok o)
    (hcolumns : Sql.columnList (o.valueOf .attributes) = .ok columns) :
    ∃ x, ((joined session c.target otherKey key shape r).runOn w).2.trace = w.trace ++ [x] ∧
      Seeks (Sql.matchText columns c.targetTable c.key ++ " LIMIT 1") (c.otherValue row) x ∧
      (Brings w.registry c.target o.exclude x → ∃ found w',
        (joined session c.target otherKey key shape r).runOn w = (.ok found, w') ∧
        List.Forall₂ (OfRow w.entities.length session c.target o.exclude · · w')
          (firstRow? x).toList found.toList) := by
  obtain ⟨held, hread, hkept⟩ := h.foreignValue hc hother
  have hlook := Shelf.look_kept hkept hdatum
  obtain ⟨hscalar, hunplaced⟩ := Shelf.scalar_expand (hlook.symm ▸ hdatum)
  rw [hlook] at hunplaced
  have hheld : held.isNull = false := hkept.isNull_eq.trans hnull
  have hexpanded : (w.expand held).isNull = false := by
    rw [← Value.isNull_unplaced]
    exact hunplaced ▸ hnull
  obtain ⟨x, htrace, hcall, hfound⟩ := findOne_pinned hc.target_stored hkey hscalar hexpanded
    (relatedOptions_clauses ho) hcolumns session
  have hrun : (joined session c.target otherKey key shape r).runOn w =
      (findOne session c.target { o with filter := [(c.key, w.expand held)] }).runOn w := by
    have hreads : (reading (World.foreignValue · r otherKey)).runOn w = (.ok held, w) := by
      rw [runOn_reading, hread]
    have hpins : (reading fun w => pinning key (w.expand held)).runOn w =
        (.ok (.mapping [(key, w.expand held)]), w) := by
      rw [runOn_reading, pinning_text hkey.text_eq]
    have hoptions : (Action.ofExcept (relatedOptions (.mapping [(key, w.expand held)]) shape) :
        Action World FindOptions).runOn w =
          (.ok { o with filter := [(c.key, w.expand held)] }, w) := by
      rw [relatedOptions_pinned hkey.text_eq ho]
      rfl
    rw [joined, Action.runOn_bind_ok hreads, hheld]
    show (reading (fun w => pinning key (w.expand held)) >>= _).runOn w = _
    rw [Action.runOn_bind_ok hpins]
    exact Action.runOn_bind_ok hoptions
  rw [hrun]
  exact ⟨x, htrace, ⟨_, hcall, hunplaced⟩, hfound⟩

theorem Crossing.others_cons (c : Crossing) (row : Row) (rest : List Row) :
    c.others (row :: rest) =
      if (c.otherValue row).isNull then c.others rest else c.otherValue row :: c.others rest := by
  simp only [others, List.map_cons, List.filter_cons]
  cases (c.otherValue row).isNull <;> rfl

theorem filterMap_cons_toList {α β : Type} (f : α → Option β) (a : α) (rest : List α) :
    (a :: rest).filterMap f = (f a).toList ++ rest.filterMap f := by
  rw [List.filterMap_cons]
  cases f a <;> rfl

/-- The joining rows are gone through in their order.  Each that names a row of the target has it
looked up; as long as rows are answered of which entities can be made, the entities found are those
of the first row of each answer. -/
theorem joined_all {start : Nat} {otherKey key : Value} {joins : List Row} {refs : List EntityRef}
    (hjoins : List.Forall₂ (OfRow start session c.through [] · · w) joins refs)
    (hc : c.Describes a w) (hother : otherKey.text? = some c.otherKey)
    (hkey : Crossing.Names key c.key) (hdata : ∀ row ∈ joins, (c.otherValue row).isDatum = true)
    (ho : relatedOptions .null shape = .ok o)
    (hcolumns : Sql.columnList (o.valueOf .attributes) = .ok columns) :
    ∃ lookups,
      ((refs.mapM (joined session c.target otherKey key shape)).runOn w).2.trace =
        w.trace ++ lookups ∧
      ((∀ x ∈ lookups, Brings w.registry c.target o.exclude x) →
        List.Forall₂ (Seeks (Sql.matchText columns c.targetTable c.key ++ " LIMIT 1"))
          (c.others joins) lookups ∧
        ∃ found w', (refs.mapM (joined session c.target otherKey key shape)).runOn w =
            (.ok found, w') ∧
          List.Forall₂ (OfRow w.entities.length session c.target o.exclude · · w')
            (lookups.filterMap firstRow?) (found.filterMap id)) := by
  induction joins generalizing w refs with
  | nil =>
    cases hjoins
    exact ⟨[], (List.append_nil _).symm, fun _ => ⟨.nil, [], w, rfl, .nil⟩⟩
  | cons row rows ih =>
    obtain ⟨hdatum, hdata⟩ := List.forall_mem_cons.mp hdata
    obtain ⟨ref, refs, hrow, hrows, rfl⟩ := List.forall₂_cons_left_iff.mp hjoins
    rw [c.others_cons, List.mapM_cons]
    cases hnull : (c.otherValue row).isNull with
    | true =>
      have hfirst := joined_null key shape hrow hc hother hnull
      obtain ⟨lookups, htrace, hfound⟩ := ih hrows hc hdata
      rw [Action.runOn_bind_ok hfirst, Action.after_bind_pure]
      refine ⟨lookups, htrace, fun hbrings => ?_⟩
      obtain ⟨hseeks, found, w', hrun, hmade⟩ := hfound hbrings
      exact ⟨hseeks, none :: found, w', by rw [Action.runOn_bind_ok hrun]; rfl, hmade⟩
    | false =>
      obtain ⟨x, hsent, hseeks, hbrought⟩ := joined_datum hrow hc hother hkey hdatum hnull ho
        hcolumns
      by_cases hx : Brings w.registry c.target o.exclude x
      · obtain ⟨first, t, hfirst, hmade⟩ := hbrought hx
        rw [hfirst] at hsent
        have hgrows := (joined_grows session c.target otherKey key shape ref).of_run hfirst
        obtain ⟨lookups, htrace, hfound⟩ := ih (hrows.imp fun _ _ h => h.grows hgrows)
          (hc.grows hgrows) hdata
        rw [Action.runOn_bind_ok hfirst, Action.after_bind_pure]
        refine ⟨x :: lookups, by rw [htrace, hsent, List.append_assoc]; rfl, fun hbrings => ?_⟩
        rw [← hgrows.registry_eq] at hbrings
        obtain ⟨hrest, found, w', hrun, hothers⟩ := hfound (List.forall_mem_cons.mp hbrings).2
        refine ⟨.cons hseeks hrest, first :: found, w', by rw [Action.runOn_bind_ok hrun]; rfl, ?_⟩
        have hlater := (Action.Obeys.mapM
          (joined_grows session c.target otherKey key shape)).of_run hrun
        rw [filterMap_cons_toList, filterMap_cons_toList]
        exact List.rel_append (hmade.imp fun _ _ h => h.grows hlater) (hothers.imp fun _ _ h =>
          { h with new := Nat.le_trans hgrows.entities_prefix.length_le h.new })
      · -- the answer cannot be read, so that nothing is said of what comes after it
        have hnext (first : Option EntityRef) : Sends [.selection] (do
            let found ← refs.mapM (joined session c.target otherKey key shape)
            pure (first :: found)) :=
          .bind (.mapM (joined_sends session c.target otherKey key shape)) fun _ => .pure _
        obtain ⟨more, hmore, -⟩ := (Action.Obeys.after_bind hnext
          (joined session c.target otherKey key shape ref) w).calls
        rw [hsent, List.append_assoc] at hmore
        exact ⟨x :: more, hmore, fun h => absurd (h x List.mem_cons_self) hx⟩

/-! ## 4. The whole relation -/

/-- The filter for what belongs to an owner with a key. -/
theorem ownedFilter_pinned (hkey : w.keyValue owner = .ok held) (hnull : held.isNull = false)
    {column : String} (htext : a.foreignKey.text? = some column) :
    (ownedFilter owner a).runOn w = (.ok (.mapping [(a.foreignKey, w.expand held)]), w) := by
  have hread : (reading (·.keyValue owner)).runOn w = (.ok held, w) := by rw [runOn_reading, hkey]
  have howner : (ownerKey owner a).runOn w = (.ok held, w) := by
    rw [ownerKey, Action.runOn_bind_ok hread, hnull]
    rfl
  rw [ownedFilter, Action.runOn_bind_ok howner, runOn_reading, pinning_text htext]

/-- Reporting what was found sends nothing. -/
theorem reported_trace {α β : Type} (action : Action World α) (source : String)
    (message : α → World → Printed) (answer : α → β) (w : World) :
    ((action >>= fun found => debug source (message found) >>= fun _ =>
      (pure (answer found) : Action World β)).runOn w).2.trace = (action.runOn w).2.trace :=
  (Action.Obeys.after_bind (R := Leads []) (fun _ => .bind (debug_sends _ _) fun _ => .pure _)
    action w).trace_eq

/-- What was found is answered if it can be reported. -/
theorem reported_answer {α β : Type} {action : Action World α} {source : String}
    {message : α → World → Printed} {answer : α → β} {P : World → Prop} {found : α}
    (hrun : action.runOn w = (.ok found, t)) (h : ∃ text, message found t = .ok text)
    (hafter : ∀ w', Grows t w' → P w') :
    ∃ w', (action >>= fun found => debug source (message found) >>= fun _ =>
      (pure (answer found) : Action World β)).runOn w = (.ok (answer found), w') ∧ P w' := by
  obtain ⟨text, htext⟩ := h
  rcases debug_ends source (message found) t with ⟨w', hdebug⟩ | ⟨why, hwhy, -⟩
  · refine ⟨w', ?_, hafter w' ((grows_of_quiet (debug_still _ _) (debug_sends _ _)).of_run hdebug)⟩
    rw [Action.runOn_bind_ok hrun, Action.runOn_bind_ok hdebug]
    rfl
  · cases htext.symm.trans hwhy

/-- What is sent to load a relation through a joining table, and what is loaded. -/
theorem loadThrough_exact (session : String) {otherKey key : Value} (hc : c.Describes a w)
    (hother : otherKey.text? = some c.otherKey) (hkey : Crossing.Names key c.key)
    (hheld : w.keyValue owner = .ok held) (hdatum : (w.look held).isDatum = true)
    (hnull : (w.look held).isNull = false) (ho : relatedOptions .null shape = .ok o)
    (hcolumns : Sql.columnList (o.valueOf .attributes) = .ok columns) :
    ∃ scan lookups,
      ((loadThrough session owner a otherKey key shape).runOn w).2.trace =
        w.trace ++ scan :: lookups ∧
      Seeks (Sql.matchText "*" c.joinTable c.foreignKey) (w.look held) scan ∧
      ∀ joins, scan.result = .ok (.rows joins) →
        (∀ row ∈ joins, Free w.registry c.through row ∧ (c.otherValue row).isDatum = true) →
        (∀ x ∈ lookups, Brings w.registry c.target o.exclude x) →
        List.Forall₂ (Seeks (Sql.matchText columns c.targetTable c.key ++ " LIMIT 1"))
          (c.others joins) lookups ∧
        ∃ refs w', (loadThrough session owner a otherKey key shape).runOn w =
            (.ok (.list (refs.map .entity)), w') ∧
          List.Forall₂ (OfRow w.entities.length session c.target o.exclude · · w')
            (lookups.filterMap firstRow?) refs := by
  obtain ⟨hscalar, hunplaced⟩ : w.shelf.Scalar (w.expand held) ∧
      (w.expand held).unplaced = w.look held := Shelf.scalar_expand hdatum
  have hexpanded : (w.expand held).isNull = false := by
    rw [← Value.isNull_unplaced, hunplaced, hnull]
  have hheldNull : held.isNull = false := by
    cases held <;> first
      | rfl
      | cases hnull
  have hthrough : (Action.ofExcept (resolvedModel a.resolvedThrough) : Action World Nat).runOn w =
      (.ok c.through, w) := by rw [Action.runOn_ofExcept, hc.through_eq]
  have hoptions : (Action.ofExcept (FindOptions.parse .nothing
      [("where", .mapping [(a.foreignKey, w.expand held)])]) : Action World FindOptions).runOn w =
        (.ok (pinned c.foreignKey (w.expand held)), w) := by
    rw [Action.runOn_ofExcept, scanOptions_pinned hc.foreignKey_names.text_eq]
  obtain ⟨scan, hsent, hcall, hscanned⟩ := findAll_pinned hc.join_stored hc.foreignKey_names hscalar
    hexpanded session
  rw [loadThrough, Action.runOn_bind_ok hthrough, Action.runOn_bind_ok
    (ownedFilter_pinned hheld hheldNull hc.foreignKey_names.text_eq), Action.runOn_bind_ok hoptions]
  by_cases hjoins : ∃ joins, scan.result = .ok (.rows joins) ∧
      ∀ row ∈ joins, Free w.registry c.through row ∧ (c.otherValue row).isDatum = true
  · obtain ⟨joins, hanswer, hrows⟩ := hjoins
    obtain ⟨rows, t, hfind, hmade⟩ := hscanned joins hanswer fun row hrow => (hrows row hrow).1
    rw [hfind] at hsent
    have hgrows := (findAll_grows session c.through _).of_run hfind
    obtain ⟨lookups, htrace, hfound⟩ := joined_all hmade (hc.grows hgrows) hother hkey
      (fun row hrow => (hrows row hrow).2) ho hcolumns
    have htarget : (Action.ofExcept (resolvedModel a.resolved) : Action World Nat).runOn t =
        (.ok c.target, t) := by rw [Action.runOn_ofExcept, hc.target_eq]
    rw [Action.runOn_bind_ok hfind, Action.runOn_bind_ok htarget]
    refine ⟨scan, lookups, ?_, ⟨_, hcall, hunplaced⟩, fun again hagain _ hbrings => ?_⟩
    · rw [reported_trace, htrace, hsent, List.append_assoc]
      rfl
    · obtain rfl : joins = again := by
        injection hanswer.symm.trans hagain with h
        injection h
      obtain ⟨hseeks, found, u, hrun, hrefs⟩ := hfound (hgrows.registry_eq ▸ hbrings)
      obtain ⟨text, htext⟩ := hc.reported u
      refine ⟨hseeks, found.filterMap id, reported_answer hrun
        ⟨_, bind_eq_ok.mpr ⟨text, htext, rfl⟩⟩ fun w' hlater => hrefs.imp fun _ _ h => ?_⟩
      exact { h.grows hlater with
        new := Nat.le_trans hgrows.entities_prefix.length_le h.new }
  · -- the answer cannot be read, so that nothing is said of what comes after it
    have hnext (rows : List EntityRef) : Sends [.selection] (do
        let target ← Action.ofExcept (resolvedModel a.resolved)
        let related := (← rows.mapM (joined session target otherKey key shape)).filterMap id
        debug "mappify.associations" fun w => do
          return "Loaded " ++ toString related.length ++ " " ++ (← w.display a.name) ++
            " through " ++ toString rows.length ++ " join rows"
        return Value.list (related.map .entity)) :=
      .bind (.ofExcept _) fun target =>
        .bind (.mapM (joined_sends session target otherKey key shape)) fun _ =>
        .bind (debug_sends _ _) fun _ => .pure _
    obtain ⟨more, hmore, -⟩ := (Action.Obeys.after_bind hnext
      (findAll session c.through (pinned c.foreignKey (w.expand held))) w).calls
    rw [hsent, List.append_assoc] at hmore
    exact ⟨scan, more, hmore, ⟨_, hcall, hunplaced⟩, fun joins hanswer hrows _ =>
      absurd ⟨joins, hanswer, hrows⟩ hjoins⟩

/-- Under a name an entity got a list of entities, and the rest of it is as before. -/
def GotList (owner : EntityRef) (relation : Value) (refs : List EntityRef) (w w' : World) : Prop :=
  ∃ placed, w'.look placed = .list (refs.map .entity) ∧ w'.entityAt owner =
    { w.entityAt owner with
      attributes := Entries.insert (w.entityAt owner).attributes relation placed }

theorem holdAttribute_gotList (hin : owner.id < w.entities.length) (relation : Value)
    (refs : List EntityRef) :
    ∃ w', (holdAttribute owner relation (.list (refs.map .entity))).runOn w = (.ok (), w') ∧
      GotList owner relation refs w w' :=
  ⟨_, rfl, _, look_ofEntities (.many refs) w.shelf, entityAt_set hin _ _⟩

/-- Whether a value names a column by a safe name that is no word of a filter. -/
def namesColumn (v : Value) (column : String) : Bool :=
  (match Sql.safeName (.str column) with
    | .ok name => name == column
    | .error _ => false) &&
  v.text? == some column && !(["and", "or", "not"].contains column)

theorem namesColumn_eq_true {column : String} (h : namesColumn v column = true) :
    Crossing.Names v column := by
  simp only [namesColumn, Bool.and_eq_true] at h
  obtain ⟨⟨hsafe, htext⟩, hword⟩ := h
  refine ⟨beq_iff_eq.mp htext, ?_, by simpa using hword⟩
  split at hsafe
  · next name hname => rw [hname, beq_iff_eq.mp hsafe]
  · cases hsafe

/-- Whether the table of a class has a name. -/
def storedIn (model : Nat) (table : String) (w : World) : Bool :=
  match w.mapper model with
  | .ok m =>
    match Sql.safeName m.tableName with
    | .ok name => name == table
    | .error _ => false
  | .error _ => false

theorem storedIn_eq_true {model : Nat} {table : String} (h : storedIn model table w = true) :
    Crossing.Stored model table w := by
  unfold storedIn at h
  split at h
  · next m hm =>
    split at h
    · next name hname => exact ⟨m, hm, by rw [hname, beq_iff_eq.mp h]⟩
    · cases h
  · cases h

/-- Whether an association is seen to lead through classes, tables and columns. -/
def Crossing.describes (c : Crossing) (a : Association) (w : World) : Bool :=
  storedIn c.through c.joinTable w && storedIn c.target c.targetTable w &&
  (match w.registry.attribute? (w.registry.classAt c.through).ref.id c.otherKey with
    | some (.column _) => true
    | _ => false) &&
  match a.resolvedThrough, a.resolved, a.kind with
  | some through, some target, .belongsToMany _ otherKey key =>
    through.id == c.through && target.id == c.target && namesColumn otherKey c.otherKey &&
      namesColumn key c.key && namesColumn a.foreignKey c.foreignKey && a.name.text?.isSome
  | _, _, _ => false

theorem Crossing.describes_eq_true (h : c.describes a w = true) : c.Describes a w := by
  simp only [describes, Bool.and_eq_true] at h
  obtain ⟨⟨⟨hjoin, htarget⟩, hcolumn⟩, hleads⟩ := h
  split at hleads
  · next through target name otherKey key hthrough hresolved hkind =>
    simp only [Bool.and_eq_true, beq_iff_eq] at hleads
    obtain ⟨⟨⟨⟨⟨hthroughId, htargetId⟩, hother⟩, hkey⟩, hforeign⟩, hname⟩ := hleads
    refine ⟨by rw [hthrough, ← hthroughId]; rfl, by rw [hresolved, ← htargetId]; rfl,
      ⟨name, otherKey, key, hkind, namesColumn_eq_true hother, namesColumn_eq_true hkey⟩,
      namesColumn_eq_true hforeign, storedIn_eq_true hjoin, storedIn_eq_true htarget, ?_, ?_⟩
    · intro found hfound
      rw [hfound] at hcolumn
      cases found with
      | column index => exact ⟨index, rfl⟩
      | _ => cases hcolumn
    · intro u
      obtain ⟨text, htext⟩ := Option.isSome_iff_exists.mp hname
      obtain ⟨place, hplace⟩ := Value.eq_strAt_of_text? htext
      exact ⟨text, by rw [hplace]; rfl⟩
  · cases hleads

/-- Students take courses by being enrolled in them. -/
def students : Model.Definition :=
  let id : Column := { name := "id", spelling := "Number", type := .integer, isKey := true }
  let courses : Association :=
    { kind := .belongsToMany (.str "Enrollment") (.str "course_id") Model.defaultKey,
      target := .str "Course", foreignKey := .str "student_id" }
  { name := "Student", key := "Student",
    attributes := [("__tablename__", .plain (.str "students")), ("id", .column id),
      ("courses", .association courses)] }

/-- Courses. -/
def courses : Model.Definition :=
  let id : Column := { name := "id", spelling := "Number", type := .integer, isKey := true }
  { name := "Course", key := "Course",
    attributes := [("__tablename__", .plain (.str "courses")), ("id", .column id)] }

/-- Enrollments may be planned, without a course. -/
def enrollments : Model.Definition :=
  let id : Column := { name := "id", spelling := "Number", type := .integer, isKey := true }
  let student : Column := { name := "student_id", spelling := "Number", type := .integer }
  let course : Column := { name := "course_id", spelling := "Number", type := .integer }
  { name := "Enrollment", key := "Enrollment",
    attributes := [("__tablename__", .plain (.str "enrollments")), ("id", .column id),
      ("student_id", .column student), ("course_id", .column course)] }

/-- The student. -/
def student : EntityRef := ⟨0, "Student"⟩

/-- What the courses of a student lead through. -/
def enrolling : Crossing where
  through := 3
  target := 2
  joinTable := "enrollments"
  foreignKey := "student_id"
  otherKey := "course_id"
  targetTable := "courses"
  key := "id"

/-- A world with a student in a session, and with the replies to come. -/
def enrolled (replies : List ReplyDraft) : World :=
  let made := ((do
    for d in [students, courses, enrollments] do
      let _ ← defineShared d
    let ref ← make 1 [("id", .int 7)]
    bindTo "session" ref : Action World Unit).runOn {}).2
  { made with replies }

/-- A row of the joining table. -/
def enrollment (course : Value) : List (String × Term) :=
  [("student_id", .plain (.int 7)), ("course_id", .plain course)]

/-- The student is enrolled twice in one course, plans another one, and has one that is gone. -/
def busy : World :=
  let found : List (String × Term) := [("id", .plain (.int 1))]
  enrolled [
    ⟨.ok (.rows [enrollment (.int 1), enrollment .null, enrollment (.int 9),
      enrollment (.int 1)]), none⟩,
    ⟨.ok (.rows [found]), none⟩, ⟨.ok (.rows []), none⟩, ⟨.ok (.rows [found]), none⟩]

/-- The student is enrolled in a course whose row has a column of the name of a property. -/
def crowded : World :=
  enrolled [⟨.ok (.rows [enrollment (.int 1)]), none⟩,
    ⟨.ok (.rows [[("id", .plain (.int 1)), ("is_new", .plain (.bool true))]]), none⟩]

/-- Whether the rows that belong to an owner are asked for through a joining table and all that is
sent is answered with rows, those of the joining table and those of the target of some kind. -/
def answered (c : Crossing) (owner : EntityRef) (relation : Value)
    (join found : Model.Registry → Row → Bool) (w : World) : Bool :=
  match (associationOfEntity owner relation).runOn w, w.keyValue owner with
  | (.ok a, t), .ok held =>
    c.describes a t && (w.look held).isDatum && !(w.look held).isNull && w.trace.isEmpty &&
    match ((populate owner relation {}).runOn w).2.trace with
    | ⟨_, _, .ok (.rows joins)⟩ :: lookups =>
      joins.all (join t.registry) && lookups.all fun x =>
        match x.result with
        | .ok (.rows rows) => rows.all (found t.registry)
        | _ => false
    | _ => false
  | _, _ => false

theorem answered_eq_true {join found : Model.Registry → Row → Bool}
    (h : answered c owner relation join found w = true) : ∃ a t held scan joins lookups,
    (associationOfEntity owner relation).runOn w = (.ok a, t) ∧ c.Describes a t ∧
    w.keyValue owner = .ok held ∧ (w.look held).isDatum = true ∧ (w.look held).isNull = false ∧
    w.trace = [] ∧ ((populate owner relation {}).runOn w).2.trace = scan :: lookups ∧
    scan.result = .ok (.rows joins) ∧ (∀ row ∈ joins, join t.registry row = true) ∧
    ∀ x ∈ lookups, ∃ rows, x.result = .ok (.rows rows) ∧
      ∀ row ∈ rows, found t.registry row = true := by
  unfold answered at h
  split at h
  · next a t held hassociation hheld =>
    simp only [Bool.and_eq_true, Bool.not_eq_true'] at h
    obtain ⟨⟨⟨⟨hdescribes, hdatum⟩, hnull⟩, hnew⟩, htrace⟩ := h
    split at htrace
    · next call seen joins lookups hsent =>
      simp only [Bool.and_eq_true, List.all_eq_true] at htrace
      refine ⟨a, t, held, _, joins, lookups, hassociation, Crossing.describes_eq_true hdescribes,
        hheld, hdatum, hnull, List.isEmpty_iff.mp hnew, hsent, rfl, htrace.1, fun x hx => ?_⟩
      have hanswer := htrace.2 x hx
      split at hanswer
      · next rows hrows => exact ⟨rows, hrows, List.all_eq_true.mp hanswer⟩
      · cases hanswer
    · cases htrace
  · cases h

/-- How many rows of a joining table were answered, how many lookups were sent for them, and how
many of these found a row. -/
def sizes : List Exchange → Nat × Nat × Nat
  | ⟨_, _, .ok (.rows joins)⟩ :: lookups =>
    (joins.length, lookups.length, (lookups.filterMap firstRow?).length)
  | _ => (0, 0, 0)

/-- Whether a run is stopped by an attribute that cannot be set. -/
def refusesToSet (outcome : Except Fault Unit) : Bool :=
  match outcome with
  | .error .noAttribute => true
  | _ => false

end World
end RowMapper
