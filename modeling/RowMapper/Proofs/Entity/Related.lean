import RowMapper.Proofs.Entity.Lookup
import RowMapper.Proofs.Entity.Population
import RowMapper.Proofs.World.Scalar

/-!
# Rows of related entities

What is related to an entity is found by the value of one column, so that each loading of a
relation sends selections of one kind (`selection_equality`).  If such a selection is answered with
rows that can be set, then entities are made of them, which belong to the session (`OfRow`).
-/
namespace RowMapper

open Model (Association Mapper)

/-- The text of a selection of the rows that have a value in a column. -/
def Sql.matchText (columns table column : String) : String :=
  "SELECT " ++ columns ++ " FROM " ++ Sql.quote table ++ " WHERE " ++ Sql.quote column ++ " = ?"

namespace World

variable {ref owner : EntityRef} {w t w' : World} {shape : Shape} {o : FindOptions}
  {key v : Value} {column session : String} {model start : Nat} {excluded : List String} {row : Row}

/-! ## 1. Options -/

/-- What a filter with one column is read as. -/
theorem relatedOptions_pinned (htext : key.text? = some column)
    (ho : relatedOptions .null shape = .ok o) (v : Value) :
    relatedOptions (.mapping [(key, v)]) shape = .ok { o with filter := [(column, v)] } := by
  obtain ⟨place, rfl⟩ := Value.eq_strAt_of_text? htext
  let arguments (filter : Value) : Dictionary Value :=
    [("where", filter), ("attributes", shape.attributes), ("exclude", shape.exclude)]
  obtain ⟨⟨options, problems⟩, hread, h⟩ := bind_eq_ok.mp ho
  have hall : (FindOptions.readAll (arguments (.mapping [(.strAt column place, v)]))).run [] =
      .ok ({ options with filter := [(column, v)] }, problems) := by
    simp only [FindOptions.readAll, StateT.run_bind] at hread ⊢
    obtain ⟨filter, hfilter, hread⟩ := bind_eq_ok.mp hread
    obtain ⟨attributes, hattributes, hread⟩ := bind_eq_ok.mp hread
    obtain ⟨exclude, hexclude, hread⟩ := bind_eq_ok.mp hread
    cases hfilter
    refine bind_eq_ok.mpr ⟨([(column, v)], []), rfl, ?_⟩
    refine bind_eq_ok.mpr ⟨attributes, hattributes, ?_⟩
    refine bind_eq_ok.mpr ⟨exclude, hexclude, ?_⟩
    cases hread
    rfl
  refine bind_eq_ok.mpr ⟨_, hall, ?_⟩
  obtain ⟨hproblems, h⟩ := guarded_eq_ok.mp h
  obtain ⟨hpage, h⟩ := guarded_eq_ok.mp h
  obtain rfl := pure_eq_ok.mp h
  exact guarded_eq_ok.mpr ⟨hproblems, guarded_eq_ok.mpr ⟨hpage, rfl⟩⟩

/-- Options that only say which columns to load do not sort or group. -/
theorem relatedOptions_clauses {filter : Value} (h : relatedOptions filter shape = .ok o) :
    o.group = none ∧ o.order = none := by
  obtain ⟨⟨options, problems⟩, hread, h⟩ := bind_eq_ok.mp h
  obtain ⟨-, h⟩ := guarded_eq_ok.mp h
  obtain ⟨-, h⟩ := guarded_eq_ok.mp h
  obtain rfl := pure_eq_ok.mp h
  simp only [FindOptions.readAll, StateT.run_bind] at hread
  obtain ⟨filter, -, hread⟩ := bind_eq_ok.mp hread
  obtain ⟨attributes, -, hread⟩ := bind_eq_ok.mp hread
  obtain ⟨exclude, -, hread⟩ := bind_eq_ok.mp hread
  cases hread
  exact ⟨rfl, rfl⟩

/-- A text pins a column. -/
theorem pinning_text (htext : key.text? = some column) (v : Value) :
    pinning key v = .ok (.mapping [(key, v)]) := by
  obtain ⟨place, rfl⟩ := Value.eq_strAt_of_text? htext
  rfl

theorem scanOptions_pinned (htext : key.text? = some column) (v : Value) :
    FindOptions.parse .nothing [("where", .mapping [(key, v)])] = .ok (pinned column v) := by
  obtain ⟨place, rfl⟩ := Value.eq_strAt_of_text? htext
  rfl

/-! ## 2. Selections -/

/-- A value of a database that is not null is compared with a column. -/
theorem columnConditions_datum (hsafe : Sql.safeName (.str column) = .ok column)
    (hv : v.unplaced.isDatum = true) (hnull : v.isNull = false) :
    Where.columnConditions (.str column) v = .ok [.compare column .eq v] := by
  refine Where.columnConditions_eq_ok.mpr ⟨column, hsafe, Where.negatedColumn_eq_ok.mpr ?_⟩
  refine .inr (.inr ⟨?_, rfl⟩)
  cases v <;> first
    | cases hnull; done
    | cases hv; done
    | exact ⟨nofun, nofun, rfl⟩

/-- The selection of the rows that have a value of a database in a column. -/
theorem selection_equality {m : Mapper} {table columns page : String} (limit : Option Int)
    (htable : Sql.safeName m.tableName = .ok table)
    (hcolumn : Sql.safeName (.str column) = .ok column) (hword : column ∉ ["and", "or", "not"])
    (hcolumns : Sql.columnList (o.valueOf .attributes) = .ok columns)
    (hgroup : o.group = none) (horder : o.order = none)
    (hpage : Sql.pagingPart (limit.elim .null .int) .null = .ok page)
    (hv : v.unplaced.isDatum = true) (hnull : v.isNull = false) :
    selection m { o with filter := [(column, v)] } limit none =
      .ok ⟨Sql.matchText columns table column ++ page, [v]⟩ := by
  have hfilter : Where.compile (.mapping [(.str column, v)]) =
      .ok (Where.compileConjunction [.compare column .eq v]) := by
    rw [compile_pinned hword, columnConditions_datum hcolumn hv hnull]
    rfl
  have hattributes : ({ o with filter := [(column, v)] } : FindOptions).valueOf .attributes =
      o.valueOf .attributes := rfl
  rw [selection]
  show (orFault (Where.compile (.mapping [(.str column, v)])) >>= _) = _
  rw [hfilter]
  show Sql.Select.statement _ = _
  rw [Sql.Select.statement, hattributes]
  dsimp only
  rw [Sql.quoteIdentifier, htable, hcolumns, wherePart_equality]
  simp only [FindOptions.valueOf, hgroup, horder, Option.elim_none]
  rw [hpage]
  show Except.ok (Sql.Fragment.mk ("SELECT " ++ columns ++ " FROM " ++ Sql.quote table ++
    (" WHERE " ++ Sql.quote column ++ " = ?") ++ "" ++ "" ++ page) [v]) = _
  simp only [String.append_empty, Sql.matchText, String.append_assoc]

/-! ## 3. Entities of rows -/

theorem OfRow.grows (h : OfRow start session model excluded row ref w) (hgrows : Grows w w') :
    OfRow start session model excluded row ref w' := by
  have hentity := hgrows.widens.entityAt_eq h.hydrated.inside
  exact ⟨h.new, h.hydrated.grows hgrows, h.mirrors.mono (by rw [hentity]) hgrows.shelf_prefix,
    hentity ▸ h.state_eq, hentity ▸ h.session_eq⟩

/-- Changing another entity does not matter. -/
theorem OfRow.alters (h : OfRow start session model excluded row ref w)
    (halters : Alters owner w w') (hne : owner.id ≠ ref.id) :
    OfRow start session model excluded row ref w' := by
  have hhydrated := h.hydrated.alters halters hne
  obtain ⟨e, shelf, rfl, hshelf, -⟩ := halters
  have hentity : ({ w with entities := w.entities.set owner.id e, shelf } : World).entityAt ref =
      w.entityAt ref := by
    simp [entityAt, List.getElem?_set_ne hne]
  exact ⟨h.new, hhydrated, h.mirrors.mono (by rw [hentity]) hshelf, hentity ▸ h.state_eq,
    hentity ▸ h.session_eq⟩

/-- A selection with scalars as parameters is sent.  If it is answered with rows that can be set,
it answers their entities. -/
theorem select_of_scalars {f : Sql.Fragment} (h : ∀ v ∈ f.params, w.shelf.Scalar v)
    (session : String) (model : Nat) (excluded : List String) :
    ∃ x : Exchange, ((select session model excluded f).runOn w).2.trace = w.trace ++ [x] ∧
      x.call = .statement f.text f.params ∧ ∀ rows, x.result = .ok (.rows rows) →
        (∀ row ∈ rows, Free w.registry model (kept excluded row)) → ∃ refs w',
          (select session model excluded f).runOn w = (.ok refs, w') ∧
          List.Forall₂ (OfRow w.entities.length session model excluded · · w') rows refs := by
  have hexpand : f.params.map w.expand = f.params :=
    (List.map_congr_left fun v hv => (h v hv).replaceShared_eq _).trans (List.map_id f.params)
  obtain ⟨printed, hprinted⟩ := Shelf.literal_scalars h w
  obtain ⟨x, hsent, hcall⟩ := query_of_printed hprinted
  refine ⟨x, (select_trace session model excluded f w).trans hsent, hexpand ▸ hcall,
    fun rows hrows hfree => ?_⟩
  obtain ⟨refs, w', hselect, -, hrefs⟩ := select_ofRow session excluded hsent hrows hfree
  exact ⟨refs, w', hselect, hrefs⟩

end World
end RowMapper
