import RowMapper.Proofs.Entity.Fresh
import RowMapper.Proofs.Shop.Product
import RowMapper.Proofs.Shop.Sending

/-!
# Rows as objects

An entity of a product can be made of every row without a column of a name that a property has
(`Served.free`).  It is sent as an object that shows the row: the columns of a product in their
order, and then others that the row has, with their values as they are sent (`entity_shows`).  Rows
are shown in their order (`list_shows`).
-/
namespace RowMapper.Shop

open Model (Mapper)
open World (Free Mirrors)

variable {w : World} {m : Mapper}

/-! ## 1. Products as entities -/

/-- The names that the properties of every entity have. -/
def propertyNames : List String := ["pk_value", "is_new"]

/-- Whether an attribute of a class is a property. -/
def isProperty : Model.ClassAttribute → Bool
  | .property _ => true
  | _ => false

/-- The class of products before anything was asked: its number, and the properties that it has. -/
theorem initialProduct :
    (initialWorld.registry.classAt (modelOf product)).ref.id = modelOf product ∧
    ∀ ancestor ∈ (initialWorld.registry.classAt (modelOf product)).ancestry,
      ancestor < initialWorld.registry.classes.length ∧
      ∀ entry ∈ (initialWorld.registry.classAt ancestor).attributes,
        isProperty entry.2 = false ∨ entry.1 ∈ propertyNames := by
  have hknown : (decide ((initialWorld.registry.classAt (modelOf product)).ref.id = modelOf product) &&
      (initialWorld.registry.classAt (modelOf product)).ancestry.all fun ancestor =>
        decide (ancestor < initialWorld.registry.classes.length) &&
        (initialWorld.registry.classAt ancestor).attributes.all fun entry =>
          !isProperty entry.2 || propertyNames.contains entry.1) = true := by decide +kernel
  simpa using hknown

/-- A product has no properties but those that every entity has. -/
theorem Served.mem_propertyNames (hw : Served w) {name : String} {p : Model.Property}
    (h : w.registry.attribute? (modelOf product) name = some (.property p)) :
    name ∈ propertyNames := by
  obtain ⟨-, hancestry⟩ := initialProduct
  obtain ⟨m, hm, -⟩ := initialProducts
  rw [hw.steady.attribute?_eq (World.lt_of_mapperOf hm) fun ancestor hmem =>
    (hancestry ancestor hmem).1] at h
  obtain ⟨ancestor, hmem, hentry⟩ := World.exists_of_attribute? h
  exact ((hancestry ancestor hmem).2 _ hentry).resolve_left (by simp [isProperty])

/-- The class of products keeps its number. -/
theorem Served.productId (hw : Served w) :
    (w.registry.classAt (modelOf product)).ref.id = modelOf product := by
  obtain ⟨m, hm, -⟩ := initialProducts
  rw [hw.steady.ref_eq (World.lt_of_mapperOf hm), initialProduct.1]

theorem Served.free (hw : Served w) {row : Row}
    (h : ∀ name ∈ propertyNames, name ∉ (Dictionary.ofList row).names) :
    Free w.registry (modelOf product) row := by
  intro name hname p hproperty
  rw [hw.productId] at hproperty
  exact h name (hw.mem_propertyNames hproperty) hname

/-! ## 2. Rows as objects -/

/-- A row whose values can be sent, without a column of a name that a property has. -/
structure Sendable (row : Row) : Prop where
  plain : ∀ entry ∈ row, entry.2.IsPlain
  sent : ∀ entry ∈ row, (sendable? entry.2).isSome
  free : ∀ entry ∈ row, entry.1 ∉ propertyNames

/-- What a row has besides the columns of a product. -/
def otherColumns (row : Row) : Dictionary Value :=
  (Dictionary.ofList row).filter fun entry => !productColumns.contains entry.1

/-- An object shows a row: the columns of a product that the row has, in the order of the product,
and then some of the others, each with its value as it is sent. -/
def Shows (row : Row) (object : Value) : Prop := ∃ others sent,
  others.Sublist (otherColumns row) ∧
  SendsAs (Dictionary.pick productColumns (Dictionary.ofList row).get? ++ others) sent ∧
  object = named sent

theorem exists_sendsAs {d : Dictionary Value} (h : ∀ entry ∈ d, (sendable? entry.2).isSome) :
    ∃ sent, SendsAs d sent := by
  induction d with
  | nil => exact ⟨[], .nil⟩
  | cons entry rest ih =>
    obtain ⟨hentry, hrest⟩ := List.forall_mem_cons.mp h
    obtain ⟨v, hv⟩ := Option.isSome_iff_exists.mp hentry
    obtain ⟨sent, hsent⟩ := ih hrest
    exact ⟨(entry.1, v) :: sent, .cons hv hsent⟩

theorem productColumns_visible : ∀ name ∈ productColumns, isHidden (.str name) = false := by
  decide +kernel

/-- What is shown of a row as a product. -/
theorem visible_shown (hm : m.columns.names = productColumns) (row : Row) : ∃ others,
    others.Sublist (otherColumns row) ∧
    visible (World.shown m (Dictionary.ofList row)) =
      Dictionary.pick productColumns (Dictionary.ofList row).get? ++ others := by
  have hcolumns : visible (Dictionary.pick productColumns (Dictionary.ofList row).get?) =
      Dictionary.pick productColumns (Dictionary.ofList row).get? := by
    refine List.filter_eq_self.mpr fun entry hentry => ?_
    have hname := (Dictionary.names_pick_sublist productColumns (Dictionary.ofList row).get?).subset
      (List.mem_map_of_mem hentry)
    rw [productColumns_visible _ hname]
    rfl
  refine ⟨visible ((Dictionary.ofList row).filter fun entry => !World.isKeptBack m entry.1),
    List.filter_sublist.trans (List.monotone_filter_right _ fun entry hentry => ?_), ?_⟩
  · simp only [World.isKeptBack, hm, Bool.not_or, Bool.and_eq_true] at hentry
    exact hentry.2.1
  · rw [World.shown, visible, List.filter_append, hm]
    exact congrArg (· ++ _) hcolumns

theorem shown_nodup (hm : m.columns.names = productColumns) {d : Dictionary Value}
    (h : d.names.Nodup) : (World.shown m d).names.Nodup := by
  have hpicked := Dictionary.names_pick_sublist m.columns.names d.get?
  rw [Dictionary.names, World.shown, List.map_append, List.nodup_append]
  refine ⟨hpicked.nodup (hm ▸ by decide), h.sublist (List.filter_sublist.map _), ?_⟩
  rintro name hname other hother rfl
  obtain ⟨entry, hentry, rfl⟩ := List.mem_map.mp hother
  have hkept := (List.mem_filter.mp hentry).2
  simp only [World.isKeptBack, Bool.not_or, Bool.and_eq_true, Bool.not_eq_true'] at hkept
  exact absurd (List.contains_iff_mem.mpr (hpicked.subset hname)) (by simpa using hkept.2.1)

/-- An entity that mirrors a row is sent as an object that shows the row. -/
theorem entity_shows {ref : EntityRef} {row : Row} (hm : w.mapperOf ref = .ok m)
    (hcolumns : m.columns.names = productColumns) (hmirrors : Mirrors (World.kept [] row) ref w)
    (hrow : Sendable row) : ∃ entries object, (entriesOf ref).runOn w = (.ok entries, w) ∧
      sendable? (w.expand (.mapping entries)) = some object ∧ Shows row object := by
  have hkept : World.kept [] row = Dictionary.ofList row := List.filter_eq_self.mpr (by simp)
  rw [hkept] at hmirrors
  obtain ⟨held, hheld, halike⟩ := hmirrors
  obtain ⟨others, hothers, hvisible⟩ := visible_shown hcolumns row
  have hmem (entry : String × Value) (h : entry ∈ World.shown m (Dictionary.ofList row)) :
      entry ∈ row := Dictionary.mem_ofList (World.mem_shown h)
  obtain ⟨sent, hsent⟩ : ∃ sent, SendsAs (visible (World.shown m (Dictionary.ofList row))) sent :=
    exists_sendsAs fun entry hentry => hrow.sent entry (hmem entry (List.mem_filter.mp hentry).1)
  refine ⟨Entries.ofNamed (World.shown m held), named sent, ?_, ?_,
    others, sent, hothers, hvisible ▸ hsent, rfl⟩
  · have hread : (World.reading (·.mapperOf ref)).runOn w = (.ok m, w) := by
      rw [World.runOn_reading, hm]
    rw [entriesOf, Action.runOn_bind_ok hread, World.runOn_reading,
      World.toDictionary_ofNamed m hheld]
  · exact sendable?_object (fun entry hentry => hrow.plain entry (hmem entry hentry))
      (shown_nodup hcolumns (Dictionary.nodup_names_ofList row)) (World.shown_alike halike m) hsent

/-- Entities that mirror rows are sent as a list with an object for each row. -/
theorem list_shows {refs : List EntityRef} {rows : List Row}
    (h : List.Forall₂ (fun row ref => ∃ entries object, (entriesOf ref).runOn w = (.ok entries, w) ∧
      sendable? (w.expand (.mapping entries)) = some object ∧ Shows row object) rows refs) :
    ∃ response objects, (listOf refs).runOn w = (.ok response, w) ∧
      response.sent w = .content 200 (.list objects) ∧ List.Forall₂ Shows rows objects := by
  have hitems : ∃ items objects, (refs.mapM entriesOf).runOn w = (.ok items, w) ∧
      List.Forall₂ (fun item object => sendable? (w.expand item) = some object)
        (items.map Value.mapping) objects ∧ List.Forall₂ Shows rows objects := by
    induction h with
    | nil => exact ⟨[], [], rfl, .nil, .nil⟩
    | cons hfirst _ ih =>
      obtain ⟨entries, object, hrun, hsent, hshows⟩ := hfirst
      obtain ⟨items, objects, hrest, hothers, hall⟩ := ih
      refine ⟨entries :: items, object :: objects, ?_, .cons hsent hothers, .cons hshows hall⟩
      rw [List.mapM_cons, Action.runOn_bind_ok hrun, Action.runOn_bind_ok hrest]
      rfl
  obtain ⟨items, objects, hrun, hsent, hshows⟩ := hitems
  refine ⟨.content 200 (.list (items.map .mapping)), objects, ?_, ?_, hshows⟩
  · rw [listOf, Action.runOn_bind_ok hrun]
    rfl
  · rw [Response.sent, World.expand, sendable?_list hsent]

end RowMapper.Shop
