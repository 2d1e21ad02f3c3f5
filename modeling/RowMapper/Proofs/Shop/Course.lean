import RowMapper.Proofs.Entity.Course
import RowMapper.Shop.Service

/-!
# The course of the service

A request is read first, and only when nothing is wrong with its parts an action is run for it
(`Request.action?`).  So what holds along the operations on entities holds along every request
(`handle_obeys`), and what every request keeps is so in all worlds of the service (`Served`).  No
request changes where and how the products are stored (`Served.products`).
-/
namespace RowMapper.Shop

open Model (Mapper)
open World (CallKind Leads Registers Sends Steady Told)

/-! ## 1. Requests and their actions -/

/-- The action of a handler, if nothing is wrong with the parts of the request. -/
def Handler.action? (body : Option String) : Handler → Option (Action World Response)
  | .withoutBody prepare => accepted? prepare
  | .withBody prepare =>
    match bodyValue body with
    | .ok value => accepted? (prepare value)
    | .error _ => none
where
  /-- What was checked, if no problem was found. -/
  accepted? (checked : Checked (Action World Response)) : Option (Action World Response) :=
    if (checked.run []).2.isEmpty then some (checked.run []).1 else none

/-- The action that is run for a request, if it is one that can be served. -/
def Request.action? (r : Request) : Option (Action World Response) := do
  let route ← routeOf? r.path
  let handler ← handlerOf? r route
  handler.action? r.body

theorem runChecked_eq (checked : Checked (Action World Response)) (w : World) :
    runChecked checked w = ((Handler.action?.accepted? checked).map (respond · w)).getD
      (refusal (checked.run []).2, w) := by
  rcases hrun : checked.run [] with ⟨action, _ | ⟨problem, more⟩⟩ <;>
    simp [runChecked, Handler.action?.accepted?, hrun]

/-- A request that was accepted is responded to by its action. -/
theorem serve_of_action {r : Request} {action : Action World Response} (h : r.action? = some action)
    (w : World) : serve r w = respond action w := by
  obtain ⟨route, hroute, h⟩ := Option.bind_eq_some_iff.mp h
  obtain ⟨handler, hhandler, h⟩ := Option.bind_eq_some_iff.mp h
  simp only [serve, hroute, hhandler]
  cases handler with
  | withoutBody prepare =>
    replace h : Handler.action?.accepted? prepare = some action := h
    rw [Handler.run, runChecked_eq, h]
    rfl
  | withBody prepare =>
    rw [Handler.action?] at h
    rw [Handler.run]
    cases hbody : bodyValue r.body with
    | error why =>
      rw [hbody] at h
      cases h
    | ok value =>
      rw [hbody] at h
      dsimp only at h ⊢
      rw [runChecked_eq, h]
      rfl

theorem refusal_status (found : List (Problem × Value)) :
    (refusal found).status = 422 ∨ (refusal found).status = 500 := by
  unfold refusal
  split
  · exact .inl rfl
  · exact .inr rfl

/-- What is wrong with a request is its response. -/
theorem handler_of_none {handler : Handler} {body : Option String}
    (h : handler.action? body = none) (w : World) :
    (handler.run body w).2 = w ∧ 300 ≤ (handler.run body w).1.status := by
  have hchecked (checked : Checked (Action World Response))
      (hnone : Handler.action?.accepted? checked = none) :
      (runChecked checked w).2 = w ∧ 300 ≤ (runChecked checked w).1.status := by
    rw [runChecked_eq, hnone]
    refine ⟨rfl, ?_⟩
    rcases refusal_status (checked.run []).2 with hstatus | hstatus <;> simp [hstatus]
  cases handler with
  | withoutBody prepare => exact hchecked prepare h
  | withBody prepare =>
    rw [Handler.action?] at h
    rw [Handler.run]
    cases hbody : bodyValue body with
    | ok value =>
      rw [hbody] at h
      exact hchecked (prepare value) h
    | error why => cases why <;> simp [Response.status, detail]

/-- A request for which no action is run changes nothing, and its response is no success. -/
theorem serve_of_none {r : Request} (h : r.action? = none) (w : World) :
    (serve r w).2 = w ∧ 300 ≤ (serve r w).1.status := by
  rw [Request.action?] at h
  cases hroute : routeOf? r.path with
  | none =>
    simp only [serve, hroute]
    split <;> simp [Response.status, detail]
  | some route =>
    simp only [hroute, Option.bind_eq_bind, Option.bind_some] at h
    cases hhandler : handlerOf? r route with
    | none => simp [serve, hroute, hhandler, Response.status, detail]
    | some handler =>
      simp only [hhandler, Option.bind_some] at h
      simp only [serve, hroute, hhandler]
      exact handler_of_none h w

theorem respond_world (action : Action World Response) (w : World) :
    (respond action w).2 = (action.runOn w).2 := by
  unfold respond
  rcases action.runOn w with ⟨_ | _, _⟩ <;> rfl

/-- The actions of the service. -/
inductive Offered : Action World Response → Prop
  | listProducts (filter limit offset order : Value) :
      Offered (listProducts filter limit offset order)
  | showProduct (id : Int) : Offered (showProduct id)
  | listTags (id : Int) : Offered (listTags id)
  | addProduct (fields : Dictionary Value) : Offered (addProduct fields)
  | changeProduct (id : Int) (fields : Dictionary Value) : Offered (changeProduct id fields)
  | deleteProduct (id : Int) : Offered (deleteProduct id)
  | listCategories : Offered listCategories
  | addCategory (fields : Dictionary Value) : Offered (addCategory fields)
  | listCategoryProducts (id : Int) : Offered (listCategoryProducts id)

theorem action_offered {r : Request} {action : Action World Response}
    (h : r.action? = some action) : Offered action := by
  obtain ⟨route, -, h⟩ := Option.bind_eq_some_iff.mp h
  obtain ⟨handler, hhandler, h⟩ := Option.bind_eq_some_iff.mp h
  have haccepted {checked : Checked (Action World Response)}
      (hsome : Handler.action?.accepted? checked = some action) : (checked.run []).1 = action := by
    unfold Handler.action?.accepted? at hsome
    split at hsome
    · exact Option.some.inj hsome
    · cases hsome
  have hbody {prepare : Option Value → Checked (Action World Response)}
      (hsome : (Handler.withBody prepare).action? r.body = some action) :
      ∃ value, ((prepare value).run []).1 = action := by
    rw [Handler.action?] at hsome
    split at hsome
    · exact ⟨_, haccepted hsome⟩
    · cases hsome
  unfold handlerOf? at hhandler
  split at hhandler <;> split at hhandler <;> cases hhandler
  · exact haccepted h ▸ .listProducts _ _ _ _
  · obtain ⟨value, rfl⟩ := hbody h
    exact .addProduct _
  · exact haccepted h ▸ .showProduct _
  · obtain ⟨value, rfl⟩ := hbody h
    exact .changeProduct _ _
  · exact haccepted h ▸ .deleteProduct _
  · exact haccepted h ▸ .listTags _
  · exact haccepted h ▸ .listCategories
  · obtain ⟨value, rfl⟩ := hbody h
    exact .addCategory _
  · exact haccepted h ▸ .listCategoryProducts _

/-! ## 2. What holds along a request -/

/-- A relation between worlds that holds along all operations that the service uses. -/
structure Along (R : World → World → Prop) : Prop where
  replies : ∀ w replies, R w { w with replies }
  findAll : ∀ session model o, (World.findAll session model o).Obeys R
  findById : ∀ session model key, (World.findById session model key).Obeys R
  findByIdAndUpdate : ∀ session model key data,
    (World.findByIdAndUpdate session model key data).Obeys R
  findByIdAndDelete : ∀ session model key, (World.findByIdAndDelete session model key).Obeys R
  findOrCreate : ∀ session model o defaults, (World.findOrCreate session model o defaults).Obeys R
  create : ∀ session model properties, (World.create session model properties).Obeys R
  populate : ∀ ref relation shape, (World.populate ref relation shape).Obeys R

section Along

variable {R : World → World → Prop} [IsPreorder World R]

theorem reading_obeys {α : Type} (read : World → Except Fault α) : (World.reading read).Obeys R :=
  fun w => refl_of R w

theorem entriesOf_obeys (ref : EntityRef) : (entriesOf ref).Obeys R :=
  .bind (reading_obeys _) fun _ => reading_obeys _

theorem entriesWith_obeys (ref : EntityRef) (name : String) (value : Value) :
    (entriesWith ref name value).Obeys R :=
  .bind (entriesOf_obeys ref) fun _ => .pure _

theorem listOf_obeys (refs : List EntityRef) : (listOf refs).Obeys R :=
  .bind (.mapM entriesOf_obeys) fun _ => .pure _

variable (h : Along R)
include h

theorem listRelated_obeys (ref : EntityRef) (relation : String) (shape : World.Shape) :
    (listRelated ref relation shape).Obeys R :=
  .bind (h.populate ref _ shape) fun _ => .bind (reading_obeys _) fun _ => .bind .get fun _ =>
    listOf_obeys _

theorem listProducts_obeys (filter limit offset order : Value) :
    (listProducts filter limit offset order).Obeys R :=
  .bind (.ofExcept _) fun _ => .bind (.ofExcept _) fun _ => .bind (.ofExcept _) fun _ =>
    .bind (h.findAll _ _ _) fun refs => listOf_obeys refs

theorem showProduct_obeys (id : Int) : (showProduct id).Obeys R := by
  refine .bind (h.findById _ _ _) fun found => ?_
  cases found with
  | some ref => exact .bind (entriesOf_obeys ref) fun _ => .pure _
  | none => exact .pure _

theorem listTags_obeys (id : Int) : (listTags id).Obeys R := by
  refine .bind (h.findById _ _ _) fun found => ?_
  cases found with
  | some ref => exact listRelated_obeys h ref _ _
  | none => exact .pure _

theorem addProduct_obeys (fields : Dictionary Value) : (addProduct fields).Obeys R :=
  .bind (h.create _ _ _) fun ref => .bind (entriesWith_obeys ref _ _) fun _ => .pure _

theorem changeProduct_obeys (id : Int) (fields : Dictionary Value) :
    (changeProduct id fields).Obeys R := by
  refine .bind (h.findByIdAndUpdate _ _ _ _) fun found => ?_
  cases found with
  | some ref => exact .bind (entriesWith_obeys ref _ _) fun _ => .pure _
  | none => exact .pure _

theorem deleteProduct_obeys (id : Int) : (deleteProduct id).Obeys R :=
  .bind (.discard (h.findByIdAndDelete _ _ _)) fun _ => .pure _

theorem listCategories_obeys : listCategories.Obeys R :=
  .bind (.ofExcept _) fun _ => .bind (h.findAll _ _ _) fun refs => listOf_obeys refs

theorem addCategory_obeys (fields : Dictionary Value) : (addCategory fields).Obeys R :=
  .bind (.ofExcept _) fun _ => .bind (h.findOrCreate _ _ _ _) fun found =>
    .bind (entriesWith_obeys found.1 _ _) fun _ => .pure _

theorem listCategoryProducts_obeys (id : Int) : (listCategoryProducts id).Obeys R := by
  refine .bind (h.findById _ _ _) fun found => ?_
  cases found with
  | some ref => exact listRelated_obeys h ref _ _
  | none => exact .pure _

theorem offered_obeys {action : Action World Response} (haction : Offered action) :
    action.Obeys R := by
  cases haction with
  | listProducts filter limit offset order => exact listProducts_obeys h filter limit offset order
  | showProduct id => exact showProduct_obeys h id
  | listTags id => exact listTags_obeys h id
  | addProduct fields => exact addProduct_obeys h fields
  | changeProduct id fields => exact changeProduct_obeys h id fields
  | deleteProduct id => exact deleteProduct_obeys h id
  | listCategories => exact listCategories_obeys h
  | addCategory fields => exact addCategory_obeys h fields
  | listCategoryProducts id => exact listCategoryProducts_obeys h id

/-- **What holds along the operations on entities holds along every request.** -/
theorem handle_obeys (r : Request) (w : World) : R w (handle r w).2 := by
  have hserve (u : World) : R u (serve r u).2 := by
    cases haction : r.action? with
    | none =>
      rw [(serve_of_none haction u).1]
      exact refl_of R u
    | some action =>
      rw [serve_of_action haction, respond_world]
      exact offered_obeys h (action_offered haction) u
  exact trans_of R (h.replies w r.replies) (hserve _)

end Along

/-! ## 3. The worlds of the service -/

/-- The worlds of the service: the one in which it starts, and the one after each request. -/
inductive Served : World → Prop
  | start : Served start
  | handled {w : World} (h : Served w) (r : Request) : Served (handle r w).2

/-- The calls that the operations of the service make. -/
def serviceKinds : List CallKind := [.selection, .insertion, .change, .removal]

theorem along_leads : Along (Leads serviceKinds) where
  replies _ _ := .quiet rfl fun hw => ⟨hw.solid, hw.numbered⟩
  findAll session model o := (World.findAll_sends session model o).of_subset (by simp [serviceKinds])
  findById session model key :=
    (World.findById_sends session model key).of_subset (by simp [serviceKinds])
  findByIdAndUpdate session model key data :=
    (World.findByIdAndUpdate_sends session model key data).of_subset (by simp [serviceKinds])
  findByIdAndDelete session model key :=
    (World.findByIdAndDelete_sends session model key).of_subset (by simp [serviceKinds])
  findOrCreate session model o defaults :=
    (World.findOrCreate_sends session model o defaults).of_subset (by simp [serviceKinds])
  create session model properties :=
    (World.create_sends session model properties).of_subset (by simp [serviceKinds])
  populate ref relation shape :=
    (World.populate_sends ref relation shape).of_subset (by simp [serviceKinds])

theorem obeys_steady_of_told {α : Type} {action : Action World α} (h : Told action) :
    action.Obeys Steady := by
  intro w
  obtain ⟨events, hhappens, -⟩ := h w
  exact (hhappens.lives fun _ _ hlives => hlives).steady

theorem along_steady : Along Steady where
  replies _ _ := .of_registry rfl
  findAll session model _ := obeys_steady_of_told
    (World.findAll_hydrates (S := fun _ => True) session model trivial).told
  findById session model key := obeys_steady_of_told
    (World.findById_hydrates (S := fun _ => True) session model key trivial).told
  findByIdAndUpdate session model key data := obeys_steady_of_told
    ((World.findByIdAndUpdate_yields session model key data).told fun _ _ h => h)
  findByIdAndDelete session model key :=
    obeys_steady_of_told (World.findByIdAndDelete_told session model key)
  findOrCreate session model o defaults :=
    obeys_steady_of_told (World.findOrCreate_told session model o defaults)
  create session model properties :=
    obeys_steady_of_told (World.create_told session model properties)
  populate ref relation shape := obeys_steady_of_told
    ((World.populate_yields ref relation shape).told fun _ _ h => h)

theorem definitions_numbered (definitions : List Model.Definition) :
    ((definitions.forM fun d => discard (World.define d)).runOn {}).2.registry.Numbered := by
  have hdefined : World.Sends [] (definitions.forM fun d => discard (World.define d)) :=
    .forM fun d => .discard (World.define_sends d)
  exact ((hdefined {}).sound ⟨by simp [Shelf.Solid], Model.Registry.initial_numbered⟩).numbered

theorem initialWorld_sound : initialWorld.Sound := by
  have hnumbered : registry.Numbered := by
    rw [registry]
    exact definitions_numbered catalogue
  have hnameless (r : Model.Registry) (h : r.Numbered) : ({ r with keys := [] }).Numbered := h
  rw [initialWorld]
  exact ⟨List.forall_mem_nil _, hnameless registry hnumbered⟩

namespace Served

variable {w : World}

theorem sound (h : Served w) : w.Sound := by
  induction h with
  | start =>
    rw [Shop.start, createTables]
    exact (World.createTables_sends false (catalogue.map modelOf) initialWorld).sound
      initialWorld_sound
  | handled _ r ih => exact (handle_obeys along_leads r _).sound ih

theorem steady (h : Served w) : Steady initialWorld w := by
  induction h with
  | start =>
    rw [Shop.start, createTables]
    exact .of_registry
      (World.createTables_still false (catalogue.map modelOf) initialWorld).registry_eq
  | handled _ r ih => exact trans_of Steady ih (handle_obeys along_steady r _)

end Served

/-- The columns of a product. -/
def productColumns : List String := ["id", "name", "price", "stock", "category_id"]

/-- The columns of a category. -/
def categoryColumns : List String := ["id", "name", "description"]

/-- How the rows of a model are stored before anything was asked, as far as it can be computed. -/
theorem initiallyStored {d : Model.Definition} {table key : String} {columns : List String}
    (hknown : (initialWorld.registry.mapperOf (modelOf d)).toOption.map (fun m =>
      (m.tableName.text?, m.tableName.place, m.columns.names, m.key)) =
      some (some table, none, columns, key)) :
    ∃ m, initialWorld.registry.mapperOf (modelOf d) = .ok m ∧ m.tableName = .str table ∧
      m.columns.names = columns ∧ m.key = key := by
  cases hm : initialWorld.registry.mapperOf (modelOf d) with
  | error fault =>
    rw [hm] at hknown
    cases hknown
  | ok m =>
    simp only [hm, Except.toOption, Option.map_some, Option.some.injEq, Prod.mk.injEq] at hknown
    obtain ⟨htext, hplace, hcolumns, hkey⟩ := hknown
    refine ⟨m, rfl, ?_, hcolumns, hkey⟩
    cases htable : m.tableName <;> rw [htable] at htext hplace <;> cases htext
    cases hplace
    rfl

/-- The products before anything was asked. -/
theorem initialProducts : ∃ m, initialWorld.registry.mapperOf (modelOf product) = .ok m ∧
    m.tableName = .str "products" ∧ m.columns.names = productColumns ∧ m.key = "id" :=
  initiallyStored (by decide +kernel)

/-- The categories before anything was asked. -/
theorem initialCategories : ∃ m, initialWorld.registry.mapperOf (modelOf category) = .ok m ∧
    m.tableName = .str "categories" ∧ m.columns.names = categoryColumns ∧ m.key = "id" :=
  initiallyStored (by decide +kernel)

/-- A model whose table has a plain name is stored there in every world of the service. -/
theorem Served.mapper_eq {w : World} (h : Served w) {id : Nat} {m : Mapper} {table : String}
    (hm : initialWorld.registry.mapperOf id = .ok m) (htable : m.tableName = .str table) :
    ∃ m', w.mapper id = .ok m' ∧ m'.tableName = m.tableName ∧ m'.columns = m.columns ∧
      m'.key = m.key := by
  obtain ⟨added, flag, hlater⟩ := h.steady.mapperOf_eq hm
  -- a name that lies on no shelf stands for itself
  have hname : w.expand m.tableName = m.tableName := by
    rw [htable]
    rfl
  refine ⟨{ m with associations := m.associations ++ added, finalized := m.finalized || flag }, ?_,
    rfl, rfl, rfl⟩
  rw [World.mapper, hlater]
  simpa using hname

/-- **Where and how the products are stored stays the same.** -/
theorem Served.products {w : World} (h : Served w) :
    ∃ m, w.mapper (modelOf product) = .ok m ∧ m.tableName = .str "products" ∧
      m.columns.names = productColumns ∧ m.key = "id" := by
  obtain ⟨m, hm, htable, hcolumns, hkey⟩ := initialProducts
  obtain ⟨m', hm', htable', hcolumns', hkey'⟩ := h.mapper_eq hm htable
  exact ⟨m', hm', htable'.trans htable, hcolumns' ▸ hcolumns, hkey'.trans hkey⟩

/-- Where and how the categories are stored stays the same. -/
theorem Served.categories {w : World} (h : Served w) :
    ∃ m, w.mapper (modelOf category) = .ok m ∧ m.tableName = .str "categories" ∧
      m.columns.names = categoryColumns ∧ m.key = "id" := by
  obtain ⟨m, hm, htable, hcolumns, hkey⟩ := initialCategories
  obtain ⟨m', hm', htable', hcolumns', hkey'⟩ := h.mapper_eq hm htable
  exact ⟨m', hm', htable'.trans htable, hcolumns' ▸ hcolumns, hkey'.trans hkey⟩

/-- What a request asks of the database while it is served, and how that is answered. -/
def exchanges (r : Request) (w : World) : List Exchange :=
  (handle r w).2.trace.drop w.trace.length

theorem handle_trace (r : Request) (w : World) :
    (handle r w).2.trace = w.trace ++ exchanges r w := by
  obtain ⟨sent, htrace, -⟩ := (handle_obeys along_leads r w).calls
  rw [exchanges, htrace, List.drop_left]

end RowMapper.Shop
