import RowMapper.Proofs.Entity.Rewrite
import RowMapper.Proofs.Shop.Course

/-!
# Requests that write one product

A product is changed or deleted in two statements: it is read by its id, and then its row is written
by the key that was read.  `Changes r id fields` and `Deletes r id` say what a request asks for once
its parts are read.  If it is answered with success, both statements were sent and both were
answered, and these two are all (`changed_exchanges`, `deleted_exchanges`).
-/
namespace RowMapper.Shop

open Model (Mapper)
open World (Counts ReadsRow ReadsThenWrites RemovesRow Rewrites)

/-! ## 1. Checks that find nothing -/

variable {α β : Type}

/-- What was found before stays. -/
def Keeps (checked : Checked α) : Prop := ∀ found, found <+: (checked.run found).2

theorem Keeps.pure (a : α) : Keeps (Pure.pure a) := fun _ => List.prefix_rfl

theorem Keeps.bind {checked : Checked α} {next : α → Checked β} (h : Keeps checked)
    (hnext : ∀ a, Keeps (next a)) : Keeps (checked >>= next) := fun found =>
  (h found).trans (hnext (checked.run found).1 (checked.run found).2)

theorem Keeps.mapM {items : List β} {f : β → Checked α} (h : ∀ item, Keeps (f item)) :
    Keeps (items.mapM f) := by
  induction items with
  | nil => exact .pure _
  | cons item rest ih =>
    rw [List.mapM_cons]
    exact .bind (h item) fun _ => .bind ih fun _ => .pure _

theorem check_keeps (location : List String) (input : Value) (absent : α)
    (read : Except ProblemKind α) : Keeps (check location input absent read) := by
  intro found
  cases read with
  | ok a => exact List.prefix_rfl
  | error kind => exact List.prefix_append found _

theorem checkField_keeps (entries : Entries) (f : BodyField) : Keeps (checkField entries f) := by
  unfold checkField
  dsimp only
  split
  · exact .bind (check_keeps _ _ _ _) fun _ => .pure _
  · exact .pure _
  · exact .bind (check_keeps _ _ _ _) fun _ => .pure _

theorem checkBody_keeps (fields : List BodyField) (body : Option Value) :
    Keeps (checkBody fields body) := by
  unfold checkBody
  split
  · exact .mapM (checkField_keeps _)
  · exact check_keeps _ _ _ _
  · exact check_keeps _ _ _ _

/-- Nothing is found in two steps if nothing is found in either. -/
theorem run_bind_clean {checked : Checked α} {next : α → Checked β} (hnext : ∀ a, Keeps (next a))
    {b : β} (h : (checked >>= next).run [] = (b, [])) :
    ∃ a, checked.run [] = (a, []) ∧ (next a).run [] = (b, []) := by
  rcases hrun : checked.run [] with ⟨a, found⟩
  have hlast : (next a).run found = (b, []) := by
    rw [← h]
    show _ = (next (checked.run []).1).run (checked.run []).2
    rw [hrun]
  have hkept := hnext a found
  rw [hlast] at hkept
  obtain rfl : found = [] := List.prefix_nil.mp hkept
  exact ⟨a, rfl, hlast⟩

theorem check_clean {location : List String} {input : Value} {absent a : α}
    {read : Except ProblemKind α} :
    (check location input absent read).run [] = (a, []) ↔ read = .ok a := by
  cases read with
  | ok b =>
    show (b, []) = (a, []) ↔ _
    simp
  | error kind =>
    constructor
    · intro h
      cases (Prod.mk.inj h).2
    · rintro ⟨⟩

theorem accepted_eq_some {checked : Checked (Action World Response)}
    {action : Action World Response} :
    Handler.action?.accepted? checked = some action ↔ checked.run [] = (action, []) := by
  rw [Handler.action?.accepted?]
  rcases checked.run [] with ⟨found, _ | ⟨problem, more⟩⟩
  · exact ⟨fun h => congrArg (·, []) (Option.some.inj h), fun h => congrArg some (Prod.mk.inj h).1⟩
  · constructor
    · rintro ⟨⟩
    · intro h
      cases (Prod.mk.inj h).2

/-! ## 2. What is asked for -/

/-- The request changes a product, with an id and with the fields of its body. -/
def Changes (r : Request) (id : Int) (fields : Dictionary Value) : Prop :=
  r.method = "PUT" ∧ ∃ text body, routeOf? r.path = some (.product text) ∧
    Field.integerText text = .ok id ∧ bodyValue r.body = .ok body ∧
    (checkBody changedProductFields body).run [] = (fields, [])

/-- The request deletes a product. -/
def Deletes (r : Request) (id : Int) : Prop :=
  r.method = "DELETE" ∧ ∃ text, routeOf? r.path = some (.product text) ∧
    Field.integerText text = .ok id

variable {r : Request} {text : String} {w w' : World}

/-- The action of a handler that needs no body. -/
theorem action_withoutBody {route : Route} {checked : Checked (Action World Response)}
    {action : Action World Response} (hroute : routeOf? r.path = some route)
    (hhandler : handlerOf? r route = some (.withoutBody checked)) (h : r.action? = some action) :
    checked.run [] = (action, []) := by
  rw [Request.action?, hroute] at h
  simp only [Option.bind_eq_bind, Option.bind_some, hhandler] at h
  exact accepted_eq_some.mp h

theorem action_withBody {route : Route} {prepare : Option Value → Checked (Action World Response)}
    {action : Action World Response} (hroute : routeOf? r.path = some route)
    (hhandler : handlerOf? r route = some (.withBody prepare)) (h : r.action? = some action) :
    ∃ body, bodyValue r.body = .ok body ∧ (prepare body).run [] = (action, []) := by
  rw [Request.action?, hroute] at h
  simp only [Option.bind_eq_bind, Option.bind_some, hhandler, Handler.action?] at h
  cases hbody : bodyValue r.body with
  | error why =>
    rw [hbody] at h
    cases h
  | ok body =>
    rw [hbody] at h
    exact ⟨body, rfl, accepted_eq_some.mp h⟩

theorem action_put {action : Action World Response} (hroute : routeOf? r.path = some (.product text))
    (hmethod : r.method = "PUT") (h : r.action? = some action) :
    ∃ id fields, Changes r id fields ∧ action = changeProduct id fields := by
  have hhandler : handlerOf? r (.product text) = some (.withBody fun body => do
      let id ← checkId "product_id" text
      return changeProduct id (← checkBody changedProductFields body)) := by
    rw [handlerOf?, hmethod]
    rfl
  obtain ⟨body, hbody, hrun⟩ := action_withBody hroute hhandler h
  obtain ⟨id, hid, hrun⟩ :=
    run_bind_clean (fun _ => .bind (checkBody_keeps _ _) fun _ => .pure _) hrun
  obtain ⟨fields, hfields, hrun⟩ := run_bind_clean (fun _ => .pure _) hrun
  exact ⟨id, fields, ⟨hmethod, text, body, hroute, check_clean.mp hid, hbody, hfields⟩,
    (Prod.mk.inj hrun).1.symm⟩

theorem action_delete {action : Action World Response}
    (hroute : routeOf? r.path = some (.product text)) (hmethod : r.method = "DELETE")
    (h : r.action? = some action) : ∃ id, Deletes r id ∧ action = deleteProduct id := by
  have hhandler : handlerOf? r (.product text) = some (.withoutBody do
      return deleteProduct (← checkId "product_id" text)) := by
    rw [handlerOf?, hmethod]
    rfl
  have hrun := action_withoutBody hroute hhandler h
  obtain ⟨id, hid, hrun⟩ := run_bind_clean (fun _ => .pure _) hrun
  exact ⟨id, ⟨hmethod, text, hroute, check_clean.mp hid⟩, (Prod.mk.inj hrun).1.symm⟩

/-! ## 3. The fields of a change -/

theorem mapM_clean {f : β → Checked α} {items : List β} {found : List α}
    (hf : ∀ item, Keeps (f item)) (h : (items.mapM f).run [] = (found, [])) :
    List.Forall₂ (fun item a => (f item).run [] = (a, [])) items found := by
  induction items generalizing found with
  | nil =>
    cases h
    exact .nil
  | cons item rest ih =>
    rw [List.mapM_cons] at h
    obtain ⟨first, hfirst, h⟩ :=
      run_bind_clean (fun _ => .bind (.mapM hf) fun _ => .pure _) h
    obtain ⟨others, hothers, h⟩ := run_bind_clean (fun _ => .pure _) h
    cases h
    exact .cons hfirst (ih hothers)

/-- A field goes by its name, and its value is one that was read or that stands for it. -/
theorem checkField_clean {entries : Entries} {f : BodyField} {field : String × Value}
    (h : (checkField entries f).run [] = (field, [])) :
    field.1 = f.name ∧ (f.absent = some field.2 ∨ ∃ v, f.read v = .ok field.2) := by
  unfold checkField at h
  dsimp only at h
  split at h
  · next v _ =>
    obtain ⟨a, ha, h⟩ := run_bind_clean (fun _ => .pure _) h
    cases h
    exact ⟨rfl, .inr ⟨v, check_clean.mp ha⟩⟩
  · next habsent =>
    cases h
    exact ⟨rfl, .inl habsent⟩
  · obtain ⟨a, ha, h⟩ := run_bind_clean (fun _ => .pure _) h
    cases check_clean.mp ha

/-- The fields of a body go by their names in order, each with a value that was read or that stands
for it. -/
theorem checkBody_clean {given : List BodyField} {body : Option Value} {fields : Dictionary Value}
    (h : (checkBody given body).run [] = (fields, [])) :
    List.Forall₂ (fun f field => field.1 = f.name ∧
      (f.absent = some field.2 ∨ ∃ v, f.read v = .ok field.2)) given fields := by
  unfold checkBody at h
  split at h
  · next entries _ =>
    exact (mapM_clean (checkField_keeps entries) h).imp fun _ _ => checkField_clean
  · cases check_clean.mp h
  · cases check_clean.mp h

/-- The fields that can be given in a body. -/
def givenFields : List BodyField := newProductFields ++ changedProductFields ++ newCategoryFields

/-- What is read for a field, or stands for it, is a value of a database. -/
theorem field_isDatum {f : BodyField} (hf : f ∈ givenFields) {field : String × Value}
    (h : f.absent = some field.2 ∨ ∃ v, f.read v = .ok field.2) : field.2.isDatum = true := by
  have horNull {read : Value → Except ProblemKind Value}
      (hread : ∀ v a, read v = .ok a → a.isDatum = true) (v a : Value)
      (h : orNull read v = .ok a) : a.isDatum = true := by
    unfold orNull at h
    split at h
    · cases h
      rfl
    · exact hread v a h
  have hmap {γ : Type} {read : Value → Except ProblemKind γ} {make : γ → Value}
      (hmake : ∀ c, (make c).isDatum = true) (v a : Value) (h : (read v).map make = .ok a) :
      a.isDatum = true := by
    obtain ⟨c, -, rfl⟩ := map_eq_ok.mp h
    exact hmake c
  have hfields : (∀ v, f.absent = some v → v.isDatum = true) ∧
      ∀ v a, f.read v = .ok a → a.isDatum = true := by
    simp only [givenFields, newProductFields, changedProductFields, newCategoryFields,
      List.cons_append, List.nil_append, List.mem_cons, List.not_mem_nil, or_false] at hf
    rcases hf with rfl | rfl | rfl | rfl | rfl | rfl | rfl | rfl | rfl | rfl <;>
      refine ⟨by rintro _ ⟨⟩ <;> rfl, ?_⟩ <;>
      first | exact horNull (hmap fun _ => rfl) | exact hmap fun _ => rfl
  rcases h with habsent | ⟨v, hread⟩
  · exact hfields.1 _ habsent
  · exact hfields.2 v _ hread

/-- The values of a body are values of a database. -/
theorem body_isDatum {given : List BodyField} (hgiven : given ⊆ givenFields) {body : Option Value}
    {fields : Dictionary Value} (h : (checkBody given body).run [] = (fields, [])) :
    ∀ entry ∈ fields, entry.2.isDatum = true := by
  have hfields := checkBody_clean h
  intro field hmem
  obtain ⟨n, hn, rfl⟩ := List.mem_iff_getElem.mp hmem
  have hfield := hfields.get (hfields.length_eq ▸ hn) hn
  exact field_isDatum (hgiven (List.getElem_mem _)) hfield.2

/-- A change has four fields, with values of a database. -/
theorem Changes.fields {id : Int} {fields : Dictionary Value} (h : Changes r id fields) :
    fields.names = ["name", "price", "stock", "category_id"] ∧
      ∀ entry ∈ fields, entry.2.isDatum = true := by
  obtain ⟨-, text, body, -, -, -, hbody⟩ := h
  refine ⟨?_, body_isDatum (fun f hf => ?_) hbody⟩
  · have hnames : List.Forall₂ Eq (changedProductFields.map (·.name)) (fields.map (·.1)) := by
      rw [List.forall₂_map_left_iff, List.forall₂_map_right_iff]
      exact (checkBody_clean hbody).imp fun _ _ hfield => hfield.1.symm
    rw [List.forall₂_eq_eq_eq] at hnames
    exact hnames.symm
  · exact List.mem_append_left _ (List.mem_append_right _ hf)

/-! ## 4. Success -/

theorem responseOf_status (w : World) (fault : Fault) : 300 ≤ (responseOf w fault).status := by
  unfold responseOf
  dsimp only
  split <;> simp [Response.status, detail, internalError]

/-- A response is sent with its status, or as an internal error. -/
theorem sent_status (response : Response) (w : World) :
    (response.sent w).status = response.status ∨ (response.sent w).status = 500 := by
  cases response with
  | content status v =>
    rw [Response.sent]
    split
    · exact .inl rfl
    · exact .inr rfl
  | _ => exact .inl rfl

theorem handle_status (r : Request) (w : World) :
    (handle r w).1.status = (serve r { w with replies := r.replies }).1.status := by
  rw [handle]
  dsimp only
  split <;> rfl

/-- The world in which a request is served. -/
def awaiting (r : Request) (w : World) : World := { w with replies := r.replies }

/-- A request is answered with success only by an action that ended well. -/
theorem action_of_success (hstatus : (handle r w).1.status = 200) :
    ∃ action response, r.action? = some action ∧ response.status = 200 ∧
      action.runOn (awaiting r w) = (.ok response, (handle r w).2) := by
  rw [handle_status] at hstatus
  change (serve r (awaiting r w)).1.status = 200 at hstatus
  have hafter : (handle r w).2 = (serve r (awaiting r w)).2 := rfl
  rw [hafter]
  cases haction : r.action? with
  | none =>
    have hrefused := (serve_of_none haction (awaiting r w)).2
    omega
  | some action =>
    rw [serve_of_action haction] at hstatus ⊢
    refine ⟨action, ?_⟩
    rw [respond] at hstatus ⊢
    rcases hrun : action.runOn (awaiting r w) with ⟨fault | response, after⟩ <;>
      rw [hrun] at hstatus
    · have hfault := responseOf_status after fault
      dsimp only at hstatus
      omega
    · refine ⟨response, rfl, ?_, rfl⟩
      rcases sent_status response after with hsent | hsent <;> dsimp only at hstatus <;> omega

/-! ## 5. The statement that reads -/

/-- How products are stored. -/
structure StoresProducts (m : Mapper) : Prop where
  table_eq : m.tableName = .str "products"
  columns_eq : m.columns.names = productColumns
  key_eq : m.key = "id"

theorem Served.storesProducts {m : Mapper} (hw : Served w)
    (h : (awaiting r w).mapper (modelOf product) = .ok m) : StoresProducts m := by
  obtain ⟨m', hm', htable, hcolumns, hkey⟩ := hw.products
  cases hm'.symm.trans h
  exact ⟨htable, hcolumns, hkey⟩

/-- A selection of whole rows names their table, and then comes what the filter, the order and the
page are. -/
theorem selection_whole {m : Mapper} {table : String} (htable : m.tableName = .str table)
    (hquote : Sql.quoteIdentifier (.str table) = .ok (Sql.quote table)) {o : FindOptions}
    (hattributes : o.attributes = none) (hgroup : o.group = none) (limit offset : Option Int) :
    World.selection m o limit offset = (do
      let filter ← orFault (Where.compile (o.valueOf .filter))
      let order ← Sql.clausePart "ORDER BY" (o.valueOf .order)
      let paging ← Sql.pagingPart (limit.elim .null .int) (offset.elim .null .int)
      return ⟨"SELECT * FROM " ++ Sql.quote table ++ (Sql.wherePart (some filter)).text ++ order ++
        paging, (Sql.wherePart (some filter)).params⟩) := by
  have hcolumns : Sql.columnList (o.valueOf .attributes) = .ok "*" := by
    rw [FindOptions.valueOf, hattributes]
    rfl
  have hgrouping : Sql.clausePart "GROUP BY" (o.valueOf .group) = .ok "" := by
    rw [FindOptions.valueOf, hgroup]
    rfl
  have htext : "SELECT " ++ "*" ++ " FROM " = "SELECT * FROM " := by decide
  rw [World.selection]
  refine bind_congr fun filter => ?_
  rw [Sql.Select.statement]
  dsimp only
  rw [htable, hquote, hcolumns, hgrouping]
  cases Sql.clausePart "ORDER BY" (o.valueOf .order) with
  | error fault => rfl
  | ok order =>
    cases Sql.pagingPart (limit.elim .null .int) (offset.elim .null .int) with
    | error fault => rfl
    | ok paging =>
      show Except.ok (Sql.Fragment.mk
        ("SELECT " ++ "*" ++ " FROM " ++ Sql.quote table ++ _ ++ "" ++ order ++ paging) _) = _
      rw [htext, String.append_empty]
      rfl

theorem selection_products {m : Mapper} (htable : m.tableName = .str "products") {o : FindOptions}
    (hattributes : o.attributes = none) (hgroup : o.group = none) (limit offset : Option Int) :
    World.selection m o limit offset = (do
      let filter ← orFault (Where.compile (o.valueOf .filter))
      let order ← Sql.clausePart "ORDER BY" (o.valueOf .order)
      let paging ← Sql.pagingPart (limit.elim .null .int) (offset.elim .null .int)
      return ⟨"SELECT * FROM \"products\"" ++ (Sql.wherePart (some filter)).text ++ order ++ paging,
        (Sql.wherePart (some filter)).params⟩) := by
  have htext : "SELECT * FROM " ++ Sql.quote "products" = "SELECT * FROM \"products\"" := by decide
  rw [selection_whole htable rfl hattributes hgroup, htext]

/-- The selection of the row with a value in a column. -/
theorem selection_keyed {m : Mapper} {table name : String} {v : Value}
    (htable : m.tableName = .str table)
    (hquote : Sql.quoteIdentifier (.str table) = .ok (Sql.quote table))
    (hcompile : Where.compile (.mapping [(.str name, v)]) = .ok ⟨Sql.quote name ++ " = ?", [v]⟩) :
    World.selection m { filter := [(name, v)], given := [.filter] } (some 1) none =
      .ok ⟨Sql.keyedText table name, [v]⟩ := by
  have hend : " = ? LIMIT 1" = " = ?" ++ " LIMIT 1" := by decide
  have hparts (a b c d e : String) : a ++ b ++ c ++ (d ++ e) = a ++ (b ++ (c ++ d)) ++ "" ++ e := by
    simp only [String.append_assoc, String.append_empty]
  have htext : Sql.keyedText table name = "SELECT * FROM " ++ Sql.quote table ++
      (" WHERE " ++ (Sql.quote name ++ " = ?")) ++ "" ++ " LIMIT 1" :=
    (congrArg (_ ++ ·) hend).trans (hparts _ _ _ _ _)
  rw [selection_whole htable hquote rfl rfl, htext]
  show (orFault (Where.compile (.mapping [(.str name, v)])) >>= _) = _
  rw [hcompile]
  rfl

theorem readsRow_product {m : Mapper} (hm : StoresProducts m) {id : Int} {row : Row}
    {read : Exchange} (h : ReadsRow w m (.int id) row read) :
    read.call = .statement (Sql.keyedText "products" "id") [.int id] ∧
      ∃ rest, read.result = .ok (.rows (row :: rest)) := by
  have hoptions : World.keyOptions m (.int id) =
      .ok { filter := [("id", .int id)], given := [.filter] } := by
    rw [World.keyOptions, hm.key_eq]
    rfl
  cases h with
  | mk ho hf hcall hresult =>
    cases hoptions.symm.trans ho
    cases (selection_keyed hm.table_eq rfl rfl).symm.trans hf
    refine ⟨hcall, _, hresult⟩

/-- The statements for one product: the row with its id was read, and then something was sent for
that row. -/
inductive Wrote (id : Int) (P : Mapper → Row → Exchange → Prop) : List Exchange → Prop
  | mk {m : Mapper} {read write : Exchange} {row : Row} {rest : List Row} (hm : StoresProducts m)
      (hread : read.call = .statement (Sql.keyedText "products" "id") [.int id])
      (hrow : read.result = .ok (.rows (row :: rest))) (hwrite : P m row write) :
      Wrote id P [read, write]

theorem wrote_of_reads {id : Int} {P : Mapper → Row → Exchange → Prop} {sent : List Exchange}
    (hw : Served w) (h : ReadsThenWrites (awaiting r w) (modelOf product) (.int id) P sent) :
    Wrote id P sent := by
  cases h with
  | mk hmapper hread hwrite =>
    have hm := hw.storesProducts hmapper
    obtain ⟨hcall, rest, hresult⟩ := readsRow_product hm hread
    exact .mk hm hcall hresult hwrite

/-! ## 6. What is sent -/

/-- The fields that are changed: those that are not null. -/
def changesOf (fields : Dictionary Value) : Dictionary Value :=
  fields.filter fun entry => !entry.2.isNull

/-- What is asked for is read in one way. -/
theorem Changes.unique {id id' : Int} {fields fields' : Dictionary Value} (h : Changes r id fields)
    (h' : Changes r id' fields') : id = id' ∧ fields = fields' := by
  obtain ⟨-, text, body, hroute, hid, hbody, hfields⟩ := h
  obtain ⟨-, text', body', hroute', hid', hbody', hfields'⟩ := h'
  cases hroute.symm.trans hroute'
  cases hid.symm.trans hid'
  cases hbody.symm.trans hbody'
  exact ⟨rfl, (Prod.mk.inj (hfields.symm.trans hfields')).1⟩

/-- What is changed are columns of a product, but not its id, with values of a database. -/
theorem Changes.changes {id : Int} {fields : Dictionary Value} (h : Changes r id fields) :
    (changesOf fields).names.Nodup ∧ (changesOf fields).names ⊆ productColumns ∧
      "id" ∉ (changesOf fields).names ∧ ∀ entry ∈ changesOf fields, entry.2.isDatum = true := by
  obtain ⟨hnames, hdata⟩ := h.fields
  have hsub : (changesOf fields).names.Sublist ["name", "price", "stock", "category_id"] :=
    hnames ▸ List.filter_sublist.map _
  exact ⟨List.Nodup.sublist hsub (by decide), fun name hname => .tail _ (hsub.subset hname),
    fun hid => absurd (hsub.subset hid) (by decide), fun entry hentry =>
    hdata entry (List.mem_filter.mp hentry).1⟩

theorem changeProduct_succeeds {id : Int} {fields : Dictionary Value} {response : Response}
    (hrun : (changeProduct id fields).runOn w = (.ok response, w')) (hstatus : response.status = 200) :
    ∃ ref t, (World.findByIdAndUpdate session (modelOf product) (.int id)
      (named (changesOf fields))).runOn w = (.ok (some ref), t) ∧ w'.trace = t.trace := by
  obtain ⟨found, t, hfind, hrun⟩ := Action.runOn_bind_eq_ok.mp hrun
  cases found with
  | none =>
    cases hrun
    cases hstatus
  | some ref =>
    obtain ⟨value, t', hentries, hrun⟩ := Action.runOn_bind_eq_ok.mp hrun
    cases hrun
    have hled : World.Leads [] t w' := (entriesWith_obeys ref _ _).of_run hentries
    exact ⟨ref, t, hfind, hled.trace_eq⟩

theorem deleteProduct_succeeds {id : Int} {response : Response}
    (hrun : (deleteProduct id).runOn w = (.ok response, w')) :
    ∃ found, (World.findByIdAndDelete session (modelOf product) (.int id)).runOn w =
      (.ok found, w') := by
  rw [deleteProduct, Action.discard_eq] at hrun
  obtain ⟨_, t, hdelete, hrun⟩ := Action.runOn_bind_eq_ok.mp hrun
  obtain ⟨found, t', hdelete, hdone⟩ := Action.runOn_bind_eq_ok.mp hdelete
  cases hdone
  cases hrun
  exact ⟨found, hdelete⟩

theorem awaiting_sound (hw : Served w) (r : Request) : (awaiting r w).Sound :=
  ⟨hw.sound.solid, hw.sound.numbered⟩

theorem exchanges_of_trace {sent : List Exchange}
    (h : (handle r w).2.trace = (awaiting r w).trace ++ sent) : exchanges r w = sent := by
  rw [exchanges, h]
  exact List.drop_left

/-- A change that was answered with success was read, written and counted. -/
theorem changed_exchanges (hw : Served w) (hroute : routeOf? r.path = some (.product text))
    (hmethod : r.method = "PUT") (hstatus : (handle r w).1.status = 200) :
    ∃ id fields found, Changes r id fields ∧
      Wrote id (fun m row write => Rewrites m (Entries.ofNamed (changesOf fields)) row write.call ∧
        Counts write found) (exchanges r w) := by
  obtain ⟨action, response, haction, hresponse, hrun⟩ := action_of_success hstatus
  obtain ⟨id, fields, hchanges, rfl⟩ := action_put hroute hmethod haction
  obtain ⟨ref, t, hfind, htrace⟩ := changeProduct_succeeds hrun hresponse
  have hdata : (awaiting r w).look (named (changesOf fields)) =
      .mappingAt (Entries.ofNamed (changesOf fields)) none := rfl
  obtain ⟨sent, found, hsent, hwrites⟩ :=
    World.findByIdAndUpdate_exchanged (awaiting_sound hw r) hdata hfind
  refine ⟨id, fields, found, hchanges, ?_⟩
  rw [exchanges_of_trace (htrace.trans hsent)]
  exact wrote_of_reads hw hwrites

/-- A removal that was answered with success was read, written and counted. -/
theorem deleted_exchanges (hw : Served w) (hroute : routeOf? r.path = some (.product text))
    (hmethod : r.method = "DELETE") (hstatus : (handle r w).1.status = 200) :
    ∃ id found, Deletes r id ∧
      Wrote id (fun m row write => RemovesRow m row write.call ∧ Counts write found)
        (exchanges r w) := by
  obtain ⟨action, response, haction, hresponse, hrun⟩ := action_of_success hstatus
  obtain ⟨id, hdeletes, rfl⟩ := action_delete hroute hmethod haction
  obtain ⟨found, hdelete⟩ := deleteProduct_succeeds hrun
  obtain ⟨sent, hsent, hwrites⟩ :=
    World.findByIdAndDelete_exchanged (awaiting_sound hw r) hdelete
  refine ⟨id, found, hdeletes, ?_⟩
  rw [exchanges_of_trace hsent]
  exact wrote_of_reads hw hwrites

end RowMapper.Shop
