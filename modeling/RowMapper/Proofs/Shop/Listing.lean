import RowMapper.Proofs.Shop.Selection
import RowMapper.Proofs.Shop.Showing

/-!
# Listing products
-/
namespace RowMapper.Shop

open Model (Mapper)
open World (Free Hydrated)

variable {r : Request} {w w' : World} {m : Mapper}

/-! ## 1. The numbers of a page -/

theorem checkNumber_ok {name : String} {n : Option Int} (h : numberOf r name = .ok n)
    (found : List (Problem × Value)) :
    (checkNumber r.parameters name).run found = (n.elim .null .int, found) := by
  rw [numberOf] at h
  rw [checkNumber]
  cases hlast : lastOf r.parameters name with
  | none =>
    rw [hlast] at h
    cases h
    rfl
  | some text =>
    rw [hlast] at h
    obtain ⟨number, hnumber, rfl⟩ := map_eq_ok.mp h
    show (check _ _ _ ((Field.integerText text).map Value.int)).run found = _
    rw [hnumber]
    rfl

theorem checkNumber_error {name : String} {kind : ProblemKind} (h : numberOf r name = .error kind)
    (found : List (Problem × Value)) : ∃ problem text, (checkNumber r.parameters name).run found =
      (.null, found ++ [(problem, .str text)]) := by
  rw [numberOf] at h
  rw [checkNumber]
  cases hlast : lastOf r.parameters name with
  | none =>
    rw [hlast] at h
    cases h
  | some text =>
    rw [hlast] at h
    replace h : (Field.integerText text).map some = .error kind := h
    refine ⟨⟨["query", name].map .str, kind⟩, text, ?_⟩
    show (check _ _ _ ((Field.integerText text).map Value.int)).run found = _
    cases hread : Field.integerText text with
    | ok n =>
      rw [hread] at h
      cases h
    | error other =>
      rw [hread] at h
      cases h
      rfl

/-- Problems with texts are reported. -/
theorem refusal_texts {found : List (Problem × Value)} (h : ∀ entry ∈ found, ∃ text, entry.2 = .str text) :
    refusal found = .invalid (found.map (·.1)) := by
  have hall : found.all (fun entry => (sendable? entry.2).isSome) = true := by
    refine List.all_eq_true.mpr fun entry hentry => ?_
    obtain ⟨text, htext⟩ := h entry hentry
    rw [htext]
    rfl
  rw [refusal, if_pos hall]

/-- What a request that lists products is checked for. -/
def checkedListing (r : Request) : Checked (Action World Response) := do
  let limit ← checkNumber r.parameters "limit"
  let offset ← checkNumber r.parameters "offset"
  return listProducts (textOf r.parameters "where") limit offset (textOf r.parameters "order")

theorem checkedListing_run {limit number : Value} {first found : List (Problem × Value)}
    (hlimit : (checkNumber r.parameters "limit").run [] = (limit, first))
    (hnumber : (checkNumber r.parameters "offset").run first = (number, found)) :
    (checkedListing r).run [] = (listProducts (textOf r.parameters "where") limit number
      (textOf r.parameters "order"), found) := by
  rw [checkedListing, StateT.run_bind, hlimit]
  show (checkNumber r.parameters "offset" >>= _).run first = _
  rw [StateT.run_bind, hnumber]
  rfl

theorem runChecked_texts {checked : Checked (Action World Response)}
    {action : Action World Response} {found : List (Problem × Value)}
    (hchecked : checked.run [] = (action, found)) (hsome : found ≠ [])
    (htexts : ∀ entry ∈ found, ∃ text, entry.2 = .str text) (w : World) :
    ∃ problems, runChecked checked w = (.invalid problems, w) := by
  obtain ⟨first, rest, rfl⟩ := List.exists_cons_of_ne_nil hsome
  refine ⟨(first :: rest).map (·.1), ?_⟩
  rw [runChecked, hchecked]
  exact congrArg (·, w) (refusal_texts htexts)

section Routed

variable (hroute : routeOf? r.path = some .products) (hmethod : r.method = "GET")
include hroute hmethod

theorem handle_checked (w : World) : handle r w = runChecked (checkedListing r) (awaiting r w) := by
  have hhandler : handlerOf? r .products = some (.withoutBody (checkedListing r)) := by
    rw [handlerOf?, hmethod]
    rfl
  have hhead : ¬r.method = "HEAD" := by
    rw [hmethod]
    decide
  have hserve : serve r (awaiting r w) = runChecked (checkedListing r) (awaiting r w) := by
    simp only [serve, hroute, hhandler]
    rfl
  rw [handle]
  dsimp only
  rw [if_neg hhead]
  exact hserve

/-- A number that cannot be read is reported. -/
theorem handle_unread {name : String} {kind : ProblemKind} (hname : name = "limit" ∨ name = "offset")
    (hkind : numberOf r name = .error kind) (w : World) :
    ∃ problems, handle r w = (.invalid problems, awaiting r w) := by
  rw [handle_checked hroute hmethod]
  cases hlimit : numberOf r "limit" with
  | error kind =>
    obtain ⟨problem, text, hfirst⟩ := checkNumber_error hlimit []
    cases hnumber : numberOf r "offset" with
    | error kind' =>
      obtain ⟨problem', text', hsecond⟩ := checkNumber_error hnumber [(problem, .str text)]
      exact runChecked_texts (checkedListing_run hfirst hsecond) (by simp) (by simp) _
    | ok number =>
      exact runChecked_texts (checkedListing_run hfirst (checkNumber_ok hnumber _)) (by simp)
        (by simp) _
  | ok limit =>
    cases hnumber : numberOf r "offset" with
    | error kind =>
      obtain ⟨problem, text, hsecond⟩ := checkNumber_error hnumber []
      exact runChecked_texts (checkedListing_run (checkNumber_ok hlimit _) hsecond) (by simp)
        (by simp) _
    | ok number =>
      rcases hname with rfl | rfl
      · cases hkind.symm.trans hlimit
      · cases hkind.symm.trans hnumber

/-- Where its numbers are read, a request lists products. -/
theorem handle_read {limit number : Option Int} (hlimit : numberOf r "limit" = .ok limit)
    (hnumber : numberOf r "offset" = .ok number) (w : World) :
    handle r w = respond (listProducts (textOf r.parameters "where") (limit.elim .null .int)
      (number.elim .null .int) (textOf r.parameters "order")) (awaiting r w) := by
  rw [handle_checked hroute hmethod, runChecked,
    checkedListing_run (checkNumber_ok hlimit _) (checkNumber_ok hnumber _)]

end Routed

/-! ## 2. Listing -/

theorem mapper_of_registry {id : Nat} (h : w'.registry = w.registry) (hm : w.mapper id = .ok m) :
    ∃ m', w'.mapper id = .ok m' ∧ m'.columns = m.columns := by
  obtain ⟨known, hknown, hm⟩ := bind_eq_ok.mp hm
  obtain rfl := pure_eq_ok.mp hm
  rw [World.mapper, h, hknown]
  exact ⟨_, rfl, rfl⟩

theorem Asks.plain {f : Sql.Fragment} (h : Asks r f) : ∀ x ∈ f.params, x.IsPlain := by
  cases h with
  | @mk entries filter order page hfilter hcompile _ _ =>
    intro x hx
    refine Where.params_isPlain hcompile hfilter.isObject.isPlain x ?_
    replace hx : x ∈ (Sql.wherePart (some filter)).params := hx
    rw [Sql.wherePart] at hx
    split at hx
    · cases hx
    · exact hx

/-- A listing of products that sends a statement sends just that, and if the answer is rows that can
be sent, then it is answered with an object for each of them. -/
theorem respond_listing (hw : Served w) (r : Request) {f : Sql.Fragment}
    (hplain : ∀ x ∈ f.params, x.IsPlain) {filter limit offset order : Value}
    (hm : (awaiting r w).mapper (modelOf product) = .ok m)
    (hnames : m.columns.names = productColumns)
    (hlisting : listing m filter limit offset order = .ok f) : ∃ x : Exchange,
      (respond (listProducts filter limit offset order) (awaiting r w)).2.trace =
        (awaiting r w).trace ++ [x] ∧ x.call = .statement f.text f.params ∧
      ∀ rows, x.result = .ok (.rows rows) → (∀ row ∈ rows, Sendable row) → ∃ objects,
        (respond (listProducts filter limit offset order) (awaiting r w)).1 =
          .content 200 (.list objects) ∧ List.Forall₂ Shows rows objects := by
  have hrun : (listProducts filter limit offset order).runOn (awaiting r w) =
      (World.select session (modelOf product) [] f >>= listOf).runOn (awaiting r w) := by
    rw [listProducts_runOn hm, hlisting]
    rfl
  obtain ⟨x, hsent, hcall, hrows⟩ :=
    World.select_of_plain hplain session (modelOf product) [] (awaiting r w)
  refine ⟨x, ?_, hcall, fun rows hx hsendable => ?_⟩
  · have hlist (refs : List EntityRef) : World.Sends [] (listOf refs) := listOf_obeys refs
    rw [respond_world, hrun, Action.runOn_bind]
    rcases hselect : (World.select session (modelOf product) [] f).runOn (awaiting r w) with
      ⟨fault | refs, t⟩ <;> rw [hselect] at hsent
    · exact hsent
    · exact (hlist refs t).trace_eq.trans hsent
  · have hfree (row : Row) (hrow : row ∈ rows) :
        Free (awaiting r w).registry (modelOf product) row := by
      refine hw.free fun name hname hmem => ?_
      obtain ⟨entry, hentry, rfl⟩ := List.mem_map.mp hmem
      exact (hsendable row hrow).free entry (Dictionary.mem_ofList hentry) hname
    obtain ⟨refs, t, hselect, hregistry, hmade⟩ := hrows rows hx hfree
    obtain ⟨m', hm', hcolumns⟩ := mapper_of_registry hregistry hm
    have hproduct : (awaiting r w).registry.classAt (modelOf product) =
        w.registry.classAt (modelOf product) := rfl
    have hmapper {ref : EntityRef} {row : Row}
        (h : Hydrated (awaiting r w).registry (modelOf product) [] row ref t) :
        t.mapperOf ref = .ok m' := by
      rw [World.mapperOf, h.model_eq, hproduct, hw.productId, hm']
    have hshown : List.Forall₂ (fun row ref => ∃ entries object,
        (entriesOf ref).runOn t = (.ok entries, t) ∧
        sendable? (t.expand (.mapping entries)) = some object ∧ Shows row object) rows refs := by
      have hall := (List.forall₂_and_left rows refs).mpr ⟨hsendable, hmade⟩
      refine hall.imp fun row ref hrow => ?_
      obtain ⟨hrow, hhydrated, hmirrors⟩ := hrow
      exact entity_shows (hmapper hhydrated) (hcolumns ▸ hnames) hmirrors hrow
    obtain ⟨response, objects, hlist, hsent, hshows⟩ := list_shows hshown
    refine ⟨objects, ?_, hshows⟩
    rw [respond, hrun, Action.runOn_bind_ok hselect, hlist]
    exact hsent

/-! ## 3. One of two things -/

/-- The request is refused, and nothing is sent for it. -/
def Refused (r : Request) (w : World) : Prop :=
  (handle r w).1.status = 422 ∧ exchanges r w = []

/-- One statement is sent, the one that is asked for.  If it is answered with rows that can be sent,
the response is a list with an object for each row, in the order of the rows. -/
def Selects (r : Request) (w : World) : Prop := ∃ f x, Asks r f ∧ exchanges r w = [x] ∧
  x.call = .statement f.text f.params ∧ ∀ rows, x.result = .ok (.rows rows) →
    (∀ row ∈ rows, Sendable row) →
      ∃ objects, (handle r w).1 = .content 200 (.list objects) ∧ List.Forall₂ Shows rows objects

theorem exchanges_nil (h : (handle r w).2 = awaiting r w) : exchanges r w = [] :=
  exchanges_of_trace (by rw [h, List.append_nil])

theorem not_refused (h : Selects r w) : ¬Refused r w := by
  obtain ⟨f, x, -, hsent, -⟩ := h
  rintro ⟨-, hnone⟩
  cases hnone.symm.trans hsent

/-- A listing that fails sends nothing. -/
theorem handle_fault (hw : Served w) (hroute : routeOf? r.path = some .products)
    (hmethod : r.method = "GET") {limit number : Option Int} {fault : Fault}
    (hlimit : numberOf r "limit" = .ok limit) (hnumber : numberOf r "offset" = .ok number)
    (hlisting : ∀ m, w.mapper (modelOf product) = .ok m →
      listing m (textOf r.parameters "where") (limit.elim .null .int) (number.elim .null .int)
        (textOf r.parameters "order") = .error fault) :
    (handle r w).1 = responseOf (awaiting r w) fault ∧ exchanges r w = [] := by
  obtain ⟨m, hm, -⟩ := hw.products
  have hawaiting : (awaiting r w).mapper (modelOf product) = .ok m := hm
  have hhandle : handle r w = (responseOf (awaiting r w) fault, awaiting r w) := by
    rw [handle_read hroute hmethod hlimit hnumber, respond, listProducts_runOn hawaiting,
      hlisting m hm]
    rfl
  exact ⟨congrArg Prod.fst hhandle, exchanges_nil (congrArg Prod.snd hhandle)⟩

/-- A request that lists products is refused, and then it does not ask for a selection, or it goes
beyond a limit, or it selects. -/
theorem listing_cases (hw : Served w) (hroute : routeOf? r.path = some .products)
    (hmethod : r.method = "GET") : (Refused r w ∧ (¬Unfit r → ∀ f, ¬Asks r f)) ∨
      (Unfit r ∧ (handle r w).1 = internalError ∧ exchanges r w = []) ∨ (¬Unfit r ∧ Selects r w) := by
  obtain ⟨m, hm, htable, hnames, -⟩ := hw.products
  have hunread {name : String} {kind : ProblemKind} (hname : name = "limit" ∨ name = "offset")
      (hkind : numberOf r name = .error kind) : Refused r w ∧ (¬Unfit r → ∀ f, ¬Asks r f) := by
    obtain ⟨problems, hhandle⟩ := handle_unread hroute hmethod hname hkind w
    refine ⟨⟨?_, exchanges_nil (congrArg Prod.snd hhandle)⟩, fun hfit f hasks => ?_⟩
    · rw [hhandle]
      rfl
    · obtain ⟨limit, number, hlimit, hnumber, -⟩ := listing_asked htable hasks hfit
      rcases hname with rfl | rfl
      · cases hkind.symm.trans hlimit
      · cases hkind.symm.trans hnumber
  cases hlimit : numberOf r "limit" with
  | error kind => exact .inl (hunread (.inl rfl) hlimit)
  | ok limit =>
    cases hnumber : numberOf r "offset" with
    | error kind => exact .inl (hunread (.inr rfl) hnumber)
    | ok number =>
      have hsettled := listing_settles htable hlimit hnumber
      generalize hlisting : listing m (textOf r.parameters "where") (limit.elim .null .int)
        (number.elim .null .int) (textOf r.parameters "order") = outcome at hsettled
      have hfailed {fault : Fault} (hfault : outcome = .error fault) :
          (handle r w).1 = responseOf (awaiting r w) fault ∧ exchanges r w = [] := by
        refine handle_fault hw hroute hmethod hlimit hnumber fun m' hm' => ?_
        cases hm.symm.trans hm'
        exact hlisting.trans hfault
      cases hsettled with
      | @ok f hf =>
        obtain ⟨x, htrace, hcall, hrows⟩ := respond_listing hw r hf.1.plain hm hnames hlisting
        rw [← handle_read hroute hmethod hlimit hnumber] at htrace hrows
        exact .inr (.inr ⟨hf.2, f, x, hf.1, exchanges_of_trace htrace, hcall, hrows⟩)
      | refused h =>
        obtain ⟨hresponse, hsent⟩ := hfailed rfl
        refine .inl ⟨⟨?_, hsent⟩, fun hfit f hasks => ?_⟩
        · rw [hresponse]
          exact h _
        · obtain ⟨limit', number', hlimit', hnumber', hasked⟩ := listing_asked htable hasks hfit
          cases hlimit.symm.trans hlimit'
          cases hnumber.symm.trans hnumber'
          cases hlisting.symm.trans hasked
      | beyond hunfit h =>
        obtain ⟨hresponse, hsent⟩ := hfailed rfl
        exact .inr (.inl ⟨hunfit, hresponse.trans (h _), hsent⟩)

/-- A request that lists products that cost more than ten, by their price: the third page of two. -/
def priced : Request where
  verb := "GET"
  address := "/api/products"
  query := some [("where", "\x7b\"price\": \x7b\"gt\": 10\x7d\x7d"), ("limit", "2"), ("offset", "3"),
    ("order", "price DESC")]
  replies := [⟨.ok (.rows [[("id", .plain (.int 1)), ("name", .plain (.str "Hammer"))]]), none⟩]

/-- Whether what was read is the filter of the prices above ten. -/
def isPriceFilter : Except Json.Stop Value → Bool
  | .ok (.mappingAt [(.strAt "price" none, .mappingAt [(.strAt "gt" none, .intAt 10 none)] none)]
      none) => true
  | _ => false

/-- The filter of the prices above ten. -/
def priceFilter : Entries := [(.str "price", .mapping [(.str "gt", .int 10)])]

theorem isPriceFilter_eq {outcome : Except Json.Stop Value} (h : isPriceFilter outcome = true) :
    outcome = .ok (.mapping priceFilter) := by
  unfold isPriceFilter at h
  split at h
  · rfl
  · cases h

theorem products_route {query : Option (List (String × String))} {replies : List ReplyDraft} :
    routeOf? (Request.mk "GET" "/api/products" query none replies).path = some .products := by
  have hpath : (Request.mk "GET" "/api/products" query none replies).path = "/api/products" := by
    show (Request.mk "GET" "/api/products" none none []).path = "/api/products"
    decide +kernel
  have hparts : partsBetween '/' "/api/products" = ["", "api", "products"] := by decide +kernel
  rw [hpath, routeOf?, hparts]
  rfl

theorem priced_filter : GivesFilter priced priceFilter :=
  .object rfl (isPriceFilter_eq (by decide +kernel))

/-- A request whose filter is a number with more digits than can be read. -/
def overlong (digits : Nat) : Request where
  verb := "GET"
  address := "/api/products"
  query := some [("where", String.ofList (List.replicate digits '1'))]

end RowMapper.Shop
