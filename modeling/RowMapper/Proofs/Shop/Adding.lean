import RowMapper.Proofs.Entity.Creation
import RowMapper.Proofs.Shop.Product

/-!
# Requests that add

A product is inserted at once, a category only if none of its name is found.  `Adds route given r
fields` says what a request asks for once its body is read.  Adding a category is finding or creating
a row by the name (`addsCategory_creates`).
-/
namespace RowMapper.Shop

open Model (Mapper)
open World (Creates)

variable {r : Request} {w : World} {fields : Dictionary Value}

/-! ## 1. What is asked for -/

/-- The request adds something at a route, with the fields of its body. -/
def Adds (route : Route) (given : List BodyField) (r : Request) (fields : Dictionary Value) : Prop :=
  r.method = "POST" ∧ routeOf? r.path = some route ∧ ∃ body, bodyValue r.body = .ok body ∧
    (checkBody given body).run [] = (fields, [])

/-- The request adds a category. -/
abbrev AddsCategory : Request → Dictionary Value → Prop := Adds .categories newCategoryFields

theorem action_post {route : Route} {given : List BodyField}
    {add : Dictionary Value → Action World Response} {action : Action World Response}
    (hroute : routeOf? r.path = some route) (hmethod : r.method = "POST")
    (hhandler : handlerOf? r route = some (.withBody fun body => do
      return add (← checkBody given body))) :
    r.action? = some action ↔ ∃ fields, Adds route given r fields ∧ action = add fields := by
  constructor
  · intro h
    obtain ⟨body, hbody, hrun⟩ := action_withBody hroute hhandler h
    obtain ⟨fields, hfields, hrun⟩ := run_bind_clean (fun _ => .pure _) hrun
    exact ⟨fields, ⟨hmethod, hroute, body, hbody, hfields⟩, (Prod.mk.inj hrun).1.symm⟩
  · rintro ⟨fields, ⟨-, -, body, hbody, hfields⟩, rfl⟩
    rw [Request.action?, hroute]
    simp only [Option.bind_eq_bind, Option.bind_some, hhandler, Handler.action?, hbody]
    refine accepted_eq_some.mpr ?_
    show (add ((checkBody given body).run []).1, ((checkBody given body).run []).2) = _
    rw [hfields]

theorem AddsCategory.action (h : AddsCategory r fields) : r.action? = some (addCategory fields) := by
  have hhandler : handlerOf? r .categories = some (.withBody fun body => do
      return addCategory (← checkBody newCategoryFields body)) := by
    rw [handlerOf?, h.1]
    rfl
  exact (action_post h.2.1 h.1 hhandler).mpr ⟨fields, h, rfl⟩

/-- A category is added with a text as its name. -/
theorem AddsCategory.named (h : AddsCategory r fields) : ∃ name description,
    fields = [("name", .str name), ("description", description)] := by
  obtain ⟨-, -, body, -, hbody⟩ := h
  rcases checkBody_clean hbody with _ | ⟨⟨hname, hread⟩, _ | ⟨⟨hdescription, -⟩, hrest⟩⟩
  cases hrest
  next named described =>
    obtain ⟨first, value⟩ := named
    obtain ⟨second, description⟩ := described
    cases hname
    cases hdescription
    rcases hread with hread | ⟨v, hread⟩
    · cases hread
    · obtain ⟨text, -, rfl⟩ := map_eq_ok.mp hread
      exact ⟨text, description, rfl⟩

/-! ## 2. What is sent -/

/-- The options that ask for the rows of a name. -/
def byName (name : String) : FindOptions := { filter := [("name", .str name)], given := [.filter] }

/-- The statement that looks for a category. -/
def categoryLookup (name : String) : Call :=
  .statement (Sql.keyedText "categories" "name") [.str name]

theorem lookup_category (hw : Served w) (name : String) :
    World.lookup w (modelOf category) (byName name) = .ok (categoryLookup name) := by
  obtain ⟨m, hm, htable, -⟩ := hw.categories
  exact World.lookup_eq hm (selection_keyed htable rfl rfl)

/-- What an action asks of the database, and how that is answered. -/
def sentBy {α : Type} (action : Action World α) (w : World) : List Exchange :=
  (action.runOn w).2.trace.drop w.trace.length

theorem sentBy_of_trace {α : Type} {action : Action World α} {sent : List Exchange}
    (h : (action.runOn w).2.trace = w.trace ++ sent) : sentBy action w = sent := by
  rw [sentBy, h, List.drop_left]

theorem handle_of_action {action : Action World Response} (h : r.action? = some action)
    (w : World) : (handle r w).2 = (action.runOn (awaiting r w)).2 := by
  show (serve r (awaiting r w)).2 = _
  rw [serve_of_action h, respond_world]

theorem exchanges_of_action {action : Action World Response} (h : r.action? = some action)
    (w : World) : exchanges r w = sentBy action (awaiting r w) := by
  rw [exchanges, handle_of_action h]
  rfl

/-- What comes after the last statement asks for nothing. -/
theorem sentBy_bind {α β : Type} {action : Action World α} {next : α → Action World β}
    (hnext : ∀ a, World.Sends [] (next a)) (w : World) :
    sentBy (action >>= next) w = sentBy action w := by
  rw [sentBy, sentBy, Action.runOn_bind]
  rcases action.runOn w with ⟨fault | a, t⟩
  · rfl
  · rw [(hnext a t).trace_eq]

/-- Showing an entity with one more entry. -/
def showWith (status : Nat) (name : String) (value : Value) (ref : EntityRef) :
    Action World Response := do
  return .content status (← entriesWith ref name value)

theorem showWith_sends (status : Nat) (name : String) (value : Value) (ref : EntityRef) :
    World.Sends [] (showWith status name value ref) :=
  .bind (entriesWith_obeys ref _ _) fun _ => .pure _

/-- Adding a category is finding or creating it by its name. -/
theorem addCategory_eq (name : String) (description : Value) :
    addCategory [("name", .str name), ("description", description)] =
      World.findOrCreate session (modelOf category) (byName name)
        (named [("description", description)]) >>= fun found =>
          showWith 201 "created" (.bool found.2) found.1 := by
  have hname : Parameters.valueIn [("name", .str name), ("description", description)] "name" =
      .str name := rfl
  have hdescription : Parameters.valueIn [("name", .str name), ("description", description)]
      "description" = description := rfl
  have hoptions : FindOptions.parse .nothing [("where", named [("name", .str name)])] =
      .ok (byName name) := rfl
  unfold addCategory
  simp only [hname, hdescription, hoptions]
  rfl

/-- Adding a category asks what finding or creating it does. -/
theorem addCategory_sent (name : String) (description : Value) (w : World) :
    sentBy (addCategory [("name", .str name), ("description", description)]) w =
      sentBy (World.findOrCreate session (modelOf category) (byName name)
        (named [("description", description)])) w := by
  have hshow (found : EntityRef × Bool) :
      World.Sends [] (showWith 201 "created" (.bool found.2) found.1) := showWith_sends _ _ _ _
  rw [addCategory_eq]
  exact sentBy_bind hshow w

end RowMapper.Shop
