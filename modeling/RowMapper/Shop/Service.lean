import RowMapper.Shop.Operation
import RowMapper.Shop.Request

/-!
# The service of the shop

Each route and method has a handler: it checks the parts of the request and gives the action to run.
The service is a world that goes from request to request.
-/
namespace RowMapper.Shop

/-! ## 1. Checking -/

/-- The fields of a new product. -/
def newProductFields : List BodyField := [
  ⟨"name", none, readText⟩, ⟨"price", some (.float (Binary64.zero false)), readFloat⟩,
  ⟨"stock", some (.int 0), readInteger⟩, ⟨"category_id", some .null, orNull readInteger⟩]

/-- The fields of a changed product, which may all be left out. -/
def changedProductFields : List BodyField := [
  ⟨"name", some .null, orNull readText⟩, ⟨"price", some .null, orNull readFloat⟩,
  ⟨"stock", some .null, orNull readInteger⟩, ⟨"category_id", some .null, orNull readInteger⟩]

/-- The fields of a new category. -/
def newCategoryFields : List BodyField := [
  ⟨"name", none, readText⟩, ⟨"description", some .null, orNull readText⟩]

/-- A handler of a request: it takes the value of the body, if it needs one. -/
inductive Handler where
  | withoutBody (prepare : Checked (Action World Response))
  | withBody (prepare : Option Value → Checked (Action World Response))

/-- The handler of a route and a method. -/
def handlerOf? (r : Request) : Route → Option Handler
  | .products =>
    match r.method with
    | "GET" => some <| .withoutBody do
      let limit ← checkNumber r.parameters "limit"
      let offset ← checkNumber r.parameters "offset"
      return listProducts (textOf r.parameters "where") limit offset (textOf r.parameters "order")
    | "POST" => some <| .withBody fun body => do
      return addProduct (← checkBody newProductFields body)
    | _ => none
  | .product id =>
    match r.method with
    | "GET" => some <| .withoutBody do return showProduct (← checkId "product_id" id)
    | "PUT" => some <| .withBody fun body => do
      let id ← checkId "product_id" id
      return changeProduct id (← checkBody changedProductFields body)
    | "DELETE" => some <| .withoutBody do return deleteProduct (← checkId "product_id" id)
    | _ => none
  | .productTags id =>
    match r.method with
    | "GET" => some <| .withoutBody do return listTags (← checkId "product_id" id)
    | _ => none
  | .categories =>
    match r.method with
    | "GET" => some <| .withoutBody (return listCategories)
    | "POST" => some <| .withBody fun body => do
      return addCategory (← checkBody newCategoryFields body)
    | _ => none
  | .categoryProducts id =>
    match r.method with
    | "GET" => some <| .withoutBody do return listCategoryProducts (← checkId "category_id" id)
    | _ => none

/-- Runs an action, and makes its failure a response. -/
def respond (action : Action World Response) : World → Response × World := fun w =>
  match action.runOn w with
  | (.ok response, after) => (response.sent after, after)
  | (.error fault, after) => (responseOf after fault, after)

/-- Runs what a request asks for, unless something is wrong with it. -/
def runChecked (checked : Checked (Action World Response)) (w : World) : Response × World :=
  match checked.run [] with
  | (action, []) => respond action w
  | (_, found) => (refusal found, w)

/-- Runs a handler on the body of a request. -/
def Handler.run (body : Option String) : Handler → World → Response × World
  | .withoutBody prepare, w => runChecked prepare w
  | .withBody prepare, w =>
    match bodyValue body with
    | .ok value => runChecked (prepare value) w
    | .error (.malformed offset) =>
      (.invalid [⟨[.str "body", .int offset], .malformedJson⟩], w)
    | .error .unreadable => (detail 400 "There was an error parsing the body", w)

/-- Serves the path and the method of a request. -/
def serve (r : Request) (w : World) : Response × World :=
  let path := r.path
  match routeOf? path with
  | some route =>
    match handlerOf? r route with
    | some handler => handler.run r.body w
    | none => (detail 405 "Method Not Allowed", w)
  | none =>
    if path != "/" && (routeOf? (otherSlash path)).isSome then (.plain 307 "", w)
    else (detail 404 "Not Found", w)

/-! ## 2. The service -/

/-- The world of the service before it is started.  Its classes are known by number, and no name for
them is left. -/
def initialWorld : World := { registry := { registry with keys := [] } }

/-- Starts the service: its tables are made. -/
def start : World := (createTables.runOn initialWorld).2

/-- Serves a request with the replies that the database gives; where only the head of an answer was
asked for, there is nothing after it. -/
def handle (r : Request) (w : World) : Response × World :=
  let (response, after) := serve r { w with replies := r.replies }
  (if r.method = "HEAD" then .plain response.status "" else response, after)

end RowMapper.Shop
