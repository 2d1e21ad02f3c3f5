import RowMapper.Field
import RowMapper.World.Observation

/-!
# Responses

What a request is answered with.  Failures of the library become responses too: what the caller did
wrong is reported to the caller, and anything else is an internal error.
-/
namespace RowMapper.Shop

/-- What a request is answered with. -/
inductive Response where
  | content (status : Nat) (value : Value)
  /-- No text but the status, or a plain text. -/
  | plain (status : Nat) (text : String)
  /-- The request was refused before it was handled. -/
  | invalid (problems : List Problem)
  /-- The find options were refused. -/
  | badOptions
  deriving Inhabited

/-- A mapping with texts as keys. -/
def named (entries : Dictionary Value) : Value := .mapping (Entries.ofNamed entries)

/-- A response that only says what is wrong. -/
def detail (status : Nat) (text : String) : Response :=
  .content status (named [("detail", .str text)])

/-- The response to a failure that nobody foresaw. -/
def internalError : Response := .plain 500 "Internal Server Error"

/-- The response to a failure. -/
def responseOf (w : World) (fault : Fault) : Response :=
  let (fault, message) := fault.inWords w.literal
  let text := message.getD ""
  match fault with
  | .rejected _ => detail 422 text
  | .badOptions _ => .badOptions
  | .missing _ => detail 404 text
  | .association _ => detail 404 text
  | _ => internalError

/-- The name of an entry in an answer. -/
def keyText? : Value → Option String
  | .strAt s _ => some s
  | .intAt n _ => some (toString n)
  | .bool b => some (if b then "true" else "false")
  | .null => some "null"
  | .floatAt (.finite negative m e) _ => some (Binary64.finite negative m e).text
  | .bytesAt b _ => Field.decodeUtf8? b
  | _ => none

/-- Whether an entry is kept back: such a name marks the state of a storage layer. -/
def isHidden : Value → Bool
  | .strAt name _ => "_sa".isPrefixOf name
  | _ => false

/-- Puts an entry before later ones; a later entry of the same name has the last word. -/
def mergeEntry (name : String) (v : Value) (later : Entries) : Entries :=
  (.str name, (Entries.get? later (.str name)).getD v) ::
    later.filter fun entry => !entry.1.sameKey (.str name)

mutual

/-- The value as it can be sent: a byte string is sent as text, a filter as a mapping of what it is
made of, and numbers have to be finite. -/
def sendable? : Value → Option Value
  | .null => some .null
  | .bool b => some (.bool b)
  | .intAt n _ => some (.int n)
  | .floatAt (.finite negative m e) _ => some (.float (.finite negative m e))
  | .strAt s _ => some (.str s)
  | .bytesAt b _ => (Field.decodeUtf8? b).map .str
  | .listAt items _ => (sendableAll? items).map .list
  | .tupleAt items _ => (sendableAll? items).map .list
  | .mappingAt entries _ => (sendableEntries? entries).map .mapping
  | .filterAt .blank _ => some (named [])
  | .filterAt (.column name) _ => do return named [("column_name", ← sendable? name)]
  | .filterAt (.comparison name operator operand) _ => do
    let name ← sendable? name
    let operator ← sendable? operator
    let operand ← sendable? operand
    return named [("column_name", name), ("op", operator), ("value", operand)]
  | .filterAt (.negation inner) _ => do return named [("filter_expr", ← sendable? inner)]
  | .filterAt (.combined logic parts) _ => do
    return named [("logic", .str logic.name), ("filters", ← sendable? parts)]
  | _ => none

/-- The values of a list as they can be sent. -/
def sendableAll? : List Value → Option (List Value)
  | [] => some []
  | v :: rest => do
    let first ← sendable? v
    let others ← sendableAll? rest
    return first :: others

/-- The entries of a mapping as they can be sent: their names are texts, and hidden ones are left
out. -/
def sendableEntries? : List (Value × Value) → Option (List (Value × Value))
  | [] => some []
  | (key, v) :: rest =>
    if isHidden key then sendableEntries? rest
    else do
      let name ← keyText? key
      let first ← sendable? v
      let others ← sendableEntries? rest
      return mergeEntry name first others

end

/-- A response as it is sent. -/
def Response.sent (w : World) : Response → Response
  | .content status v =>
    match sendable? (w.expand v) with
    | some v => .content status v
    | none => internalError
  | r => r

/-- The response to a request with problems, each of which is sent with the input that caused it. -/
def refusal (found : List (Problem × Value)) : Response :=
  if found.all fun entry => (sendable? entry.2).isSome then .invalid (found.map (·.1))
  else internalError

/-- The status of a response. -/
def Response.status : Response → Nat
  | .content status _ => status
  | .plain status _ => status
  | .invalid _ => 422
  | .badOptions => 422

end RowMapper.Shop
