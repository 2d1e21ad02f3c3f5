import RowMapper.Field
import RowMapper.Json.Encoding
import RowMapper.Json.Reader
import RowMapper.ReplyDraft
import RowMapper.Text.Case
import RowMapper.Text.Percent

/-!
# Requests

A request as it arrives, the route that its path leads to, and the reading of its parts.  All
problems with the path, the query and the body are found before anything is done.
-/
namespace RowMapper.Shop

/-- A request.  `address` leads to what is asked for; `query`, if it is given, takes the place of
the query in the address.  `replies` are what the database will answer while it is served. -/
structure Request where
  verb : String
  address : String
  query : Option (List (String × String)) := none
  body : Option String := none
  replies : List ReplyDraft := []

/-- The method of a request, which can be written in any case. -/
def Request.method (r : Request) : String := Text.upper r.verb

/-! ## 1. Addresses -/

/-- A character that can stand in the scheme of an address after its first letter. -/
def isSchemeChar (c : Char) : Bool := c.isAlphanum || c == '+' || c == '.' || c == '-'

/-- An address without the scheme in front of it. -/
def withoutScheme (address : List Char) : List Char :=
  match address.dropWhile isSchemeChar, address.head? with
  | ':' :: rest, some first => if first.isAlpha then rest else address
  | _, _ => address

/-- An address without the host in front of its path. -/
def withoutHost : List Char → List Char
  | '/' :: '/' :: rest => rest.dropWhile fun c => c != '/' && c != '?'
  | address => address

/-- The path and the query of an address, without what else can stand in it. -/
def Request.pathAndQuery (r : Request) : List Char :=
  withoutHost (withoutScheme (r.address.toList.takeWhile (· != '#')))

/-- The path of a request, as it is written; it starts with one slash. -/
def Request.writtenPath (r : Request) : String :=
  "/" ++ String.ofList ((r.pathAndQuery.takeWhile (· != '?')).dropWhile (· == '/'))

/-- The parts of a text between the places where a character stands. -/
@[irreducible] def partsBetween (separator : Char) (text : String) : List String :=
  (text.toList.splitOn separator).map String.ofList

/-- A part of a query in plain characters: a plus sign stands for a blank. -/
def plainPart (part : String) : String :=
  Text.percentDecode (part.map fun c => if c == '+' then ' ' else c)

/-- A parameter of a query as it is written: its name, and its value after the first equals sign. -/
def parameterOf (field : String) : String × String :=
  let chars := field.toList
  let name := chars.takeWhile (· != '=')
  (plainPart (String.ofList name), plainPart (String.ofList (chars.drop (name.length + 1))))

/-- The parameters of a query as it is written. -/
def parametersOf (query : String) : List (String × String) :=
  ((partsBetween '&' query).filter (!·.isEmpty)).map parameterOf

/-- The parameters of a request. -/
def Request.parameters (r : Request) : List (String × String) :=
  match r.query with
  | some parameters => parameters
  | none => parametersOf (String.ofList ((r.pathAndQuery.dropWhile (· != '?')).drop 1))

/-! ## 2. Paths -/

/-- The paths that are served; the identifiers in them are still unread. -/
inductive Route where
  | products
  | product (id : String)
  | productTags (id : String)
  | categories
  | categoryProducts (id : String)
  deriving Inhabited

/-- The parts of a path without the dots that only move through it. -/
def withoutDots (parts : List String) : List String :=
  parts.foldl (fun done part =>
    if part == "." then done
    else if part == ".." then (if done.isEmpty || done == [""] then done else done.dropLast)
    else done ++ [part]) []

/-- The path of a request in plain characters.  Its escapes are read twice, first by the sender and
then by the receiver. -/
def Request.path (r : Request) : String :=
  let written := "/".intercalate (withoutDots (partsBetween '/' r.writtenPath))
  Text.percentDecode (Text.percentDecode written)

/-- Whether a part of a path is a given word; one line feed may follow it. -/
def isWord (word part : String) : Bool := part == word || part == word ++ "\n"

/-- The route of a plain path. -/
def routeOf? (path : String) : Option Route :=
  match partsBetween '/' path with
  | ["", "api", area] =>
    if isWord "products" area then some .products
    else if isWord "categories" area then some .categories
    else none
  | ["", "api", "products", id] => if id.isEmpty then none else some (.product id)
  | ["", "api", area, id, last] =>
    if id.isEmpty then none
    else if area == "products" && isWord "tags" last then some (.productTags id)
    else if area == "categories" && isWord "products" last then some (.categoryProducts id)
    else none
  | _ => none

/-- The path without the slashes at its end, or with one if there is none. -/
def otherSlash (path : String) : String :=
  if path.endsWith "/" then String.ofList ((path.toList.reverse.dropWhile (· == '/')).reverse)
  else path ++ "/"

/-! ## 3. Fields -/

/-- A reading of a part of a request: the values, and the problems found with their inputs. -/
abbrev Checked (α : Type) := StateM (List (Problem × Value)) α

/-- Reads one part, and notes the problem with it. -/
def check {α : Type} (location : List String) (input : Value) (absent : α)
    (read : Except ProblemKind α) : Checked α :=
  match read with
  | .ok a => return a
  | .error kind => do
    modify (· ++ [(⟨location.map .str, kind⟩, input)])
    return absent

/-- The identifier in a path. -/
def checkId (name id : String) : Checked Int :=
  check ["path", name] (.str id) 0 (Field.integerText id)

/-- The last value of a query parameter. -/
def lastOf (query : List (String × String)) (name : String) : Option String :=
  query.reverse.lookup name

/-- A query parameter that is an integer. -/
def checkNumber (query : List (String × String)) (name : String) : Checked Value :=
  match lastOf query name with
  | some text => check ["query", name] (.str text) .null ((Field.integerText text).map .int)
  | none => return .null

/-- A query parameter that is a text. -/
def textOf (query : List (String × String)) (name : String) : Value :=
  ((lastOf query name).map Value.str).getD .null

/-- A field of a body: its name, the value that stands for it, and its reading. -/
structure BodyField where
  name : String
  absent : Option Value
  read : Value → Except ProblemKind Value

/-- A text as a value. -/
def readText (v : Value) : Except ProblemKind Value := (Field.text v).map .str

/-- An integer as a value. -/
def readInteger (v : Value) : Except ProblemKind Value := (Field.integer v).map .int

/-- A floating point number as a value. -/
def readFloat (v : Value) : Except ProblemKind Value := (Field.float v).map .float

/-- A value that may be null. -/
def orNull (read : Value → Except ProblemKind Value) (v : Value) : Except ProblemKind Value :=
  if v.isNull then .ok .null else read v

/-- Reads a field of a body. -/
def checkField (entries : Entries) (f : BodyField) : Checked (String × Value) := do
  let checked (input : Value) (read : Except ProblemKind Value) : Checked Value :=
    check ["body", f.name] input .null read
  match Entries.get? entries (.str f.name), f.absent with
  | some v, _ => return (f.name, ← checked v (f.read v))
  | none, some v => return (f.name, v)
  | none, none => return (f.name, ← checked (.mapping entries) (.error .missing))

/-- Reads a body: its fields in order; other entries are passed over. -/
def checkBody (fields : List BodyField) : Option Value → Checked (Dictionary Value)
  | some (.mappingAt entries _) => fields.mapM (checkField entries)
  | some v => check ["body"] v [] (.error .notAnObject)
  | none => check ["body"] .null [] (.error .missing)

/-- Why a body cannot be read at all. -/
inductive BodyFault where
  | malformed (offset : Nat)
  | unreadable

/-- The text of a document without a mark of its byte order. -/
def withoutMark : List Char → List Char
  | [] => []
  | c :: rest => if c = Json.byteOrderMark then rest else c :: rest

/-- The value of a body; an empty one counts as absent. -/
def bodyValue : Option String → Except BodyFault (Option Value)
  | none => .ok none
  | some body =>
    if body.isEmpty then .ok none
    else
      match Json.decode? body with
      | none => .error .unreadable
      | some characters =>
        let text := withoutMark characters
        match Json.read text with
        | .ok v => .ok (some v)
        | .error (.malformed _ left) => .error (.malformed (text.length - left))
        | .error _ => .error .unreadable

end RowMapper.Shop
