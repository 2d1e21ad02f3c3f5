import RowMapper.Proofs.Shop.Adding

/-!
# Categories that are added twice

A category is added if none of its name is found, and two requests for one category may come at the
same time.  Their statements are those of two clients that find or create a row, so the category is
inserted once unless both requests look for it before either inserts it
(`row_is_created_once_unless_both_look_first`), and then it is there twice
(`category_is_created_twice`).
-/
namespace RowMapper.Shop

open Sql (Store)
open Sql.Store (InsertTwice Interleaves SeesAll insertions sentIn)
open World (Creates LooksFor)

variable {r : Request} {w : World}

/-! ## 1. The statements of two clients -/

/-- Two clients each find or create a row, which is inserted once, unless both look for it before
either inserts it, or the insertion of the one that came first was refused. -/
structure CreatesOnce (asks : Call → Prop) (turns : List (Exchange ⊕ Exchange))
    (xs ys : List Exchange) : Prop where
  left : Creates asks xs
  right : Creates asks ys
  once : insertions (sentIn turns) ≤ 1 ∨ insertions (sentIn turns) = 2 ∧ InsertTwice turns xs ys

theorem findOrCreate_sent (session : String) (model : Nat) (o : FindOptions) (defaults : Value)
    (w : World) : Creates (LooksFor w model o) (sentBy (World.findOrCreate session model o defaults)
      w) := by
  obtain ⟨sent, htrace, hcreates⟩ := World.findOrCreate_creates session model o defaults w
  rwa [sentBy_of_trace htrace]

theorem lookup_awaiting (r : Request) (w : World) (model : Nat) (o : FindOptions) :
    World.lookup (awaiting r w) model o = World.lookup w model o := rfl

/-- **Adding a category finds it or creates it.** -/
theorem AddsCategory.creates {name : String} {description : Value} (hw : Served w)
    (h : AddsCategory r [("name", .str name), ("description", description)]) :
    Creates (· = categoryLookup name) (exchanges r w) := by
  rw [exchanges_of_action h.action, addCategory_sent]
  refine (findOrCreate_sent session _ (byName name) _ _).mono fun call hlooks => ?_
  rw [LooksFor, lookup_awaiting, lookup_category hw] at hlooks
  exact (Except.ok.inj hlooks).symm

/-- **A row that two clients find or create is inserted once, unless both look first.**  Each of them
inserts one row at most, and only if its own selection was answered with no rows.  If the statements
of both are answered in any turns by a table in which a selection sees what was inserted before it,
then one row is inserted at most; or both selections come before both insertions; or the client that
came first was refused its insertion.  So it is with two requests that add a category of one name. -/
theorem row_is_created_once_unless_both_look_first :
    (∀ (session session' : String) (model : Nat) (o : FindOptions) (defaults defaults' : Value)
      (w w' : World) (turns : List (Exchange ⊕ Exchange)) (matching : Row → Bool) (s s' : Store),
      Interleaves turns (sentBy (World.findOrCreate session model o defaults) w)
        (sentBy (World.findOrCreate session' model o defaults') w') →
      SeesAll (fun call => LooksFor w model o call ∨ LooksFor w' model o call) matching s
        (sentIn turns) s' →
      CreatesOnce (fun call => LooksFor w model o call ∨ LooksFor w' model o call) turns
        (sentBy (World.findOrCreate session model o defaults) w)
        (sentBy (World.findOrCreate session' model o defaults') w')) ∧
    ∀ (r r' : Request) (w w' : World) (name : String) (description description' : Value)
      (turns : List (Exchange ⊕ Exchange)) (matching : Row → Bool) (s s' : Store),
      Served w → Served w' → AddsCategory r [("name", .str name), ("description", description)] →
      AddsCategory r' [("name", .str name), ("description", description')] →
      Interleaves turns (exchanges r w) (exchanges r' w') →
      SeesAll (· = categoryLookup name) matching s (sentIn turns) s' →
      CreatesOnce (· = categoryLookup name) turns (exchanges r w) (exchanges r' w') := by
  refine ⟨?_, ?_⟩
  · intro session session' model o defaults defaults' w w' turns matching s s' hturns hrun
    have hasks (call : Call) : LooksFor w model o call ∨ LooksFor w' model o call →
        call.StartsWith "SELECT" := by
      rintro (h | h)
      · exact World.lookup_startsWith h
      · exact World.lookup_startsWith h
    have hleft := (findOrCreate_sent session model o defaults w).mono
      fun call h => (Or.inl h : LooksFor w model o call ∨ LooksFor w' model o call)
    have hright := (findOrCreate_sent session' model o defaults' w').mono
      fun call h => (Or.inr h : LooksFor w model o call ∨ LooksFor w' model o call)
    exact ⟨hleft, hright, World.creations_interleaved hasks hleft hright hturns hrun⟩
  · intro r r' w w' name description description' turns matching s s' hw hw' hadds hadds' hturns hrun
    have hleft := hadds.creates hw
    have hright := hadds'.creates hw'
    refine ⟨hleft, hright, World.creations_interleaved ?_ hleft hright hturns hrun⟩
    rintro call rfl
    exact World.lookup_startsWith (lookup_category hw name)

/-! ## 2. Tools -/

/-- A request that adds the tools. -/
def addingTools (replies : List ReplyDraft) : Request where
  verb := "POST"
  address := "/api/categories"
  body := some "\x7b\"name\":\"Tools\"\x7d"
  replies := replies

/-- A request that finds no tools and adds them. -/
def creatingTools : Request := addingTools [⟨.ok (.rows []), none⟩,
  ⟨.ok (.done (.plain (.int 1)) (.plain (.int 1))), none⟩]

/-- A request that finds the tools. -/
def findingTools : Request := addingTools [⟨.ok (.rows [[("id", .plain (.int 1)),
  ("name", .plain (.str "Tools")), ("description", .plain .null)]]), none⟩]

/-- What finds the tools. -/
def toolsLookup : Call := categoryLookup "Tools"

/-- What inserts the tools. -/
def toolsInsertion (place : Place) : Call := .statement
  (Sql.insertionText "categories" ["name", "description"]) [.strAt "Tools" place, .null]

theorem toolsInsertion_inserts (place : Place) : (toolsInsertion place).StartsWith "INSERT" := by
  have hstarts : (toolsInsertion none).StartsWith "INSERT" := by decide +kernel
  exact hstarts

theorem toolsLookup_selects : ¬toolsLookup.StartsWith "INSERT" :=
  World.not_insert_of_select (World.lookup_startsWith (lookup_category .start "Tools"))

/-- Whether the tools were looked for in vain and then inserted. -/
def isCreation : List Exchange → Bool
  | [⟨.statement read [.strAt name none], _, .ok (.rows [])⟩,
      ⟨.statement write [.strAt given _, .null], _, .ok (.done _ _)⟩] =>
    read == Sql.keyedText "categories" "name" && name == "Tools" &&
      write == Sql.insertionText "categories" ["name", "description"] && given == "Tools"
  | _ => false

/-- Whether the tools were looked for and found. -/
def isFinding : List Exchange → Bool
  | [⟨.statement read [.strAt name none], _, .ok (.rows (_ :: _))⟩] =>
    read == Sql.keyedText "categories" "name" && name == "Tools"
  | _ => false

theorem isCreation_eq {sent : List Exchange} (h : isCreation sent = true) :
    ∃ seen seen' place insertId count, sent = [⟨toolsLookup, seen, .ok (.rows [])⟩,
      ⟨toolsInsertion place, seen', .ok (.done insertId count)⟩] := by
  unfold isCreation at h
  split at h
  · simp only [Bool.and_eq_true, beq_iff_eq] at h
    obtain ⟨⟨⟨rfl, rfl⟩, rfl⟩, rfl⟩ := h
    exact ⟨_, _, _, _, _, rfl⟩
  · cases h

theorem isFinding_eq {sent : List Exchange} (h : isFinding sent = true) :
    ∃ seen row rows, sent = [⟨toolsLookup, seen, .ok (.rows (row :: rows))⟩] := by
  unfold isFinding at h
  split at h
  · simp only [Bool.and_eq_true, beq_iff_eq] at h
    obtain ⟨rfl, rfl⟩ := h
    exact ⟨_, _, _, rfl⟩
  · cases h

theorem creatingTools_sent : isCreation (exchanges creatingTools start) = true := by decide +kernel

theorem findingTools_sent : isFinding (exchanges findingTools start) = true := by decide +kernel

/-- Whether a body is an object with one text. -/
def isTextBody (name text : String) : Except BodyFault (Option Value) → Bool
  | .ok (some (.mappingAt [(.strAt known none, .strAt given none)] none)) =>
    known == name && given == text
  | _ => false

theorem isTextBody_eq {name text : String} {body : Except BodyFault (Option Value)}
    (h : isTextBody name text body = true) :
    body = .ok (some (.mapping [(.str name, .str text)])) := by
  unfold isTextBody at h
  split at h
  · simp only [Bool.and_eq_true, beq_iff_eq] at h
    obtain ⟨rfl, rfl⟩ := h
    rfl
  · cases h

theorem addingTools_adds (replies : List ReplyDraft) :
    AddsCategory (addingTools replies) [("name", .str "Tools"), ("description", .null)] := by
  have hpath : (addingTools replies).path = "/api/categories" := by
    show (addingTools []).path = "/api/categories"
    decide +kernel
  have hparts : partsBetween '/' "/api/categories" = ["", "api", "categories"] := by decide +kernel
  have hmethod : (addingTools []).method = "POST" := by decide +kernel
  have hbody : isTextBody "name" "Tools" (bodyValue (addingTools []).body) = true := by
    decide +kernel
  refine ⟨hmethod, ?_, _, isTextBody_eq hbody, rfl⟩
  rw [hpath, routeOf?, hparts]
  rfl

/-- What finding or creating the tools asks of the database. -/
def sentForTools (w : World) : List Exchange :=
  sentBy (World.findOrCreate session (modelOf category) (byName "Tools")
    (named [("description", .null)])) w

theorem addingTools_sent (replies : List ReplyDraft) :
    exchanges (addingTools replies) start =
      sentForTools (awaiting (addingTools replies) start) := by
  rw [exchanges_of_action (addingTools_adds replies).action, addCategory_sent, sentForTools]

/-- Whether a category has the name of the tools. -/
def isTools : Row → Bool := Sql.hasKey "name" (.str "Tools")

/-- The tools as they are stored. -/
def storedTools : Row := [("name", .str "Tools"), ("description", .null)]

theorem storedTools_match : isTools storedTools = true := rfl

/-- The calls of two clients that look for the tools. -/
def LookForTools (w w' : World) (call : Call) : Prop :=
  LooksFor w (modelOf category) (byName "Tools") call ∨
    LooksFor w' (modelOf category) (byName "Tools") call

/-- One request adds the tools and another one finds them, and so do two clients. -/
theorem tools_are_created_once :
    (∃ turns s', Interleaves turns (exchanges creatingTools start) (exchanges findingTools start) ∧
      SeesAll (· = toolsLookup) isTools [] (sentIn turns) s' ∧
      CreatesOnce (· = toolsLookup) turns (exchanges creatingTools start)
        (exchanges findingTools start)) ∧
    ∃ w w' turns s', Interleaves turns (sentForTools w) (sentForTools w') ∧
      SeesAll (LookForTools w w') isTools [] (sentIn turns) s' ∧
      CreatesOnce (LookForTools w w') turns (sentForTools w) (sentForTools w') := by
  obtain ⟨hclients, hrequests⟩ := row_is_created_once_unless_both_look_first
  obtain ⟨seen, seen', place, insertId, count, hcreated⟩ := isCreation_eq creatingTools_sent
  obtain ⟨seen'', row, rows, hfound⟩ := isFinding_eq findingTools_sent
  have hturns : Interleaves [.inl ⟨toolsLookup, seen, .ok (.rows [])⟩,
      .inl ⟨toolsInsertion place, seen', .ok (.done insertId count)⟩,
      .inr ⟨toolsLookup, seen'', .ok (.rows (row :: rows))⟩] (exchanges creatingTools start)
      (exchanges findingTools start) := by
    rw [hcreated, hfound]
    exact .left (.left (.right .nil))
  have hrun (asks : Call → Prop) (hasks : asks toolsLookup) : SeesAll asks isTools [] (sentIn
      [.inl ⟨toolsLookup, seen, .ok (.rows [])⟩,
        .inl ⟨toolsInsertion place, seen', .ok (.done insertId count)⟩,
        .inr ⟨toolsLookup, seen'', .ok (.rows (row :: rows))⟩]) [storedTools] :=
    ⟨_, .selected hasks rfl fun _ => rfl,
      _, .inserted (toolsInsertion_inserts place) rfl storedTools_match,
      _, .selected hasks rfl nofun, rfl⟩
  have hlookup : LookForTools (awaiting creatingTools start) (awaiting findingTools start)
      toolsLookup := by
    rw [LookForTools, LooksFor, lookup_awaiting]
    exact .inl (lookup_category .start "Tools")
  have hcreating : exchanges creatingTools start = sentForTools (awaiting creatingTools start) := by
    rw [creatingTools, addingTools_sent]
  have hfinding : exchanges findingTools start = sentForTools (awaiting findingTools start) := by
    rw [findingTools, addingTools_sent]
  refine ⟨⟨_, _, hturns, hrun _ rfl, ?_⟩, ?_⟩
  · exact hrequests _ _ _ _ _ _ _ _ _ _ _ .start .start (addingTools_adds _) (addingTools_adds _)
      hturns (hrun _ rfl)
  · rw [hcreating, hfinding] at hturns
    exact ⟨_, _, _, _, hturns, hrun _ hlookup,
      hclients _ _ _ _ _ _ _ _ _ _ _ _ hturns (hrun _ hlookup)⟩

/-- Two requests add the tools, and both look for them before either inserts them. -/
theorem category_is_created_twice : ∃ turns s',
    AddsCategory creatingTools [("name", .str "Tools"), ("description", .null)] ∧
    Interleaves turns (exchanges creatingTools start) (exchanges creatingTools start) ∧
    SeesAll (· = toolsLookup) isTools [] (sentIn turns) s' ∧
    insertions (sentIn turns) = 2 ∧ s' = [storedTools, storedTools] := by
  obtain ⟨seen, seen', place, insertId, count, hsent⟩ := isCreation_eq creatingTools_sent
  have hturns : Interleaves [.inl ⟨toolsLookup, seen, .ok (.rows [])⟩,
      .inr ⟨toolsLookup, seen, .ok (.rows [])⟩,
      .inl ⟨toolsInsertion place, seen', .ok (.done insertId count)⟩,
      .inr ⟨toolsInsertion place, seen', .ok (.done insertId count)⟩]
      (exchanges creatingTools start) (exchanges creatingTools start) := by
    rw [hsent]
    exact .left (.right (.left (.right .nil)))
  have hinsert := toolsInsertion_inserts place
  refine ⟨_, _, addingTools_adds _, hturns, ⟨_, .selected rfl rfl fun _ => rfl, _,
    .selected rfl rfl fun _ => rfl, _, .inserted hinsert rfl storedTools_match, _,
    .inserted hinsert rfl storedTools_match, rfl⟩, ?_, rfl⟩
  simp [insertions, sentIn, toolsLookup_selects, hinsert]

end RowMapper.Shop
