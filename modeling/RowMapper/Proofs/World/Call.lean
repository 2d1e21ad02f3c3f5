import RowMapper.Entity.Relation
import RowMapper.Proofs.Engine.Call
import RowMapper.Proofs.Model.Numbering
import RowMapper.Proofs.Shelf
import RowMapper.TableDefinition

/-!
# What actions ask of the database

`Asked kind call` says that a call of the connection is of a kind: one of the statements that the
library assembles, a command for transactions, or something given by the user.
`Sends kinds action` says that an action, run in any world, makes only calls of the listed kinds,
and that it leaves a sound world behind if it found one.  Here are the changes of a world of which
all operations consist.
-/
namespace RowMapper.World

open Connection (beginText commitText rollbackText)
open Model (Registry)

/-- The exchanges with the database so far. -/
def trace (w : World) : List Exchange := w.engine.connection.trace

/-- The kinds of call. -/
inductive CallKind where
  | selection | insertion | change | removal | definition | control
  /-- A statement that the user gave. -/
  | given (text : String)
  | script

/-- A call is of a kind.  Parameters are looked up before they are sent. -/
inductive Asked : CallKind → Call → Prop
  | selection {s : Sql.Select} {f : Sql.Fragment} (look : Value → Value)
      (hfilter : ∀ part, s.filter = some part → ∃ v, Where.compile v = .ok part)
      (h : s.statement = .ok f) : Asked .selection (.statement f.text (f.params.map look))
  | insertion {table data : Value} {f : Sql.Fragment} (look : Value → Value)
      (h : Sql.insertRow table data = .ok f) :
      Asked .insertion (.statement f.text (f.params.map look))
  | change {table data key column : Value} {f : Sql.Fragment} (look : Value → Value)
      (h : Sql.updateRow table data key column = .ok f) :
      Asked .change (.statement f.text (f.params.map look))
  | removal {table key column : Value} {f : Sql.Fragment} (look : Value → Value)
      (h : Sql.deleteRow table key column = .ok f) :
      Asked .removal (.statement f.text (f.params.map look))
  | drop {table : Value} {name : String} (h : Sql.quoteIdentifier table = .ok name) :
      Asked .definition (.statement ("DROP TABLE IF EXISTS " ++ name) [])
  | creation {r : Registry} {m : Model.Mapper} {text : String} (h : tableDefinition r m = .ok text) :
      Asked .definition (.statement text [])
  | control {text : String} (h : text ∈ [beginText, commitText, rollbackText]) :
      Asked .control (.statement text [])
  | closing : Asked .control .close
  | given (text : String) (params : List Value) : Asked (.given text) (.statement text params)
  | script (text : String) : Asked .script (.script text)

/-- No null lies on the shelf, and every class goes by its number. -/
structure Sound (w : World) : Prop where
  solid : Shelf.Solid w.shelf
  numbered : w.registry.Numbered

/-- A world that another one leads to by calls of some kinds. -/
structure Leads (kinds : List CallKind) (w w' : World) : Prop where
  calls : Connection.Appends (fun call => ∃ kind ∈ kinds, Asked kind call) w.trace w'.trace
  sound : w.Sound → w'.Sound

instance (kinds : List CallKind) : IsPreorder World (Leads kinds) where
  refl w := ⟨.refl w.trace, id⟩
  trans _ _ _ h h' := ⟨h.calls.trans h'.calls, fun hw => h'.sound (h.sound hw)⟩

/-- An action that makes only calls of some kinds, wherever it runs and however it ends. -/
abbrev Sends {α : Type} (kinds : List CallKind) (action : Action World α) : Prop :=
  action.Obeys (Leads kinds)

variable {α : Type} {kinds others : List CallKind} {w w' : World}

theorem Leads.quiet (htrace : w'.trace = w.trace) (hsound : w.Sound → w'.Sound) :
    Leads kinds w w' where
  calls := by
    rw [htrace]
    exact .refl w.trace
  sound := hsound

theorem Leads.mono (hsub : kinds ⊆ others) (h : Leads kinds w w') : Leads others w w' where
  calls := h.calls.mono fun _ hcall => hcall.imp fun _ hkind => ⟨hsub hkind.1, hkind.2⟩
  sound := h.sound

theorem Leads.trace_eq (h : Leads [] w w') : w'.trace = w.trace :=
  (h.calls.mono fun _ hcall => by simp at hcall).eq_of_none

/-- Whatever was sent is of the kind. -/
theorem Leads.asked_of_mem {kind : CallKind} (h : Leads [kind] w w') {sent : List Exchange}
    (htrace : w'.trace = w.trace ++ sent) : ∀ x ∈ sent, Asked kind x.call := by
  obtain ⟨calls, hcalls_trace, hcalls⟩ := h.calls
  rw [htrace] at hcalls_trace
  cases List.append_cancel_left hcalls_trace
  intro x hx
  obtain ⟨other, hother, hasked⟩ := hcalls x hx
  cases List.mem_singleton.mp hother
  exact hasked

/-- What was sent alone is of the kind. -/
theorem Leads.asked {kind : CallKind} (h : Leads [kind] w w') {x : Exchange}
    (htrace : w'.trace = w.trace ++ [x]) : Asked kind x.call :=
  h.asked_of_mem htrace x (List.mem_singleton_self x)

theorem Sends.of_subset (hsub : kinds ⊆ others) {action : Action World α}
    (h : Sends kinds action) : Sends others action := h.mono fun _ _ => .mono hsub

/-! ## 1. Parts of the world -/

theorem runOn_reading (read : World → Except Fault α) (w : World) :
    (reading read).runOn w = (read w, w) := rfl

theorem reading_sends (read : World → Except Fault α) : Sends kinds (reading read) :=
  fun w => refl_of (Leads kinds) w

/-- What is read may be relied on. -/
theorem Sends.reading_bind {β : Type} {read : World → Except Fault α} {next : α → Action World β}
    (hnext : ∀ w a, read w = .ok a → Sends kinds (next a)) : Sends kinds (reading read >>= next) :=
  (reading_sends read).bind_of hnext

theorem onEngine_runOn (action : Action Engine α) (w : World) :
    (onEngine action).runOn w =
      ((action.runOn w.expectantEngine).1, w.withEngine (action.runOn w.expectantEngine).2) := rfl

/-- An action of the engine changes neither the shelf nor the registry. -/
theorem onEngine_sends {action : Action Engine α}
    (h : action.Obeys (Engine.Makes fun call => ∃ kind ∈ kinds, Asked kind call)) :
    Sends kinds (onEngine action) :=
  fun w => ⟨h w.expectantEngine, fun hw => ⟨hw.solid, hw.numbered⟩⟩

theorem debug_sends (source : String) (message : World → Printed) :
    Sends kinds (debug source message) :=
  .bind .get fun _ => .ite
    (.bind (.ofExcept _) fun _ => onEngine_sends (Engine.report_makes _ _ _)) (.pure _)

theorem query_sends {kind : CallKind} (hkind : kind ∈ kinds) {f : Sql.Fragment}
    (h : ∀ look, Asked kind (.statement f.text (f.params.map look))) : Sends kinds (query f) :=
  .bind .get fun w => onEngine_sends (Engine.query_makes ⟨kind, hkind, h w.expand⟩ _)

theorem modifyRegistry_sends {change : Registry → Registry}
    (h : ∀ r, r.Numbered → (change r).Numbered) : Sends kinds (modifyRegistry change) :=
  fun _ => .quiet rfl fun hw => ⟨hw.solid, h _ hw.numbered⟩

/-! ## 2. The shelf -/

theorem store_sends (v : Value) : Sends kinds (store v) :=
  fun w => .quiet rfl fun hw => ⟨(Shelf.store_grows v w.shelf).solid hw.solid, hw.numbered⟩

theorem storeKey_sends (key : Value) : Sends kinds (storeKey key) :=
  fun w => .quiet rfl fun hw => ⟨(Shelf.putKey_grows w.shelf key).solid hw.solid, hw.numbered⟩

theorem bind_sends (name : String) (v : Value) : Sends kinds (World.bind name v) :=
  .bind (store_sends v) fun _ _ => .quiet rfl fun hw => ⟨hw.solid, hw.numbered⟩

/-! ## 3. Entities -/

theorem updateEntity_sends (ref : EntityRef) (change : Entity → Entity) :
    Sends kinds (updateEntity ref change) :=
  fun _ => .quiet rfl fun hw => ⟨hw.solid, hw.numbered⟩

theorem holdAttribute_sends (ref : EntityRef) (name value : Value) :
    Sends kinds (holdAttribute ref name value) :=
  .bind (store_sends value) fun _ => updateEntity_sends ref _

theorem setAttribute_sends (ref : EntityRef) (name : String) (value : Value) :
    Sends kinds (setAttribute ref name value) :=
  .bind .get fun _ => .guarded fun _ => holdAttribute_sends ref _ value

theorem setEntries_sends (ref : EntityRef) (entries : Entries) :
    Sends kinds (setEntries ref entries) := by
  induction entries with
  | nil => exact .pure _
  | cons entry rest ih =>
    obtain ⟨name, value⟩ := entry
    rw [setEntries]
    cases name.text? with
    | some name => exact .bind (setAttribute_sends ref name value) fun _ => ih
    | none => exact .throw _

theorem setState_sends (ref : EntityRef) (state : Lifecycle) : Sends kinds (setState ref state) :=
  updateEntity_sends ref _

theorem addEntity_sends (e : Entity) : Sends kinds (addEntity e) :=
  fun _ => .quiet rfl fun hw => ⟨hw.solid, hw.numbered⟩

end RowMapper.World
