import RowMapper.Proofs.Entity.Rewrite
import RowMapper.Proofs.World.Verb

/-!
# Finding or creating

A client that looks for a row and makes one where there is none sends a selection, and after a
selection that found nothing one insertion (`findOrCreate_creates`).  Nothing holds the two
statements together, so another client's statements may come in between.  Over a table in which a
selection sees what was inserted before it, two clients that look for the same row both insert one
only if both look before either inserts, or if the first insertion was refused
(`creations_interleaved`).
-/
namespace RowMapper

open Model (Mapper)

namespace World

variable {w w' : World} {session : String} {model : Nat} {o : FindOptions} {defaults : Value}

/-! ## 1. What one client sends -/

/-- The statement that looks for a row before one is made. -/
def lookup (w : World) (model : Nat) (o : FindOptions) : Except Fault Call := do
  let mapper ← w.mapper model
  let f ← selection mapper o (some 1) none
  return .statement f.text (f.params.map w.expand)

theorem lookup_eq {mapper : Mapper} {f : Sql.Fragment} (hm : w.mapper model = .ok mapper)
    (hf : selection mapper o (some 1) none = .ok f) :
    lookup w model o = .ok (.statement f.text (f.params.map w.expand)) := by
  rw [lookup, hm]
  show (selection mapper o (some 1) none >>= _) = _
  rw [hf]
  rfl

theorem lookup_startsWith {call : Call} (h : lookup w model o = .ok call) :
    call.StartsWith "SELECT" := by
  obtain ⟨mapper, -, h⟩ := bind_eq_ok.mp h
  obtain ⟨f, hf, h⟩ := bind_eq_ok.mp h
  cases h
  exact (selection_asked hf w.expand).startsWith rfl

/-- No entities are made only of no rows. -/
theorem select_eq_nil {excluded : List String} {f : Sql.Fragment}
    (h : (select session model excluded f).runOn w = (.ok [], w')) :
    (query f).runOn w = (.ok (.rows []), w') := by
  obtain ⟨answer, t, hquery, hread⟩ := Action.runOn_bind_eq_ok.mp h
  obtain ⟨rows, t', hrows, hmade⟩ := Action.runOn_bind_eq_ok.mp hread
  obtain ⟨hrows, rfl⟩ := ofExcept_eq_ok.mp hrows
  cases answer <;> cases hrows
  cases rows with
  | nil =>
    cases hmade
    exact hquery
  | cons row rest =>
    rw [List.mapM_cons] at hmade
    obtain ⟨first, u, -, hothers⟩ := Action.runOn_bind_eq_ok.mp hmade
    obtain ⟨others, u', -, hpure⟩ := Action.runOn_bind_eq_ok.mp hothers
    cases hpure

/-- A selection fails without a statement, or it sends one; it makes no entities only of no rows. -/
theorem select_cases (session : String) (model : Nat) (excluded : List String) (f : Sql.Fragment)
    (w : World) :
    (∃ fault t, (select session model excluded f).runOn w = (.error fault, t) ∧
      t.trace = w.trace) ∨
    ∃ x : Exchange, ((select session model excluded f).runOn w).2.trace = w.trace ++ [x] ∧
      x.call = .statement f.text (f.params.map w.expand) ∧
      (((select session model excluded f).runOn w).1 = .ok [] → x.result = .ok (.rows [])) := by
  rw [select_trace]
  rcases hquery : (query f).runOn w with ⟨fault | answer, t⟩
  · have hrun : (select session model excluded f).runOn w = (.error fault, t) := by
      rw [select, Action.runOn_bind_error hquery]
    rcases query_sent f w with hnone | ⟨x, hsent, hcall⟩ <;> rw [hquery] at *
    · exact .inl ⟨fault, t, hrun, hnone⟩
    · refine .inr ⟨x, hsent, hcall, fun hnone => ?_⟩
      rw [hrun] at hnone
      cases hnone
  · obtain ⟨x, hsent, hcall, hresult⟩ := query_exchanged hquery
    refine .inr ⟨x, hsent, hcall, fun hnone => ?_⟩
    cases hquery.symm.trans (select_eq_nil (Prod.ext hnone rfl))
    exact hresult

/-- Looking for a row fails without a statement, or it sends the selection; there is no row only if
that was answered with none. -/
theorem findOne_cases (session : String) (model : Nat) (o : FindOptions) (w : World) :
    (∃ fault t, (findOne session model o).runOn w = (.error fault, t) ∧ t.trace = w.trace) ∨
    ∃ x : Exchange, ((findOne session model o).runOn w).2.trace = w.trace ++ [x] ∧
      lookup w model o = .ok x.call ∧
      (((findOne session model o).runOn w).1 = .ok none → x.result = .ok (.rows [])) := by
  rw [findOne, Action.runOn_bind, runOn_reading]
  cases hm : w.mapper model with
  | error fault => exact .inl ⟨fault, w, rfl, rfl⟩
  | ok mapper =>
    dsimp only
    split
    · exact .inl ⟨_, w, rfl, rfl⟩
    rw [Action.runOn_bind, Action.runOn_ofExcept]
    cases hf : selection mapper o (some 1) none with
    | error fault => exact .inl ⟨fault, w, rfl, rfl⟩
    | ok f =>
      dsimp only
      rw [Action.runOn_bind]
      rcases select_cases session model o.exclude f w with ⟨fault, t, hrun, htrace⟩ |
        ⟨x, hsent, hcall, hnone⟩
      · rw [hrun]
        exact .inl ⟨fault, t, rfl, htrace⟩
      · have hlookup : lookup w model o = .ok x.call := hcall ▸ lookup_eq hm hf
        rcases hrun : (select session model o.exclude f).runOn w with ⟨fault | refs, t⟩ <;>
          rw [hrun] at hsent hnone
        · exact .inr ⟨x, hsent, hlookup, nofun⟩
        · refine .inr ⟨x, hsent, hlookup, fun hhead => hnone ?_⟩
          cases refs with
          | nil => rfl
          | cons ref others => cases hhead

/-- Making a row is one insertion at most. -/
theorem create_sendsOne (session : String) (model : Nat) (properties : Dictionary Value)
    (w : World) : SendsOne (fun text params => Asked .insertion (.statement text params)) w
      ((create session model properties).runOn w).2 :=
  .then (make_sends model properties) fun ref _ => .then (bindTo_sends session ref) fun _ t =>
    .bind (save_sendsOne ref t) fun _ => .pure ref

/-- The statements of a client that finds or creates a row: it fails at once, it only looks, or it
finds nothing and inserts a row. -/
inductive Creates (asks : Call → Prop) : List Exchange → Prop
  | nothing : Creates asks []
  | looked {x : Exchange} (h : asks x.call) : Creates asks [x]
  | inserted {x y : Exchange} (h : asks x.call) (hnone : x.result = .ok (.rows []))
      (hinsert : y.call.StartsWith "INSERT") : Creates asks [x, y]

theorem Creates.mono {asks others : Call → Prop} {sent : List Exchange} (h : Creates asks sent)
    (himp : ∀ call, asks call → others call) : Creates others sent := by
  cases h with
  | nothing => exact .nothing
  | looked hx => exact .looked (himp _ hx)
  | inserted hx hnone hinsert => exact .inserted (himp _ hx) hnone hinsert

/-- The calls that look for a row as some options do. -/
def LooksFor (w : World) (model : Nat) (o : FindOptions) (call : Call) : Prop :=
  lookup w model o = .ok call

/-- **Finding or creating is a selection, and one insertion if nothing was found.** -/
theorem findOrCreate_creates (session : String) (model : Nat) (o : FindOptions) (defaults : Value)
    (w : World) : ∃ sent, ((findOrCreate session model o defaults).runOn w).2.trace =
      w.trace ++ sent ∧ Creates (LooksFor w model o) sent := by
  rw [findOrCreate, Action.runOn_bind]
  rcases findOne_cases session model o w with ⟨fault, t, hrun, htrace⟩ | ⟨x, hsent, hlookup, hnone⟩
  · rw [hrun]
    exact ⟨[], by simpa using htrace, .nothing⟩
  rcases hrun : (findOne session model o).runOn w with ⟨fault | _ | ref, t⟩ <;>
    rw [hrun] at hsent hnone
  · exact ⟨[x], hsent, .looked hlookup⟩
  · have htail : SendsOne (fun text params => Asked .insertion (.statement text params)) t ((do
        let properties ← reading (newProperties · o defaults)
        let ref ← create session model properties
        debug "mappify.query" fun w =>
          (w.literal (.entity ref)).map ("find_or_create created " ++ ·)
        return (ref, true) : Action World (EntityRef × Bool)).runOn t).2 :=
      .then (reading_sends _) fun properties u => .bind (create_sendsOne session model properties u)
        fun _ => .bind (debug_sends _ _) fun _ => .pure _
    rcases htail with htail | ⟨y, text, params, htail, hcall, hinsert⟩
    · exact ⟨[x], htail.trans hsent, .looked hlookup⟩
    · refine ⟨[x, y], htail.trans (by rw [hsent, List.append_assoc]; rfl),
        .inserted hlookup (hnone rfl) ?_⟩
      rw [hcall]
      exact hinsert.startsWith rfl
  · exact ⟨[x], hsent, .looked hlookup⟩

end World

/-! ## 2. A table in which rows are looked for -/

namespace Sql.Store

/-- A statement of a client that finds or creates was sent to a table, which answered it truthfully,
or refused it and stayed as it was.  A selection that is answered with no rows finds no row that
matches, and an inserted row does match. -/
inductive Sees (asks : Call → Prop) (matching : Row → Bool) (s : Store) (x : Exchange) : Store → Prop
  | selected {rows : List Row} (hcall : asks x.call) (hresult : x.result = .ok (.rows rows))
      (hrows : rows = [] → s.any matching = false) : Sees asks matching s x s
  | inserted {row : Row} {insertId count : Value} (hcall : x.call.StartsWith "INSERT")
      (hresult : x.result = .ok (.done insertId count)) (hrow : matching row = true) :
      Sees asks matching s x (s ++ [row])
  | refused {why : Refusal} (hresult : x.result = .error why) : Sees asks matching s x s

/-- A table answered one statement after another. -/
def SeesAll (asks : Call → Prop) (matching : Row → Bool) : Store → List Exchange → Store → Prop
  | s, [], s' => s' = s
  | s, x :: rest, s' => ∃ t, Sees asks matching s x t ∧ SeesAll asks matching t rest s'

variable {asks : Call → Prop} {matching : Row → Bool} {s s' : Store} {x b c : Exchange}
  {xs ys : List Exchange} {turns : List (Exchange ⊕ Exchange)}

/-- A row that matches stays. -/
theorem Sees.stays (h : Sees asks matching s x s') (hthere : s.any matching = true) :
    s'.any matching = true := by
  cases h with
  | selected => exact hthere
  | refused => exact hthere
  | inserted => simp [hthere]

theorem SeesAll.stays (h : SeesAll asks matching s xs s') (hthere : s.any matching = true) :
    s'.any matching = true := by
  induction xs generalizing s with
  | nil => exact h ▸ hthere
  | cons x rest ih =>
    obtain ⟨t, hx, hrest⟩ := h
    exact ih hrest (hx.stays hthere)

theorem seesAll_append : SeesAll asks matching s (xs ++ ys) s' ↔
    ∃ t, SeesAll asks matching s xs t ∧ SeesAll asks matching t ys s' := by
  induction xs generalizing s with
  | nil => simp [SeesAll]
  | cons x rest ih =>
    simp only [List.cons_append, SeesAll, ih]
    constructor
    · rintro ⟨u, hx, t, hrest, hlast⟩
      exact ⟨t, ⟨u, hx, hrest⟩, hlast⟩
    · rintro ⟨t, ⟨u, hx, hrest⟩, hlast⟩
      exact ⟨u, hx, t, hrest, hlast⟩

/-- An insertion is refused, or its row is there. -/
theorem Sees.insertion (h : Sees asks matching s x s') (hasks : ¬asks x.call) :
    s'.any matching = true ∨ ∃ why, x.result = .error why := by
  cases h with
  | selected hselect => exact absurd hselect hasks
  | inserted _ _ hrow => exact .inl (by simp [hrow])
  | refused hresult => exact .inr ⟨_, hresult⟩

/-- Where a row matches, no selection is answered with none. -/
theorem Sees.finds (h : Sees asks matching s x s') (hthere : s.any matching = true)
    (hcall : ¬x.call.StartsWith "INSERT") : x.result ≠ .ok (.rows []) := by
  cases h with
  | selected _ hresult hrows =>
    intro hnone
    cases hresult.symm.trans hnone
    rw [hrows rfl] at hthere
    cases hthere
  | inserted hinsert => exact absurd hinsert hcall
  | refused hresult => simp [hresult]

/-- **What was inserted is found.**  A selection that comes after an insertion, whatever was sent in
between, is not answered with no rows, unless the insertion was refused. -/
theorem SeesAll.finds (before between : List Exchange) {after : List Exchange}
    (h : SeesAll asks matching s (before ++ b :: (between ++ c :: after)) s')
    (hb : ¬asks b.call) (hc : ¬c.call.StartsWith "INSERT") :
    c.result ≠ .ok (.rows []) ∨ ∃ why, b.result = .error why := by
  obtain ⟨t, -, u, hinsert, hrest⟩ := seesAll_append.mp h
  obtain ⟨v, hbetween, z, hselect, -⟩ := seesAll_append.mp hrest
  exact (hinsert.insertion hb).imp_left fun hthere =>
    hselect.finds (hbetween.stays hthere) hc

/-! ## 3. Two clients -/

/-- How many rows are inserted. -/
def insertions (sent : List Exchange) : Nat := sent.countP fun x => x.call.StartsWith "INSERT"

/-- Two clients look for a row and insert it: both look before either inserts, or the insertion of
the one that came first was refused. -/
inductive InsertTwice (turns : List (Exchange ⊕ Exchange)) : List Exchange → List Exchange → Prop
  | overlapping {a b c d : Exchange} {first last : List (Exchange ⊕ Exchange)}
      (hfirst : first = [.inl a, .inr c] ∨ first = [.inr c, .inl a])
      (hlast : last = [.inl b, .inr d] ∨ last = [.inr d, .inl b]) (h : turns = first ++ last) :
      InsertTwice turns [a, b] [c, d]
  | leftRefused {a b c d : Exchange} {why : Refusal}
      (h : turns = [.inl a, .inl b, .inr c, .inr d]) (hrefused : b.result = .error why) :
      InsertTwice turns [a, b] [c, d]
  | rightRefused {a b c d : Exchange} {why : Refusal}
      (h : turns = [.inr c, .inr d, .inl a, .inl b]) (hrefused : d.result = .error why) :
      InsertTwice turns [a, b] [c, d]

end Sql.Store

namespace World

open Sql (Store)
open Sql.Store (InsertTwice Interleaves SeesAll insertions sentIn)

variable {asks : Call → Prop} {matching : Row → Bool} {s s' : Store} {xs ys : List Exchange}
  {turns : List (Exchange ⊕ Exchange)}

/-- A call that asks for rows inserts none. -/
theorem not_insert_of_select {call : Call} (h : call.StartsWith "SELECT") :
    ¬call.StartsWith "INSERT" := fun hinsert => absurd (h.unique hinsert (by decide)) (by decide)

/-- One client inserts one row at most, and only if it found none. -/
theorem Creates.insertions_le (h : Creates asks xs)
    (hasks : ∀ call, asks call → call.StartsWith "SELECT") : insertions xs = 0 ∨
      insertions xs = 1 ∧ ∃ a b, xs = [a, b] ∧ asks a.call ∧ a.result = .ok (.rows []) ∧
        b.call.StartsWith "INSERT" := by
  have hselect {call : Call} (h : asks call) := not_insert_of_select (hasks call h)
  cases h with
  | nothing => exact .inl rfl
  | looked hx => exact .inl (by simp [insertions, hselect hx])
  | inserted hx hnone hy =>
    exact .inr ⟨by simp [insertions, hselect hx, hy], _, _, rfl, hx, hnone, hy⟩

/-- **Two clients that look for the same row insert it once**, unless both look before either
inserts, or the insertion of the one that came first was refused. -/
theorem creations_interleaved (hasks : ∀ call, asks call → call.StartsWith "SELECT")
    (hleft : Creates asks xs) (hright : Creates asks ys) (hturns : Interleaves turns xs ys)
    (hrun : SeesAll asks matching s (sentIn turns) s') :
    insertions (sentIn turns) ≤ 1 ∨
      insertions (sentIn turns) = 2 ∧ InsertTwice turns xs ys := by
  have hcount : insertions (sentIn turns) = insertions xs + insertions ys := hturns.countP _
  rcases hleft.insertions_le hasks with hnone | ⟨hone, a, b, rfl, ha, hafound, hb⟩
  · rcases hright.insertions_le hasks with h | ⟨h, -⟩ <;> omega
  rcases hright.insertions_le hasks with hnone | ⟨hone', c, d, rfl, hc, hcfound, hd⟩
  · omega
  refine .inr ⟨by omega, ?_⟩
  have hselect {call : Call} (h : asks call) := not_insert_of_select (hasks call h)
  have hinsert {call : Call} (h : call.StartsWith "INSERT") : ¬asks call := fun hask =>
    hselect hask h
  rcases Sql.Store.interleaves_pairs hturns with rfl | rfl | ⟨first, last, hfirst, hlast, rfl⟩
  · have hfinds := SeesAll.finds [a] [] hrun (hinsert hb) (hselect hc)
    obtain ⟨why, hrefused⟩ := hfinds.resolve_left (absurd hcfound)
    exact .leftRefused rfl hrefused
  · have hfinds := SeesAll.finds [c] [] hrun (hinsert hd) (hselect ha)
    obtain ⟨why, hrefused⟩ := hfinds.resolve_left (absurd hafound)
    exact .rightRefused rfl hrefused
  · exact .overlapping hfirst hlast rfl

end World
end RowMapper
