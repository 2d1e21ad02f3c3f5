import RowMapper.Connection
import RowMapper.Proofs.Dictionary
import RowMapper.Proofs.Sql.Write
import RowMapper.Proofs.World.Holding

/-!
# A table that answers

What a table does with the statements about one row: a selection by key yields the row, and a change
or a removal says how many rows it affected.  `Store.Answers` is one statement, with the table before
and after it, and `Store.Run` is one statement after another, whoever sends them.  Rows have integers
as keys, and no change sets a key, so a row stays under its key until it is removed (`Run.stays`).
-/
namespace RowMapper

/-! ## 1. Values and rows -/

/-- The value as a database keeps it: without its number on the shelf. -/
def Value.unplaced : Value → Value
  | .intAt n _ => .int n
  | .floatAt x _ => .float x
  | .strAt s _ => .str s
  | .bytesAt b _ => .bytes b
  | v => v

theorem Value.unplaced_datum {v : Value} (h : v.isDatum = true) : v.unplaced = v := by
  cases v with
  | intAt n place => cases place <;> first | rfl | cases h
  | floatAt x place => cases place <;> first | rfl | cases h
  | strAt s place => cases place <;> first | rfl | cases h
  | bytesAt b place => cases place <;> first | rfl | cases h
  | _ => rfl

theorem Value.unplaced_lyingAt {v : Value} (h : v.isDatum = true) (number : Nat) :
    (v.lyingAt number).unplaced = v := by
  cases v with
  | intAt n place => cases place <;> first | rfl | cases h
  | floatAt x place => cases place <;> first | rfl | cases h
  | strAt s place => cases place <;> first | rfl | cases h
  | bytesAt b place => cases place <;> first | rfl | cases h
  | null => rfl
  | bool b => rfl
  | _ => cases h

theorem Value.sameKey_int (m n : Int) (place : Place) :
    (Value.int m).sameKey (.intAt n place) = (m == n) := by
  simp [Value.sameKey, Value.sharePlace, Value.place, Value.asInt?]

namespace Sql

/-- The row with new values in some of its columns. -/
def assign (settings : Dictionary Value) (row : Row) : Row :=
  row.map fun entry => (entry.1, (settings.get? entry.1).getD entry.2)

@[simp] theorem names_assign (settings : Dictionary Value) (row : Row) :
    (assign settings row).names = row.names := by
  simp [assign, Dictionary.names, Function.comp_def]

theorem get?_assign (settings : Dictionary Value) (row : Row) (name : String) :
    (assign settings row).get? name =
      (row.get? name).map fun old => (settings.get? name).getD old := by
  induction row with
  | nil => rfl
  | cons entry rest ih =>
    obtain ⟨known, old⟩ := entry
    by_cases h : known = name
    · subst h
      simp [assign, Dictionary.get?]
    · simp only [assign, List.map_cons, Dictionary.get?, if_neg h] at ih ⊢
      exact ih

/-- Whether a row has a value as its key. -/
def hasKey (key : String) (k : Value) (row : Row) : Bool := (row.get? key).any (·.sameKey k)

/-- A row keeps a key that is not set. -/
theorem hasKey_assign {key : String} {settings : Dictionary Value} (h : key ∉ settings.names)
    (k : Value) (row : Row) : hasKey key k (assign settings row) = hasKey key k row := by
  rw [hasKey, hasKey, get?_assign, Dictionary.get?_eq_none h]
  simp

/-- Selects the row with a key. -/
def keyedText (table key : String) : String :=
  "SELECT * FROM " ++ quote table ++ " WHERE " ++ quote key ++ " = ? LIMIT 1"

/-! ## 2. Answers -/

/-- The rows of a table. -/
abbrev Store := List Row

namespace Store

/-- Every row has an integer as its key, and no name twice. -/
def Keyed (key : String) (s : Store) : Prop :=
  ∀ row ∈ s, row.names.Nodup ∧ ∃ n, row.get? key = some (.int n)

/-- The rows with new values in some columns of those that have a key. -/
def change (key : String) (k : Value) (settings : Dictionary Value) (s : Store) : Store :=
  s.map fun row => if hasKey key k row then assign settings row else row

/-- The rows without those that have a key. -/
def remove (key : String) (k : Value) (s : Store) : Store := s.filter fun row => !hasKey key k row

/-- A statement was sent to a table, which answered it truthfully, or refused it and stayed as it
was. -/
inductive Answers (table key : String) (s : Store) (x : Exchange) : Store → Prop
  | selected {k : Value} (hcall : x.call = .statement (keyedText table key) [k])
      (hresult : x.result = .ok (.rows ((s.filter (hasKey key k)).take 1))) :
      Answers table key s x s
  | changed {text : String} {columns : List String} {values : List Value} {k insertId : Value}
      (hcall : x.call = .statement text (values ++ [k]))
      (hread : Write.read? text = some (.change table columns key)) (hkey : key ∉ columns)
      (hlength : columns.length = values.length)
      (hresult : x.result = .ok (.done insertId (.int (s.countP (hasKey key k))))) :
      Answers table key s x (s.change key k (columns.zip (values.map Value.unplaced)))
  | removed {text : String} {k insertId : Value} (hcall : x.call = .statement text [k])
      (hread : Write.read? text = some (.removal table key))
      (hresult : x.result = .ok (.done insertId (.int (s.countP (hasKey key k))))) :
      Answers table key s x (s.remove key k)
  | refused {why : Refusal} (hresult : x.result = .error why) : Answers table key s x s

/-- A table answered one statement after another. -/
inductive Run (table key : String) : Store → List Exchange → Store → Prop
  | nil (s : Store) : Run table key s [] s
  | cons {s t s' : Store} {x : Exchange} {rest : List Exchange} (h : Answers table key s x t)
      (hrest : Run table key t rest s') : Run table key s (x :: rest) s'

/-- The statement removes rows by their key. -/
def Removes (table key : String) (call : Call) : Prop :=
  ∃ text params, call = .statement text params ∧ Write.read? text = some (.removal table key)

section Answers

variable {table key : String} {s t s' : Store} {x : Exchange}

theorem names_zip {columns : List String} {values : List Value}
    (h : columns.length = values.length) : Dictionary.names (columns.zip values) = columns :=
  List.map_fst_zip (Nat.le_of_eq h)

theorem Answers.keyed (h : Answers table key s x s') (hs : s.Keyed key) : s'.Keyed key := by
  cases h with
  | selected => exact hs
  | refused => exact hs
  | removed => exact fun row hrow => hs row (List.mem_filter.mp hrow).1
  | changed hcall hread hkey hlength hresult =>
    intro row hrow
    obtain ⟨old, hold, rfl⟩ := List.mem_map.mp hrow
    obtain ⟨hnodup, n, hn⟩ := hs old hold
    split
    · refine ⟨by rwa [names_assign], n, ?_⟩
      rw [get?_assign, hn, Dictionary.get?_eq_none (by rwa [names_zip (by simpa using hlength)])]
      rfl
    · exact ⟨hnodup, n, hn⟩

theorem countP_change {k k' : Value} {settings : Dictionary Value} (h : key ∉ settings.names) :
    (s.change key k settings).countP (hasKey key k') = s.countP (hasKey key k') := by
  rw [change, List.countP_map]
  refine List.countP_congr fun row _ => ?_
  simp only [Function.comp_apply]
  split
  · rw [hasKey_assign h]
  · rfl

/-- A row stays under its key unless it is removed. -/
theorem Answers.stays (h : Answers table key s x s') (hx : ¬Removes table key x.call) (k : Value) :
    s'.countP (hasKey key k) = s.countP (hasKey key k) := by
  cases h with
  | selected => rfl
  | refused => rfl
  | removed hcall hread => exact absurd ⟨_, _, hcall, hread⟩ hx
  | changed hcall hread hkey hlength hresult =>
    exact countP_change (by rwa [names_zip (by simpa using hlength)])

/-- What a selection by key is answered with. -/
theorem Answers.selection {k : Value} {rows : List Row} (h : Answers table key s x s')
    (hcall : x.call = .statement (keyedText table key) [k]) (hresult : x.result = .ok (.rows rows)) :
    s' = s ∧ rows = (s.filter (hasKey key k)).take 1 := by
  cases h with
  | selected hcall' hresult' =>
    cases hcall.symm.trans hcall'
    cases hresult.symm.trans hresult'
    exact ⟨rfl, rfl⟩
  | changed _ _ _ _ hresult' => cases hresult.symm.trans hresult'
  | removed _ _ hresult' => cases hresult.symm.trans hresult'
  | refused hresult' => cases hresult.symm.trans hresult'

/-- What a change is answered with. -/
theorem Answers.change {text : String} {columns : List String} {values : List Value}
    {k insertId count : Value} (h : Answers table key s x s')
    (hcall : x.call = .statement text (values ++ [k]))
    (hread : Write.read? text = some (.change table columns key))
    (hresult : x.result = .ok (.done insertId count)) :
    s' = s.change key k (columns.zip (values.map Value.unplaced)) ∧
      count = .int (s.countP (hasKey key k)) := by
  cases h with
  | selected _ hresult' => cases hresult.symm.trans hresult'
  | changed hcall' hread' _ _ hresult' =>
    cases hresult.symm.trans hresult'
    obtain ⟨rfl, hparams⟩ := Call.statement.inj (hcall.symm.trans hcall')
    obtain ⟨rfl, hk⟩ := List.append_inj' hparams rfl
    cases hk
    cases hread.symm.trans hread'
    exact ⟨rfl, rfl⟩
  | removed hcall' hread' _ =>
    obtain ⟨rfl, -⟩ := Call.statement.inj (hcall.symm.trans hcall')
    cases hread.symm.trans hread'
  | refused hresult' => cases hresult.symm.trans hresult'

/-- What a removal is answered with. -/
theorem Answers.removal {text : String} {values : List Value} {k insertId count : Value}
    (h : Answers table key s x s') (hcall : x.call = .statement text (values ++ [k]))
    (hread : Write.read? text = some (.removal table key))
    (hresult : x.result = .ok (.done insertId count)) :
    s' = s.remove key k ∧ count = .int (s.countP (hasKey key k)) := by
  cases h with
  | selected _ hresult' => cases hresult.symm.trans hresult'
  | changed hcall' hread' _ _ _ =>
    obtain ⟨rfl, -⟩ := Call.statement.inj (hcall.symm.trans hcall')
    cases hread.symm.trans hread'
  | removed hcall' hread' hresult' =>
    obtain ⟨-, hparams⟩ := Call.statement.inj (hcall.symm.trans hcall')
    obtain ⟨-, hk⟩ := List.append_inj' (show values ++ [k] = [] ++ [_] from hparams) rfl
    cases hk
    cases hresult.symm.trans hresult'
    exact ⟨rfl, rfl⟩
  | refused hresult' => cases hresult.symm.trans hresult'

/-- A row with an integer as its key has it also with a number on the shelf. -/
theorem hasKey_intAt (hs : s.Keyed key) {row : Row} (hrow : row ∈ s) (n : Int) (place : Place) :
    hasKey key (.intAt n place) row = hasKey key (.int n) row := by
  obtain ⟨-, m, hm⟩ := hs row hrow
  simp only [hasKey, hm, Option.any_some, Value.sameKey_int]

theorem countP_intAt (hs : s.Keyed key) (n : Int) (place : Place) :
    s.countP (hasKey key (.intAt n place)) = s.countP (hasKey key (.int n)) :=
  List.countP_congr fun row hrow => by rw [hasKey_intAt hs hrow]

/-- A change by an integer is made in the rows that have it as their key. -/
theorem filter_change (hs : s.Keyed key) {settings : Dictionary Value} (h : key ∉ settings.names)
    (n : Int) (place : Place) :
    (s.change key (.intAt n place) settings).filter (hasKey key (.int n)) =
      (s.filter (hasKey key (.int n))).map (assign settings) := by
  rw [change, List.filter_map]
  have hsame : s.filter (hasKey key (.int n) ∘ fun row =>
      if hasKey key (.intAt n place) row then assign settings row else row) =
      s.filter (hasKey key (.int n)) := by
    refine List.filter_congr fun row _ => ?_
    simp only [Function.comp_apply]
    split
    · rw [hasKey_assign h]
    · rfl
  rw [hsame]
  refine List.map_congr_left fun row hrow => ?_
  obtain ⟨hmem, hkeyed⟩ := List.mem_filter.mp hrow
  rw [hasKey_intAt hs hmem, if_pos hkeyed]

theorem countP_remove (s : Store) (key : String) (k : Value) :
    (s.remove key k).countP (hasKey key k) = 0 := by
  simp [remove, List.countP_eq_zero]

/-- The row that a selection by an integer yields is there, under that key. -/
theorem Answers.found (h : Answers table key s x s') (hs : s.Keyed key) {n : Int} {row : Row}
    {rest : List Row} (hcall : x.call = .statement (keyedText table key) [.int n])
    (hresult : x.result = .ok (.rows (row :: rest))) :
    s' = s ∧ row ∈ s.filter (hasKey key (.int n)) ∧ row.names.Nodup ∧
      row.get? key = some (.int n) := by
  obtain ⟨rfl, hrows⟩ := h.selection hcall hresult
  have hrow : row ∈ s'.filter (hasKey key (.int n)) :=
    List.mem_of_mem_take (hrows ▸ List.mem_cons_self)
  obtain ⟨hmem, hkey⟩ := List.mem_filter.mp hrow
  obtain ⟨hnodup, m, hm⟩ := hs row hmem
  rw [hasKey, hm, Option.any_some, Value.sameKey_int, beq_iff_eq] at hkey
  exact ⟨rfl, hrow, hnodup, hkey ▸ hm⟩

end Answers

/-! ## 3. Runs -/

section Run

variable {table key : String} {s t s' : Store} {xs ys : List Exchange}

theorem run_cons {x : Exchange} : Run table key s (x :: xs) s' ↔
    ∃ t, Answers table key s x t ∧ Run table key t xs s' := by
  constructor
  · intro h
    cases h with
    | cons hx hrest => exact ⟨_, hx, hrest⟩
  · rintro ⟨t, hx, hrest⟩
    exact .cons hx hrest

theorem run_append : Run table key s (xs ++ ys) s' ↔
    ∃ t, Run table key s xs t ∧ Run table key t ys s' := by
  induction xs generalizing s with
  | nil =>
    constructor
    · exact fun h => ⟨s, .nil s, h⟩
    · rintro ⟨t, hnil, h⟩
      cases hnil
      exact h
  | cons x rest ih =>
    rw [List.cons_append, run_cons]
    constructor
    · rintro ⟨u, hx, hrest⟩
      obtain ⟨t, hfirst, hlast⟩ := ih.mp hrest
      exact ⟨t, .cons hx hfirst, hlast⟩
    · rintro ⟨t, hfirst, hlast⟩
      obtain ⟨u, hx, hrest⟩ := run_cons.mp hfirst
      exact ⟨u, hx, ih.mpr ⟨t, hrest, hlast⟩⟩

theorem Run.keyed (h : Run table key s xs s') (hs : s.Keyed key) : s'.Keyed key := by
  induction h with
  | nil s => exact hs
  | cons hx _ ih => exact ih (hx.keyed hs)

/-- Rows stay under their keys while none is removed. -/
theorem Run.stays (h : Run table key s xs s') (hxs : ∀ x ∈ xs, ¬Removes table key x.call)
    (k : Value) : s'.countP (hasKey key k) = s.countP (hasKey key k) := by
  induction h with
  | nil s => rfl
  | cons hx _ ih =>
    obtain ⟨hfirst, hrest⟩ := List.forall_mem_cons.mp hxs
    exact (ih hrest).trans (hx.stays hfirst k)

end Run

/-! ## 4. Two clients -/

/-- The statements of two clients come in turns, each client's in their order. -/
inductive Interleaves : List (Exchange ⊕ Exchange) → List Exchange → List Exchange → Prop
  | nil : Interleaves [] [] []
  | left {turns : List (Exchange ⊕ Exchange)} {x : Exchange} {xs ys : List Exchange}
      (h : Interleaves turns xs ys) : Interleaves (.inl x :: turns) (x :: xs) ys
  | right {turns : List (Exchange ⊕ Exchange)} {y : Exchange} {xs ys : List Exchange}
      (h : Interleaves turns xs ys) : Interleaves (.inr y :: turns) xs (y :: ys)

/-- What is sent, whoever sends it. -/
def sentIn (turns : List (Exchange ⊕ Exchange)) : List Exchange := turns.map (Sum.elim id id)

section Interleaves

variable {turns : List (Exchange ⊕ Exchange)} {a b c d : Exchange}

/-- What one client sends last comes in a row. -/
theorem Interleaves.left_only {xs : List Exchange} (h : Interleaves turns xs []) :
    turns = xs.map .inl := by
  generalize hys : ([] : List Exchange) = ys at h
  induction h with
  | nil => rfl
  | left _ ih => rw [List.map_cons, ih hys]
  | right => cases hys

theorem Interleaves.right_only {ys : List Exchange} (h : Interleaves turns [] ys) :
    turns = ys.map .inr := by
  generalize hxs : ([] : List Exchange) = xs at h
  induction h with
  | nil => rfl
  | left => cases hxs
  | right _ ih => rw [List.map_cons, ih hxs]

/-- Of a kind of statement there are as many as both clients send. -/
theorem Interleaves.countP {xs ys : List Exchange} (h : Interleaves turns xs ys)
    (p : Exchange → Bool) : (sentIn turns).countP p = xs.countP p + ys.countP p := by
  induction h with
  | nil => rfl
  | @left turns x xs ys _ ih =>
    show (x :: sentIn turns).countP p = _
    rw [List.countP_cons, List.countP_cons, ih]
    omega
  | @right turns y xs ys _ ih =>
    show (y :: sentIn turns).countP p = _
    rw [List.countP_cons, List.countP_cons, ih]
    omega

/-- Two clients with two statements each: one comes after the other, or both send their first
statements before either sends the second. -/
theorem interleaves_pairs (h : Interleaves turns [a, b] [c, d]) :
    turns = [.inl a, .inl b, .inr c, .inr d] ∨ turns = [.inr c, .inr d, .inl a, .inl b] ∨
    ∃ first last, (first = [.inl a, .inr c] ∨ first = [.inr c, .inl a]) ∧
      (last = [.inl b, .inr d] ∨ last = [.inr d, .inl b]) ∧ turns = first ++ last := by
  have hlast {last : List (Exchange ⊕ Exchange)} (h : Interleaves last [b] [d]) :
      last = [.inl b, .inr d] ∨ last = [.inr d, .inl b] := by
    cases h with
    | left h => exact .inl (congrArg (Sum.inl b :: ·) h.right_only)
    | right h => exact .inr (congrArg (Sum.inr d :: ·) h.left_only)
  cases h with
  | left h =>
    cases h with
    | left h => exact .inl (congrArg (Sum.inl a :: Sum.inl b :: ·) h.right_only)
    | right h => exact .inr (.inr ⟨[.inl a, .inr c], _, .inl rfl, hlast h, rfl⟩)
  | right h =>
    cases h with
    | left h => exact .inr (.inr ⟨[.inr c, .inl a], _, .inr rfl, hlast h, rfl⟩)
    | right h => exact .inr (.inl (congrArg (Sum.inr c :: Sum.inr d :: ·) h.left_only))

end Interleaves

end Store
end Sql
end RowMapper
