import RowMapper.Proofs.Engine.Report
import RowMapper.Proofs.Entity.Creation
import RowMapper.Proofs.Entity.Linking

/-!
# Looking up a row by its key

A key is looked up by a filter that has the column of the key as its only entry, so what stands
there for the key is read as a filter reads it: a value is compared with the column, and a mapping
is taken for operators.  `selection_pinned` says which selection comes of it.  For a key that is not
null and no mapping of operators it is the equality, and the finders that go by a key send it and
no other selection (`key_lookup_is_equality`).
-/
namespace RowMapper

open Model (Mapper)

namespace World

variable {w : World} {session : String} {model : Nat} {m : Mapper} {key data : Value}

/-! ## 1. The selection -/

/-- The options that ask for the rows of a filter. -/
def asking (filter : Dictionary Value) : FindOptions := { filter, given := [.filter] }

/-- The options that ask for one value in one column. -/
def pinned (column : String) (v : Value) : FindOptions := asking [(column, v)]

/-- The conditions of a filter with one column. -/
theorem compile_pinned {column : String} (hword : column ∉ ["and", "or", "not"]) (v : Value) :
    Where.compile (.mapping [(.str column, v)]) =
      (Where.columnConditions (.str column) v).map Where.compileConjunction := by
  have hrole : Where.roleOf (.str column) = .column := by
    simp only [List.mem_cons, List.not_mem_nil, or_false, not_or] at hword
    obtain ⟨hall, hany, hnot⟩ := hword
    unfold Where.roleOf
    split <;> simp_all
  show (Where.conditions [(.str column, v)]).map Where.compileConjunction = _
  rw [Where.conditions, hrole, Where.entryConditions_column]
  cases Where.columnConditions (.str column) v with
  | error why => rfl
  | ok conditions =>
    show Except.ok (Where.compileConjunction (conditions ++ [])) = _
    rw [List.append_nil]
    rfl

/-- The first row that a filter holds of, all columns of it. -/
def firstRow (table : String) (f : Sql.Fragment) : Sql.Fragment where
  text := "SELECT * FROM " ++ Sql.quote table ++ (Sql.wherePart (some f)).text ++ " LIMIT 1"
  params := (Sql.wherePart (some f)).params

/-- The selection of the first row of a filter: the filter is read, and then the name of the table
is checked. -/
theorem selection_asking (m : Mapper) (filter : Dictionary Value) :
    selection m (asking filter) (some 1) none = (do
      let f ← orFault (Where.compile (.mapping (Entries.ofNamed filter)))
      let table ← orFault (Sql.safeName m.tableName)
      return firstRow table f) := by
  show (orFault (Where.compile (.mapping (Entries.ofNamed filter))) >>= _) = _
  refine bind_congr fun f => ?_
  rw [Sql.Select.statement]
  dsimp only
  rw [Sql.quoteIdentifier]
  cases Sql.safeName m.tableName with
  | error why => rfl
  | ok table =>
    show Except.ok (Sql.Fragment.mk
      ("SELECT " ++ "*" ++ " FROM " ++ Sql.quote table ++ _ ++ "" ++ "" ++ " LIMIT 1") _) = _
    rw [String.append_empty, String.append_empty]
    rfl

/-- The selection of the first row with a value in a column. -/
theorem selection_pinned (m : Mapper) {column : String} (hword : column ∉ ["and", "or", "not"])
    (v : Value) : selection m (pinned column v) (some 1) none = (do
      let conditions ← orFault (Where.columnConditions (.str column) v)
      let table ← orFault (Sql.safeName m.tableName)
      return firstRow table (Where.compileConjunction conditions)) := by
  have hcompile := compile_pinned hword v
  rw [pinned, selection_asking]
  show (orFault (Where.compile (.mapping [(.str column, v)])) >>= _) = _
  rw [hcompile]
  cases Where.columnConditions (.str column) v <;> rfl

/-- A filter reads the value of a column as operators. -/
def IsOperators (column : String) (v : Value) : Prop :=
  v.isMapping = true ∧ ∃ conditions, Where.columnConditions (.str column) v = .ok conditions

/-- Any other value that is not null and not refused is compared with the column. -/
theorem equality_of_not_isOperators {column : String} {v : Value}
    {conditions : List Where.Condition} (hnull : v.isNull = false) (hplain : ¬IsOperators column v)
    (h : Where.columnConditions (.str column) v = .ok conditions) :
    conditions = [.compare column .eq v] := by
  obtain ⟨name, hname, hvalue⟩ := Where.columnConditions_eq_ok.mp h
  obtain ⟨-, -, rfl⟩ := Where.safeName_eq_ok.mp hname
  rcases Where.negatedColumn_eq_ok.mp hvalue with ⟨_, _, rfl, -⟩ | ⟨rfl, -⟩ | ⟨-, heq⟩
  · exact absurd ⟨rfl, conditions, h⟩ hplain
  · cases hnull
  · exact heq

/-- The filter of one equality. -/
theorem wherePart_equality (column : String) (v : Value) :
    Sql.wherePart (some (Where.compileConjunction [.compare column .eq v])) =
      ⟨" WHERE " ++ Sql.quote column ++ " = ?", [v]⟩ := by
  have hmark : " " ++ ("=" ++ " ?") = " = ?" := by decide
  have hfilter : ¬(Sql.quote column ++ " " ++ "=" ++ " ?").isEmpty := by
    intro hempty
    have htext := congrArg String.toList (String.isEmpty_iff.mp hempty)
    simp [Sql.quote] at htext
  have htext : " WHERE " ++ (Sql.quote column ++ " " ++ "=" ++ " ?") =
      " WHERE " ++ Sql.quote column ++ " = ?" := by
    simp only [String.append_assoc, hmark]
  rw [Sql.wherePart]
  exact (if_neg hfilter).trans (congrArg (Sql.Fragment.mk · [v]) htext)

theorem firstRow_equality (table column : String) (v : Value) :
    firstRow table (Where.compileConjunction [.compare column .eq v]) =
      ⟨Sql.keyedText table column, [v]⟩ := by
  have hmark : " = ?" ++ " LIMIT 1" = " = ? LIMIT 1" := by decide
  have htext (start quoted : String) : start ++ (" WHERE " ++ quoted ++ " = ?") ++ " LIMIT 1" =
      start ++ " WHERE " ++ quoted ++ " = ? LIMIT 1" := by
    simp only [String.append_assoc, hmark]
  delta firstRow
  rw [wherePart_equality]
  exact congrArg (Sql.Fragment.mk · [v]) (htext _ _)

/-! ## 2. The finders that go by a key -/

/-- How an operation that starts by looking up a key ends, and what it sends: it is refused, and
nothing is sent, for a key that no filter takes or a table that cannot be named; nothing is sent
either if the statement has to be reported and the key cannot be printed; or the selection of the
key is sent, and no other after it. -/
inductive LooksUp {α : Type} (w : World) (m : Mapper) (key : Value) :
    Except Fault α → List Exchange → Prop
  | malformed {why : Rejection} (h : Where.columnConditions (.str m.key) key = .error why) :
      LooksUp w m key (.error (.rejected why)) []
  | unsafeTable (h : ∀ table, Sql.safeName m.tableName ≠ .ok table) :
      LooksUp w m key (.error (.rejected (.unsafeIdentifier m.tableName))) []
  | unprintable {why : Unprintable} (hlog : w.engine.logStatements = true)
      (h : w.literal (.list [w.expand key]) = .error why) :
      LooksUp w m key (.error (.ofUnprintable why)) []
  | sent {outcome : Except Fault α} {table : String} {read : Exchange} {rest : List Exchange}
      (htable : Sql.safeName m.tableName = .ok table)
      (hcall : read.call = .statement (Sql.keyedText table m.key) [w.expand key])
      (hrest : ∀ x ∈ rest, ¬x.call.StartsWith "SELECT") : LooksUp w m key outcome (read :: rest)

/-- What was run starts by looking up a key, in a world. -/
def StartsByKey {α : Type} (w : World) (m : Mapper) (key : Value) (run : Except Fault α × World) :
    Prop :=
  ∃ sent, run.2.trace = w.trace ++ sent ∧ LooksUp w m key run.1 sent

variable {α β : Type}

/-- What is done with the row may write it, but looks for nothing more. -/
theorem StartsByKey.bind {action : Action World α} {next : α → Action World β} {kind : CallKind}
    (h : StartsByKey w m key (action.runOn w)) (hkind : kind = .change ∨ kind = .removal)
    (hnext : ∀ a, Sends [kind] (next a)) : StartsByKey w m key ((action >>= next).runOn w) := by
  obtain ⟨sent, htrace, hsent⟩ := h
  rw [Action.runOn_bind]
  rcases hrun : action.runOn w with ⟨fault | a, t⟩ <;> rw [hrun] at htrace hsent
  · refine ⟨sent, htrace, ?_⟩
    cases hsent with
    | malformed h => exact .malformed h
    | unsafeTable h => exact .unsafeTable h
    | unprintable hlog h => exact .unprintable hlog h
    | sent htable hcall hrest => exact .sent htable hcall hrest
  · have hled := hnext a t
    obtain ⟨more, hmore, -⟩ := hled.calls
    cases hsent with
    | @sent _ table read rest htable hcall hrest =>
      refine ⟨read :: (rest ++ more), ?_, .sent htable hcall fun x hx => ?_⟩
      · rw [hmore, htrace, List.append_assoc]
        rfl
      rcases List.mem_append.mp hx with hx | hx
      · exact hrest x hx
      · intro hselect
        have hasked := hled.asked_of_mem hmore x hx
        rcases hkind with rfl | rfl
        · exact absurd ((hasked.startsWith rfl).unique hselect (by decide)) (by decide)
        · exact absurd ((hasked.startsWith rfl).unique hselect (by decide)) (by decide)

/-- A statement of the world that is not sent could not be reported. -/
theorem query_unsent {f : Sql.Fragment} (h : ((query f).runOn w).2.trace = w.trace) :
    w.engine.logStatements = true ∧ ∃ why, w.literal (.list (f.params.map w.expand)) = .error why ∧
      (query f).runOn w = (.error (.ofUnprintable why), ((query f).runOn w).2) := by
  obtain ⟨hlog, why, hprint, hquery⟩ := Engine.query_unsent (e := w.expectantEngine) h
  exact ⟨hlog, why, hprint, Prod.ext hquery rfl⟩

/-- Making entities of a selection: the statement is sent, or it could not be reported. -/
theorem select_ends (session : String) (model : Nat) (excluded : List String) (f : Sql.Fragment)
    (w : World) :
    (∃ x : Exchange, ((select session model excluded f).runOn w).2.trace = w.trace ++ [x] ∧
      x.call = .statement f.text (f.params.map w.expand)) ∨
    ∃ why t, (select session model excluded f).runOn w = (.error (.ofUnprintable why), t) ∧
      t.trace = w.trace ∧ w.engine.logStatements = true ∧
      w.literal (.list (f.params.map w.expand)) = .error why := by
  rcases query_sent f w with hnone | ⟨x, hsent, hcall⟩
  · obtain ⟨hlog, why, hprint, hquery⟩ := query_unsent hnone
    exact .inr ⟨why, _, by rw [select, Action.runOn_bind_error hquery], hnone, hlog, hprint⟩
  · exact .inl ⟨x, (select_trace session model excluded f w).trans hsent, hcall⟩

/-- Looking for the first row of a filter that says something. -/
theorem findOne_filtered {o : FindOptions} (hm : w.mapper model = .ok m) (hfilter : o.filter ≠ []) :
    (findOne session model o).runOn w =
      (Action.ofExcept (selection m o (some 1) none) >>= fun f =>
        select session model o.exclude f >>= fun found => pure found.head?).runOn w := by
  have hempty : o.filter.isEmpty = false := by simpa using hfilter
  rw [findOne, Action.runOn_bind, runOn_reading, hm]
  dsimp only
  rw [hempty]
  rfl

theorem findOne_asking {filter : Dictionary Value} (hm : w.mapper model = .ok m)
    (hfilter : filter ≠ []) : (findOne session model (asking filter)).runOn w =
      (Action.ofExcept (selection m (asking filter) (some 1) none) >>= fun f =>
        select session model [] f >>= fun found => pure found.head?).runOn w :=
  findOne_filtered hm hfilter

theorem findById_pinned (hm : w.mapper model = .ok m) (hnull : key.isNull = false) :
    (findById session model key).runOn w =
      (findOne session model (pinned m.key key)).runOn w := by
  rw [findById, Action.runOn_bind, runOn_reading, hm]
  dsimp only
  rw [hnull]
  rfl

section Lookup

variable (hm : w.mapper model = .ok m) (hword : m.key ∉ ["and", "or", "not"])
  (hnull : key.isNull = false) (hplain : ¬IsOperators m.key key)
include hm hword hnull hplain

theorem findById_startsByKey (session : String) :
    StartsByKey w m key ((findById session model key).runOn w) ∧
      ((findById session model key).runOn w).2.trace.length ≤ w.trace.length + 1 := by
  rw [findById_pinned hm hnull, pinned, findOne_asking hm (List.cons_ne_nil _ _), ← pinned,
    Action.runOn_bind, Action.runOn_ofExcept]
  have hselection := selection_pinned m hword key
  cases hconditions : Where.columnConditions (.str m.key) key with
  | error why =>
    rw [hselection, hconditions]
    exact ⟨⟨[], (List.append_nil _).symm, .malformed hconditions⟩, Nat.le_succ _⟩
  | ok conditions =>
    obtain rfl := equality_of_not_isOperators hnull hplain hconditions
    cases htable : Sql.safeName m.tableName with
    | error why =>
      rw [hselection, hconditions, htable]
      obtain rfl : why = .unsafeIdentifier m.tableName := Where.safeName_eq_error htable
      exact ⟨⟨[], (List.append_nil _).symm, .unsafeTable fun _ h => nomatch htable.symm.trans h⟩,
        Nat.le_succ _⟩
    | ok table =>
      replace hselection : selection m (pinned m.key key) (some 1) none =
          .ok ⟨Sql.keyedText table m.key, [key]⟩ := by
        rw [hselection, hconditions, htable, ← firstRow_equality]
        rfl
      rw [hselection]
      dsimp only
      rw [Action.runOn_bind_pure]
      rcases select_ends session model [] ⟨Sql.keyedText table m.key, [key]⟩ w with
        ⟨x, htrace, hcall⟩ | ⟨why, t, hrun, htrace, hlog, hprint⟩
      · exact ⟨⟨[x], htrace, .sent htable hcall (by simp)⟩, by simp [htrace]⟩
      · rw [hrun]
        exact ⟨⟨[], by simpa using htrace, .unprintable hlog hprint⟩, by simp [htrace]⟩

/-- **A key that is no mapping of operators is compared.**  Finding by such a key, and the search
of the two operations that find by it and then write, are refused without a statement, or send
exactly the selection of the row whose key equals it. -/
theorem key_lookup_is_equality (session : String) (data : Value) :
    (StartsByKey w m key ((findById session model key).runOn w) ∧
      ((findById session model key).runOn w).2.trace.length ≤ w.trace.length + 1) ∧
    StartsByKey w m key ((findByIdAndUpdate session model key data).runOn w) ∧
    StartsByKey w m key ((findByIdAndDelete session model key).runOn w) := by
  have hfind := findById_startsByKey hm hword hnull hplain session
  refine ⟨hfind, ?_, ?_⟩
  · refine hfind.1.bind (.inl rfl) fun found => ?_
    cases found with
    | none => exact .pure _
    | some ref =>
      exact .bind (setProperties_sends ref data) fun _ => .bind (update_sends ref) fun _ => .pure _
  · rw [findByIdAndDelete, Action.runOn_bind, runOn_reading, hm]
    refine hfind.1.bind (.inr rfl) fun found => ?_
    cases found with
    | none => exact .bind .get fun _ => .throw _
    | some ref => exact delete_sends ref

end Lookup

/-! ## 3. Animals by their keys, and by operators -/

/-- Whether an outcome is a mapper whose key is `id`. -/
def keyedById : Except Fault Mapper → Bool
  | .ok m => m.key == "id"
  | .error _ => false

/-- The key of animals is their id. -/
theorem animals_keyed : ∃ m, housing.mapper 1 = .ok m ∧ m.key = "id" := by
  have hkey : keyedById (housing.mapper 1) = true := by decide +kernel
  generalize housing.mapper 1 = outcome at hkey ⊢
  cases outcome with
  | error fault => cases hkey
  | ok m => exact ⟨m, rfl, beq_iff_eq.mp hkey⟩

/-- An animal is looked up by the number that it has as its key. -/
theorem animal_lookup_is_equality : ∃ m, housing.mapper 1 = .ok m ∧ m.key ∉ ["and", "or", "not"] ∧
    (Value.int 7).isNull = false ∧ ¬IsOperators m.key (.int 7) ∧
    StartsByKey housing m (.int 7) ((findById "session" 1 (.int 7)).runOn housing) ∧
    StartsByKey housing m (.int 7) ((findByIdAndDelete "session" 1 (.int 7)).runOn housing) := by
  obtain ⟨m, hm, hkey⟩ := animals_keyed
  have hword : m.key ∉ ["and", "or", "not"] := by
    rw [hkey]
    decide
  have hplain : ¬IsOperators m.key (.int 7) := fun h => nomatch h.1
  obtain ⟨⟨hfind, -⟩, -, hdelete⟩ := key_lookup_is_equality hm hword rfl hplain "session" .null
  exact ⟨m, hm, hword, rfl, hplain, hfind, hdelete⟩

/-- Operators that hold of every positive number. -/
def positive : Value := .mapping [(.str "gt", .int 0)]

/-- What is asked for first is not a key that is a mapping, where a number is sent. -/
theorem not_startsByKey_of_number {after : World} {first : Exchange} {rest : List Exchange}
    {text : String} {n : Int} {a : α} (htrace : after.trace = w.trace ++ first :: rest)
    (hcall : first.call = .statement text [.int n]) (hkey : (w.expand key).isMapping = true) :
    ¬StartsByKey w m key (.ok a, after) := by
  rintro ⟨sent, hsent, hlookup⟩
  cases List.append_cancel_left (htrace.symm.trans hsent)
  cases hlookup with
  | sent htable hread hrest =>
    obtain ⟨-, hparams⟩ := Call.statement.inj (hcall.symm.trans hread)
    rw [← (List.cons.inj hparams).1] at hkey
    cases hkey

/-- The calls of a deletion by operators: the selection has a number as its parameter, and the
removal the key of the row that was found. -/
def deletesByOperators : Except Fault Bool → List Exchange → List Exchange → Bool
  | .ok true, [_], [_, ⟨.statement selected [.intAt 0 none], _, _⟩,
      ⟨.statement removed [.intAt 7 none], _, _⟩] =>
    selected == "SELECT * FROM \"animals\" WHERE \"id\" > ? LIMIT 1" &&
      removed == "DELETE FROM \"animals\" WHERE \"id\" = ?"
  | _, _, _ => false

theorem deletesByOperators_sends {outcome : Except Fault Bool} {before sent : List Exchange}
    (h : deletesByOperators outcome before (before ++ sent) = true) : outcome = .ok true ∧
      ∃ selected removed : Exchange, sent = [selected, removed] ∧
        selected.call = .statement "SELECT * FROM \"animals\" WHERE \"id\" > ? LIMIT 1" [.int 0] ∧
        removed.call = .statement "DELETE FROM \"animals\" WHERE \"id\" = ?" [.int 7] := by
  unfold deletesByOperators at h
  split at h
  · next hlist =>
    rw [Bool.and_eq_true, beq_iff_eq, beq_iff_eq] at h
    obtain ⟨rfl, rfl⟩ := h
    obtain ⟨-, rfl⟩ := List.cons.inj hlist
    exact ⟨rfl, _, _, rfl, rfl, rfl⟩
  · cases h

/-- Deleting an animal by operators asks for no key, and it removes an animal that was not named. -/
theorem positive_key_removes_an_animal : ∃ m w, housing.mapper 1 = .ok m ∧
    Sql.isSafeName m.key.toList = true ∧ m.key ∉ ["and", "or", "not"] ∧ positive.isNull = false ∧
    (findByIdAndDelete "session" 1 positive).runOn housing = (.ok true, w) ∧
    (∃ selected removed, w.trace = housing.trace ++ [selected, removed] ∧
      selected.call = .statement "SELECT * FROM \"animals\" WHERE \"id\" > ? LIMIT 1" [.int 0] ∧
      removed.call = .statement "DELETE FROM \"animals\" WHERE \"id\" = ?" [.int 7]) ∧
    ¬StartsByKey housing m positive (.ok true, w) := by
  obtain ⟨m, hm, hkey⟩ := animals_keyed
  have hruns : deletesByOperators ((findByIdAndDelete "session" 1 positive).runOn housing).1
      housing.trace ((findByIdAndDelete "session" 1 positive).runOn housing).2.trace = true := by
    decide +kernel
  obtain ⟨sent, htrace, -⟩ := (findByIdAndDelete_sends "session" 1 positive housing).calls
  have hmapping (w : World) : (w.expand positive).isMapping = true := rfl
  have hsafe : Sql.isSafeName m.key.toList = true ∧ m.key ∉ ["and", "or", "not"] := by
    rw [hkey]
    decide
  generalize housing = w₀ at *
  rcases hrun : (findByIdAndDelete "session" 1 positive).runOn w₀ with ⟨outcome, w⟩
  rw [hrun] at hruns htrace
  rw [htrace] at hruns
  obtain ⟨rfl, selected, removed, rfl, hselected, hremoved⟩ := deletesByOperators_sends hruns
  exact ⟨m, w, hm, hsafe.1, hsafe.2, rfl, rfl, ⟨selected, removed, htrace, hselected, hremoved⟩,
    not_startsByKey_of_number htrace hselected (hmapping w₀)⟩

end World
end RowMapper
