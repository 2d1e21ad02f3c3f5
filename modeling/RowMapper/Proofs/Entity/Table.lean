import RowMapper.Proofs.Dictionary
import RowMapper.Proofs.Entity.Event
import RowMapper.Proofs.Sql.Table
import RowMapper.Proofs.World.Unresolved

/-!
# Tables and what is written to them

The table of a class is made from its mapper, and so is every statement that writes an entity of the
class, but each goes its own way through the columns: the definition takes them all, an insertion
those that are set or have a default, a change those that are set apart from the key.  They agree all
the same (`table_fits_its_writes`), because each of them keeps the order of the columns, and because
the class keeps its table, its columns and its key once it is defined.
-/
namespace RowMapper

open Model (Column Definition Mapper Registry)

/-! ## 1. The columns of a mapper -/

/-- Each column of a mapper has its own name, and the key is one of them. -/
structure Model.Mapper.Keyed (m : Mapper) : Prop where
  nodup : m.columns.names.Nodup
  key_mem : m.key ∈ m.columns.names

namespace Model.Registry

variable {r r' : Registry}

theorem resolveKey_keyed {model : String} {attributes : Dictionary ClassAttribute}
    {columns : Dictionary Nat} {keyed : Keyed} (hnodup : columns.names.Nodup)
    (h : r.resolveKey model attributes columns = .ok keyed) :
    keyed.columns.names.Nodup ∧ keyed.key ∈ keyed.columns.names := by
  rw [resolveKey] at h
  split at h
  · next key hkeys =>
    cases h
    have hmem : key ∈ (columns.filter fun entry => (r.columnAt entry.2).isKey).map (·.1) := by
      rw [hkeys]
      exact List.mem_singleton_self key
    obtain ⟨entry, hentry, rfl⟩ := List.mem_map.mp hmem
    exact ⟨hnodup, List.mem_map_of_mem (List.mem_filter.mp hentry).1⟩
  · split at h
    · next index hfound =>
      cases h
      exact ⟨hnodup, List.mem_map_of_mem (f := (·.1)) (Dictionary.mem_of_get? hfound)⟩
    · next hmissing =>
      cases h
      refine ⟨List.nodup_cons.mpr ⟨fun hmem => ?_, hnodup⟩, List.mem_cons_self⟩
      exact Dictionary.get?_ne_none_of_mem hmem hmissing
  · cases h

/-- A class that is added as a model comes last, and gets a mapper with such columns. -/
theorem addModel_classes {c : ModelClass} {tableName : Value}
    (h : r.addModel c tableName = .ok r') :
    ∃ added m, r'.classes = r.classes ++ [added] ∧ added.mapper = some m ∧ m.Keyed := by
  rw [addModel] at h
  obtain ⟨keyed, hkeyed, h⟩ := bind_eq_ok.mp h
  obtain ⟨hnodup, hmem⟩ := resolveKey_keyed (Dictionary.nodup_names_ofList _) hkeyed
  cases h
  exact ⟨_, _, congrArg (· ++ [_]) (resolveKey_classes hkeyed), rfl, hnodup, hmem⟩

theorem addModel_keyed {c : ModelClass} {tableName : Value} (h : r.addModel c tableName = .ok r') :
    ∃ m, (r'.classAt r.classes.length).mapper = some m ∧ m.Keyed := by
  obtain ⟨added, m, hclasses, hm, hkeyed⟩ := addModel_classes h
  refine ⟨m, ?_, hkeyed⟩
  rw [classAt, hclasses, List.getElem?_concat_length, Option.getD_some, hm]

/-- The columns of every model are so. -/
def WellKeyed (r : Registry) : Prop := ∀ c ∈ r.classes, ∀ m, c.mapper = some m → m.Keyed

theorem WellKeyed.keyed {id : Nat} {m : Mapper} (h : r.WellKeyed) (hm : r.mapperOf id = .ok m) :
    m.Keyed := by
  rw [mapperOf_eq_ok, classAt] at hm
  cases hclass : r.classes[id]? with
  | none =>
    rw [hclass] at hm
    cases hm
  | some c =>
    rw [hclass] at hm
    exact h c (List.mem_of_getElem? hclass) m hm

theorem initial_wellKeyed : initial.WellKeyed := by
  intro c hc m hm
  cases List.mem_singleton.mp hc
  cases hm

theorem WellKeyed.of_classes (h : r.WellKeyed) (hclasses : r'.classes = r.classes) :
    r'.WellKeyed := by
  intro c hc
  rw [hclasses] at hc
  exact h c hc

theorem WellKeyed.addClass (h : r.WellKeyed) {c : ModelClass}
    (hc : ∀ m, c.mapper = some m → m.Keyed) : (r.addClass c).WellKeyed :=
  List.forall_mem_append.mpr ⟨h, List.forall_mem_singleton.mpr hc⟩

theorem WellKeyed.newClass {d : Definition} {c : ModelClass} (h : r.WellKeyed)
    (hnew : r.newClass d = .ok (r', c)) : r'.WellKeyed := by
  obtain ⟨rfl, -⟩ := newClass_eq_ok hnew
  refine WellKeyed.of_classes ?_ (addAttributes_classes _ _)
  rw [bodyOf]
  cases d.settings with
  | none => exact h
  | some settings => exact (h.of_classes (addAttributes_classes r _)).addClass (by simp)

theorem WellKeyed.addModel {c : ModelClass} {tableName : Value} (h : r.WellKeyed)
    (hadd : r.addModel c tableName = .ok r') : r'.WellKeyed := by
  obtain ⟨added, m, hclasses, hm, hkeyed⟩ := addModel_classes hadd
  rw [WellKeyed, hclasses]
  refine List.forall_mem_append.mpr ⟨h, List.forall_mem_singleton.mpr fun m' hm' => ?_⟩
  cases hm.symm.trans hm'
  exact hkeyed

end Model.Registry

/-! ## 2. Names on the shelf -/

theorem Sql.safeName_lyingAt {v : Value} {number : Nat} {name : String} :
    safeName (v.lyingAt number) = .ok name ↔ safeName v = .ok name := by
  rw [Where.safeName_eq_ok, Where.safeName_eq_ok]
  cases v <;> rfl

namespace Shelf

/-- A number under which nothing lies stays one. -/
theorem expandWithin_missing {s : Shelf} {number : Nat} (h : s[number]? = none) (depth : Nat) :
    s.expandWithin depth (.shared number) = .shared number := by
  induction depth with
  | zero => rfl
  | succ depth ih =>
    show (s.expandWithin depth (s.valueAt number)).lyingAt number = _
    rw [valueAt, h, Option.getD_none, ih]
    rfl

theorem safeName_expandWithin {s t : Shelf} (h : s <+: t) {name : String} {depth depth' : Nat}
    (hle : depth ≤ depth') {v : Value}
    (hname : Sql.safeName (s.expandWithin depth v) = .ok name) :
    Sql.safeName (t.expandWithin depth' v) = .ok name := by
  -- whatever else holds parts has no name, before and after its parts are looked up
  have hparts {v : Value} (hv : Sql.nameText v = "") : Sql.safeName v ≠ .ok name := fun hname => by
    have hsafe := (Where.safeName_eq_ok.mp hname).2.1
    rw [hv] at hsafe
    cases hsafe
  induction depth generalizing depth' v with
  | zero =>
    cases depth' with
    | zero => exact hname
    | succ depth' => cases v <;> first | exact hname | exact absurd hname (hparts rfl)
  | succ depth ih =>
    obtain ⟨depth', rfl⟩ := Nat.exists_eq_add_one_of_ne_zero (Nat.ne_zero_of_lt hle)
    cases v with
    | shared number =>
      have hcontents : Sql.safeName (s.expandWithin depth (s.valueAt number)) = .ok name :=
        Sql.safeName_lyingAt.mp hname
      refine Sql.safeName_lyingAt.mpr ?_
      cases hfound : s[number]? with
      | none =>
        rw [valueAt, hfound, Option.getD_none, expandWithin_missing hfound] at hcontents
        exact absurd hcontents (hparts rfl)
      | some found =>
        obtain ⟨more, rfl⟩ := h
        have hlater : (s ++ more)[number]? = some found := by
          rw [List.getElem?_append_left (List.getElem?_eq_some_iff.mp hfound).1, hfound]
        rw [valueAt, hfound] at hcontents
        rw [valueAt, hlater]
        exact ih (Nat.le_of_succ_le_succ hle) hcontents
    | filterAt f place => cases f <;> exact absurd hname (hparts rfl)
    | _ => first | exact hname | exact absurd hname (hparts rfl)

/-- A table keeps its name while the shelf grows. -/
theorem safeName_expand {s t : Shelf} (h : s <+: t) {name : String} {v : Value}
    (hname : Sql.safeName (s.expand v) = .ok name) : Sql.safeName (t.expand v) = .ok name :=
  safeName_expandWithin h (Nat.succ_le_succ h.length_le) hname

end Shelf

namespace World

/-! ## 3. The mapper of a class -/

variable {w t u : World} {d : Definition} {id : Nat} {m : Mapper}

theorem addClass_keyed {c : Model.ModelClass} {r : Registry} (h : w.addClass c = .ok r)
    (hc : c.mapper = none) (hm : r.mapperOf w.registry.classes.length = .ok m) : m.Keyed := by
  rw [Registry.mapperOf_eq_ok] at hm
  rw [addClass] at h
  split at h
  · obtain ⟨tableName, -, h⟩ := bind_eq_ok.mp h
    obtain ⟨made, hmade, hkeyed⟩ := Registry.addModel_keyed h
    cases hm.symm.trans hmade
    exact hkeyed
  · cases h
    rw [Registry.classAt_addClass_self, hc] at hm
    cases hm

theorem define_keyed (hdefined : (define d).runOn w = (.ok id, t)) :
    id < t.registry.classes.length ∧ ∀ m, t.registry.mapperOf id = .ok m → m.Keyed := by
  rw [define_runOn] at hdefined
  split at hdefined
  · cases hdefined
  · next r c hnew =>
    split at hdefined
    · cases hdefined
    · next extended hadd =>
      cases hdefined
      obtain ⟨-, hid⟩ := Registry.newClass_eq_ok hnew
      rw [hid]
      exact ⟨Nat.lt_of_lt_of_eq (Nat.lt_succ_self _) (addClass_length hadd).symm,
        fun m hm => addClass_keyed hadd (Registry.newClass_mapper hnew) hm⟩

theorem defineShared_keyed (hdefined : (defineShared d).runOn w = (.ok id, t)) :
    id < t.registry.classes.length ∧ ∀ m, t.registry.mapperOf id = .ok m → m.Keyed := by
  rw [defineShared_eq] at hdefined
  obtain ⟨_, _, -, hdefined⟩ := Action.runOn_bind_eq_ok.mp hdefined
  obtain ⟨_, _, -, hdefined⟩ := Action.runOn_bind_eq_ok.mp hdefined
  exact define_keyed hdefined

theorem define_wellKeyed (d : Definition) (hw : w.registry.WellKeyed) :
    ((define d).runOn w).2.registry.WellKeyed := by
  rw [define_runOn]
  cases hnew : w.registry.newClass d with
  | error fault => exact hw
  | ok declared =>
    obtain ⟨r, c⟩ := declared
    have hr : r.WellKeyed := hw.newClass hnew
    cases hadd : ({ w with registry := r } : World).addClass c with
    | error fault =>
      simp only [hadd]
      exact hr
    | ok extended =>
      simp only [hadd]
      refine Registry.WellKeyed.of_classes (r := extended) ?_ rfl
      rw [addClass] at hadd
      split at hadd
      · obtain ⟨tableName, -, hadd⟩ := bind_eq_ok.mp hadd
        exact hr.addModel hadd
      · cases hadd
        exact hr.addClass (by simp [Registry.newClass_mapper hnew])

/-- Where no class is added the columns stay. -/
theorem Steady.wellKeyed (h : Steady w t)
    (hlength : t.registry.classes.length = w.registry.classes.length)
    (hw : w.registry.WellKeyed) : t.registry.WellKeyed := by
  intro c hc m hm
  obtain ⟨id, hid, rfl⟩ := List.mem_iff_getElem.mp hc
  have hclass : t.registry.classAt id = t.registry.classes[id] := by
    rw [Registry.classAt, List.getElem?_eq_getElem hid, Option.getD_some]
  obtain ⟨added, flag, hlater⟩ := h.classAt_of_length hlength id
  rw [← hclass, hlater, Model.ModelClass.later, Option.map_eq_some_iff] at hm
  obtain ⟨known, hknown, rfl⟩ := hm
  have hkeyed := hw.keyed (Registry.mapperOf_eq_ok.mpr hknown)
  exact ⟨hkeyed.nodup, hkeyed.key_mem⟩

/-- In every reachable world the columns of every model have their own names. -/
theorem Reached.wellKeyed {left : List (Nat × Nat)} (h : Reached left w) :
    w.registry.WellKeyed := by
  induction h with
  | start hinitial => exact hinitial ▸ Registry.initial_wellKeyed
  | elsewhere _ hsame ih => exact hsame ▸ ih
  | @define _ w _ d _ ih =>
    rcases defineShared_cases d w with hsame | ⟨placed, u, hrun, hregistry, -⟩
    · exact hsame ▸ ih
    · rw [hrun]
      exact define_wellKeyed placed (hregistry ▸ ih)
  | @finalize _ w _ id ih =>
    exact (finalize_registers id w).toSteady.wellKeyed (finalize_length id w) ih
  | @declare _ w _ id word arguments ih =>
    exact (declare_registers id word arguments w).toSteady.wellKeyed
      (declare_resolves (S := fun _ => False) id word arguments w).classes_eq ih

/-- A class keeps its table, its columns and its key. -/
theorem mapper_later (hm : u.mapper id = .ok m) {v : World} (hlater : Steady u v)
    (hshelf : u.shelf <+: v.shelf) {name : String} (hname : Sql.safeName m.tableName = .ok name) :
    ∃ m', v.mapper id = .ok m' ∧ Sql.safeName m'.tableName = .ok name ∧ m'.columns = m.columns ∧
      m'.key = m.key := by
  obtain ⟨known, hknown, hm⟩ := bind_eq_ok.mp hm
  cases hm
  obtain ⟨added, flag, hknown'⟩ := hlater.mapperOf_eq hknown
  refine ⟨{ known with
    tableName := v.expand known.tableName, associations := known.associations ++ added,
    finalized := known.finalized || flag }, ?_, Shelf.safeName_expand hshelf hname, rfl, rfl⟩
  rw [mapper, hknown']
  rfl

/-! ## 4. The data of a write -/

theorem columnsOf_names (r : Registry) (m : Mapper) :
    (r.columnsOf m).map (·.1) = m.columns.names := by
  rw [Registry.columnsOf, List.map_map]
  rfl

/-- The data of an insertion are some of the columns, in their order. -/
theorem insertData_names {ref : EntityRef} {key : String} {columns : List (String × Column)}
    {data : Dictionary Value} (h : (insertData ref key columns).runOn w = (.ok data, t)) :
    data.names.Sublist (columns.map (·.1)) := by
  induction columns generalizing w data with
  | nil =>
    cases h
    exact .slnil
  | cons entry rest ih =>
    obtain ⟨name, column⟩ := entry
    rw [insertData, Action.runOn_bind_ok (Action.runOn_get w)] at h
    split at h
    · obtain ⟨others, t', hothers, h⟩ := Action.runOn_bind_eq_ok.mp h
      cases h
      split
      · exact (ih hothers).cons name
      · exact (ih hothers).cons_cons name
    · obtain ⟨value, _, -, h⟩ := Action.runOn_bind_eq_ok.mp h
      obtain ⟨_, _, -, h⟩ := Action.runOn_bind_eq_ok.mp h
      obtain ⟨others, _, hothers, h⟩ := Action.runOn_bind_eq_ok.mp h
      cases h
      exact (ih hothers).cons_cons name
    · exact (ih h).cons name

/-- What is held of the columns comes in their order. -/
theorem heldColumns_names (e : Entity) (m : Mapper) :
    (heldColumns e m).names.Sublist m.columns.names := by
  rw [heldColumns]
  generalize m.columns.names = names
  induction names with
  | nil => exact .slnil
  | cons name rest ih =>
    rw [List.filterMap_cons]
    split
    · exact ih.cons name
    · next value hvalue =>
      obtain ⟨held, -, rfl⟩ := Option.map_eq_some_iff.mp hvalue
      exact ih.cons_cons name

/-- The data of a change are some of the columns, in their order. -/
theorem updateData_names (e : Entity) (m : Mapper) :
    (updateData e m).names.Sublist m.columns.names :=
  (List.filter_sublist.map _).trans (heldColumns_names e m)

/-! ## 5. What is sent -/

/-- From one world to another nothing is sent, or one statement with parameters of which `P` holds. -/
def SendsOne (P : String → List Value → Prop) (w w' : World) : Prop :=
  w'.trace = w.trace ∨ ∃ (x : Exchange) (text : String) (params : List Value),
    w'.trace = w.trace ++ [x] ∧ x.call = .statement text params ∧ P text params

/-- The insertion of a row with some columns of the table. -/
inductive Inserts (table : Sql.Table) (text : String) (params : List Value) : Prop
  | mk {columns : List String} (h : Sql.Write.read? text = some (.insertion table.name columns))
      (hcolumns : columns.Sublist table.names) (hparams : params.length = columns.length)

/-- The change of some columns of the row with a key. -/
inductive Changes (table : Sql.Table) (key : String) (text : String) (params : List Value) : Prop
  | mk {columns : List String} (h : Sql.Write.read? text = some (.change table.name columns key))
      (hcolumns : columns.Sublist table.names) (hparams : params.length = columns.length + 1)

/-- The removal of the row with a key. -/
inductive Removes (table : Sql.Table) (key : String) (text : String) (params : List Value) : Prop
  | mk (h : Sql.Write.read? text = some (.removal table.name key)) (hparams : params.length = 1)

section Sent

variable {v : World} {ref : EntityRef} {table : Sql.Table}

theorem SendsOne.of_query {P : String → List Value → Prop} {f : Sql.Fragment}
    (h : P f.text (f.params.map v.expand)) : SendsOne P v ((query f).runOn v).2 :=
  (query_sent f v).imp_right fun ⟨x, hx, hcall⟩ => ⟨x, f.text, _, hx, hcall, h⟩

theorem SendsOne.bind {P : String → List Value → Prop} {α β : Type} {action : Action World α}
    {next : α → Action World β} (h : SendsOne P v (action.runOn v).2)
    (hnext : ∀ a, Sends [] (next a)) : SendsOne P v ((action >>= next).runOn v).2 := by
  rw [Action.runOn_bind]
  rcases hrun : action.runOn v with ⟨fault | a, w⟩ <;> rw [hrun] at h
  · exact h
  · have htrace := (hnext a w).trace_eq
    exact h.imp htrace.trans fun ⟨x, text, params, hx, hsent⟩ =>
      ⟨x, text, params, htrace.trans hx, hsent⟩

theorem SendsOne.mono {P Q : String → List Value → Prop} (h : SendsOne P v w)
    (hPQ : ∀ text params, P text params → Q text params) : SendsOne Q v w := by
  rcases h with hnone | ⟨x, text, params, hx, hcall, hsent⟩
  · exact .inl hnone
  · exact .inr ⟨x, text, params, hx, hcall, hPQ text params hsent⟩

/-- What sends nothing may come before. -/
theorem SendsOne.after {P : String → List Value → Prop} (htrace : t.trace = v.trace)
    (h : SendsOne P t w) : SendsOne P v w :=
  h.imp htrace.subst fun ⟨x, text, params, hx, hsent⟩ => ⟨x, text, params, htrace ▸ hx, hsent⟩

theorem SendsOne.then {P : String → List Value → Prop} {α β : Type} {first : Action World α}
    {next : α → Action World β} (hfirst : Sends [] first)
    (hnext : ∀ a u, SendsOne P u ((next a).runOn u).2) :
    SendsOne P v ((first >>= next).runOn v).2 := by
  rw [Action.runOn_bind]
  rcases hrun : first.runOn v with ⟨fault | a, u⟩
  · exact .inl (hfirst.of_run hrun).trace_eq
  · exact .after (hfirst.of_run hrun).trace_eq (hnext a u)

/-- A change names the table, the key and some of the columns of the model. -/
theorem update_sendsChange (hm : v.mapperOf ref = .ok m) :
    SendsOne (fun text params => ∃ name columns, Sql.safeName m.tableName = .ok name ∧
      (Sql.Write.change name columns m.key).WellFormed ∧ columns.Sublist m.columns.names ∧
      text = Sql.changeText name columns m.key ∧ params.length = columns.length + 1) v
      ((update ref).runOn v).2 := by
  refine Action.after_bind_kept (sessionOf_kept ref v) (.inl rfl) fun _ _ =>
    Action.after_bind_kept rfl (.inl rfl) fun mapper hmapper =>
    Action.after_bind_kept rfl (.inl rfl) fun w hw =>
    Action.after_bind_kept rfl (.inl rfl) fun key hkey => ?_
  cases hw
  cases hm.symm.trans hmapper
  refine Action.after_bind_kept (congrArg Prod.snd (Action.runOn_ofExcept _ v)) (.inl rfl)
    fun f hf => .bind (.of_query ?_) fun _ => .ofExcept _
  rw [Action.runOn_ofExcept] at hf
  obtain ⟨name, htable, -, hwell, rfl⟩ := Sql.updateRow_ofNamed hf
  exact ⟨name, _, htable, hwell, updateData_names _ _, rfl, by simp [Dictionary.names]⟩

theorem update_changes (hm : v.mapperOf ref = .ok m)
    (hname : Sql.safeName m.tableName = .ok table.name) (hcolumns : m.columns.names = table.names) :
    SendsOne (Changes table m.key) v ((update ref).runOn v).2 := by
  refine (update_sendsChange hm).mono ?_
  rintro _ params ⟨name, columns, htable, hwell, hnames, rfl, hparams⟩
  cases hname.symm.trans htable
  have hread := Sql.Write.read?_text hwell
  exact .mk hread (hcolumns ▸ hnames) hparams

theorem delete_removes (hm : v.mapperOf ref = .ok m)
    (hname : Sql.safeName m.tableName = .ok table.name) :
    SendsOne (Removes table m.key) v ((delete ref).runOn v).2 := by
  refine Action.after_bind_kept (sessionOf_kept ref v) (.inl rfl) fun _ _ =>
    Action.after_bind_kept rfl (.inl rfl) fun mapper hmapper =>
    Action.after_bind_kept rfl (.inl rfl) fun key hkey => ?_
  cases hm.symm.trans hmapper
  refine Action.after_bind_kept (congrArg Prod.snd (Action.runOn_ofExcept _ v)) (.inl rfl)
    fun f hf => .bind (.of_query ?_) fun _ => .bind (.ofExcept _) fun _ =>
      .ite (.bind (setState_sends ref _) fun _ => .pure _) (.pure _)
  rw [Action.runOn_ofExcept] at hf
  obtain ⟨name, htable, -, hwell, rfl⟩ := Sql.deleteRow_named hf
  cases hname.symm.trans htable
  have hread := Sql.Write.read?_text hwell
  exact .mk hread rfl

/-- What follows the insertion of an entity: it takes the key from the answer, if it has none. -/
def afterInsertion (ref : EntityRef) (key : String) (answer : Answer) : Action World Value := do
  if (← reading (·.keyValue ref)).isNull then
    setAttribute ref key (← Action.ofExcept (insertedKey answer))
  setState ref .persistent
  reading (·.keyValue ref)

theorem afterInsertion_sends {kinds : List CallKind} (ref : EntityRef) (key : String)
    (answer : Answer) : Sends kinds (afterInsertion ref key answer) := by
  have hend : Sends kinds (do
      setState ref .persistent
      reading (·.keyValue ref)) :=
    .bind (setState_sends ref _) fun _ => reading_sends _
  exact .bind (reading_sends _) fun _ =>
    .ite (.bind (.ofExcept _) fun _ => .bind (setAttribute_sends ref _ _) fun _ => hend) hend

/-- What saving an entity comes to: it fails before anything is sent, or it is the insertion of the
columns that are set and of what stands for the others, and then the key is taken. -/
theorem save_steps (ref : EntityRef) (v : World) :
    (∃ fault t, (save ref).runOn v = (.error fault, t) ∧ t.trace = v.trace) ∨
    ∃ m data t f, v.mapperOf ref = .ok m ∧
      (insertData ref m.key (v.registry.columnsOf m)).runOn v = (.ok data, t) ∧
      Sql.insertRow m.tableName (.mapping (Entries.ofNamed data)) = .ok f ∧
      (save ref).runOn v = (query f >>= afterInsertion ref m.key).runOn t := by
  rw [save, Action.runOn_bind]
  rcases hsession : (sessionOf ref).runOn v with ⟨fault | session, v'⟩ <;>
    obtain rfl : v = v' := (sessionOf_kept ref v).symm.trans (congrArg Prod.snd hsession)
  · exact .inl ⟨_, _, rfl, rfl⟩
  dsimp only
  rw [Action.runOn_bind, runOn_reading]
  cases hm : v.mapperOf ref with
  | error fault => exact .inl ⟨_, _, rfl, rfl⟩
  | ok m =>
    dsimp only
    rw [Action.runOn_bind_ok (Action.runOn_get v), Action.runOn_bind]
    have hsends : Sends [] (insertData ref m.key (v.registry.columnsOf m)) :=
      insertData_sends ref m.key _
    rcases hdata : (insertData ref m.key (v.registry.columnsOf m)).runOn v with ⟨fault | data, t⟩
    · exact .inl ⟨_, _, rfl, (hsends.of_run hdata).trace_eq⟩
    dsimp only
    rw [Action.runOn_bind, Action.runOn_ofExcept]
    cases hf : Sql.insertRow m.tableName (.mapping (Entries.ofNamed data)) with
    | error fault => exact .inl ⟨_, _, rfl, (hsends.of_run hdata).trace_eq⟩
    | ok f => exact .inr ⟨m, data, t, f, rfl, hdata, hf, rfl⟩

theorem save_sendsOne (ref : EntityRef) (v : World) :
    SendsOne (fun text params => Asked .insertion (.statement text params)) v
      ((save ref).runOn v).2 := by
  rcases save_steps ref v with ⟨fault, t, hrun, htrace⟩ | ⟨m, data, t, f, -, hdata, hf, hrun⟩ <;>
    rw [hrun]
  · exact .inl htrace
  have hsends : Sends [] (insertData ref m.key (v.registry.columnsOf m)) :=
    insertData_sends ref m.key _
  exact .after (hsends.of_run hdata).trace_eq
    (.bind (.of_query (.insertion t.expand hf)) (afterInsertion_sends ref m.key))

/-- An insertion names the table and some of the columns of the model. -/
theorem save_sendsInsertion (hm : v.mapperOf ref = .ok m) :
    SendsOne (fun text params => ∃ name columns, Sql.safeName m.tableName = .ok name ∧
      (Sql.Write.insertion name columns).WellFormed ∧ columns.Sublist m.columns.names ∧
      text = Sql.insertionText name columns ∧ params.length = columns.length) v
      ((save ref).runOn v).2 := by
  rcases save_steps ref v with ⟨fault, t, hrun, htrace⟩ | ⟨m', data, t, f, hm', hdata, hf, hrun⟩ <;>
    rw [hrun]
  · exact .inl htrace
  cases hm.symm.trans hm'
  have hsends : Sends [] (insertData ref m.key (v.registry.columnsOf m)) :=
    insertData_sends ref m.key _
  refine .after (hsends.of_run hdata).trace_eq
    (.bind (.of_query ?_) (afterInsertion_sends ref m.key))
  obtain ⟨name, htable, hwell, rfl⟩ := Sql.insertRow_ofNamed hf
  have hnames := insertData_names hdata
  rw [columnsOf_names] at hnames
  exact ⟨name, _, htable, hwell, hnames, rfl, by simp [Dictionary.names]⟩

theorem save_inserts (hm : v.mapperOf ref = .ok m)
    (hname : Sql.safeName m.tableName = .ok table.name) (hcolumns : m.columns.names = table.names) :
    SendsOne (Inserts table) v ((save ref).runOn v).2 := by
  refine (save_sendsInsertion hm).mono ?_
  rintro _ params ⟨name, columns, htable, hwell, hnames, rfl, hparams⟩
  cases hname.symm.trans htable
  have hread := Sql.Write.read?_text hwell
  exact .mk hread (hcolumns ▸ hnames) hparams

end Sent

/-! ## 6. The table and the writes -/

theorem describedTable_names (r : Registry) (m : Mapper) (name : String) :
    (describedTable r m name).names = m.columns.names := by
  simp [describedTable, Sql.Table.names, Registry.columnsOf, Dictionary.names, tableColumn]

/-- Among the constraints of a column one makes it the primary key if it is the key, and none does
otherwise. -/
theorem primaryKeys_column (key : String) (entry : String × Column) :
    (((tableColumn key entry).constraints.filter (·.isPrimaryKey)).map fun _ => entry.1) =
      [entry.1].filter (· == key) := by
  obtain ⟨name, column⟩ := entry
  simp only [tableColumn, constraintsOf, List.filter_cons, List.filter_nil]
  cases name == key <;> cases column.nullable <;> cases column.unique <;>
    simp [Sql.Constraint.isPrimaryKey]

theorem describedTable_primaryKeys (r : Registry) (hm : m.Keyed) (name : String) :
    (describedTable r m name).primaryKeys = [m.key] := by
  have hkeys : (describedTable r m name).primaryKeys =
      (describedTable r m name).names.filter (· == m.key) := by
    rw [describedTable, Sql.Table.primaryKeys, Sql.Table.names]
    induction r.columnsOf m with
    | nil => rfl
    | cons entry rest ih =>
      rw [List.map_cons, List.flatMap_cons, List.map_cons, ← List.singleton_append,
        List.filter_append]
      exact congrArg₂ _ (primaryKeys_column m.key entry) ih
  rw [hkeys, describedTable_names, List.filter_beq, hm.nodup.count, if_pos hm.key_mem]
  rfl

/-- **The table of a class fits what is written to it.**  The definition of the table of a class
names its table, has each column of the mapper once and in order, and makes one column the primary
key, which is the key.  Whatever is set on an entity of the class, at that time or later, saving,
changing and deleting it writes to that table: to some of these columns in this order, and to the
row with that key. -/
theorem table_fits_its_writes {text : String} (hdefined : (defineShared d).runOn w = (.ok id, t))
    (hlater : Steady t u) (hm : u.mapper id = .ok m) (htext : tableDefinition u.registry m = .ok text) :
    ∃ table, Sql.Table.read? text = some table ∧ Sql.safeName m.tableName = .ok table.name ∧
      table.names = m.columns.names ∧ table.names.Nodup ∧ table.primaryKeys = [m.key] ∧
      ∀ v ref, Steady u v → u.shelf <+: v.shelf → (v.entityAt ref).model.id = id →
        SendsOne (Inserts table) v ((save ref).runOn v).2 ∧
        SendsOne (Changes table m.key) v ((update ref).runOn v).2 ∧
        SendsOne (Removes table m.key) v ((delete ref).runOn v).2 := by
  have hkeyed : m.Keyed := by
    obtain ⟨known, hknown, hm⟩ := bind_eq_ok.mp hm
    cases hm
    obtain ⟨hlt, hkeyed⟩ := defineShared_keyed hdefined
    obtain ⟨added, flag, hclass⟩ := hlater.classAt_eq id hlt
    rw [Registry.mapperOf_eq_ok, hclass, Model.ModelClass.later] at hknown
    obtain ⟨first, hfirst, rfl⟩ := Option.map_eq_some_iff.mp hknown
    have hfirst := hkeyed first (Registry.mapperOf_eq_ok.mpr hfirst)
    exact ⟨hfirst.nodup, hfirst.key_mem⟩
  have hcolumns : m.columns ≠ [] := by
    rintro hnil
    have hmem := hkeyed.key_mem
    rw [hnil] at hmem
    cases hmem
  obtain ⟨name, hname, hread⟩ := read?_tableDefinition hcolumns htext
  have hnames := describedTable_names u.registry m name
  refine ⟨_, hread, hname, hnames, hnames ▸ hkeyed.nodup,
    describedTable_primaryKeys u.registry hkeyed name, fun v ref hv hshelf href => ?_⟩
  obtain ⟨m', hm', hname', hcolumns', hkey'⟩ := mapper_later hm hv hshelf hname
  have hmapper : v.mapperOf ref = .ok m' := by rw [mapperOf, href, hm']
  rw [← hcolumns'] at hnames
  rw [← hkey']
  exact ⟨save_inserts hmapper hname' hnames.symm, update_changes hmapper hname' hnames.symm,
    delete_removes hmapper hname'⟩

/-- A class of parts, which have a code for a key. -/
def parts : Definition :=
  let code : Column := { name := "code", spelling := "Text", type := .text, isKey := true }
  let label : Column := { name := "label", spelling := "Text", type := .text, nullable := false }
  let stock : Column :=
    { name := "stock", spelling := "Number", type := .integer, absent := some (.fixed (.int 0)) }
  { name := "Part", key := "Part",
    attributes := [("__tablename__", .plain (.str "parts")), ("code", .column code),
      ("label", .column label), ("stock", .column stock)] }

/-- The world in which parts are defined. -/
def withParts : World := ((defineShared parts).runOn {}).2

/-- The definition of the table of parts. -/
def partsText : String :=
  "CREATE TABLE IF NOT EXISTS \"parts\" (\"code\" TEXT PRIMARY KEY, \"label\" TEXT NOT NULL, " ++
    "\"stock\" INTEGER);"

/-- A part with a label that is in a session. -/
def withBolt : World :=
  { withParts with entities := [{ model := (withParts.registry.classAt 1).ref,
                                  attributes := [(.str "label", .str "Bolt")],
                                  session := some "session" }] }

/-- The part. -/
def bolt : EntityRef := ⟨0, "Part"⟩

/-- Saving the part sends a statement, which fits the table. -/
theorem bolt_fits_its_table :
    (defineShared parts).runOn {} = (.ok 1, withParts) ∧ Steady withParts withBolt ∧
    ((save bolt).runOn withBolt).2.trace.length = 1 ∧
    ∃ m, withParts.mapper 1 = .ok m ∧ tableDefinition withParts.registry m = .ok partsText ∧
      ∃ table, Sql.Table.read? partsText = some table ∧ table.primaryKeys = ["code"] ∧
        SendsOne (Inserts table) withBolt ((save bolt).runOn withBolt).2 := by
  have hdefined : (defineShared parts).runOn {} = (.ok 1, withParts) := Prod.ext (by rfl) rfl
  have hsteady : Steady withParts withParts := refl_of Steady withParts
  have hlater : Steady withParts withBolt := .of_registry rfl
  have hmade : (withParts.mapper 1 >>= fun m => orFault (tableDefinition withParts.registry m)) =
      .ok partsText := by rfl
  obtain ⟨m, hm, htext⟩ := bind_eq_ok.mp hmade
  have hkey : (withParts.mapper 1).toOption.map Mapper.key = some "code" := by decide +kernel
  rw [hm] at hkey
  obtain ⟨table, hread, -, -, -, hkeys, hwrites⟩ :=
    table_fits_its_writes hdefined hsteady hm (orFault_eq_ok.mp htext)
  refine ⟨hdefined, hlater, by decide +kernel, m, hm, orFault_eq_ok.mp htext, table, hread, ?_,
    (hwrites withBolt bolt hlater List.prefix_rfl (by rfl)).1⟩
  rw [hkeys, Option.some.inj hkey]

end World
end RowMapper
