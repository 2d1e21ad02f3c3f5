import RowMapper.Proofs.Entity.Table
import RowMapper.Proofs.Model.Order
import RowMapper.Proofs.World.Interference
import RowMapper.Proofs.World.Naming

/-!
# The order of columns in reachable worlds

Every registry that definitions, finalizing and declarations lead to is ordered: a definition puts
the new class before its ancestors and arranges its columns, and nothing that happens to a class
later touches either (`Reached.ordered`).  So for any class and any of its ancestors in a line it is
known in which cases the one starts with the columns of the other.
-/
namespace RowMapper.World

open Model (Definition Mapper ModelClass Registry)

variable {id : Nat} {w t : World} {left : List (Nat × Nat)}

/-! ## 1. Definitions -/

/-- What an accepted definition adds to an ordered registry: a class with the ancestors that were
found for it, and with its columns arranged if it is a model. -/
theorem addClass_ordered {c : ModelClass} {r : Registry} {rest : List Nat}
    (hw : w.registry.Ordered) (hnamed : w.registry.WellNamed)
    (hancestry : c.ancestry = w.registry.classes.length :: rest)
    (hnodup : (w.registry.classes.length :: rest).Nodup)
    (hrest : ∀ ancestor ∈ rest, ancestor < w.registry.classes.length) (hc : c.mapper = none)
    (hadd : w.addClass c = .ok r) :
    r.Ordered ∧ (r.classAt w.registry.classes.length).ancestry = c.ancestry ∧
    ∀ m, (r.classAt w.registry.classes.length).mapper = some m →
      (w.registry.Keyless c →
        m.columns.names = Registry.implicitKey :: w.registry.columnsBefore c) ∧
      (¬w.registry.Keyless c → m.columns.names = w.registry.columnsBefore c) := by
  rw [addClass] at hadd
  split at hadd
  · obtain ⟨tableName, -, hadd⟩ := bind_eq_ok.mp hadd
    refine ⟨hw.addModel hnamed hancestry hnodup hrest hadd, ?_, fun m hm =>
      (Registry.addModel_arranged hancestry hrest hadd hm).2⟩
    obtain ⟨keyed, hkeyed, hadd⟩ := bind_eq_ok.mp hadd
    cases hadd
    rw [← Registry.resolveKey_classes hkeyed, Registry.classAt_addClass_self]
  · cases hadd
    rw [Registry.classAt_addClass_self]
    refine ⟨hw.addClass hnamed hancestry hnodup ?_, rfl, ?_⟩ <;>
      · intro m hm
        cases hc.symm.trans hm

/-- A definition keeps a registry ordered. -/
theorem define_ordered (d : Definition) (hw : w.registry.Ordered) (hnamed : w.registry.WellNamed) :
    ((define d).runOn w).2.registry.Ordered := by
  rw [define_runOn]
  cases hnew : w.registry.newClass d with
  | error fault => exact hw
  | ok declared =>
    obtain ⟨r, c⟩ := declared
    obtain ⟨hr, ⟨rest, hancestry, hnodup⟩, -⟩ := hw.newClass hnamed hnew
    obtain ⟨hrnamed, rest', hancestry', hrest⟩ := hnamed.newClass hnew
    obtain ⟨-, rfl⟩ := List.cons.inj (hancestry.symm.trans hancestry')
    dsimp only
    cases hadd : ({ w with registry := r } : World).addClass c with
    | error fault => exact hr
    | ok extended =>
      exact (addClass_ordered (w := { w with registry := r }) hr hrnamed hancestry hnodup hrest
        (Registry.newClass_mapper hnew) hadd).1.of_classes rfl

/-- What a definition makes of its class: with one base, it comes before the ancestors of the base;
and the columns of a model are those that are declared, behind an implicit key if there is none. -/
theorem define_columns {d : Definition} (hw : w.registry.Ordered) (hnamed : w.registry.WellNamed)
    (hdefined : (define d).runOn w = (.ok id, t)) :
    (∀ base, d.bases.mapM w.registry.find = .ok [base] →
      (t.registry.classAt id).ancestry = id :: (t.registry.classAt base).ancestry) ∧
    ∀ r c m, w.registry.newClass d = .ok (r, c) → t.registry.mapperOf id = .ok m →
      (r.Keyless c → m.columns.names = Registry.implicitKey :: r.columnsBefore c) ∧
      (¬r.Keyless c → m.columns.names = r.columnsBefore c) := by
  have hextends := (define_extends d w).2
  rw [hdefined] at hextends
  rw [define_runOn] at hdefined
  split at hdefined
  · cases hdefined
  · next r c hnew =>
    split at hdefined
    · cases hdefined
    · next extended hadd =>
      cases hdefined
      obtain ⟨hr, ⟨rest, hancestry, hnodup⟩, hsingle⟩ := hw.newClass hnamed hnew
      obtain ⟨hrnamed, rest', hancestry', hrest⟩ := hnamed.newClass hnew
      obtain ⟨-, rfl⟩ := List.cons.inj (hancestry.symm.trans hancestry')
      obtain ⟨-, hsame, hcolumns⟩ := addClass_ordered (w := { w with registry := r }) hr hrnamed
        hancestry hnodup hrest (Registry.newClass_mapper hnew) hadd
      rw [(Registry.newClass_eq_ok hnew).2]
      refine ⟨fun base hbase => ?_, fun r' c' m hnew' hm => ?_⟩
      · have hknown := hnamed.find hbase base List.mem_cons_self
        exact hsame.trans ((hsingle base hbase).trans
          (congrArg (fun class' => _ :: class'.ancestry) (hextends.classAt_eq hknown).symm))
      · cases hnew.symm.trans hnew'
        exact hcolumns m (Registry.mapperOf_eq_ok.mp hm)

/-! ## 2. Reachable worlds -/

/-- Where no class is added, everything stays in its order. -/
theorem Steady.ordered (h : Steady w t)
    (hlength : t.registry.classes.length = w.registry.classes.length) (hw : w.registry.Ordered) :
    t.registry.Ordered := by
  have hlater := h.classAt_of_length hlength
  have hsame (id : Nat) : (t.registry.classAt id).ancestry = (w.registry.classAt id).ancestry ∧
      (t.registry.classAt id).attributes = (w.registry.classAt id).attributes := by
    obtain ⟨added, flag, hclass⟩ := hlater id
    rw [hclass]
    exact ⟨rfl, rfl⟩
  refine ⟨fun id hid => ?_, fun id m hm => ?_⟩
  · rw [(hsame id).1]
    exact hw.lines id (hlength ▸ hid)
  · obtain ⟨added, flag, hclass⟩ := hlater id
    rw [hclass, ModelClass.later, Option.map_eq_some_iff] at hm
    obtain ⟨known, hknown, rfl⟩ := hm
    exact (hw.arranged id known hknown).congr (hsame id).1
      (fun ancestor _ => (hsame ancestor).2) rfl rfl

/-- Every registry that is reached is ordered. -/
theorem Reached.ordered (h : Reached left w) : w.registry.Ordered := by
  induction h with
  | start hinitial => exact hinitial ▸ Registry.initial_ordered
  | elsewhere _ hsame ih => exact hsame ▸ ih
  | @define _ w hreached d _ ih =>
    rcases defineShared_cases d w with hsame | ⟨placed, u, hrun, hregistry, -⟩
    · exact hsame ▸ ih
    · rw [hrun]
      exact define_ordered placed (hregistry ▸ ih) (hregistry ▸ hreached.wellNamed)
  | @finalize _ w _ id ih =>
    exact (finalize_registers id w).toSteady.ordered (finalize_length id w) ih
  | @declare _ w _ id word arguments ih =>
    exact (declare_registers id word arguments w).toSteady.ordered
      (declare_resolves (S := fun _ => False) id word arguments w).classes_eq ih

/-- **Columns are inherited in their order, unless a key is put in front of them.**  A definition
with one base puts its class before the ancestors of the base, and a model gets the columns in the
order of declaration; only if none of them is a key or is called like the implicit key, that key
comes in front of them all.  At any time after that a model has its columns in the order of
declaration, or it has in front a key that none of its ancestors declares.  What a class declares
goes behind what its ancestors declare; and the mapper of a class starts with the columns of an
ancestor's mapper, and goes on with the new ones, exactly if neither of the two has a key in front
of columns that were declared before it. -/
theorem columns_are_inherited_unless_a_key_comes_first (h : Reached left w) :
    (∀ d id t, (define d).runOn w = (.ok id, t) →
      (∀ base, d.bases.mapM w.registry.find = .ok [base] →
        (t.registry.classAt id).ancestry = id :: (t.registry.classAt base).ancestry) ∧
      ∀ r c m, w.registry.newClass d = .ok (r, c) → t.registry.mapperOf id = .ok m →
        (r.Keyless c → m.columns.names = Registry.implicitKey :: r.columnsBefore c) ∧
        (¬r.Keyless c → m.columns.names = r.columnsBefore c)) ∧
    (∀ id m, w.registry.mapperOf id = .ok m → w.registry.Arranged id m) ∧
    ∀ child parent mc mp front, w.registry.mapperOf child = .ok mc →
      w.registry.mapperOf parent = .ok mp → front ≠ [] →
      (w.registry.classAt child).ancestry = front ++ (w.registry.classAt parent).ancestry →
      w.registry.columnOrder child =
        w.registry.columnOrder parent ++ w.registry.newColumns front parent ∧
      (mc.columns.names = mp.columns.names ++ w.registry.newColumns front parent ↔
        mp.columns.names = w.registry.columnOrder parent ∧
          mc.columns.names = w.registry.columnOrder child) ∧
      (mp.columns.names <+: mc.columns.names ↔
        mp.columns.names = w.registry.columnOrder parent ∧
          mc.columns.names = w.registry.columnOrder child) := by
  have harranged (id : Nat) (m : Mapper) (hm : w.registry.mapperOf id = .ok m) :
      w.registry.Arranged id m := h.ordered.arranged id m (Registry.mapperOf_eq_ok.mp hm)
  refine ⟨fun d id t => define_columns h.ordered h.wellNamed, harranged, ?_⟩
  intro child parent mc mp front hmc hmp hfront hancestry
  have hne : mp.columns.names ≠ [] := List.ne_nil_of_mem (h.wellKeyed.keyed hmp).key_mem
  exact ⟨Registry.columnOrder_append hancestry,
    (harranged child mc hmc).inherited_iff (harranged parent mp hmp) hne hfront hancestry⟩

/-- A model under a base, with columns of texts. -/
def textModel (name base : String) (columns : List (String × Bool)) : Definition :=
  { name, key := name, bases := [base], attributes := columns.map fun column =>
      (column.1,
        .column { name := column.1, spelling := "Text", type := .text, isKey := column.2 }) }

theorem textModel_usable (name base : String) (columns : List (String × Bool)) (r : Registry) :
    (textModel name base columns).Usable r := by
  refine ⟨fun name v hmem => ?_, nofun⟩
  obtain ⟨column, -, heq⟩ := List.mem_map.mp hmem
  cases heq

/-- Novels have the columns of products in front, and then those of books and their own. -/
theorem novels_begin_like_products :
    let w := afterAll [textModel "Product" "Model" [("code", true), ("name", false)],
      textModel "Book" "Product" [("pages", false), ("name", false)],
      textModel "Novel" "Book" [("genre", false)]]
    w.registry.newColumns [3, 2] 1 = ["pages", "genre"] ∧
      ∃ mc mp, w.registry.mapperOf 3 = .ok mc ∧ w.registry.mapperOf 1 = .ok mp ∧
        mp.columns.names = ["code", "name"] ∧
        mc.columns.names = mp.columns.names ++ w.registry.newColumns [3, 2] 1 := by
  intro w
  have hreached : Reached [] w :=
    (((Reached.start (w := {}) rfl).define _ (textModel_usable ..)).define _
      (textModel_usable ..)).define _ (textModel_usable ..)
  obtain ⟨-, -, hinherits⟩ := columns_are_inherited_unless_a_key_comes_first hreached
  obtain ⟨mc, hmc⟩ : ∃ mc, w.registry.mapperOf 3 = .ok mc := ⟨_, rfl⟩
  obtain ⟨mp, hmp⟩ : ∃ mp, w.registry.mapperOf 1 = .ok mp := ⟨_, rfl⟩
  have hchild : mc.columns.names = w.registry.columnOrder 3 := by cases hmc; decide +kernel
  have hparent : mp.columns.names = w.registry.columnOrder 1 := by cases hmp; decide +kernel
  obtain ⟨-, hsplit, -⟩ := hinherits 3 1 mc mp [3, 2] hmc hmp (by decide) (by decide +kernel)
  refine ⟨by decide +kernel, mc, mp, hmc, hmp, ?_, hsplit.mpr ⟨hparent, hchild⟩⟩
  rw [hparent]
  decide +kernel

/-- Pets have their implicit key in front; cats inherit it behind the name. -/
theorem cats_do_not_begin_like_pets :
    let w := afterAll [textModel "Pet" "Model" [("name", false)],
      textModel "Cat" "Pet" [("color", false)]]
    (w.registry.classAt 2).ancestry = [2] ++ (w.registry.classAt 1).ancestry ∧
      (w.registry.mapperOf 1).map (·.columns.names) = .ok ["id", "name"] ∧
      (w.registry.mapperOf 2).map (·.columns.names) = .ok ["name", "id", "color"] ∧
      ¬["id", "name"] <+: ["name", "id", "color"] :=
  ⟨by decide +kernel, rfl, rfl, by decide⟩

end RowMapper.World
