import RowMapper.Model.Registry
import RowMapper.Proofs.Outcome

/-!
# Numbers of classes

A reference to a class holds its number in the registry.  Classes are only added, each under the
next number, so in a registry that was built by definitions every class goes by its own number.
-/
namespace RowMapper.Model.Registry

/-- Every class goes by its number. -/
def Numbered (r : Registry) : Prop := ∀ id, id < r.classes.length → (r.classAt id).ref.id = id

theorem initial_numbered : initial.Numbered := by
  intro id hid
  have hroot : id = 0 := by simpa [initial] using hid
  subst hroot
  rfl

/-- Only the classes matter. -/
theorem Numbered.of_classes {r r' : Registry} (hclasses : r'.classes = r.classes)
    (h : r.Numbered) : r'.Numbered := by
  intro id hid
  rw [classAt, hclasses]
  exact h id (hclasses ▸ hid)

/-- A class that is changed keeps its number. -/
theorem Numbered.set {r : Registry} (h : r.Numbered) (id : Nat) {c : ModelClass}
    (hc : c.ref = (r.classAt id).ref) : Numbered { r with classes := r.classes.set id c } := by
  intro other hother
  rw [List.length_set] at hother
  have hsame := h other hother
  simp only [classAt, List.getElem?_set] at hsame hc ⊢
  split
  · next heq =>
    subst heq
    simpa [hother, hc] using hsame
  · exact hsame

theorem classAt_addClass_self (r : Registry) (c : ModelClass) :
    (r.addClass c).classAt r.classes.length = c := by
  rw [classAt, addClass, List.getElem?_concat_length]
  rfl

theorem addClass_numbered {r : Registry} (h : r.Numbered) {c : ModelClass}
    (hc : c.ref.id = r.classes.length) : (r.addClass c).Numbered := by
  intro id hid
  simp only [addClass, List.length_append, List.length_singleton] at hid
  rcases Nat.lt_succ_iff_lt_or_eq.mp hid with hlt | rfl
  · rw [classAt, addClass, List.getElem?_append_left hlt]
    exact h id hlt
  · rw [classAt_addClass_self]
    exact hc

theorem addAttribute_classes (r : Registry) (name : String) (body : AttributeBody) :
    (r.addAttribute name body).1.classes = r.classes := by
  cases body with
  | column c => rfl
  | association a => rfl
  | plain v => cases v <;> rfl

theorem addAttributes_classes (r : Registry) (body : List (String × AttributeBody)) :
    (r.addAttributes body).1.classes = r.classes := by
  induction body generalizing r with
  | nil => rfl
  | cons entry rest ih =>
    rw [addAttributes]
    exact (ih _).trans (addAttribute_classes r entry.1 entry.2)

theorem bodyOf_numbered {r : Registry} (h : r.Numbered) (d : Definition) :
    (r.bodyOf d).1.Numbered := by
  rw [bodyOf]
  cases d.settings with
  | none => exact h
  | some settings =>
    refine addClass_numbered (h.of_classes (addAttributes_classes r _)) ?_
    rw [addAttributes_classes]

/-- A new class when its bases are known. -/
theorem newClass_eq {r : Registry} {d : Definition} {bases : List Nat}
    (hbases : d.bases.mapM r.find = .ok bases) :
    r.newClass d =
      match linearize (r.bodyOf d).1.classes.length bases
        (bases.map fun base => ((r.bodyOf d).1.classAt base).ancestry) with
      | some ancestry =>
        let declared := (r.bodyOf d).1.addAttributes (Dictionary.ofList (r.bodyOf d).2)
        .ok (declared.1, { ref := ⟨(r.bodyOf d).1.classes.length, d.name, d.home⟩, ancestry,
                           attributes := declared.2, hook := d.hook })
      | none => .error .wrongType := by
  rw [newClass, hbases]
  generalize r.bodyOf d = made
  obtain ⟨extended, body⟩ := made
  show Except.bind (.ok bases) _ = _
  dsimp only [Except.bind]
  cases linearize extended.classes.length bases
    (bases.map fun base => (extended.classAt base).ancestry) <;> rfl

/-- A new class has the attributes of its body, and the number that comes next. -/
theorem newClass_eq_ok {r r' : Registry} {d : Definition} {c : ModelClass}
    (hnew : r.newClass d = .ok (r', c)) :
    r' = ((r.bodyOf d).1.addAttributes (Dictionary.ofList (r.bodyOf d).2)).1 ∧
      c.ref.id = r'.classes.length := by
  obtain ⟨bases, hbases, -⟩ := bind_eq_ok.mp hnew
  rw [newClass_eq hbases] at hnew
  split at hnew
  · cases hnew
    exact ⟨rfl, congrArg List.length (addAttributes_classes _ _).symm⟩
  · cases hnew

/-- Before it is added a class has no mapper. -/
theorem newClass_mapper {r r' : Registry} {d : Definition} {c : ModelClass}
    (h : r.newClass d = .ok (r', c)) : c.mapper = none := by
  obtain ⟨bases, hbases, -⟩ := bind_eq_ok.mp h
  rw [newClass_eq hbases] at h
  split at h <;> cases h
  rfl

theorem newClass_numbered {r r' : Registry} {d : Definition} {c : ModelClass}
    (hnew : r.newClass d = .ok (r', c)) (h : r.Numbered) :
    r'.Numbered ∧ c.ref.id = r'.classes.length := by
  obtain ⟨rfl, hid⟩ := newClass_eq_ok hnew
  exact ⟨(bodyOf_numbered h d).of_classes (addAttributes_classes _ _), hid⟩

theorem resolveKey_classes {r : Registry} {model : String} {attributes : Dictionary ClassAttribute}
    {columns : Dictionary Nat} {keyed : Keyed}
    (h : r.resolveKey model attributes columns = .ok keyed) :
    keyed.registry.classes = r.classes := by
  rw [resolveKey] at h
  split at h
  · cases h
    rfl
  · split at h <;> cases h <;> rfl
  · cases h

theorem addModel_numbered {r r' : Registry} {c : ModelClass} {tableName : Value}
    (hadd : r.addModel c tableName = .ok r') (h : r.Numbered) (hc : c.ref.id = r.classes.length) :
    r'.Numbered := by
  rw [addModel] at hadd
  obtain ⟨keyed, hkeyed, hadd⟩ := bind_eq_ok.mp hadd
  have hclasses := resolveKey_classes hkeyed
  cases hadd
  exact addClass_numbered (h.of_classes hclasses) (hclasses ▸ hc)

end RowMapper.Model.Registry
