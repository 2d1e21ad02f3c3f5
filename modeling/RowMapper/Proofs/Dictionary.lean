import Mathlib.Data.List.Forall2
import RowMapper.Dictionary

/-!
# Names of dictionaries

Each name of a dictionary is written once, and a name that was written stays.  Two dictionaries are
alike if they have the same names in the same order and what stands under a name in one is related
to what stands under it in the other.  Writing entries keeps dictionaries alike, and looking a name
up finds related things, or nothing on both sides.
-/
namespace RowMapper.Dictionary

variable {α β : Type}

/-! ## 1. Names -/

theorem mem_names_iff_has (d : Dictionary α) (name : String) :
    name ∈ names d ↔ has d name = true := by
  induction d with
  | nil => simp [names, has]
  | cons entry rest ih =>
    simp only [names, List.map_cons, List.mem_cons, has, Bool.or_eq_true, beq_iff_eq] at ih ⊢
    rw [ih, eq_comm]

theorem get?_eq_none {d : Dictionary α} {name : String} (h : name ∉ names d) :
    get? d name = none := by
  induction d with
  | nil => rfl
  | cons entry rest ih =>
    rw [names, List.map_cons, List.mem_cons, not_or] at h
    rw [get?, if_neg (Ne.symm h.1), ih h.2]

theorem get?_ne_none_of_mem {d : Dictionary α} {name : String} (h : name ∈ names d) :
    get? d name ≠ none := by
  induction d with
  | nil => cases h
  | cons entry rest ih =>
    rw [get?]
    split
    · exact Option.some_ne_none _
    · next hne =>
      rw [names, List.map_cons, List.mem_cons] at h
      exact ih (h.resolve_left (Ne.symm hne))

theorem mem_of_get? {d : Dictionary α} {name : String} {a : α} (h : get? d name = some a) :
    (name, a) ∈ d := by
  induction d with
  | nil => cases h
  | cons entry rest ih =>
    obtain ⟨known, value⟩ := entry
    rw [get?] at h
    split at h
    · next hname =>
      cases h
      exact hname ▸ List.mem_cons_self
    · exact List.mem_cons_of_mem _ (ih h)

theorem nodup_names_insert {d : Dictionary α} (h : (names d).Nodup) (name : String) (a : α) :
    (names (insert d name a)).Nodup := by
  cases hhas : has d name with
  | true => rwa [names_insert_of_has d name a hhas]
  | false =>
    rw [insert_of_not_has d name a hhas]
    have hnot : name ∉ names d := by simp [mem_names_iff_has, hhas]
    simpa [names, List.nodup_append] using ⟨h, fun other b hb heq => hnot (by
      simpa [names] using ⟨b, heq ▸ hb⟩)⟩

/-- Each name is written once. -/
theorem nodup_names_ofList (entries : List (String × α)) : (names (ofList entries)).Nodup := by
  have hupdate (more : List (String × α)) (d : Dictionary α) (h : (names d).Nodup) :
      (names (update d more)).Nodup := by
    induction more generalizing d with
    | nil => exact h
    | cons entry rest ih => exact ih _ (nodup_names_insert h entry.1 entry.2)
  exact hupdate entries [] List.nodup_nil

theorem mem_insert {d : Dictionary α} {name : String} {a : α} {entry : String × α}
    (h : entry ∈ insert d name a) : entry ∈ d ∨ entry = (name, a) := by
  induction d with
  | nil => exact .inr (List.mem_singleton.mp h)
  | cons first rest ih =>
    obtain ⟨known, old⟩ := first
    rw [insert] at h
    split at h
    · next hname =>
      rcases List.mem_cons.mp h with rfl | hrest
      · exact .inr (by rw [hname])
      · exact .inl (List.mem_cons_of_mem _ hrest)
    · rcases List.mem_cons.mp h with rfl | hrest
      · exact .inl List.mem_cons_self
      · exact (ih hrest).imp_left (List.mem_cons_of_mem _)

theorem forall_mem_insert {P : α → Prop} {d : Dictionary α} {name : String} {a : α}
    (hd : ∀ entry ∈ d, P entry.2) (ha : P a) : ∀ entry ∈ insert d name a, P entry.2 := by
  intro entry hentry
  rcases mem_insert hentry with hold | rfl
  · exact hd entry hold
  · exact ha

theorem mem_ofList {entries : List (String × α)} {entry : String × α}
    (h : entry ∈ ofList entries) : entry ∈ entries := by
  have hupdate (more : List (String × α)) (d : Dictionary α) (h : entry ∈ update d more) :
      entry ∈ d ∨ entry ∈ more := by
    induction more generalizing d with
    | nil => exact .inl h
    | cons first rest ih =>
      rcases ih _ h with hinsert | hrest
      · rcases mem_insert hinsert with hold | rfl
        · exact .inl hold
        · exact .inr List.mem_cons_self
      · exact .inr (List.mem_cons_of_mem _ hrest)
  exact (hupdate entries [] h).resolve_left List.not_mem_nil

/-- Entries whose names are written once are their own dictionary. -/
theorem ofList_of_nodup {entries : Dictionary α} (h : (names entries).Nodup) :
    ofList entries = entries := by
  have hupdate (more d : Dictionary α) (hmore : (names (d ++ more)).Nodup) :
      update d more = d ++ more := by
    induction more generalizing d with
    | nil => exact (List.append_nil d).symm
    | cons entry rest ih =>
      have hnew : has d entry.1 = false := by
        rw [← Bool.not_eq_true, ← mem_names_iff_has]
        intro hmem
        rw [names, List.map_append, List.nodup_append] at hmore
        exact hmore.2.2 _ hmem _ List.mem_cons_self rfl
      have hsplit : d ++ entry :: rest = (d ++ [entry]) ++ rest := by simp
      rw [update, List.foldl_cons, insert_of_not_has d entry.1 entry.2 hnew, hsplit]
      exact ih _ (hsplit ▸ hmore)
  exact hupdate entries [] h

/-- A dictionary is told by its names and by what stands under them, if each is written once. -/
theorem ext_of_get? {d d' : Dictionary α} (hnames : names d = names d') (h : (names d).Nodup)
    (hget : ∀ name ∈ names d, get? d name = get? d' name) : d = d' := by
  induction d generalizing d' with
  | nil =>
    cases d' with
    | nil => rfl
    | cons => cases hnames
  | cons entry rest ih =>
    obtain ⟨name, a⟩ := entry
    cases d' with
    | nil => cases hnames
    | cons entry' rest' =>
      obtain ⟨name', a'⟩ := entry'
      obtain ⟨rfl, hrest⟩ := List.cons.inj hnames
      obtain ⟨hfirst, hnodup⟩ := List.nodup_cons.mp h
      have hvalue := hget name List.mem_cons_self
      rw [get?, get?, if_pos rfl, if_pos rfl] at hvalue
      cases hvalue
      refine congrArg ((name, a) :: ·) (ih hrest hnodup fun other hother => ?_)
      have hne : name ≠ other := fun heq => hfirst (heq ▸ hother)
      have hother := hget other (List.mem_cons_of_mem _ hother)
      rwa [get?, get?, if_neg hne, if_neg hne] at hother

theorem get?_insert_ne_none {d : Dictionary α} {name : String} (h : d.get? name ≠ none)
    (other : String) (a : α) : (d.insert other a).get? name ≠ none := by
  by_cases hname : other = name
  · rw [hname, get?_insert_self]
    exact Option.some_ne_none a
  · rwa [get?_insert_of_ne d hname]

/-- A name that was written stays. -/
theorem get?_ofList_ne_none {entries : List (String × α)} {name : String} {a : α}
    (h : (name, a) ∈ entries) : (ofList entries).get? name ≠ none := by
  have hkeeps (more : List (String × α)) (d : Dictionary α) (hd : d.get? name ≠ none) :
      (update d more).get? name ≠ none := by
    induction more generalizing d with
    | nil => exact hd
    | cons other rest ih => exact ih _ (get?_insert_ne_none hd other.1 other.2)
  obtain ⟨before, after, rfl⟩ := List.append_of_mem h
  rw [ofList, update, List.foldl_append, List.foldl_cons]
  refine hkeeps after _ ?_
  rw [get?_insert_self]
  exact Option.some_ne_none a

theorem has_eq_isSome (d : Dictionary α) (name : String) : d.has name = (d.get? name).isSome := by
  induction d with
  | nil => rfl
  | cons entry rest ih =>
    rw [has, get?, ih]
    by_cases h : entry.1 = name <;> simp [h]

theorem has_insert (d : Dictionary α) (name : String) (a : α) (other : String) :
    (d.insert name a).has other = (name == other || d.has other) := by
  rw [has_eq_isSome, has_eq_isSome]
  by_cases h : name = other
  · simp [h, get?_insert_self]
  · simp [h, get?_insert_of_ne d h]

theorem has_update (d more : Dictionary α) (name : String) :
    (update d more).has name = (d.has name || more.has name) := by
  induction more generalizing d with
  | nil => exact (Bool.or_false _).symm
  | cons entry rest ih =>
    show (update (d.insert entry.1 entry.2) rest).has name = _
    rw [ih, has_insert, has, Bool.or_comm (entry.1 == name), Bool.or_assoc]

theorem get?_update_of_not_has {more : Dictionary α} {name : String} (h : more.has name = false)
    (d : Dictionary α) : (update d more).get? name = d.get? name := by
  induction more generalizing d with
  | nil => rfl
  | cons entry rest ih =>
    obtain ⟨hne, hrest⟩ := Bool.or_eq_false_iff.mp h
    exact (ih hrest _).trans (get?_insert_of_ne d (beq_eq_false_iff_ne.mp hne) _)

/-- What is written last under a name stands there, whatever stood there before. -/
theorem get?_update_of_has {more : Dictionary α} {name : String} (h : more.has name = true)
    (d d' : Dictionary α) : (update d more).get? name = (update d' more).get? name := by
  induction more generalizing d d' with
  | nil => cases h
  | cons entry rest ih =>
    cases hrest : has rest name with
    | true => exact ih hrest _ _
    | false =>
      have hname : entry.1 = name := by simpa [has, hrest] using h
      show (update (d.insert entry.1 entry.2) rest).get? name =
        (update (d'.insert entry.1 entry.2) rest).get? name
      rw [get?_update_of_not_has hrest, get?_update_of_not_has hrest, hname, get?_insert_self,
        get?_insert_self]

/-- Writing a name adds it to some of the names, or it is among them, on both sides alike. -/
theorem filter_names_insert {keep : String → Bool} {d d' : Dictionary α}
    (h : d.names.filter keep = d'.names.filter keep) (name : String) (a a' : α) :
    (d.insert name a).names.filter keep = (d'.insert name a').names.filter keep := by
  have hinsert (d : Dictionary α) (a : α) : (d.insert name a).names.filter keep =
      if keep name = true ∧ name ∉ d.names.filter keep then d.names.filter keep ++ [name]
      else d.names.filter keep := by
    cases hhas : d.has name with
    | true =>
      have hmem : name ∈ d.names := (mem_names_iff_has d name).mpr hhas
      simp [names_insert_of_has d name a hhas, List.mem_filter, hmem]
    | false =>
      have hnot : name ∉ d.names := by simp [mem_names_iff_has, hhas]
      have hnames : (d.insert name a).names = d.names ++ [name] := by
        rw [insert_of_not_has d name a hhas, names, List.map_append]
        rfl
      rw [hnames, List.filter_append]
      by_cases hkeep : keep name = true <;> simp [hkeep, List.mem_filter, hnot]
  rw [hinsert, hinsert, h]

/-! ## 2. Two dictionaries -/

variable {P Q : String → α → β → Prop}

/-- The same names in the same order, with related values under them. -/
def Alike (P : String → α → β → Prop) : Dictionary α → Dictionary β → Prop :=
  List.Forall₂ fun entry entry' => entry.1 = entry'.1 ∧ P entry.1 entry.2 entry'.2

theorem rel_imp {R R' : α → β → Prop} (h : ∀ a b, R a b → R' a b) {a : Option α} {b : Option β}
    (hab : Option.Rel R a b) : Option.Rel R' a b := by
  cases hab with
  | none => exact .none
  | some hab => exact .some (h _ _ hab)

theorem Alike.imp (h : ∀ name a b, P name a b → Q name a b) {d : Dictionary α} {d' : Dictionary β}
    (hd : Alike P d d') : Alike Q d d' :=
  List.Forall₂.imp (fun _ _ hentry => ⟨hentry.1, h _ _ _ hentry.2⟩) hd

theorem Alike.cons {name : String} {a : α} {b : β} (hvalue : P name a b) {d : Dictionary α}
    {d' : Dictionary β} (h : Alike P d d') : Alike P ((name, a) :: d) ((name, b) :: d') :=
  List.Forall₂.cons ⟨rfl, hvalue⟩ h

theorem Alike.names_eq {d : Dictionary α} {d' : Dictionary β} (h : Alike P d d') :
    names d = names d' := by
  induction h with
  | nil => rfl
  | cons hentry _ ih =>
    simp only [names, List.map_cons, hentry.1] at ih ⊢
    rw [ih]

theorem Alike.map_eq {γ : Type} {f : α → γ} {g : β → γ} {d : Dictionary α} {d' : Dictionary β}
    (h : Alike P d d') (hfg : ∀ name a b, P name a b → f a = g b) :
    (d.map fun entry => (entry.1, f entry.2)) = d'.map fun entry => (entry.1, g entry.2) := by
  induction h with
  | nil => rfl
  | cons hentry _ ih => rw [List.map_cons, List.map_cons, ih, hentry.1, hfg _ _ _ hentry.2]

/-- What follows for the values on the one side from those on the other. -/
theorem Alike.forall_mem {R : β → Prop} {d : Dictionary α} {d' : Dictionary β} (h : Alike P d d')
    (hR : ∀ entry ∈ d, ∀ b, P entry.1 entry.2 b → R b) : ∀ entry ∈ d', R entry.2 := by
  induction h with
  | nil => exact List.forall_mem_nil _
  | cons hentry _ ih =>
    obtain ⟨hfirst, hrest⟩ := List.forall_mem_cons.mp hR
    exact List.forall_mem_cons.mpr ⟨hfirst _ hentry.2, ih hrest⟩

theorem Alike.get? {d : Dictionary α} {d' : Dictionary β} (h : Alike P d d') (name : String) :
    Option.Rel (P name) (get? d name) (get? d' name) := by
  induction h with
  | nil => exact .none
  | @cons entry entry' rest rest' hentry _ ih =>
    obtain ⟨known, a⟩ := entry
    obtain ⟨known', b⟩ := entry'
    obtain ⟨rfl, hvalue⟩ := hentry
    rw [Dictionary.get?, Dictionary.get?]
    by_cases hname : known = name
    · subst hname
      simpa using Option.Rel.some hvalue
    · simpa [hname] using ih

theorem Alike.insert {d : Dictionary α} {d' : Dictionary β} (h : Alike P d d') {name : String}
    {a : α} {b : β} (hvalue : P name a b) : Alike P (d.insert name a) (d'.insert name b) := by
  induction h with
  | nil => exact .cons hvalue .nil
  | @cons entry entry' rest rest' hentry hrest ih =>
    obtain ⟨known, old⟩ := entry
    obtain ⟨known', old'⟩ := entry'
    obtain ⟨rfl, hold⟩ := hentry
    rw [Dictionary.insert, Dictionary.insert]
    by_cases hname : known = name
    · subst hname
      rw [if_pos rfl, if_pos rfl]
      exact .cons hvalue hrest
    · rw [if_neg hname, if_neg hname]
      exact .cons hold ih

theorem Alike.ofList {entries : List (String × α)} {entries' : List (String × β)}
    (h : Alike P entries entries') : Alike P (ofList entries) (ofList entries') := by
  refine List.rel_foldl (P := Alike P) ?_ .nil h
  intro d d' hd entry entry' hentry
  show Alike P (d.insert entry.1 entry.2) (d'.insert entry'.1 entry'.2)
  rw [← hentry.1]
  exact hd.insert hentry.2

theorem Alike.append {d more : Dictionary α} {d' more' : Dictionary β} (h : Alike P d d')
    (hmore : Alike P more more') : Alike P (d ++ more) (d' ++ more') :=
  List.rel_append h hmore

theorem Alike.filter {d : Dictionary α} {d' : Dictionary β} (h : Alike P d d')
    (keep : String → Bool) : Alike P (d.filter fun entry => keep entry.1)
      (d'.filter fun entry => keep entry.1) := by
  induction h with
  | nil => exact .nil
  | @cons entry entry' _ _ hentry _ ih =>
    rw [List.filter_cons, List.filter_cons, hentry.1]
    split
    · exact List.Forall₂.cons hentry ih
    · exact ih

/-- What is known under some names, in their order. -/
def pick (names : List String) (known : String → Option α) : Dictionary α :=
  names.filterMap fun name => (known name).map fun value => (name, value)

theorem Alike.pick {known : String → Option α} {known' : String → Option β}
    (h : ∀ name, Option.Rel (P name) (known name) (known' name)) (names : List String) :
    Alike P (pick names known) (pick names known') := by
  induction names with
  | nil => exact .nil
  | cons name rest ih =>
    have hname := h name
    rw [Dictionary.pick, Dictionary.pick, List.filterMap_cons, List.filterMap_cons]
    cases hknown : known name <;> cases hknown' : known' name <;> rw [hknown, hknown'] at hname <;>
      cases hname
    · exact ih
    · next hvalue => exact .cons hvalue ih

theorem mem_pick {names : List String} {known : String → Option α} {entry : String × α}
    (h : entry ∈ pick names known) : known entry.1 = some entry.2 := by
  obtain ⟨name, -, hentry⟩ := List.mem_filterMap.mp h
  obtain ⟨value, hvalue, rfl⟩ := Option.map_eq_some_iff.mp hentry
  exact hvalue

theorem names_pick (names : List String) (known : String → Option α) :
    Dictionary.names (pick names known) = names.filter fun name => (known name).isSome := by
  induction names with
  | nil => rfl
  | cons name rest ih =>
    rw [pick, List.filterMap_cons, List.filter_cons]
    cases known name with
    | none => exact ih
    | some value => exact congrArg (name :: ·) ih

theorem names_pick_sublist (names : List String) (known : String → Option α) :
    (Dictionary.names (pick names known)).Sublist names :=
  names_pick names known ▸ List.filter_sublist

end RowMapper.Dictionary
