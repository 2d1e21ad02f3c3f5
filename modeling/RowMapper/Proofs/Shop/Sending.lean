import RowMapper.Proofs.Dictionary
import RowMapper.Proofs.Value.Plain
import RowMapper.Shop.Response

/-!
# What is sent of a value

A value is sent without the number that it has on the shelf.  So a plain value that was put on the
shelf is sent as it was before (`sendable?_kept`).
-/
namespace RowMapper.Shop

variable {v held : Value} {before after s : Shelf} {depth : Nat}

/-! ## 1. Numbers are not sent -/

theorem sendable?_lyingAt (v : Value) (number : Nat) :
    sendable? (v.lyingAt number) = sendable? v := by
  cases v with
  | floatAt x => cases x <;> rfl
  | filterAt f => cases f <;> rfl
  | _ => rfl

theorem keyText?_lyingAt (v : Value) (number : Nat) : keyText? (v.lyingAt number) = keyText? v := by
  cases v with
  | floatAt x => cases x <;> rfl
  | _ => rfl

theorem isHidden_lyingAt (v : Value) (number : Nat) : isHidden (v.lyingAt number) = isHidden v := by
  cases v <;> rfl

/-! ## 2. On the shelf -/

/-- Wherever a value is put on a shelf, it is sent as it was before. -/
def KeepsSending (v : Value) : Prop := ∀ (before : Shelf) held after (s : Shelf) depth,
  Shelf.store v before = (held, after) → after <+: s → after.length < depth →
    sendable? (s.expandWithin depth held) = sendable? v

/-- A value is sent as it is found behind the number that it was given. -/
theorem sendable?_put {found : Option Value} (hput : Shelf.put before v = (held, after))
    (hbegins : after <+: s) (hdepth : after.length < depth)
    (hfound : before <+: s → ∀ depth, before.length < depth →
      sendable? (s.expandWithin depth v) = found) : sendable? (s.expandWithin depth held) = found := by
  rw [Shelf.put] at hput
  split at hput <;> cases hput
  · exact hfound hbegins depth hdepth
  · obtain ⟨steps, rfl⟩ := Nat.exists_eq_add_one_of_ne_zero (Nat.ne_zero_of_lt hdepth)
    have hlies : s.valueAt before.length = v := by
      obtain ⟨more, rfl⟩ := hbegins
      simp [Shelf.valueAt]
    show sendable? ((s.expandWithin steps (s.valueAt before.length)).lyingAt before.length) = found
    rw [sendable?_lyingAt, hlies]
    refine hfound ((List.prefix_append _ _).trans hbegins) steps ?_
    simp only [List.length_append, List.length_singleton] at hdepth
    omega

theorem storeAll_prefix (items : List Value) (s : Shelf) : s <+: (Shelf.storeAll items s).2 := by
  induction items generalizing s with
  | nil => exact List.prefix_rfl
  | cons item rest ih =>
    rw [Shelf.storeAll]
    exact (Shelf.store_grows item s).isPrefix.trans (ih _)

theorem storeEntries_prefix (entries : List (Value × Value)) (s : Shelf) :
    s <+: (Shelf.storeEntries entries s).2 := by
  induction entries generalizing s with
  | nil => exact List.prefix_rfl
  | cons entry rest ih =>
    rw [Shelf.storeEntries]
    exact (Shelf.putKey_grows s entry.1).isPrefix.trans
      ((Shelf.store_grows entry.2 _).isPrefix.trans (ih _))

/-- The parts of a list are looked up with as many steps as the list. -/
theorem expandWithin_list (s : Shelf) (steps : Nat) (items : List Value) :
    s.expandWithin (steps + 1) (.list items) = .list (items.map (s.expandWithin (steps + 1))) :=
  congrArg Value.list (Value.replaceSharedAll_eq_map _ items)

theorem expandWithin_tuple (s : Shelf) (steps : Nat) (items : List Value) :
    s.expandWithin (steps + 1) (.tuple items) = .tuple (items.map (s.expandWithin (steps + 1))) :=
  congrArg Value.tuple (Value.replaceSharedAll_eq_map _ items)

theorem expandWithin_mapping (s : Shelf) (steps : Nat) (entries : List (Value × Value)) :
    s.expandWithin (steps + 1) (.mapping entries) = .mapping (entries.map fun entry =>
      (s.expandWithin (steps + 1) entry.1, s.expandWithin (steps + 1) entry.2)) :=
  congrArg Value.mapping (Value.replaceSharedEntries_eq_map _ entries)

theorem sendableAll?_kept {items stored : List Value} (hitems : ∀ item ∈ items, KeepsSending item)
    (hstore : Shelf.storeAll items before = (stored, after)) (hbegins : after <+: s)
    (hdepth : after.length < depth) :
    sendableAll? (stored.map (s.expandWithin depth)) = sendableAll? items := by
  induction items generalizing before stored with
  | nil =>
    cases hstore
    rfl
  | cons item rest ih =>
    obtain ⟨hitem, hrest⟩ := List.forall_mem_cons.mp hitems
    rw [Shelf.storeAll] at hstore
    rcases hfirst : Shelf.store item before with ⟨first, between⟩
    rcases hothers : Shelf.storeAll rest between with ⟨others, last⟩
    rw [hfirst] at hstore
    dsimp only at hstore
    rw [hothers] at hstore
    obtain ⟨rfl, rfl⟩ := Prod.mk.inj hstore
    have hbetween : between <+: last := by
      have h := storeAll_prefix rest between
      rwa [hothers] at h
    rw [List.map_cons, sendableAll?, sendableAll?, ih hrest hothers,
      hitem _ _ _ _ _ hfirst (hbetween.trans hbegins)
        (Nat.lt_of_le_of_lt hbetween.length_le hdepth)]

/-- A plain key stays where it is; at most it gets a number. -/
theorem expandWithin_putKey {key stored : Value} (hkey : key.IsPlain)
    (hput : Shelf.putKey before key = (stored, after)) (s : Shelf) (depth : Nat) :
    s.expandWithin depth stored = key ∨ ∃ number, s.expandWithin depth stored = key.lyingAt number := by
  rw [Shelf.putKey] at hput
  split at hput <;> cases hput
  · exact .inl (hkey.expandWithin_eq s depth)
  · refine .inr ⟨before.length, ?_⟩
    cases depth with
    | zero => rfl
    | succ depth =>
      have hreplace := hkey.replaceShared_eq fun number =>
        (s.expandWithin depth (s.valueAt number)).lyingAt number
      show Value.replaceShared _ _ = _
      cases hkey <;> simp_all [Value.lyingAt, Value.replaceShared, Value.list, Value.tuple, Value.mapping]

theorem sendableEntries?_kept {entries stored : List (Value × Value)}
    (hkeys : ∀ entry ∈ entries, entry.1.IsPlain) (hvalues : ∀ entry ∈ entries, KeepsSending entry.2)
    (hstore : Shelf.storeEntries entries before = (stored, after)) (hbegins : after <+: s)
    (hdepth : after.length < depth) :
    sendableEntries? (stored.map fun entry => (s.expandWithin depth entry.1,
      s.expandWithin depth entry.2)) = sendableEntries? entries := by
  induction entries generalizing before stored with
  | nil =>
    cases hstore
    rfl
  | cons entry rest ih =>
    obtain ⟨key, value⟩ := entry
    obtain ⟨hkey, hkeys⟩ := List.forall_mem_cons.mp hkeys
    obtain ⟨hvalue, hvalues⟩ := List.forall_mem_cons.mp hvalues
    rw [Shelf.storeEntries] at hstore
    rcases hputKey : Shelf.putKey before key with ⟨name, first⟩
    rcases hput : Shelf.store value first with ⟨placed, second⟩
    rcases hothers : Shelf.storeEntries rest second with ⟨others, last⟩
    rw [hputKey] at hstore
    dsimp only at hstore
    rw [hput] at hstore
    dsimp only at hstore
    rw [hothers] at hstore
    obtain ⟨rfl, rfl⟩ := Prod.mk.inj hstore
    have hsecond : second <+: last := by
      have h := storeEntries_prefix rest second
      rwa [hothers] at h
    have hname : isHidden (s.expandWithin depth name) = isHidden key ∧
        keyText? (s.expandWithin depth name) = keyText? key := by
      rcases expandWithin_putKey hkey hputKey s depth with hname | ⟨number, hname⟩ <;> rw [hname]
      · exact ⟨rfl, rfl⟩
      · exact ⟨isHidden_lyingAt key number, keyText?_lyingAt key number⟩
    rw [List.map_cons, sendableEntries?, sendableEntries?, hname.1, hname.2,
      ih hkeys hvalues hothers, hvalue _ _ _ _ _ hput (hsecond.trans hbegins)
        (Nat.lt_of_le_of_lt hsecond.length_le hdepth)]

/-- A value without parts. -/
theorem keepsSending_of_put (hv : v.IsPlain) (hstored : ∀ s, Shelf.store v s = Shelf.put s v) :
    KeepsSending v := by
  intro before held after s depth hstore hbegins hdepth
  rw [hstored] at hstore
  exact sendable?_put hstore hbegins hdepth fun _ depth _ =>
    congrArg sendable? (hv.expandWithin_eq s depth)

/-- **A plain value that was put on the shelf is sent as it was before.** -/
theorem keepsSending (hv : v.IsPlain) : KeepsSending v := by
  induction hv with
  | @list items _ ih =>
    intro before held after s depth hstore hbegins hdepth
    rw [Value.list, Shelf.store] at hstore
    rcases hitems : Shelf.storeAll items before with ⟨stored, last⟩
    rw [hitems] at hstore
    refine sendable?_put hstore hbegins hdepth fun hlast depth hdepth => ?_
    obtain ⟨steps, rfl⟩ := Nat.exists_eq_add_one_of_ne_zero (Nat.ne_zero_of_lt hdepth)
    rw [expandWithin_list]
    exact congrArg (Option.map Value.list) (sendableAll?_kept ih hitems hlast hdepth)
  | @tuple items _ ih =>
    intro before held after s depth hstore hbegins hdepth
    rw [Value.tuple, Shelf.store] at hstore
    rcases hitems : Shelf.storeAll items before with ⟨stored, last⟩
    rw [hitems] at hstore
    refine sendable?_put hstore hbegins hdepth fun hlast depth hdepth => ?_
    obtain ⟨steps, rfl⟩ := Nat.exists_eq_add_one_of_ne_zero (Nat.ne_zero_of_lt hdepth)
    rw [expandWithin_tuple]
    exact congrArg (Option.map Value.list) (sendableAll?_kept ih hitems hlast hdepth)
  | @mapping entries hkeys _ _ ihvalues =>
    intro before held after s depth hstore hbegins hdepth
    rw [Value.mapping, Shelf.store] at hstore
    rcases hentries : Shelf.storeEntries entries before with ⟨stored, last⟩
    rw [hentries] at hstore
    refine sendable?_put hstore hbegins hdepth fun hlast depth hdepth => ?_
    obtain ⟨steps, rfl⟩ := Nat.exists_eq_add_one_of_ne_zero (Nat.ne_zero_of_lt hdepth)
    rw [expandWithin_mapping]
    exact congrArg (Option.map Value.mapping)
      (sendableEntries?_kept hkeys ihvalues hentries hlast hdepth)
  | null => exact keepsSending_of_put .null fun _ => rfl
  | bool b => exact keepsSending_of_put (.bool b) fun _ => rfl
  | int n => exact keepsSending_of_put (.int n) fun _ => rfl
  | float x => exact keepsSending_of_put (.float x) fun _ => rfl
  | str text => exact keepsSending_of_put (.str text) fun _ => rfl
  | bytes b => exact keepsSending_of_put (.bytes b) fun _ => rfl

/-- What came of a plain value on the shelf of a world is sent as the value was. -/
theorem sendable?_kept (hv : v.IsPlain) (hkept : Shelf.Kept s v held) :
    sendable? (s.expand held) = sendable? v := by
  obtain ⟨before, after, hstore, hbegins⟩ := hkept
  exact keepsSending hv before held after s _ hstore hbegins
    (Nat.lt_succ_of_le hbegins.length_le)

/-! ## 3. Objects -/

/-- Dictionaries with values and with what is sent of them. -/
abbrev SendsAs (d d' : Dictionary Value) : Prop :=
  Dictionary.Alike (fun _ v sent => sendable? v = some sent) d d'

/-- The entries that are not kept back. -/
def visible (d : Dictionary Value) : Dictionary Value :=
  d.filter fun entry => !isHidden (.str entry.1)

theorem mergeEntry_ofNamed {name : String} {d : Dictionary Value} (h : name ∉ d.names) (v : Value) :
    mergeEntry name v (Entries.ofNamed d) = Entries.ofNamed ((name, v) :: d) := by
  have hothers : (Entries.ofNamed d).filter (fun entry => !entry.1.sameKey (.str name)) =
      Entries.ofNamed d := by
    refine List.filter_eq_self.mpr fun entry hentry => ?_
    obtain ⟨named, hnamed, rfl⟩ := List.mem_map.mp hentry
    have hne : named.1 ≠ name := fun heq => h (heq ▸ List.mem_map_of_mem hnamed)
    simp [Value.sameKey_str, Value.text?, hne]
  rw [mergeEntry, Entries.get?_ofNamed, Dictionary.get?_eq_none h, hothers]
  rfl

/-- Of entries with different names each is sent under its name. -/
theorem sendableEntries?_ofNamed {d sent : Dictionary Value} (hnodup : d.names.Nodup)
    (hsent : SendsAs (visible d) sent) :
    sendableEntries? (Entries.ofNamed d) = some (Entries.ofNamed sent) := by
  induction d generalizing sent with
  | nil =>
    cases hsent
    rfl
  | cons entry rest ih =>
    obtain ⟨name, v⟩ := entry
    obtain ⟨hname, hnodup⟩ := List.nodup_cons.mp hnodup
    show sendableEntries? ((.str name, v) :: Entries.ofNamed rest) = _
    rw [visible, List.filter_cons] at hsent
    rw [sendableEntries?]
    cases hhidden : isHidden (.str name) with
    | true =>
      simp only [hhidden, Bool.not_true, Bool.false_eq_true, if_false] at hsent
      exact ih hnodup hsent
    | false =>
      simp only [hhidden, Bool.not_false, if_true] at hsent
      cases hsent with
      | @cons _ named _ others hfirst hothers =>
        obtain ⟨name', v'⟩ := named
        obtain ⟨rfl, hv⟩ := hfirst
        have hothers : SendsAs (visible rest) others := hothers
        have hnot : name ∉ Dictionary.names others := by
          rw [← hothers.names_eq]
          exact fun hmem => hname ((List.filter_sublist.map _).subset hmem)
        rw [ih hnodup hothers, hv, ← mergeEntry_ofNamed hnot]
        rfl

/-- What came of a dictionary on the shelf is sent as the dictionary is. -/
theorem sendableEntries?_held {d held : Dictionary Value} (hplain : ∀ entry ∈ d, entry.2.IsPlain)
    (h : Dictionary.Alike (fun _ => Shelf.Kept s) d held) :
    sendableEntries? ((Entries.ofNamed held).map fun entry => (s.expand entry.1, s.expand entry.2)) =
      sendableEntries? (Entries.ofNamed d) := by
  induction h with
  | nil => rfl
  | @cons entry entry' rest rest' hentry _ ih =>
    obtain ⟨name, v⟩ := entry
    obtain ⟨name', found⟩ := entry'
    obtain ⟨rfl, hkept⟩ := hentry
    obtain ⟨hv, hplain⟩ := List.forall_mem_cons.mp hplain
    show sendableEntries? ((.str name, s.expand found) :: _) =
      sendableEntries? ((.str name, v) :: Entries.ofNamed rest)
    rw [sendableEntries?, sendableEntries?, sendable?_kept hv hkept, ← ih hplain]
    rfl

theorem sendable?_object {d held sent : Dictionary Value} (hplain : ∀ entry ∈ d, entry.2.IsPlain)
    (hnodup : d.names.Nodup) (hheld : Dictionary.Alike (fun _ => Shelf.Kept s) d held)
    (hsent : SendsAs (visible d) sent) :
    sendable? (s.expand (.mapping (Entries.ofNamed held))) = some (named sent) := by
  rw [Shelf.expand, expandWithin_mapping]
  have hall := (sendableEntries?_held hplain hheld).trans (sendableEntries?_ofNamed hnodup hsent)
  exact congrArg (Option.map Value.mapping) hall

/-- A list is sent one by one. -/
theorem sendable?_list {items sent : List Value}
    (h : List.Forall₂ (fun item found => sendable? (s.expand item) = some found) items sent) :
    sendable? (s.expand (.list items)) = some (.list sent) := by
  have hall : sendableAll? (items.map s.expand) = some sent := by
    induction h with
    | nil => rfl
    | cons hitem _ ih =>
      rw [List.map_cons, sendableAll?, hitem, ih]
      rfl
  rw [Shelf.expand, expandWithin_list]
  exact congrArg (Option.map Value.list) hall

end RowMapper.Shop
