import Mathlib.Data.List.TakeWhile
import RowMapper.Json.Reader
import RowMapper.Proofs.Dictionary
import RowMapper.Proofs.Value.Plain

/-!
# What is read from JSON

Whatever is read from a JSON text is a plain value.  An object becomes a mapping with different
texts as names, so that it is a dictionary.  An integer with too many digits is not read.
-/
namespace RowMapper

/-- Different texts as names, and plain values under them. -/
def Entries.IsObject (entries : Entries) : Prop :=
  ∃ d : Dictionary Value, entries = Entries.ofNamed d ∧ d.names.Nodup ∧
    ∀ entry ∈ d, entry.2.IsPlain

namespace Entries

theorem IsObject.nil : IsObject [] := ⟨[], rfl, List.nodup_nil, List.forall_mem_nil _⟩

theorem IsObject.insert {entries : Entries} (h : IsObject entries) (name : String) {v : Value}
    (hv : v.IsPlain) : IsObject (Entries.insert entries (.str name) v) := by
  obtain ⟨d, rfl, hnodup, hplain⟩ := h
  refine ⟨d.insert name v, insert_ofNamed d name v, Dictionary.nodup_names_insert hnodup name v,
    fun entry hentry => ?_⟩
  rcases Dictionary.mem_insert hentry with hold | rfl
  · exact hplain entry hold
  · exact hv

theorem IsObject.isPlain {entries : Entries} (h : IsObject entries) :
    (Value.mapping entries).IsPlain := by
  obtain ⟨d, rfl, -, hplain⟩ := h
  refine .mapping (fun entry hentry => ?_) fun entry hentry => ?_ <;>
    obtain ⟨named, hnamed, rfl⟩ := List.mem_map.mp hentry
  · exact .str named.1
  · exact hplain named hnamed

end Entries

namespace Json

/-- A value as it is read from a text. -/
structure IsRead (v : Value) : Prop where
  plain : v.IsPlain
  object : ∀ entries place, v = .mappingAt entries place → Entries.IsObject entries

theorem word?_isRead {cs rest : List Char} {v : Value} (h : word? cs = some (v, rest)) :
    IsRead v := by
  have hwords : ∀ entry ∈ words, IsRead entry.2 := by
    simp only [words, List.forall_mem_cons, List.not_mem_nil, false_imp_iff, implies_true, and_true]
    exact ⟨⟨.null, nofun⟩, ⟨.bool _, nofun⟩, ⟨.bool _, nofun⟩, ⟨.float _, nofun⟩,
      ⟨.float _, nofun⟩, ⟨.float _, nofun⟩⟩
  obtain ⟨entry, hentry, hv⟩ := Option.map_eq_some_iff.mp h
  cases hv
  exact hwords entry (List.mem_of_find?_eq_some hentry)

theorem number_isRead {cs rest : List Char} {v : Value} (h : number cs = .ok (v, rest)) :
    IsRead v := by
  unfold number at h
  dsimp only at h
  split at h
  · cases h
  · split at h
    · obtain ⟨n, hn, h⟩ := bind_eq_ok.mp h
      obtain ⟨rfl, -⟩ := Prod.mk.inj (pure_eq_ok.mp h)
      unfold integerOf at hn
      split at hn <;> cases hn
      exact ⟨.int _, nofun⟩
    · split at h
      · cases h
        exact ⟨.float _, nofun⟩
      · cases h

/-- What the readers read with at most a number of steps. -/
structure ReadsWithin (steps : Nat) : Prop where
  value : ∀ depth cs v rest, valueWithin steps depth cs = .ok (v, rest) → IsRead v
  items : ∀ depth cs items rest, itemsWithin steps depth cs = .ok (items, rest) →
    ∀ item ∈ items, item.IsPlain
  entries : ∀ depth cs known entries rest, Entries.IsObject known →
    entriesWithin steps depth cs known = .ok (entries, rest) → Entries.IsObject entries

variable {steps depth : Nat} {cs rest : List Char}

theorem valueWithin_isRead (ih : ReadsWithin steps) {v : Value}
    (h : valueWithin (steps + 1) depth cs = .ok (v, rest)) : IsRead v := by
  unfold valueWithin at h
  split at h
  · cases ‹_ + 1 = 0›
  · obtain ⟨⟨s, after⟩, -, h⟩ := bind_eq_ok.mp h
    cases h
    exact ⟨.str s, nofun⟩
  · cases h
  · cases h
  · cases ‹steps + 1 = _›
    split at h
    · cases h
      exact ⟨.list (List.forall_mem_nil _), nofun⟩
    · obtain ⟨⟨items, after⟩, hitems, h⟩ := bind_eq_ok.mp h
      cases h
      exact ⟨.list (ih.items _ _ _ _ hitems), nofun⟩
  · cases ‹steps + 1 = _›
    split at h
    · cases h
      refine ⟨Entries.IsObject.nil.isPlain, ?_⟩
      rintro entries place ⟨⟩
      exact .nil
    · obtain ⟨⟨entries, after⟩, hentries, h⟩ := bind_eq_ok.mp h
      cases h
      have hobject := ih.entries _ _ _ _ _ .nil hentries
      refine ⟨hobject.isPlain, ?_⟩
      rintro entries place ⟨⟩
      exact hobject
  · split at h
    · next hword =>
      cases h
      exact word?_isRead hword
    · exact number_isRead h

theorem itemsWithin_isPlain (ih : ReadsWithin steps) {items : List Value}
    (h : itemsWithin (steps + 1) depth cs = .ok (items, rest)) : ∀ item ∈ items, item.IsPlain := by
  rw [itemsWithin] at h
  obtain ⟨⟨item, after⟩, hitem, h⟩ := bind_eq_ok.mp h
  have hplain := (ih.value _ _ _ _ hitem).plain
  dsimp only at h
  split at h
  · cases h
    exact List.forall_mem_singleton.mpr hplain
  · obtain ⟨⟨others, last⟩, hothers, h⟩ := bind_eq_ok.mp h
    cases h
    exact List.forall_mem_cons.mpr ⟨hplain, ih.items _ _ _ _ hothers⟩
  · cases h

theorem entriesWithin_isObject (ih : ReadsWithin steps) {known entries : Entries}
    (hknown : known.IsObject) (h : entriesWithin (steps + 1) depth cs known = .ok (entries, rest)) :
    entries.IsObject := by
  unfold entriesWithin at h
  split at h
  · cases ‹_ + 1 = 0›
  · cases ‹steps + 1 = _›
    obtain ⟨⟨name, after⟩, -, h⟩ := bind_eq_ok.mp h
    dsimp only at h
    split at h
    · obtain ⟨⟨value, after⟩, hvalue, h⟩ := bind_eq_ok.mp h
      have hinsert := hknown.insert name (ih.value _ _ _ _ hvalue).plain
      dsimp only at h
      split at h
      · cases h
        exact hinsert
      · exact ih.entries _ _ _ _ _ hinsert h
      · cases h
    · cases h
  · cases h

theorem readsWithin (steps : Nat) : ReadsWithin steps := by
  induction steps with
  | zero => exact ⟨nofun, nofun, nofun⟩
  | succ steps ih =>
    exact ⟨fun _ _ _ _ => valueWithin_isRead ih, fun _ _ _ _ => itemsWithin_isPlain ih,
      fun _ _ _ _ _ => entriesWithin_isObject ih⟩

/-- What is read from a text is plain, and an object is a dictionary. -/
theorem readText_isRead {text : List Char} {v : Value} (h : readText text = .ok v) : IsRead v := by
  rw [readText] at h
  split at h
  · cases h
  · obtain ⟨⟨found, rest⟩, hfound, h⟩ := bind_eq_ok.mp h
    dsimp only at h
    split at h
    · cases h
      exact (readsWithin _).value _ _ _ _ hfound
    · cases h

/-! ## Numbers with too many digits -/

theorem number_ones (digits : Nat) : number ('1' :: List.replicate digits '1') =
    (integerOf false ('1' :: List.replicate digits '1')).map (·, []) := by
  have hones : ∀ c ∈ '1' :: List.replicate digits '1', c.isDigit = true := by
    intro c hc
    rw [← List.replicate_succ] at hc
    rw [List.eq_of_mem_replicate hc]
    rfl
  have hdigits : digitsOf ('1' :: List.replicate digits '1') =
      ('1' :: List.replicate digits '1', []) := by
    rw [digitsOf, List.takeWhile_eq_self_iff.mpr hones, List.dropWhile_eq_nil_iff.mpr hones]
  have hwhole : wholePart? ('1' :: List.replicate digits '1') =
      some ('1' :: List.replicate digits '1', []) := by
    unfold wholePart?
    split
    · next heq => cases heq
    · rw [hdigits]
  have hnumber : number ('1' :: List.replicate digits '1') = (do
      return (← integerOf false ('1' :: List.replicate digits '1'), [])) := by
    unfold number
    split
    next sign unsigned heq =>
    split at heq
    · next h => cases h
    · cases heq
      rw [hwhole]
      rfl
  rw [hnumber]
  cases integerOf false ('1' :: List.replicate digits '1') <;> rfl

/-- An integer with too many digits is not read. -/
theorem readText_ones {digits : Nat} (h : Numeral.maxDigits < digits) :
    readText (List.replicate digits '1') = .error (.tooManyDigits digits) := by
  obtain ⟨more, rfl⟩ := Nat.exists_eq_add_one_of_ne_zero (Nat.ne_zero_of_lt h)
  have hlength : ('1' :: List.replicate more '1').length = more + 1 := by simp
  have hnumber : number ('1' :: List.replicate more '1') = .error (.tooManyDigits (more + 1)) := by
    rw [number_ones, integerOf, hlength, if_pos h]
    rfl
  have hword : word? ('1' :: List.replicate more '1') = none := by
    simp [word?, words]
  have hvalue (steps : Nat) : valueWithin (steps + 1) maxDepth
      ('1' :: List.replicate more '1') = .error (.tooManyDigits (more + 1)) := by
    rw [valueWithin, hword]
    · exact hnumber
    all_goals simp
  have hskip : skipSpace ('1' :: List.replicate more '1') = '1' :: List.replicate more '1' := rfl
  have hmark : ¬some '1' = some byteOrderMark := by decide
  rw [List.replicate_succ, readText, List.head?_cons, if_neg hmark, read, hskip, hvalue]
  rfl

end Json
end RowMapper
