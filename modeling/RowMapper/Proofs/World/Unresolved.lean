import RowMapper.Proofs.World.Settling

/-!
# Associations without targets

`Reached` are the worlds that definitions, finalizing and declarations lead to, with the
associations that refused declarations have left behind.  Everything else in the table of a
finalized class has its targets (`unresolved_associations_were_left_behind`); but what was left
behind has none, and the class answers it nevertheless (`declared_association_is_left_behind`).
-/
namespace RowMapper

open Model (Association AttributeBody Definition Registry)

/-! ## 1. Defining -/

namespace Shelf

variable {v : Value} {s : Shelf} {ref : DeclaredRef}

theorem association_of_put (h : (put s v).1 = .association ref) : v = .association ref := by
  rw [put] at h
  split at h
  · exact h
  · cases h

/-- What is put on the shelf is an association only if it was one. -/
theorem association_of_store (h : (store v s).1 = .association ref) : v = .association ref := by
  unfold store at h
  split at h
  all_goals first
    | exact nomatch association_of_put h
    | split at h
      · cases h
      · exact association_of_put h

end Shelf

namespace World

variable {id : Nat} {w t w' : World}

/-- What is put on the shelf is there if it was. -/
theorem has_of_store {v placed : Value} (hrun : (store v).runOn w = (.ok placed, t))
    (h : w.registry.Has v) : w.registry.Has placed := by
  rintro ref rfl
  exact h ref (Shelf.association_of_store (Except.ok.inj (congrArg Prod.fst hrun)))

theorem storeNamed_has {named placed : Dictionary Value}
    (hrun : (storeNamed named).runOn w = (.ok placed, t))
    (h : ∀ entry ∈ named, w.registry.Has entry.2) :
    ∀ entry ∈ placed, w.registry.Has entry.2 := by
  induction named generalizing w placed with
  | nil =>
    cases hrun
    exact nofun
  | cons first rest ih =>
    obtain ⟨stored, u, hstore, hrun⟩ := Action.runOn_bind_eq_ok.mp hrun
    obtain ⟨others, u', hothers, hrun⟩ := Action.runOn_bind_eq_ok.mp hrun
    cases hrun
    have hregistry := ((store_still first.2).of_run hstore).registry_eq
    intro entry hentry
    rcases List.mem_cons.mp hentry with rfl | hmem
    · exact has_of_store hstore (h first List.mem_cons_self)
    · rw [← hregistry] at h ⊢
      exact ih hothers (fun other hother => h other (List.mem_cons_of_mem _ hother)) entry hmem

theorem storeAttribute_has {body placed : AttributeBody}
    (hrun : (storeAttribute body).runOn w = (.ok placed, t))
    (h : ∀ v, body = .plain v → w.registry.Has v) :
    ∀ v, placed = .plain v → w.registry.Has v := by
  cases body with
  | column c =>
    rw [storeAttribute] at hrun
    split at hrun
    · obtain ⟨_, _, -, hrun⟩ := Action.runOn_bind_eq_ok.mp hrun
      cases hrun
      rintro _ ⟨⟩
    · cases hrun
      rintro _ ⟨⟩
  | association a =>
    obtain ⟨_, _, -, hrun⟩ := Action.runOn_bind_eq_ok.mp hrun
    cases hrun
    rintro _ ⟨⟩
  | plain v =>
    obtain ⟨_, _, hstore, hrun⟩ := Action.runOn_bind_eq_ok.mp hrun
    cases hrun
    rintro _ ⟨rfl⟩
    exact has_of_store hstore (h v rfl)

theorem storeAttributes_has {body placed : List (String × AttributeBody)}
    (hrun : (storeAttributes body).runOn w = (.ok placed, t)) (h : w.registry.UsableBody body) :
    w.registry.UsableBody placed := by
  induction body generalizing w placed with
  | nil =>
    cases hrun
    exact nofun
  | cons first rest ih =>
    obtain ⟨stored, u, hstore, hrun⟩ := Action.runOn_bind_eq_ok.mp hrun
    obtain ⟨others, u', hothers, hrun⟩ := Action.runOn_bind_eq_ok.mp hrun
    cases hrun
    have hregistry := ((storeAttribute_still first.2).of_run hstore).registry_eq
    intro name v hv
    rcases List.mem_cons.mp hv with heq | hmem
    · obtain ⟨-, rfl⟩ := Prod.mk.inj heq
      exact storeAttribute_has hstore (fun v hv => h first.1 v (hv ▸ List.mem_cons_self)) v rfl
    · rw [← hregistry] at h ⊢
      exact ih hothers (fun other v hv => h other v (List.mem_cons_of_mem _ hv)) name v hmem

/-- A definition keeps the registry whole, and the new classes are not finalized. -/
theorem define_whole {d : Definition} (hw : w.registry.Whole) (hd : d.Usable w.registry) :
    ((define d).runOn w).2.registry.Whole ∧
      Registry.Unfinalized w.registry.classes.length ((define d).runOn w).2.registry := by
  rw [define_runOn]
  cases hnew : w.registry.newClass d with
  | error fault => exact ⟨hw, Registry.unfinalized_self w.registry⟩
  | ok declared =>
    obtain ⟨r, c⟩ := declared
    obtain ⟨hr, hattributes, hmapper⟩ := Registry.newClass_whole hw hd hnew
    have hid := (Registry.newClass_eq_ok hnew).2
    have hnone := Registry.newClass_unfinalized hnew
    cases hadd : ({ w with registry := r } : World).addClass c with
    | error fault =>
      simp only [hadd]
      exact ⟨hr, hnone⟩
    | ok extended =>
      simp only [hadd]
      have hextended : extended.Whole ∧
          Registry.Unfinalized w.registry.classes.length extended := by
        rw [addClass] at hadd
        split at hadd
        · obtain ⟨tableName, -, hadd⟩ := bind_eq_ok.mp hadd
          exact ⟨Registry.addModel_whole hr hid hattributes hadd,
            Registry.addModel_unfinalized hnone hadd⟩
        · cases hadd
          have hempty : ∀ m, c.mapper ≠ some m := by simp [hmapper]
          exact ⟨Registry.addClass_whole hr hid hattributes fun m hm => absurd hm (hempty m),
            Registry.addClass_unfinalized hnone fun m hm => absurd hm (hempty m)⟩
      exact ⟨hextended.1.of_classes rfl (Nat.le_refl _), hextended.2.of_classes rfl⟩

/-- A definition whose values were put on the shelf is carried out, unless that failed. -/
theorem defineShared_cases (d : Definition) (w : World) :
    ((defineShared d).runOn w).2.registry = w.registry ∨
    ∃ placed u, (defineShared d).runOn w = (define placed).runOn u ∧ u.registry = w.registry ∧
      (d.Usable w.registry → placed.Usable w.registry) := by
  rw [defineShared_eq, Action.runOn_bind]
  have hsettings := (storeSettings_still d.settings w).registry_eq
  rcases hfirst : (storeSettings d.settings).runOn w with ⟨fault | settings, t⟩ <;>
    rw [hfirst] at hsettings <;> dsimp only at hsettings ⊢
  · exact .inl hsettings
  rw [Action.runOn_bind]
  have hattributes := (storeAttributes_still d.attributes t).registry_eq
  rcases hsecond : (storeAttributes d.attributes).runOn t with ⟨fault | attributes, u⟩ <;>
    rw [hsecond] at hattributes <;> dsimp only at hattributes ⊢
  · exact .inl (hattributes.trans hsettings)
  refine .inr ⟨_, u, rfl, hattributes.trans hsettings, fun hd => ⟨?_, fun placed hplaced => ?_⟩⟩
  · rw [← hsettings] at hd ⊢
    exact storeAttributes_has hsecond hd.attributes
  · cases hgiven : d.settings with
    | none =>
      rw [hgiven] at hfirst
      cases hfirst
      cases hplaced
    | some named =>
      rw [hgiven] at hfirst
      obtain ⟨_, _, hnamed, hrun⟩ := Action.runOn_bind_eq_ok.mp hfirst
      cases hrun
      cases hplaced
      exact storeNamed_has hnamed (hd.settings named hgiven)

/-- Defining a class keeps the registry whole, and brings nothing into the table of a finalized
class. -/
theorem defineShared_accounts {left : List (Nat × Nat)} {d : Definition}
    (hd : d.Usable w.registry) :
    Settles w ((defineShared d).runOn w).2 ∧
      (w.registry.Whole → Accounts left w ((defineShared d).runOn w).2) := by
  rcases defineShared_cases d w with hsame | ⟨placed, u, hrun, hregistry, husable⟩
  · exact ⟨settles_of_registry hsame, fun _ =>
      accounts_of_same (congrArg Registry.classes hsame)⟩
  · have hextends := (define_extends placed u).2
    have hplaced := husable hd
    rw [hrun, Settles]
    rw [← hregistry] at hplaced ⊢
    refine ⟨fun hw => ⟨(define_whole hw hplaced).1, hextends.grows⟩, fun hw => ?_⟩
    intro id index hfinal hin
    rcases Nat.lt_or_ge id u.registry.classes.length with hlt | hge
    · obtain ⟨hflags, htables⟩ := same_of_classAt (hextends.classAt_eq hlt)
      rw [Finalized, InTable, ← hregistry]
      exact .inl ⟨hflags.mp hfinal, (htables index).mp hin⟩
    · obtain ⟨m, hm, hflag⟩ := hfinal
      rw [(define_whole hw hplaced).2 id hge m (Registry.mapperOf_eq_ok.mp hm)] at hflag
      cases hflag

/-! ## 2. Reachable worlds -/

/-- The worlds that definitions, finalizing and declarations lead to, among them those that were
refused, with the associations that refused declarations have left in the tables of finalized
classes.  Nothing else that is done in a world touches the registry. -/
inductive Reached : List (Nat × Nat) → World → Prop
  | start {w : World} (h : w.registry = .initial) : Reached [] w
  | elsewhere {left : List (Nat × Nat)} {w w' : World} (h : Reached left w)
      (hsame : w'.registry = w.registry) : Reached left w'
  | define {left : List (Nat × Nat)} {w : World} (h : Reached left w) (d : Definition)
      (hd : d.Usable w.registry) : Reached left ((defineShared d).runOn w).2
  | finalize {left : List (Nat × Nat)} {w : World} (h : Reached left w) (id : Nat) :
      Reached left ((finalize id).runOn w).2
  | declare {left : List (Nat × Nat)} {w : World} (h : Reached left w) (id : Nat) (word : String)
      (arguments : Dictionary Value) :
      Reached (left ++ leftBehind id w ((World.declare id word arguments).runOn w))
        ((World.declare id word arguments).runOn w).2

/-- In a whole registry everything in the table of a finalized class has its targets, apart from
what was left behind. -/
structure Supplied (left : List (Nat × Nat)) (w : World) : Prop where
  whole : w.registry.Whole
  targets : ∀ id index, Finalized id w → InTable id w index →
    HasTargets w index ∨ (id, index) ∈ left

/-- One step. -/
theorem Supplied.step {left more : List (Nat × Nat)} (h : Supplied left w) (hsettles : Settles w w')
    (haccounts : Accounts more w w') : Supplied (left ++ more) w' := by
  obtain ⟨hwhole, hgrows⟩ := hsettles h.whole
  refine ⟨hwhole, fun id index hfinal hin => ?_⟩
  rcases haccounts id index hfinal hin with ⟨hbefore, hknown⟩ | htargets | hmore
  · rcases h.targets id index hbefore hknown with htargets | hleft
    · exact .inl (hgrows.resolved index (hknown.lt h.whole) htargets)
    · exact .inr (List.mem_append_left _ hleft)
  · exact .inl htargets
  · exact .inr (List.mem_append_right _ hmore)

theorem Reached.supplied {left : List (Nat × Nat)} (h : Reached left w) : Supplied left w := by
  have hquiet {left : List (Nat × Nat)} {w w' : World} (h : Supplied left w)
      (hsettles : Settles w w') (haccounts : Accounts [] w w') : Supplied left w' := by
    simpa using h.step hsettles haccounts
  induction h with
  | @start w hinitial =>
    refine ⟨hinitial ▸ Registry.initial_whole, fun id index hfinal => ?_⟩
    obtain ⟨m, hm, hflag⟩ := hfinal
    rw [hinitial, Registry.mapperOf_eq_ok] at hm
    match id with
    | 0 => cases hm
    | _ + 1 => cases hm
  | elsewhere _ hsame ih =>
    exact hquiet ih (settles_of_registry hsame) (accounts_of_same (congrArg Registry.classes hsame))
  | define _ d hd ih =>
    obtain ⟨hsettles, haccounts⟩ := defineShared_accounts hd
    exact hquiet ih hsettles (haccounts ih.whole)
  | @finalize _ w _ id ih =>
    exact hquiet ih (finalize_settles id w) (finalize_accounts id ih.whole)
  | @declare _ w _ id word arguments ih =>
    exact ih.step (declare_settles id word arguments w) (declare_accounts id word arguments ih.whole)

/-- A class that was finalized well is finalized. -/
theorem finalize_ok {u : Unit} (hrun : (finalize id).runOn w = (.ok u, w')) : Finalized id w' := by
  cases hm : w.registry.mapperOf id with
  | error fault =>
    rw [finalize, Action.runOn_bind, runOn_reading, mapper, hm] at hrun
    cases hrun
  | ok m =>
    rw [finalize_runOn hm] at hrun
    split at hrun
    · next hflag =>
      cases hrun
      exact ⟨m, hm, hflag⟩
    · obtain ⟨added, hdeclared, -⟩ := runHook_table id (flagged id true w)
      have hmapper := mapperOf_declared hdeclared (mapperOf_flagged hm true)
      rcases hhook : (runHook id).runOn (flagged id true w) with ⟨fault | _, t⟩ <;>
        rw [hhook] at hrun hmapper
      · cases hrun
      · obtain ⟨hsame, -⟩ := reportFinalized_runOn hmapper hrun
        exact ⟨_, (hsame.mapperOf_eq id).trans hmapper, rfl⟩

/-- An association that a class answers stands in its table under the name that was asked for. -/
theorem associationOf_found {name : Value} {a : Association}
    (hrun : (associationOf id name).runOn w = (.ok a, w')) :
    (finalize id).runOn w = (.ok (), w') ∧ ∃ m index, w'.registry.mapperOf id = .ok m ∧
      Entries.get? m.associations name = some index ∧ a = w'.association index := by
  obtain ⟨_, t, hfinalize, hrun⟩ := Action.runOn_bind_eq_ok.mp hrun
  obtain ⟨_, _, hget, hrun⟩ := Action.runOn_bind_eq_ok.mp hrun
  cases hget
  obtain ⟨m, _, hread, hrun⟩ := Action.runOn_bind_eq_ok.mp hrun
  rw [Action.runOn_ofExcept] at hread
  obtain ⟨hmapper, rfl⟩ := Prod.mk.inj hread
  obtain ⟨m₀, hm₀, hm⟩ := bind_eq_ok.mp hmapper
  cases hm
  obtain ⟨-, hrun⟩ := Action.runOn_guarded_eq_ok.mp hrun
  split at hrun
  · next index hindex =>
    cases hrun
    exact ⟨hfinalize, m₀, index, hm₀, hindex, rfl⟩
  · cases hrun

/-- An association that a class answers is one in its table. -/
theorem associationOf_ok {name : Value} {a : Association}
    (hrun : (associationOf id name).runOn w = (.ok a, w')) :
    (finalize id).runOn w = (.ok (), w') ∧ ∃ index, InTable id w' index ∧ a = w'.association index := by
  obtain ⟨hfinalize, m, index, hm, hindex, ha⟩ := associationOf_found hrun
  obtain ⟨entry, hentry, rfl⟩ := Option.map_eq_some_iff.mp hindex
  exact ⟨hfinalize, entry.2, ⟨m, hm, entry, List.mem_of_find?_eq_some hentry, rfl⟩, ha⟩

/-- Looking up what an association was declared with changes nothing about its targets. -/
theorem HasTargets.association {index : Nat} (h : HasTargets w index) :
    w.registry.Resolved (w.association index) where
  target := h.target
  through through otherKey key hkind := by
    change (w.registry.associationAt index).kind.map w.expand = _ at hkind
    cases hmany : (w.registry.associationAt index).kind with
    | belongsToMany => exact h.through _ _ _ hmany
    | _ =>
      rw [hmany] at hkind
      cases hkind

/-- **Only refused declarations leave associations without targets.**  In every reachable world
everything in the table of a finalized class has been resolved to models, apart from what a refused
declaration of that class has left there after it was finalized; and so is every association that a
class answers. -/
theorem unresolved_associations_were_left_behind {left : List (Nat × Nat)}
    (h : Reached left w) :
    (∀ id index, Finalized id w → InTable id w index →
      HasTargets w index ∨ (id, index) ∈ left) ∧
    ∀ id name a w', (associationOf id name).runOn w = (.ok a, w') →
      w'.registry.Resolved a ∨
        ∃ index, (id, index) ∈ left ∧ InTable id w' index ∧ a = w'.association index := by
  refine ⟨h.supplied.targets, fun id name a w' hrun => ?_⟩
  obtain ⟨hfinalize, index, hin, rfl⟩ := associationOf_ok hrun
  have hreached : Reached left w' := by
    have hstep := h.finalize id
    rwa [hfinalize] at hstep
  rcases hreached.supplied.targets id index (finalize_ok hfinalize) hin with htargets | hleft
  · exact .inl htargets.association
  · exact .inr ⟨index, hleft, hin, rfl⟩

/-- The arguments of an association with a class of a name. -/
def manyOf (target name : String) : Dictionary Value :=
  [("target", .str target), ("as", .str name), ("foreign_key", .str "owner_id")]

/-- Once the pets are defined, the hook of the owners finds them, and so does a declaration after
that. -/
theorem owners_find_their_pets :
    let ready := ((finalize 2).runOn
      ((defineShared owners).runOn ((defineShared pets).runOn {}).2).2).2
    let w := ((declare 2 "hasMany" (manyOf "Pet" "friends")).runOn ready).2
    Finalized 2 w ∧ InTable 2 w 0 ∧ InTable 2 w 1 ∧ HasTargets w 0 ∧ HasTargets w 1 := by
  intro ready w
  have hpets (r : Registry) : pets.Usable r := ⟨by simp [pets, Registry.Has], nofun⟩
  have howners (r : Registry) : owners.Usable r := ⟨by simp [owners, Registry.Has], nofun⟩
  have hready : Reached [] ready :=
    (((Reached.start (w := {}) rfl).define pets (hpets _)).define owners (howners _)).finalize 2
  have hstep := hready.declare 2 "hasMany" (manyOf "Pet" "friends")
  have hnone : leftBehind 2 ready ((declare 2 "hasMany" (manyOf "Pet" "friends")).runOn ready) =
      [] := by
    decide +kernel
  rw [hnone] at hstep
  have hfinal : Finalized 2 w := by decide +kernel
  have htable : InTable 2 w 0 ∧ InTable 2 w 1 := by decide +kernel
  have htargets (index : Nat) (hin : InTable 2 w index) : HasTargets w index :=
    ((unresolved_associations_were_left_behind hstep).1 2 index hfinal hin).resolve_right nofun
  exact ⟨hfinal, htable.1, htable.2, htargets 0 htable.1, htargets 1 htable.2⟩

/-- A declaration that is refused leaves its association to the class, without a target, and the
class answers it. -/
theorem declared_association_is_left_behind :
    let ready := ((finalize 1).runOn ((defineShared pets).runOn {}).2).2
    let w := ((declare 1 "hasMany" (manyOf "Toy" "toys")).runOn ready).2
    let answered := (associationOf 1 (.str "toys")).runOn w
    ((declare 1 "hasMany" (manyOf "Toy" "toys")).runOn ready).1.isOk = false ∧
      Finalized 1 w ∧ InTable 1 w 0 ∧ ¬HasTargets w 0 ∧
      answered.1.toOption.map (·.resolved) = some none := by
  intro ready w answered
  have hnone : (w.registry.associationAt 0).resolved = none := by decide +kernel
  refine ⟨by decide +kernel, by decide +kernel, by decide +kernel, ?_, by decide +kernel⟩
  intro htargets
  obtain ⟨ref, hfound, -⟩ := htargets.target
  rw [hnone] at hfound
  cases hfound

end World
end RowMapper
