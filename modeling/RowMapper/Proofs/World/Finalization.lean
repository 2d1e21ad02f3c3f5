import RowMapper.Proofs.World.Target

/-!
# Trying again to finalize

An attempt to finalize a class that fails leaves the class unfinalized, to be tried again
(`finalize_failed`).  A class whose hook declares nothing is as it was then, and the next attempt
goes well once the targets can be found (`finalize_found`).  But what a hook has declared stays in
the table, where it is in the way of the same declaration in the next attempt (`finalize_taken`).
-/
namespace RowMapper.World

open Model (Declaration Mapper)

variable {id : Nat} {w w' : World}

/-! ## 1. One attempt -/

/-- That a model was finalized cannot be reported, though it should be. -/
def Unreportable (id : Nat) (w : World) : Prop :=
  w.engine.debugging = true ∧ ∃ m why, w.mapper id = .ok m ∧ w.mapperText id m = .error why

/-- Reports that a class was finalized. -/
def reportFinalized (id : Nat) : Action World Unit := do
  let mapper ← reading (·.mapper id)
  debug "mappify.mapper" fun w => (w.mapperText id mapper).map ("Finalized " ++ ·)

theorem finalize_runOn {m : Mapper} (hm : w.registry.mapperOf id = .ok m) :
    (finalize id).runOn w =
      if m.finalized then (.ok (), w)
      else
        match (runHook id).runOn (flagged id true w) with
        | (.error fault, t) => (.error fault, flagged id false t)
        | (.ok _, t) => (reportFinalized id).runOn t := by
  have hmapper : w.mapper id = .ok { m with tableName := w.expand m.tableName } := by
    rw [mapper, hm]
    rfl
  rw [finalize, Action.runOn_bind, runOn_reading, hmapper]
  dsimp only
  cases m.finalized with
  | true => rfl
  | false =>
    rw [if_neg (by decide), if_neg (by decide)]
    rw [Action.runOn_bind_ok (show (updateMapper id fun m => { m with finalized := true }).runOn w =
      (.ok (), flagged id true w) from rfl), Action.runOn_bind_ok (Action.runOn_attempt _ _)]
    rcases (runHook id).runOn (flagged id true w) with ⟨fault | _, t⟩
    · rfl
    · rfl

/-- The report changes no class; it fails only if it cannot be printed. -/
theorem reportFinalized_runOn {t : World} {m : Mapper} {outcome : Except Fault Unit}
    (hm : t.registry.mapperOf id = .ok m) (hrun : (reportFinalized id).runOn t = (outcome, w')) :
    SameClasses t w' ∧ (outcome = .ok () ∨ w' = t ∧ Unreportable id t) := by
  have hmapper : t.mapper id = .ok { m with tableName := t.expand m.tableName } := by
    rw [mapper, hm]
    rfl
  rw [reportFinalized, Action.runOn_bind, runOn_reading, hmapper] at hrun
  dsimp only at hrun
  rw [debug, Action.runOn_bind_ok (Action.runOn_get t)] at hrun
  split at hrun
  · next hdebugging =>
    rw [Action.runOn_bind, Action.runOn_ofExcept] at hrun
    cases htext : t.mapperText id { m with tableName := t.expand m.tableName } with
    | error why =>
      rw [htext] at hrun
      cases hrun
      exact ⟨rfl, .inr ⟨rfl, hdebugging, _, why, hmapper, htext⟩⟩
    | ok text =>
      rw [htext] at hrun
      cases hrun
      exact ⟨rfl, .inl rfl⟩
  · cases hrun
    exact ⟨rfl, .inl rfl⟩

/-- What a failed attempt leaves: the flag as it was, but what the hook declared stays in the table.
Where only the report failed the class is finalized. -/
theorem finalize_failed {m : Mapper} {fault : Fault} (hm : w.registry.mapperOf id = .ok m)
    (hfail : (finalize id).runOn w = (.error fault, w')) :
    m.finalized = false ∧ SameHooks w w' ∧ ∃ added,
      (w'.registry.mapperOf id = .ok { m with associations := m.associations ++ added } ∨
        w'.registry.mapperOf id =
          .ok { m with associations := m.associations ++ added, finalized := true } ∧
        Unreportable id w') ∧
      (hookOf w.registry id = [] → added = []) ∧
      ∀ d rest text, hookOf w.registry id = d :: rest → d.writtenName? = some text → added ≠ [] →
        ∃ entry ∈ added, entry.1.text? = some text := by
  rw [finalize_runOn hm] at hfail
  split at hfail
  · cases hfail
  next hflag =>
  have hunflagged : m.finalized = false := by simpa using hflag
  have hflagged := flagged_sameHooks id true w
  obtain ⟨added, hdeclared, htable⟩ := runHook_table id (flagged id true w)
  rw [hflagged.hookOf_eq id] at htable
  rcases hrun : (runHook id).runOn (flagged id true w) with ⟨outcome, t⟩
  rw [hrun] at hfail hdeclared
  have hkept := trans_of SameHooks hflagged hdeclared.sameHooks
  have hmapper := mapperOf_declared hdeclared (mapperOf_flagged hm true)
  refine ⟨hunflagged, ?_⟩
  cases outcome with
  | error _ =>
    cases hfail
    refine ⟨trans_of SameHooks hkept (flagged_sameHooks id false t), added, .inl ?_, htable⟩
    rw [mapperOf_flagged hmapper false, ← hunflagged]
  | ok _ =>
    obtain ⟨-, hreport⟩ := reportFinalized_runOn hmapper hfail
    rcases hreport with hok | ⟨rfl, hunreportable⟩
    · cases hok
    · exact ⟨hkept, added, .inr ⟨hmapper, hunreportable⟩, htable⟩

/-- As long as a name that the hook declares is taken, every attempt fails. -/
theorem finalize_taken {m : Mapper} {d : Declaration} {text : String}
    (hm : w.registry.mapperOf id = .ok m) (hflag : m.finalized = false)
    (hmem : d ∈ hookOf w.registry id) (hd : d.writtenName? = some text)
    (hentry : ∃ entry ∈ m.associations, entry.1.text? = some text) :
    ∃ fault w', (finalize id).runOn w = (.error fault, w') := by
  have htaken : Taken id text (flagged id true w) := ⟨_, mapperOf_flagged hm true, hentry⟩
  rw [← (flagged_sameHooks id true w).hookOf_eq id] at hmem
  obtain ⟨fault, t, hhook⟩ := forM_taken hmem hd htaken
  have hrun : (runHook id).runOn (flagged id true w) = (.error fault, t) := by
    rw [runHook_runOn]
    exact Action.runOn_bind_error hhook
  rw [finalize_runOn hm, hflag, if_neg (by decide), hrun]
  exact ⟨fault, _, rfl⟩

/-- Where all targets can be found, a model whose hook declares nothing is finalized. -/
theorem finalize_found {m : Mapper} (hm : w.registry.mapperOf id = .ok m)
    (hflag : m.finalized = false) (hhook : hookOf w.registry id = [])
    (hfind : ∀ entry ∈ m.associations, Findable (w.registry.classAt id).ref entry.2 w) :
    ∃ outcome w', (finalize id).runOn w = (outcome, w') ∧
      w'.registry.mapperOf id = .ok { m with finalized := true } ∧
      (outcome = .ok () ∨ Unreportable id w') := by
  have hflagged := mapperOf_flagged hm true
  have htargets : SameTargets w (flagged id true w) :=
    ⟨flagged_sameSigns id true w, fun _ => rfl, fun _ => rfl⟩
  have howner : ((flagged id true w).registry.classAt id).ref = (w.registry.classAt id).ref :=
    congrArg Prod.fst (htargets.classSign_eq id)
  obtain ⟨t, hresolve⟩ :=
    resolveAll_found fun entry hentry => htargets.findable (hfind entry hentry)
  have hsame : SameClasses (flagged id true w) t :=
    (Action.Obeys.forM fun _ => resolveAssociation_same _ _).of_run hresolve
  have hmapper : (flagged id true w).mapper id =
      .ok { m with tableName := (flagged id true w).expand m.tableName, finalized := true } := by
    rw [mapper, hflagged]
    rfl
  have hrun : (runHook id).runOn (flagged id true w) = (.ok (), t) := by
    rw [runHook_runOn, (flagged_sameHooks id true w).hookOf_eq id, hhook, howner]
    show (findTargets id _).runOn _ = _
    rw [findTargets, Action.runOn_bind, runOn_reading, hmapper]
    exact hresolve
  rw [← hsame.mapperOf_eq id] at hflagged
  rw [finalize_runOn hm, hflag, if_neg (by decide), hrun]
  dsimp only
  rcases hreport : (reportFinalized id).runOn t with ⟨outcome, w'⟩
  obtain ⟨hsame', hreport⟩ := reportFinalized_runOn hflagged hreport
  refine ⟨outcome, w', rfl, (hsame'.mapperOf_eq id).trans hflagged, ?_⟩
  rcases hreport with hok | ⟨rfl, hunreportable⟩
  · exact .inl hok
  · exact .inr hunreportable

/-! ## 2. Trying again -/

/-- A class is as it was left: its mapper, and the hook that it runs. -/
structure SameModel (id : Nat) (w v : World) : Prop where
  mapper_eq : v.registry.mapperOf id = w.registry.mapperOf id
  hook_eq : hookOf v.registry id = hookOf w.registry id

/-- Whatever needs an association of a class fails as an attempt to finalize it. -/
structure FailsAlike (id : Nat) (w : World) (fault : Fault) (w' : World) : Prop where
  association (name : Value) : (associationOf id name).runOn w = (.error fault, w')
  populate (ref : EntityRef) (relation : Value) (shape : Shape)
    (hsession : (w.entityAt ref).session.isSome) (hmodel : (w.entityAt ref).model.id = id) :
    (World.populate ref relation shape).runOn w = (.error fault, w')
  attach (ref : EntityRef) (target relation : Value)
    (hsession : (w.entityAt ref).session.isSome) (hmodel : (w.entityAt ref).model.id = id) :
    (World.attach ref target relation).runOn w = (.error fault, w')

theorem sessionOf_runOn {ref : EntityRef} (h : (w.entityAt ref).session.isSome) :
    ∃ session, (sessionOf ref).runOn w = (.ok session, w) := by
  obtain ⟨session, hsession⟩ := Option.isSome_iff_exists.mp h
  refine ⟨session, ?_⟩
  rw [sessionOf, Action.runOn_bind_ok (Action.runOn_get w), hsession]
  rfl

theorem failsAlike {fault : Fault} (hfail : (finalize id).runOn w = (.error fault, w')) :
    FailsAlike id w fault w' := by
  have hname (name : Value) : (associationOf id name).runOn w = (.error fault, w') :=
    Action.runOn_bind_error hfail
  have hentity {ref : EntityRef} (hmodel : (w.entityAt ref).model.id = id) (relation : Value) :
      (associationOfEntity ref relation).runOn w = (.error fault, w') := by
    rw [associationOfEntity, Action.runOn_bind_ok (Action.runOn_get w), hmodel]
    exact hname relation
  refine ⟨hname, fun ref relation shape hsession hmodel => ?_,
    fun ref target relation hsession hmodel => ?_⟩
  · obtain ⟨session, hrun⟩ := sessionOf_runOn hsession
    rw [World.populate, Action.runOn_bind_ok hrun]
    exact Action.runOn_bind_error (hentity hmodel relation)
  · obtain ⟨session, hrun⟩ := sessionOf_runOn hsession
    rw [World.attach, Action.runOn_bind_ok hrun]
    exact Action.runOn_bind_error (hentity hmodel relation)

/-- **What a failed attempt leaves.**  An attempt to finalize a class that fails leaves the flag as
it was, unless only the report of it failed.  What its hook declared stays in the table.  If the
hook declares nothing the table is as it was, and the class can be finalized as soon as all targets
can be found.  But once something was declared, and the first name in the hook is written there, no
attempt ever succeeds. -/
theorem failed_attempt_keeps_what_the_hook_declared {m : Mapper} {fault : Fault}
    (hm : w.registry.mapperOf id = .ok m) (hfail : (finalize id).runOn w = (.error fault, w')) :
    FailsAlike id w fault w' ∧ m.finalized = false ∧ ∃ added,
      (w'.registry.mapperOf id =
          .ok { m with associations := m.associations ++ added, finalized := true } ∧
        Unreportable id w') ∨
      w'.registry.mapperOf id = .ok { m with associations := m.associations ++ added } ∧
      (hookOf w.registry id = [] → added = [] ∧
        ∀ v, SameModel id w' v →
          (∀ entry ∈ m.associations, Findable (v.registry.classAt id).ref entry.2 v) →
          ∃ outcome v', (finalize id).runOn v = (outcome, v') ∧
            v'.registry.mapperOf id = .ok { m with finalized := true } ∧
            (outcome = .ok () ∨ Unreportable id v')) ∧
      ∀ d rest text, hookOf w.registry id = d :: rest → d.writtenName? = some text → added ≠ [] →
        ∀ v, SameModel id w' v → ∃ again v', (finalize id).runOn v = (.error again, v') := by
  obtain ⟨hflag, hhooks, added, htable, hnone, hfirst⟩ := finalize_failed hm hfail
  refine ⟨failsAlike hfail, hflag, added, ?_⟩
  rcases htable with htable | hreported
  · refine .inr ⟨htable, fun hhook => ?_, fun d rest text hhook hd hadded v hv => ?_⟩
    · obtain rfl := hnone hhook
      refine ⟨rfl, fun v hv hfind => ?_⟩
      have hv_mapper : v.registry.mapperOf id = .ok m := by
        rw [hv.mapper_eq, htable, List.append_nil]
      exact finalize_found hv_mapper hflag (by rw [hv.hook_eq, hhooks.hookOf_eq, hhook]) hfind
    · obtain ⟨entry, hentry, htext⟩ := hfirst d rest text hhook hd hadded
      refine finalize_taken (hv.mapper_eq.trans htable) hflag (d := d) ?_ hd
        ⟨entry, List.mem_append_right _ hentry, htext⟩
      rw [hv.hook_eq, hhooks.hookOf_eq, hhook]
      exact List.mem_cons_self
  · exact .inl hreported

/-- A class whose hook declares an association with a class that is defined later. -/
def owners : Model.Definition :=
  { name := "Owner", key := "Owner", attributes := [("__tablename__", .plain (.str "owners"))],
    hook := some [⟨"hasMany", [("target", .plain (.str "Pet")), ("as", .plain (.str "pets")),
      ("foreign_key", .plain (.str "owner_id"))]⟩] }

/-- The class that is defined later. -/
def pets : Model.Definition :=
  { name := "Pet", key := "Pet", attributes := [("__tablename__", .plain (.str "pets"))] }

/-- The owners cannot be finalized before the pets are defined, and the next attempt fails too. -/
theorem attempt_before_the_target_is_defined :
    let w := ((defineShared owners).runOn {}).2
    let w' := ((finalize 1).runOn w).2
    let fault : Fault := .association (.unresolved (.strAt "Pet" (some 2)) "Owner")
    ∃ m, w.registry.mapperOf 1 = .ok m ∧ (finalize 1).runOn w = (.error fault, w') ∧
      FailsAlike 1 w fault w' ∧ ∃ added, added ≠ [] ∧
        w'.registry.mapperOf 1 = .ok { m with associations := m.associations ++ added } ∧
        ∃ again v, (finalize 1).runOn w' = (.error again, v) := by
  intro w w' fault
  have hm : w.registry.mapperOf 1 = .ok _ := rfl
  have hfail : (finalize 1).runOn w = (.error fault, w') := rfl
  obtain ⟨hfails, -, added, hleft⟩ := failed_attempt_keeps_what_the_hook_declared hm hfail
  refine ⟨_, hm, hfail, hfails, added, ?_⟩
  rcases hleft with ⟨-, hdebugging, -⟩ | ⟨hkept, -, hagain⟩
  · cases hdebugging
  · have hadded : added ≠ [] := by
      rintro rfl
      cases hkept
    exact ⟨hadded, hkept, hagain _ _ "pets" rfl rfl hadded _ ⟨rfl, rfl⟩⟩

/-- The target is found once it is defined, but the name of the association is taken by then. -/
theorem target_is_defined_too_late :
    let w := ((defineShared owners).runOn {}).2
    let failed := (finalize 1).runOn w
    let later := ((defineShared pets).runOn failed.2).2
    failed.1 = .error (.association (.unresolved (.strAt "Pet" (some 2)) "Owner")) ∧
      (later.resolveTarget ⟨1, "Owner", "app"⟩ (.str "Pet")).toOption = some ⟨2, "Pet", "app"⟩ ∧
      ((finalize 1).runOn later).1 =
        .error (.association (.duplicate "Owner" (.str "pets"))) :=
  ⟨rfl, rfl, rfl⟩

end RowMapper.World
