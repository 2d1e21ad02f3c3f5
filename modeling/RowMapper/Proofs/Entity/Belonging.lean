import RowMapper.Proofs.Entity.Repetition

/-!
# What an entity belongs to

What an entity belongs to is found by the value of its foreign key and by nothing else of it.  So it
does not matter how much of a row was loaded, as long as the foreign key was: populating the entity
of a part of the row comes to the same as populating the entity of the whole row
(`loaded_foreign_key_leads_to_the_same_row`).  A foreign key that was not loaded reads as one that
is null, and the entity belongs to nothing then (`unloaded_foreign_key_leads_nowhere`).
-/
namespace RowMapper.World

open Model (Association)

variable {w t u after : World} {one other ref : EntityRef} {a : Association} {shape : Shape}
  {key x v value relation : Value} {session : String} {model : Nat} {excluded : List String}

/-! ## 1. Loading -/

/-- What an entity has under the name of a foreign key came of a value. -/
def Points (foreignKey v : Value) (ref : EntityRef) (w : World) : Prop :=
  ∃ held, foreignValue w ref foreignKey = .ok held ∧ w.shelf.Kept v held

/-- What an entity points to is loaded by the value of the foreign key alone. -/
theorem load_belongsTo {held : Value} (session : String) (shape : Shape)
    (hkind : a.kind = .belongsTo key) (hread : foreignValue w ref a.foreignKey = .ok held) :
    (load session ref a shape).runOn w =
      (if held.isNull then pure .null else do
        let model ← Action.ofExcept (resolvedModel a.resolved)
        let filter ← Action.ofExcept (pinning key (w.expand held))
        findRelated session model filter shape : Action World Value).runOn w := by
  have hreads : (reading (foreignValue · ref a.foreignKey)).runOn w = (.ok held, w) := by
    rw [runOn_reading, hread]
  rw [load, hkind]
  dsimp only
  rw [Action.runOn_bind_ok hreads]
  split
  · rfl
  · cases resolvedModel a.resolved with
    | error fault => rfl
    | ok model =>
      rw [Action.runOn_bind_ok (Action.runOn_ofExcept _ _),
        Action.runOn_bind_ok (Action.runOn_ofExcept _ _)]
      rw [Action.runOn_bind, Action.runOn_bind, runOn_reading, Action.runOn_ofExcept]

/-- An entity whose foreign key is null belongs to nothing, and nothing is asked. -/
theorem load_null (session : String) (shape : Shape) (hkind : a.kind = .belongsTo key)
    (h : Points a.foreignKey v ref w) (hnull : v.isNull = true) :
    (load session ref a shape).runOn w = (.ok .null, w) := by
  obtain ⟨held, hread, hkept⟩ := h
  rw [load_belongsTo session shape hkind hread, hkept.isNull_eq, hnull]
  rfl

theorem pinning_again {filter : Value} (h : pinning key x = .ok filter) :
    filter = .mapping [(key, x)] ∧ ∀ x', pinning key x' = .ok (.mapping [(key, x')]) := by
  rw [pinning] at h
  split at h
  · next hhashable =>
    cases h
    exact ⟨rfl, fun x' => if_pos hhashable⟩
  · cases h

/-- Two entities that point to the same value load the same, one as the other. -/
theorem load_again (hkind : a.kind = .belongsTo key) (hdatum : v.isDatum = true)
    (hone : Points a.foreignKey v one w) (hother : Points a.foreignKey v other w)
    (h : (load session one a shape).runOn w = (.ok value, u)) :
    ∃ found trace, value = entityOrNull found ∧
      (load session other a shape).runOn w = (.ok value, u.retraced trace) ∧
      Followed v w.trace u.trace trace found ∧ ∀ r, found = some r → w.entities.length ≤ r.id := by
  cases hnull : v.isNull with
  | true =>
    rw [load_null session shape hkind hone hnull] at h
    cases h
    exact ⟨none, w.trace, rfl, load_null session shape hkind hother hnull, .nowhere hnull, nofun⟩
  | false =>
    obtain ⟨held, hread, hkept⟩ := hone
    obtain ⟨held', hread', hkept'⟩ := hother
    rw [load_belongsTo session shape hkind hread, hkept.isNull_eq, hnull] at h
    rw [load_belongsTo session shape hkind hread', hkept'.isNull_eq, hnull]
    have hlies {held : Value} (hkept : w.shelf.Kept v held) :
        w.shelf.Scalar (w.expand held) ∧ (w.expand held).unplaced = v := by
      have hlook := Shelf.look_kept hkept hdatum
      rw [← hlook]
      exact Shelf.scalar_expand (hlook.symm ▸ hdatum)
    obtain ⟨hx, hv⟩ := hlies hkept
    obtain ⟨hx', hv'⟩ := hlies hkept'
    obtain ⟨model, _, hresolved, hpins⟩ := Action.runOn_bind_eq_ok.mp h
    obtain ⟨hmodel, rfl⟩ := ofExcept_eq_ok.mp hresolved
    obtain ⟨filter, _, hpinned, hfinds⟩ := Action.runOn_bind_eq_ok.mp hpins
    obtain ⟨hfilter, rfl⟩ := ofExcept_eq_ok.mp hpinned
    obtain ⟨rfl, hpinning⟩ := pinning_again hfilter
    obtain ⟨o, _, hoptions, hreads⟩ := Action.runOn_bind_eq_ok.mp hfinds
    obtain ⟨ho, rfl⟩ := ofExcept_eq_ok.mp hoptions
    obtain ⟨column, hcolumn, hagain⟩ := relatedOptions_again ho
    obtain ⟨found, u, hfound, hlast⟩ := Action.runOn_bind_eq_ok.mp hreads
    cases hlast
    have hone : (findOne session model { o with filter := [(column, w.expand held)] }).runOn w =
        (.ok found, u) := by rwa [← hcolumn]
    obtain ⟨trace, hother, hfollowed⟩ := findOne_again hx hx' hv hv' hnull hone
    refine ⟨found, trace, rfl, ?_, hfollowed, fun r hr => (findOne_loaded (hr ▸ hfound)).new⟩
    rw [hmodel, hpinning]
    show (findRelated session model (.mapping [(key, w.expand held')]) shape).runOn w = _
    rw [findRelated, hagain]
    exact Action.runOn_bind_ok hother

/-! ## 2. Populating -/

/-- Under a name an entity got a value, and the rest of it is as before. -/
def Got (ref : EntityRef) (relation value : Value) (w w' : World) : Prop :=
  w'.entityAt ref = { w.entityAt ref with
    attributes := Entries.insert (w.entityAt ref).attributes relation value }

/-- The world in which an entity holds another one, or null, under a name. -/
def relate (ref : EntityRef) (relation : Value) (found : Option EntityRef) (w : World) : World :=
  { w with entities := w.entities.set ref.id { w.entityAt ref with
      attributes := Entries.insert (w.entityAt ref).attributes relation (entityOrNull found) } }

/-- Neither null nor an entity is put on the shelf. -/
theorem holdAttribute_related (ref : EntityRef) (relation : Value) (found : Option EntityRef)
    (w : World) : (holdAttribute ref relation (entityOrNull found)).runOn w =
      (.ok (), w.relate ref relation found) := by
  cases found <;> rfl

theorem Widens.got_relate (h : Widens w t) (hin : ref.id < w.entities.length) (relation : Value)
    (found : Option EntityRef) :
    Got ref relation (entityOrNull found) w (t.relate ref relation found) := by
  have hlater := Nat.lt_of_lt_of_le hin h.entities_prefix.length_le
  rw [Got, relate, entityAt_set hlater, h.entityAt_eq hin]

theorem relate_entityAt_of_ne {r : EntityRef} (hne : ref.id ≠ r.id) (relation : Value)
    (found : Option EntityRef) (w : World) :
    (w.relate ref relation found).entityAt r = w.entityAt r := by
  simp [entityAt, relate, List.getElem?_set_ne hne]

theorem populate_runOn (hsession : (w.entityAt ref).session = some session)
    (hassociation : (associationOfEntity ref relation).runOn w = (.ok a, t)) :
    (populate ref relation shape).runOn w =
      (load session ref a shape >>= holdAttribute ref relation).runOn t := by
  have hbound : (sessionOf ref).runOn w = (.ok session, w) := by
    rw [sessionOf, Action.runOn_bind_ok (Action.runOn_get w), hsession]
    rfl
  rw [populate, Action.runOn_bind_ok hbound, Action.runOn_bind_ok hassociation]

/-- Two entities of one world were populated, each on its own: what they hold now is null for both,
or the same entity, which is the same in both worlds. -/
structure SameRelated (relation v : Value) (one other : EntityRef) (w after after' : World)
    (found : Option EntityRef) : Prop where
  followed : Followed v w.trace after.trace after'.trace found
  got_one : Got one relation (entityOrNull found) w after
  got_other : Got other relation (entityOrNull found) w after'
  entity_eq : ∀ r, found = some r → after'.entityAt r = after.entityAt r
  registry_eq : after'.registry = after.registry
  shelf_eq : after'.shelf = after.shelf

theorem Points.widens {foreignKey : Value} (h : Points foreignKey v ref w) (hwidens : Widens w t)
    (hin : ref.id < w.entities.length) : Points foreignKey v ref t := by
  obtain ⟨held, hread, hkept⟩ := h
  refine ⟨held, ?_, hkept.mono hwidens.shelf_prefix⟩
  have hreads := (hwidens.undisturbed hin).reads
  cases foreignKey with
  | strAt name place => rwa [foreignValue, hreads]
  | _ => cases hread

/-- Entities of one class have the same associations. -/
theorem associationOfEntity_congr (hmodel : (w.entityAt other).model = (w.entityAt one).model)
    (relation : Value) : (associationOfEntity other relation).runOn w =
      (associationOfEntity one relation).runOn w := by
  rw [associationOfEntity, associationOfEntity, Action.runOn_bind_ok (Action.runOn_get w),
    Action.runOn_bind_ok (Action.runOn_get w), hmodel]

/-- Of two entities of one class that point to the same value, populating one goes well if
populating the other does, and relates it to the same. -/
theorem populate_again (hsession : (w.entityAt one).session = some session)
    (hsession' : (w.entityAt other).session = some session)
    (hmodel : (w.entityAt other).model = (w.entityAt one).model)
    (hassociation : (associationOfEntity one relation).runOn w = (.ok a, t))
    (hkind : a.kind = .belongsTo key) (hdatum : v.isDatum = true)
    (hone : Points a.foreignKey v one w) (hother : Points a.foreignKey v other w)
    (h : (populate one relation shape).runOn w = (.ok (), after)) :
    ∃ after' found, (populate other relation shape).runOn w = (.ok (), after') ∧
      SameRelated relation v one other w after after' found := by
  have hassociation' : (associationOfEntity other relation).runOn w = (.ok a, t) :=
    (associationOfEntity_congr hmodel relation).trans hassociation
  have hin : one.id < w.entities.length := lt_of_bound (by rw [hsession]; rfl)
  have hin' : other.id < w.entities.length := lt_of_bound (by rw [hsession']; rfl)
  have hfinalized := (associationOfEntity_widens one relation).of_run hassociation
  have hquiet : t.trace = w.trace :=
    Leads.trace_eq ((associationOfEntity_sends one relation).of_run hassociation)
  rw [populate_runOn hsession hassociation] at h
  rw [populate_runOn hsession' hassociation']
  obtain ⟨value, u, hload, hhold⟩ := Action.runOn_bind_eq_ok.mp h
  obtain ⟨found, trace, rfl, hload', hfollowed, hnew⟩ := load_again hkind hdatum
    (hone.widens hfinalized hin) (hother.widens hfinalized hin') hload
  have hwidens : Widens w u :=
    trans_of Widens hfinalized ((load_widens session one a shape).of_run hload)
  have hone' := hwidens.got_relate hin relation found
  have hretraced : Widens u (u.retraced trace) :=
    ⟨.of_registry rfl, rfl, List.prefix_rfl, List.prefix_rfl⟩
  have hlength := hfinalized.entities_prefix.length_le
  rw [holdAttribute_related] at hhold
  cases hhold
  refine ⟨_, found, by rw [Action.runOn_bind_ok hload', holdAttribute_related], ?_, hone',
    (trans_of Widens hwidens hretraced).got_relate hin' relation found, fun r hr => ?_, rfl, rfl⟩
  · rw [hquiet] at hfollowed
    exact hfollowed
  · have hne {ref : EntityRef} (hin : ref.id < w.entities.length) : ref.id ≠ r.id :=
      Nat.ne_of_lt (Nat.lt_of_lt_of_le hin (Nat.le_trans hlength (hnew r hr)))
    rw [relate_entityAt_of_ne (hne hin), relate_entityAt_of_ne (hne hin')]
    rfl

/-! ## 3. Entities of parts of a row -/

section Loaded

variable {start start' : Nat} {row part : Row} {foreign : String} {foreignKey : Value}

/-- A row has what another one has, and may have more. -/
def PartOf (part row : Row) : Prop :=
  ∀ name v, (Dictionary.ofList part).get? name = some v → (Dictionary.ofList row).get? name = some v

theorem partOf_of_forall (h : ∀ entry ∈ Dictionary.ofList part,
    (Dictionary.ofList row).get? entry.1 = some entry.2) : PartOf part row :=
  fun _ _ hv => h _ (Dictionary.mem_of_get? hv)

/-- A class declares nothing but a column under a name. -/
def OnlyColumn (model : Nat) (name : String) (w : World) : Prop :=
  ∀ found, w.registry.attribute? (w.registry.classAt model).ref.id name = some found →
    ∃ index, found = .column index

theorem OfRow.readAttribute_eq (h : OfRow start session model excluded part ref w)
    (hfree : ∀ p, w.registry.attribute? (w.registry.classAt model).ref.id foreign ≠
      some (.property p)) : w.readAttribute ref foreign = w.heldAttribute ref foreign := by
  have hproperty : w.property? ref foreign = none := by
    rw [property?, h.hydrated.model_eq]
    split
    · next p hp => exact absurd hp (hfree p)
    · rfl
  rw [readAttribute, hproperty]

/-- A column that was loaded reads as what the row has. -/
theorem OfRow.points_of_loaded (h : OfRow start session model excluded part ref w)
    (hpart : PartOf part row) (hrow : Free w.registry model row)
    (htext : foreignKey.text? = some foreign) (hv : (Dictionary.ofList row).get? foreign = some v)
    (hloaded : foreign ∈ (kept excluded part).names) : Points foreignKey v ref w := by
  obtain ⟨place, rfl⟩ := Value.eq_strAt_of_text? htext
  have hkept := Dictionary.get?_ne_none_of_mem hloaded
  rw [kept, Dictionary.get?_without] at hkept
  split at hkept
  · exact absurd rfl hkept
  · next hname =>
    obtain ⟨v', hv'⟩ := Option.ne_none_iff_exists'.mp hkept
    obtain rfl : v' = v := Option.some.inj ((hpart foreign v' hv').symm.trans hv)
    obtain ⟨held, hheld, hkept⟩ := h.hydrated.holds foreign v' hname hv'
    refine ⟨held, ?_, hkept⟩
    have hfree := hrow foreign (List.mem_map_of_mem (Dictionary.mem_of_get? hv))
    rw [World.foreignValue, h.readAttribute_eq hfree, heldAttribute, hheld]

theorem OfRow.points_of_whole (h : OfRow start session model [] row ref w)
    (hrow : Free w.registry model row) (htext : foreignKey.text? = some foreign)
    (hv : (Dictionary.ofList row).get? foreign = some v) : Points foreignKey v ref w := by
  refine h.points_of_loaded (fun _ _ h => h) hrow htext hv ?_
  have hkept : kept [] row = Dictionary.ofList row := List.filter_eq_self.mpr fun _ _ => rfl
  rw [hkept]
  exact List.mem_map_of_mem (Dictionary.mem_of_get? hv)

/-- A column that was not loaded reads as null, whatever the row has. -/
theorem OfRow.foreignValue_of_unloaded (h : OfRow start session model excluded part ref w)
    (hcolumn : OnlyColumn model foreign w) (htext : foreignKey.text? = some foreign)
    (hunloaded : foreign ∉ (kept excluded part).names) :
    World.foreignValue w ref foreignKey = .ok .null := by
  obtain ⟨place, rfl⟩ := Value.eq_strAt_of_text? htext
  have hfree (p : Model.Property) : w.registry.attribute? (w.registry.classAt model).ref.id foreign ≠
      some (.property p) := by
    intro hp
    obtain ⟨index, hindex⟩ := hcolumn _ hp
    cases hindex
  have hnone := h.mirrors.get?_eq_none (Dictionary.get?_eq_none hunloaded)
  simp only [World.foreignValue, h.readAttribute_eq hfree, heldAttribute, hnone,
    h.hydrated.model_eq, inherited]
  cases hfound : w.registry.attribute? (w.registry.classAt model).ref.id foreign with
  | none => rfl
  | some found =>
    obtain ⟨index, rfl⟩ := hcolumn found hfound
    rfl

/-- **What was loaded of a row does not change what it belongs to**, as long as the foreign key was
loaded, or is null in the row.  Populating the entity of a part of the row goes well just when
populating the entity of the whole row does.  Then the same lookup is sent, and the same entity or
null is held; null is held without a lookup just if the foreign key is null in the row.  That no
property takes a name of the row is so of every row of which an entity was made (`hydrate_free`). -/
theorem loaded_foreign_key_leads_to_the_same_row
    (hwhole : OfRow start session model [] row one w)
    (hsome : OfRow start' session model excluded part other w)
    (hpart : PartOf part row) (hrow : Free w.registry model row)
    (hassociation : (associationOfEntity one relation).runOn w = (.ok a, t))
    (hkind : a.kind = .belongsTo key) (htext : a.foreignKey.text? = some foreign)
    (hv : (Dictionary.ofList row).get? foreign = some v) (hdatum : v.isDatum = true)
    (htold : foreign ∈ (kept excluded part).names ∨ v.isNull = true ∧ OnlyColumn model foreign w)
    (shape : Shape) :
    (∀ after, (populate other relation shape).runOn w = (.ok (), after) →
      (after.trace = w.trace ↔ v.isNull = true) ∧
      ∃ after' found, (populate one relation shape).runOn w = (.ok (), after') ∧
        SameRelated relation v other one w after after' found) ∧
    ∀ after, (populate one relation shape).runOn w = (.ok (), after) →
      ∃ after' found, (populate other relation shape).runOn w = (.ok (), after') ∧
        SameRelated relation v one other w after after' found := by
  have hmodel : (w.entityAt other).model = (w.entityAt one).model :=
    hsome.hydrated.model_eq.trans hwhole.hydrated.model_eq.symm
  have hone := hwhole.points_of_whole hrow htext hv
  have hother : Points a.foreignKey v other w := by
    by_cases hloaded : foreign ∈ (kept excluded part).names
    · exact hsome.points_of_loaded hpart hrow htext hv hloaded
    · obtain ⟨hnull, hcolumn⟩ := htold.resolve_left hloaded
      have hread := hsome.foreignValue_of_unloaded hcolumn htext hloaded
      cases v <;> first
        | exact ⟨.null, hread, kept_null _⟩
        | cases hnull
  refine ⟨fun after hrun => ?_, fun after hrun => ?_⟩
  · obtain ⟨after', found, hrun', hsame⟩ := populate_again hsome.session_eq hwhole.session_eq
      hmodel.symm ((associationOfEntity_congr hmodel relation).trans hassociation) hkind hdatum
      hother hone hrun
    exact ⟨hsame.followed.quiet_iff, after', found, hrun', hsame⟩
  · exact populate_again hwhole.session_eq hsome.session_eq hmodel hassociation hkind hdatum hone
      hother hrun

/-- Populating an entity whose foreign key was not loaded sets null without a query, whatever the row
has in the column. -/
theorem unloaded_foreign_key_leads_nowhere (h : OfRow start session model excluded part ref w)
    (hassociation : (associationOfEntity ref relation).runOn w = (.ok a, t))
    (hkind : a.kind = .belongsTo key) (htext : a.foreignKey.text? = some foreign)
    (hcolumn : OnlyColumn model foreign w) (hunloaded : foreign ∉ (kept excluded part).names)
    (shape : Shape) : ∃ after, (populate ref relation shape).runOn w = (.ok (), after) ∧
      after.trace = w.trace ∧ Got ref relation .null w after := by
  have hpoints : Points a.foreignKey .null ref w :=
    ⟨.null, h.foreignValue_of_unloaded hcolumn htext hunloaded, kept_null _⟩
  have hfinalized := (associationOfEntity_widens ref relation).of_run hassociation
  have hquiet : t.trace = w.trace :=
    Leads.trace_eq ((associationOfEntity_sends ref relation).of_run hassociation)
  have hload := load_null session shape hkind
    (hpoints.widens hfinalized h.hydrated.inside) rfl
  refine ⟨t.relate ref relation none, ?_, hquiet,
    hfinalized.got_relate h.hydrated.inside relation none⟩
  rw [populate_runOn h.session_eq hassociation, Action.runOn_bind_ok hload]
  exact holdAttribute_related ref relation none t

end Loaded

/-! ## 4. The author of a post -/

/-- Posts, each of an author. -/
def posts : Model.Definition :=
  let id : Model.Column := { name := "id", spelling := "Number", type := .integer, isKey := true }
  let title : Model.Column := { name := "title", spelling := "Text", type := .text }
  let author : Model.Column := { name := "author_id", spelling := "Number", type := .integer }
  let belongs : Association :=
    { kind := .belongsTo Model.defaultKey, target := .str "Author", foreignKey := .str "author_id" }
  { name := "Post", key := "Post",
    attributes := [("id", .column id), ("title", .column title), ("author_id", .column author),
      ("author", .association belongs)] }

/-- Authors. -/
def authors : Model.Definition :=
  let id : Model.Column := { name := "id", spelling := "Number", type := .integer, isKey := true }
  let name : Model.Column := { name := "name", spelling := "Text", type := .text }
  { name := "Author", key := "Author", attributes := [("id", .column id), ("name", .column name)] }

/-- The row of a post. -/
def postRow : Row := [("id", .int 1), ("title", .str "Leak"), ("author_id", .int 7)]

/-- A world with posts and authors; a statement will be answered with the row of an author. -/
def blog : World :=
  let defined := ((do
    for d in [posts, authors] do
      let _ ← defineShared d : Action World Unit).runOn {}).2
  { defined with
    replies := [⟨.ok (.rows [[("id", .plain (.int 7)), ("name", .plain (.str "Ann"))]]), none⟩] }

/-- The post is loaded as a whole, and again from a part of its row without some columns. -/
def loadedTwice (part : Row) (excluded : List String) :
    Except Fault (EntityRef × EntityRef) × World :=
  (do
    let one ← hydrate 1 "session" [] postRow
    let other ← hydrate 1 "session" excluded part
    return (one, other) : Action World (EntityRef × EntityRef)).runOn blog

/-- Whether an association leads by a foreign key to what an entity belongs to. -/
def belongsBy (foreign : String) (a : Association) : Bool :=
  match a.kind with
  | .belongsTo _ => a.foreignKey.text? == some foreign
  | _ => false

theorem belongsBy_eq_true {foreign : String} (h : belongsBy foreign a = true) :
    ∃ key, a.kind = .belongsTo key ∧ a.foreignKey.text? = some foreign := by
  unfold belongsBy at h
  split at h
  · next key hkind => exact ⟨key, hkind, beq_iff_eq.mp h⟩
  · cases h

/-- Whether two posts were loaded, which belong to an author by their foreign key, and populating
the first one loads the author. -/
def leadsToAuthor (run : Except Fault (EntityRef × EntityRef) × World) : Bool :=
  match run with
  | (.ok (one, _), w) =>
    decide (Free w.registry 1 postRow) &&
    (match w.registry.attribute? (w.registry.classAt 1).ref.id "author_id" with
      | some (.column _) => true
      | _ => false) &&
    (match (associationOfEntity one (.str "author")).runOn w with
      | (.ok a, _) => belongsBy "author_id" a
      | _ => false) &&
    match (populate one (.str "author") {}).runOn w with
    | (.ok _, after) =>
      match Entries.get? (after.entityAt one).attributes (.str "author") with
      | some (.entity _) => true
      | _ => false
    | _ => false
  | _ => false

theorem leadsToAuthor_eq_true {run : Except Fault (EntityRef × EntityRef) × World}
    (h : leadsToAuthor run = true) : ∃ one other w a t key after r, run = (.ok (one, other), w) ∧
      Free w.registry 1 postRow ∧ OnlyColumn 1 "author_id" w ∧
      (associationOfEntity one (.str "author")).runOn w = (.ok a, t) ∧ a.kind = .belongsTo key ∧
      a.foreignKey.text? = some "author_id" ∧
      (populate one (.str "author") {}).runOn w = (.ok (), after) ∧
      Entries.get? (after.entityAt one).attributes (.str "author") = some (.entity r) := by
  unfold leadsToAuthor at h
  split at h
  · next one other w =>
    simp only [Bool.and_eq_true, decide_eq_true_eq] at h
    obtain ⟨⟨⟨hfree, hcolumn⟩, hbelongs⟩, hpopulated⟩ := h
    split at hbelongs
    · next a t hassociation =>
      obtain ⟨key, hkind, htext⟩ := belongsBy_eq_true hbelongs
      split at hpopulated
      · next after hrun =>
        split at hpopulated
        · next r hheld =>
          refine ⟨one, other, w, a, t, key, after, r, rfl, hfree, fun found hfound => ?_,
            hassociation, hkind, htext, hrun, hheld⟩
          rw [hfound] at hcolumn
          cases found with
          | column index => exact ⟨index, rfl⟩
          | _ => cases hcolumn
        · cases hpopulated
      · cases hpopulated
    · cases hbelongs
  · cases h

theorem loadedTwice_ofRow {part : Row} {one other : EntityRef}
    (h : loadedTwice part excluded = (.ok (one, other), w)) : ∃ start start',
      OfRow start "session" 1 [] postRow one w ∧ OfRow start' "session" 1 excluded part other w := by
  obtain ⟨one, t, hone, h⟩ := Action.runOn_bind_eq_ok.mp h
  obtain ⟨other, u, hother, h⟩ := Action.runOn_bind_eq_ok.mp h
  cases h
  exact ⟨_, _, (hydrate_ofRow hone).adds ((hydrate_adds 1 "session" excluded part).of_run hother),
    hydrate_ofRow hother⟩

/-- A post of which only the foreign key was loaded leads to the author of the whole post. -/
theorem author_of_a_part_of_a_post : ∃ one other w a t key start start' after after' found,
    loadedTwice [("author_id", .int 7), ("id", .int 1)] ["id"] = (.ok (one, other), w) ∧
    OfRow start "session" 1 [] postRow one w ∧
    OfRow start' "session" 1 ["id"] [("author_id", .int 7), ("id", .int 1)] other w ∧
    PartOf [("author_id", .int 7), ("id", .int 1)] postRow ∧ Free w.registry 1 postRow ∧
    (associationOfEntity one (.str "author")).runOn w = (.ok a, t) ∧ a.kind = .belongsTo key ∧
    a.foreignKey.text? = some "author_id" ∧
    (Dictionary.ofList postRow).get? "author_id" = some (.int 7) ∧
    (populate one (.str "author") {}).runOn w = (.ok (), after) ∧
    (populate other (.str "author") {}).runOn w = (.ok (), after') ∧
    SameRelated (.str "author") (.int 7) one other w after after' found := by
  have hleads :
      leadsToAuthor (loadedTwice [("author_id", .int 7), ("id", .int 1)] ["id"]) = true := by
    decide +kernel
  obtain ⟨one, other, w, a, t, key, after, r, hrun, hfree, -, hassociation, hkind, htext,
    hpopulated, -⟩ := leadsToAuthor_eq_true hleads
  obtain ⟨start, start', hone, hother⟩ := loadedTwice_ofRow hrun
  have hpart : PartOf [("author_id", .int 7), ("id", .int 1)] postRow :=
    partOf_of_forall (List.forall_mem_cons.mpr ⟨rfl, List.forall_mem_singleton.mpr rfl⟩)
  obtain ⟨after', found, hagain, hsame⟩ := (loaded_foreign_key_leads_to_the_same_row hone hother
    hpart hfree hassociation hkind htext rfl rfl (.inl (by decide)) {}).2 after hpopulated
  exact ⟨one, other, w, a, t, key, start, start', after, after', found, hrun, hone, hother, hpart,
    hfree, hassociation, hkind, htext, rfl, hpopulated, hagain, hsame⟩

/-- A post that was loaded without its foreign key belongs to nobody, though its row has the key of
an author, to whom the whole post leads. -/
theorem author_of_a_post_without_its_key : ∃ one other w start start' after after' r,
    loadedTwice postRow ["author_id"] = (.ok (one, other), w) ∧
    OfRow start "session" 1 [] postRow one w ∧
    OfRow start' "session" 1 ["author_id"] postRow other w ∧
    (Dictionary.ofList postRow).get? "author_id" = some (.int 7) ∧
    (populate other (.str "author") {}).runOn w = (.ok (), after) ∧ after.trace = w.trace ∧
    Got other (.str "author") .null w after ∧
    (populate one (.str "author") {}).runOn w = (.ok (), after') ∧ after'.trace ≠ w.trace ∧
    Entries.get? (after'.entityAt one).attributes (.str "author") = some (.entity r) := by
  have hleads : leadsToAuthor (loadedTwice postRow ["author_id"]) = true := by decide +kernel
  obtain ⟨one, other, w, a, t, key, after', r, hrun, hfree, hcolumn, hassociation, hkind, htext,
    hpopulated, hheld⟩ := leadsToAuthor_eq_true hleads
  obtain ⟨start, start', hone, hother⟩ := loadedTwice_ofRow hrun
  have hmodel : (w.entityAt other).model = (w.entityAt one).model :=
    hother.hydrated.model_eq.trans hone.hydrated.model_eq.symm
  obtain ⟨after, hnowhere, hquiet, hgot⟩ := unloaded_foreign_key_leads_nowhere hother
    ((associationOfEntity_congr hmodel _).trans hassociation) hkind htext hcolumn (by decide) {}
  have hpoints : Points a.foreignKey (.int 7) one w := hone.points_of_whole hfree htext rfl
  obtain ⟨_, _, -, hsame⟩ := populate_again hone.session_eq hone.session_eq rfl hassociation hkind
    rfl hpoints hpoints hpopulated
  have hasked : after'.trace ≠ w.trace := fun hnone => by
    cases hsame.followed.quiet_iff.mp hnone
  exact ⟨one, other, w, start, start', after, after', r, hrun, hone, hother, rfl, hnowhere, hquiet,
    hgot, hpopulated, hasked, hheld⟩

end RowMapper.World
