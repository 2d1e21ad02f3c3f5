import RowMapper.Proofs.Shop.Product

/-!
# What a change writes over

A change by a key reads a row, sets what is given, and writes back every column that was read.  So
what another client wrote in between is lost, also in columns that are not given: two changes of one
product are both kept if one comes after the other, but if both read before either writes, only the
last one is kept.
-/
namespace RowMapper.Shop

open Model (Mapper)
open Sql (Store assign hasKey keyedText)
open Sql.Store (Answers Interleaves Run sentIn)
open World (Counts Rewrites SentAs known written)

/-! ## 1. Rows of products -/

/-- A row of the products as a database has it, with its id. -/
structure IsProduct (id : Int) (row : Row) : Prop where
  names_eq : row.names = productColumns
  id_eq : row.get? "id" = some (.int id)
  data : ∀ entry ∈ row, entry.2.isDatum = true

/-- What can be changed in a product: some columns, but not the id. -/
structure IsChange (d : Dictionary Value) : Prop where
  nodup : d.names.Nodup
  id_not_mem : "id" ∉ d.names
  data : ∀ entry ∈ d, entry.2.isDatum = true

theorem Changes.isChange {r : Request} {id : Int} {fields : Dictionary Value}
    (h : Changes r id fields) : IsChange (changesOf fields) := by
  obtain ⟨hnodup, -, hid, hdata⟩ := h.changes
  exact ⟨hnodup, hid, hdata⟩

variable {id : Int} {row read before : Row} {d : Dictionary Value} {m : Mapper}

theorem data_get? {e : Dictionary Value} (h : ∀ entry ∈ e, entry.2.isDatum = true) {name : String}
    {v : Value} (hv : e.get? name = some v) : v.isDatum = true := h _ (Dictionary.mem_of_get? hv)

theorem IsProduct.assign (h : IsProduct id row) (hd : IsChange d) :
    IsProduct id (assign d row) where
  names_eq := (Sql.names_assign d row).trans h.names_eq
  id_eq := by
    rw [Sql.get?_assign, h.id_eq, Dictionary.get?_eq_none hd.id_not_mem]
    rfl
  data := by
    intro entry hentry
    obtain ⟨old, hold, rfl⟩ := List.mem_map.mp hentry
    cases hnew : d.get? old.1 with
    | none => exact h.data old hold
    | some v => exact data_get? hd.data hnew

/-- What is known of a product: what is given, or else what was read. -/
theorem known_product (hread : IsProduct id read) (hd : IsChange d) (name : String) :
    known (Entries.ofNamed d) read name = (d.get? name).or (read.get? name) := by
  have hnodup : read.names.Nodup := by
    rw [hread.names_eq]
    decide
  rw [known, Entries.lastGiven_ofNamed hd.nodup, Dictionary.ofList_of_nodup hnodup]

/-- What is written over a row of the products leaves what was read, with what is given. -/
theorem assign_written (hm : StoresProducts m) (hread : IsProduct id read)
    (hbefore : IsProduct id before) (hd : IsChange d) :
    assign (written m (known (Entries.ofNamed d) read)) before = assign d read := by
  refine Dictionary.ext_of_get? ?_ ?_ ?_
  · rw [Sql.names_assign, Sql.names_assign, hbefore.names_eq, hread.names_eq]
  · rw [Sql.names_assign, hbefore.names_eq]
    decide
  intro name hname
  rw [Sql.names_assign, hbefore.names_eq] at hname
  rw [Sql.get?_assign, Sql.get?_assign, World.get?_written, hm.columns_eq, hm.key_eq,
    known_product hread hd]
  by_cases hid : name = "id"
  · subst hid
    simp [hbefore.id_eq, hread.id_eq, Dictionary.get?_eq_none hd.id_not_mem]
  · obtain ⟨old, hold⟩ := Option.ne_none_iff_exists'.mp
      (Dictionary.get?_ne_none_of_mem (hbefore.names_eq ▸ hname))
    obtain ⟨v, hv⟩ := Option.ne_none_iff_exists'.mp
      (Dictionary.get?_ne_none_of_mem (hread.names_eq ▸ hname))
    rw [hold, hv, if_pos ⟨hname, hid⟩]
    cases d.get? name <;> rfl

/-- The values of a change of a product are kept as they are given. -/
theorem settings_written (hread : IsProduct id read) (hd : IsChange d) {values : List Value}
    (h : List.Forall₂ SentAs ((written m (known (Entries.ofNamed d) read)).map (·.2)) values) :
    (written m (known (Entries.ofNamed d) read)).names.zip (values.map Value.unplaced) =
      written m (known (Entries.ofNamed d) read) := by
  have hdata : ∀ v ∈ (written m (known (Entries.ofNamed d) read)).map (·.2), v.isDatum = true := by
    intro v hv
    obtain ⟨⟨name, v⟩, hentry, rfl⟩ := List.mem_map.mp hv
    obtain ⟨hentry, -⟩ := List.mem_filter.mp hentry
    obtain ⟨name', -, hknown⟩ := List.mem_filterMap.mp hentry
    obtain ⟨v', hv', heq⟩ := Option.map_eq_some_iff.mp hknown
    cases heq
    rw [known_product hread hd, Option.or_eq_some_iff] at hv'
    rcases hv' with hgiven | ⟨-, hold⟩
    · exact data_get? hd.data hgiven
    · exact data_get? hread.data hold
  have hvalues : values.map Value.unplaced =
      (written m (known (Entries.ofNamed d) read)).map (·.2) := by
    generalize (written m (known (Entries.ofNamed d) read)).map (·.2) = given at h hdata
    induction h with
    | nil => rfl
    | @cons v sent given values hsent _ ih =>
      obtain ⟨hv, hgiven⟩ := List.forall_mem_cons.mp hdata
      rw [List.map_cons, ih hgiven]
      rcases hsent.same hv with rfl | ⟨number, rfl⟩
      · rw [Value.unplaced_datum hv]
      · rw [Value.unplaced_lyingAt hv]
  rw [hvalues, Dictionary.names, List.zip_map', List.map_id']

/-! ## 2. One statement -/

variable {P : Mapper → Row → Exchange → Prop} {a b c e : Exchange} {s s' t : Store}

theorem Wrote.pair {sent : List Exchange} (h : Wrote id P sent) : ∃ a b, sent = [a, b] := by
  cases h
  exact ⟨_, _, rfl⟩

/-- What is read of a product is the one row that has its id. -/
theorem Wrote.reads (h : Wrote id P [a, b]) (hrow : s.filter (hasKey "id" (.int id)) = [row])
    (hanswer : Answers "products" "id" s a s') :
    s' = s ∧ ∃ m, StoresProducts m ∧ P m row b := by
  cases h with
  | mk hm hread hresult hwrite =>
    obtain ⟨rfl, hrows⟩ := hanswer.selection hread hresult
    rw [hrow] at hrows
    cases hrows
    exact ⟨rfl, _, hm, hwrite⟩

/-- The row after a change is the row that was read, with what is given; what stood there before
does not matter. -/
theorem change_writes (hm : StoresProducts m)
    (hrewrites : Rewrites m (Entries.ofNamed d) read b.call) {found : Bool} (hcounts : Counts b found)
    (hread : IsProduct id read) (hd : IsChange d) (hs : s.Keyed "id")
    (hrow : s.filter (hasKey "id" (.int id)) = [before]) (hbefore : IsProduct id before)
    (hanswer : Answers "products" "id" s b s') :
    s'.filter (hasKey "id" (.int id)) = [assign d read] := by
  obtain ⟨insertId, count, hresult, -⟩ := hcounts
  generalize hcall : b.call = call at hrewrites
  cases hrewrites with
  | @mk table values key htable hwell hvalues hkey =>
    have hproducts : Sql.safeName (.str "products") = .ok "products" := rfl
    rw [hm.table_eq, hproducts] at htable
    cases htable
    have htext := Sql.Write.read?_text hwell
    rw [Sql.Write.text, hm.key_eq] at htext
    rw [hm.key_eq] at hcall hkey
    obtain ⟨rfl, -⟩ := hanswer.change hcall htext hresult
    -- the key is the id, perhaps with a number on the shelf
    have hknown : known (Entries.ofNamed d) read "id" = some (.int id) := by
      rw [known_product hread hd, Dictionary.get?_eq_none hd.id_not_mem, Option.none_or, hread.id_eq]
    have hplace : ∃ place, key = .intAt id place := by
      rcases (hkey _ hknown).same rfl with rfl | ⟨number, rfl⟩
      · exact ⟨none, rfl⟩
      · exact ⟨some number, rfl⟩
    obtain ⟨place, rfl⟩ := hplace
    have hnot : "id" ∉ (written m (known (Entries.ofNamed d) read)).names := by
      intro hmem
      refine Dictionary.get?_ne_none_of_mem hmem ?_
      rw [World.get?_written, hm.key_eq]
      simp
    rw [settings_written hread hd hvalues, Sql.Store.filter_change hs hnot, hrow, List.map_singleton,
      assign_written hm hread hbefore hd]

/-! ## 3. Two clients -/

/-- One client changes a product, and then the other does. -/
theorem change_after_change {d₁ d₂ : Dictionary Value} {found₁ found₂ : Bool}
    (hleft : Wrote id (fun m row x => Rewrites m (Entries.ofNamed d₁) row x.call ∧ Counts x found₁)
      [a, b])
    (hright : Wrote id (fun m row x => Rewrites m (Entries.ofNamed d₂) row x.call ∧ Counts x found₂)
      [c, e])
    (hd₁ : IsChange d₁) (hd₂ : IsChange d₂) (hs : s.Keyed "id")
    (hrow : s.filter (hasKey "id" (.int id)) = [row]) (hproduct : IsProduct id row)
    (hrun : Run "products" "id" s [a, b, c, e] s') :
    s'.filter (hasKey "id" (.int id)) = [assign d₂ (assign d₁ row)] := by
  obtain ⟨t, ha, hrun⟩ := Sql.Store.run_cons.mp hrun
  obtain ⟨u, hb, hrun⟩ := Sql.Store.run_cons.mp hrun
  obtain ⟨v, hc, hrun⟩ := Sql.Store.run_cons.mp hrun
  obtain ⟨x, he, hnil⟩ := Sql.Store.run_cons.mp hrun
  cases hnil
  obtain ⟨rfl, m₁, hm₁, hrewrites₁, hcounts₁⟩ := hleft.reads hrow ha
  have hrow₁ := change_writes hm₁ hrewrites₁ hcounts₁ hproduct hd₁ hs hrow hproduct hb
  obtain ⟨rfl, m₂, hm₂, hrewrites₂, hcounts₂⟩ := hright.reads hrow₁ hc
  have hproduct₁ := hproduct.assign hd₁
  exact change_writes hm₂ hrewrites₂ hcounts₂ hproduct₁ hd₂ (hb.keyed hs) hrow₁ hproduct₁ he

/-- Two clients change a product after both have read it. -/
theorem change_over_change {d₁ d₂ : Dictionary Value} {found₁ found₂ : Bool} {x y : Exchange}
    (hleft : Wrote id (fun m row x => Rewrites m (Entries.ofNamed d₁) row x.call ∧ Counts x found₁)
      [a, b])
    (hright : Wrote id (fun m row x => Rewrites m (Entries.ofNamed d₂) row x.call ∧ Counts x found₂)
      [c, e])
    (hd₁ : IsChange d₁) (hd₂ : IsChange d₂) (hs : s.Keyed "id")
    (hrow : s.filter (hasKey "id" (.int id)) = [row]) (hproduct : IsProduct id row)
    (hfirst : x = a ∧ y = c ∨ x = c ∧ y = a) (hrun : Run "products" "id" s [x, y, b, e] s') :
    s'.filter (hasKey "id" (.int id)) = [assign d₂ row] := by
  obtain ⟨t, hx, hrun⟩ := Sql.Store.run_cons.mp hrun
  obtain ⟨u, hy, hrun⟩ := Sql.Store.run_cons.mp hrun
  obtain ⟨v, hb, hrun⟩ := Sql.Store.run_cons.mp hrun
  obtain ⟨w, he, hnil⟩ := Sql.Store.run_cons.mp hrun
  cases hnil
  have hreads : u = s ∧ (∃ m, StoresProducts m ∧ Rewrites m (Entries.ofNamed d₁) row b.call ∧
      Counts b found₁) ∧ ∃ m, StoresProducts m ∧ Rewrites m (Entries.ofNamed d₂) row e.call ∧
      Counts e found₂ := by
    rcases hfirst with ⟨rfl, rfl⟩ | ⟨rfl, rfl⟩
    · obtain ⟨rfl, hone⟩ := hleft.reads hrow hx
      obtain ⟨rfl, htwo⟩ := hright.reads hrow hy
      exact ⟨rfl, hone, htwo⟩
    · obtain ⟨rfl, htwo⟩ := hright.reads hrow hx
      obtain ⟨rfl, hone⟩ := hleft.reads hrow hy
      exact ⟨rfl, hone, htwo⟩
  obtain ⟨rfl, ⟨m₁, hm₁, hrewrites₁, hcounts₁⟩, m₂, hm₂, hrewrites₂, hcounts₂⟩ := hreads
  have hrow₁ := change_writes hm₁ hrewrites₁ hcounts₁ hproduct hd₁ hs hrow hproduct hb
  exact change_writes hm₂ hrewrites₂ hcounts₂ hproduct hd₂ (hb.keyed hs) hrow₁
    (hproduct.assign hd₁) he

/-- The statements of a change that was answered with success. -/
theorem Changes.wrote {r : Request} {w : World} {fields : Dictionary Value} (hw : Served w)
    (h : Changes r id fields) (hstatus : (handle r w).1.status = 200) :
    ∃ found, Wrote id (fun m row x =>
      Rewrites m (Entries.ofNamed (changesOf fields)) row x.call ∧ Counts x found)
      (exchanges r w) := by
  obtain ⟨text, body, hroute, -⟩ := h.2
  obtain ⟨id', fields', found, hchanges, hwrote⟩ := changed_exchanges hw hroute h.1 hstatus
  obtain ⟨rfl, rfl⟩ := h.unique hchanges
  exact ⟨found, hwrote⟩

/-- **What a change by a key writes over.**  It sends nothing but selections, or one row is read
and then whatever row is there is overwritten: what is given is set, the other columns that were
read come back, and the rest stays.  So of two changes of one product, in whatever turns their
statements come, both are kept if one is made after the other; and if both read before either
writes, the row is as it was read but for the last change. -/
theorem columns_that_were_read_are_written_back :
    (∀ (w : World) (session : String) (model : Nat) (key data : Value) (entries : Entries)
      (place : Place), w.Sound → w.look data = .mappingAt entries place →
      World.Leads [.selection] w ((World.findByIdAndUpdate session model key data).runOn w).2 ∨
      ∃ sent, ((World.findByIdAndUpdate session model key data).runOn w).2.trace =
          w.trace ++ sent ∧ World.WritesOver w model entries sent) ∧
    ∀ (r₁ r₂ : Request) (w₁ w₂ : World) (id : Int) (fields₁ fields₂ : Dictionary Value),
      Served w₁ → Served w₂ → Changes r₁ id fields₁ → Changes r₂ id fields₂ →
      (handle r₁ w₁).1.status = 200 → (handle r₂ w₂).1.status = 200 →
      ∀ (turns : List (Exchange ⊕ Exchange)) (s s' : Store) (row : Row),
        Interleaves turns (exchanges r₁ w₁) (exchanges r₂ w₂) → s.Keyed "id" →
        s.filter (hasKey "id" (.int id)) = [row] → IsProduct id row →
        Run "products" "id" s (sentIn turns) s' →
        ∃ a b c e after, exchanges r₁ w₁ = [a, b] ∧ exchanges r₂ w₂ = [c, e] ∧
          s'.filter (hasKey "id" (.int id)) = [after] ∧
          ((turns = [.inl a, .inl b, .inr c, .inr e] ∧
              after = assign (changesOf fields₂) (assign (changesOf fields₁) row)) ∨
            (turns = [.inr c, .inr e, .inl a, .inl b] ∧
              after = assign (changesOf fields₁) (assign (changesOf fields₂) row)) ∨
            (∃ first, turns = first ++ [.inl b, .inr e] ∧ after = assign (changesOf fields₂) row) ∨
            ∃ first, turns = first ++ [.inr e, .inl b] ∧ after = assign (changesOf fields₁) row) := by
  refine ⟨?_, ?_⟩
  · intro w session model key data entries place hw hdata
    refine (World.findByIdAndUpdate_rewrites hw hdata).imp_right ?_
    rintro ⟨sent, htrace, hwrites⟩
    exact ⟨sent, htrace, hwrites.writesOver⟩
  intro r₁ r₂ w₁ w₂ id fields₁ fields₂ hw₁ hw₂ hchanges₁ hchanges₂ hstatus₁ hstatus₂ turns s s' row
    hturns hs hrow hproduct hrun
  obtain ⟨found₁, hleft⟩ := hchanges₁.wrote hw₁ hstatus₁
  obtain ⟨found₂, hright⟩ := hchanges₂.wrote hw₂ hstatus₂
  have hd₁ := hchanges₁.isChange
  have hd₂ := hchanges₂.isChange
  generalize exchanges r₁ w₁ = xs at hleft hturns ⊢
  generalize exchanges r₂ w₂ = ys at hright hturns ⊢
  obtain ⟨a, b, rfl⟩ := hleft.pair
  obtain ⟨c, e, rfl⟩ := hright.pair
  refine ⟨a, b, c, e, ?_⟩
  rcases Sql.Store.interleaves_pairs hturns with rfl | rfl | ⟨first, last, hfirst, hlast, rfl⟩
  · exact ⟨_, rfl, rfl, change_after_change hleft hright hd₁ hd₂ hs hrow hproduct hrun,
      .inl ⟨rfl, rfl⟩⟩
  · exact ⟨_, rfl, rfl, change_after_change hright hleft hd₂ hd₁ hs hrow hproduct hrun,
      .inr (.inl ⟨rfl, rfl⟩)⟩
  rcases hlast with rfl | rfl
  · refine ⟨_, rfl, rfl, ?_, .inr (.inr (.inl ⟨first, rfl, rfl⟩))⟩
    rcases hfirst with rfl | rfl
    · exact change_over_change hleft hright hd₁ hd₂ hs hrow hproduct (.inl ⟨rfl, rfl⟩) hrun
    · exact change_over_change hleft hright hd₁ hd₂ hs hrow hproduct (.inr ⟨rfl, rfl⟩) hrun
  · refine ⟨_, rfl, rfl, ?_, .inr (.inr (.inr ⟨first, rfl, rfl⟩))⟩
    rcases hfirst with rfl | rfl
    · exact change_over_change hright hleft hd₂ hd₁ hs hrow hproduct (.inr ⟨rfl, rfl⟩) hrun
    · exact change_over_change hright hleft hd₂ hd₁ hs hrow hproduct (.inl ⟨rfl, rfl⟩) hrun

/-! ## 4. A hammer on stock -/

/-- The price of the hammer. -/
def hammerPrice : Binary64 := Binary64.ofRatio false 25 2

/-- The hammer as it is stored. -/
def storedHammer : Row := [("id", .int 1), ("name", .str "Hammer"), ("price", .float hammerPrice),
  ("stock", .int 0), ("category_id", .int 2)]

/-- A request that changes the hammer, which is read, and the change is said to affect one row. -/
def changing (body : String) : Request where
  verb := "PUT"
  address := "/api/products/1"
  body := some body
  replies := [
    ⟨.ok (.rows [storedHammer.map fun entry => (entry.1, .plain entry.2)]), none⟩,
    ⟨.ok (.done (.plain .null) (.plain (.int 1))), none⟩]

/-- The request that seven hammers are in stock. -/
def restocking : Request := changing "\x7b\"stock\":7\x7d"

/-- The request that the hammer is in the third category. -/
def moving : Request := changing "\x7b\"category_id\":3\x7d"

/-- The text that changes all columns of a product. -/
def changeAllText : String :=
  Sql.changeText "products" ["name", "price", "stock", "category_id"] "id"

/-- Whether the hammer was read and then changed in all columns, to which stock and category. -/
def isChangeTo (stock category : Int) : List Exchange → Bool
  | [⟨.statement read [.intAt 1 none], _, .ok (.rows [[("id", .intAt 1 none),
        ("name", .strAt "Hammer" none), ("price", .floatAt price none), ("stock", .intAt 0 none),
        ("category_id", .intAt 2 none)]])⟩,
      ⟨.statement write [.strAt "Hammer" _, .floatAt price' _, .intAt n none, .intAt k none,
        .intAt 1 none], _, .ok (.done .null (.intAt 1 none))⟩] =>
    read == keyedText "products" "id" && write == changeAllText && price == hammerPrice &&
      price' == hammerPrice && n == stock && k == category
  | _ => false

theorem isChangeTo_eq {stock category : Int} {sent : List Exchange}
    (h : isChangeTo stock category sent = true) : ∃ seen seen' place place',
    sent = [⟨.statement (keyedText "products" "id") [.int 1], seen, .ok (.rows [storedHammer])⟩,
      ⟨.statement changeAllText ([.strAt "Hammer" place, .floatAt hammerPrice place', .int stock,
        .int category] ++ [.int 1]), seen', .ok (.done .null (.int 1))⟩] := by
  unfold isChangeTo at h
  split at h
  · simp only [Bool.and_eq_true, beq_iff_eq] at h
    obtain ⟨⟨⟨⟨⟨rfl, rfl⟩, rfl⟩, rfl⟩, rfl⟩, rfl⟩ := h
    exact ⟨_, _, _, _, rfl⟩
  · cases h

theorem changing_product (body : String) : routeOf? (changing body).path = some (.product "1") := by
  have hpath : (changing body).path = "/api/products/1" := by
    show (changing "").path = "/api/products/1"
    decide +kernel
  have hparts : partsBetween '/' "/api/products/1" = ["", "api", "products", "1"] := by
    decide +kernel
  rw [hpath, routeOf?, hparts]
  rfl

/-- Whether a body is an object with one integer. -/
def isBody (name : String) (n : Int) : Except BodyFault (Option Value) → Bool
  | .ok (some (.mappingAt [(.strAt known none, .intAt m none)] none)) => known == name && m == n
  | _ => false

theorem isBody_eq {name : String} {n : Int} {body : Except BodyFault (Option Value)}
    (h : isBody name n body = true) : body = .ok (some (.mapping [(.str name, .int n)])) := by
  unfold isBody at h
  split at h
  · simp only [Bool.and_eq_true, beq_iff_eq] at h
    obtain ⟨rfl, rfl⟩ := h
    rfl
  · cases h

theorem restocking_changes : Changes restocking 1
    [("name", .null), ("price", .null), ("stock", .int 7), ("category_id", .null)] :=
  ⟨by decide +kernel, "1", _, changing_product _, rfl,
    isBody_eq (show isBody "stock" 7 (bodyValue restocking.body) = true by decide +kernel), rfl⟩

theorem moving_changes : Changes moving 1
    [("name", .null), ("price", .null), ("stock", .null), ("category_id", .int 3)] :=
  ⟨by decide +kernel, "1", _, changing_product _, rfl,
    isBody_eq (show isBody "category_id" 3 (bodyValue moving.body) = true by decide +kernel), rfl⟩

theorem changeAll_read : Sql.Write.read? changeAllText =
    some (.change "products" ["name", "price", "stock", "category_id"] "id") := by
  have hwell : (Sql.Write.change "products" ["name", "price", "stock", "category_id"]
      "id").WellFormed := ⟨by decide, by rintro _ _ _ ⟨⟩; simp⟩
  have htext := Sql.Write.read?_text hwell
  rwa [Sql.Write.text] at htext

/-- What the hammer is changed to. -/
def hammerWith (stock category : Int) : Dictionary Value := [("name", .str "Hammer"),
  ("price", .float hammerPrice), ("stock", .int stock), ("category_id", .int category)]

theorem hammer_changed {s : Store} (hcount : s.countP (hasKey "id" (.int 1)) = 1)
    {seen : List View} {stock category : Int} {place place' : Place} :
    Answers "products" "id" s ⟨.statement changeAllText ([.strAt "Hammer" place,
      .floatAt hammerPrice place', .int stock, .int category] ++ [.int 1]), seen,
      .ok (.done .null (.int 1))⟩ (s.change "id" (.int 1) (hammerWith stock category)) := by
  have hanswer : Answers "products" "id" s ⟨.statement changeAllText ([.strAt "Hammer" place,
      .floatAt hammerPrice place', .int stock, .int category] ++ [.int 1]), seen,
      .ok (.done .null (.int (s.countP (hasKey "id" (.int 1)))))⟩ _ :=
    .changed rfl changeAll_read (by decide) rfl rfl
  have hsettings : ["name", "price", "stock", "category_id"].zip (List.map Value.unplaced
      [.strAt "Hammer" place, .floatAt hammerPrice place', .int stock, .int category]) =
      hammerWith stock category := rfl
  rwa [hcount, hsettings] at hanswer

theorem storedHammer_product : IsProduct 1 storedHammer :=
  ⟨rfl, rfl, by simp [storedHammer, Value.isDatum]⟩

theorem storedHammer_keyed : Store.Keyed "id" [storedHammer] := by
  intro row hrow
  obtain rfl := List.mem_singleton.mp hrow
  exact ⟨by decide, 1, rfl⟩

theorem restocking_answered : (handle restocking start).1.status = 200 ∧
    isChangeTo 7 2 (exchanges restocking start) = true := by decide +kernel

theorem moving_answered : (handle moving start).1.status = 200 ∧
    isChangeTo 0 3 (exchanges moving start) = true := by decide +kernel

/-- A request restocks the hammer and another moves it, and both read before either writes: what
the first one wrote is lost. -/
theorem restocking_is_lost :
    (∃ after, after = ((World.findByIdAndUpdate "session" 1 (.int 1)
        (.mapping [(.str "name", .str "Bob")])).runOn World.oneUser).2 ∧
      (World.Leads [.selection] World.oneUser after ∨ ∃ sent,
        after.trace = World.oneUser.trace ++ sent ∧
        World.WritesOver World.oneUser 1 [(.str "name", .str "Bob")] sent)) ∧
    ∃ a b c e s', exchanges restocking start = [a, b] ∧ exchanges moving start = [c, e] ∧
      Run "products" "id" [storedHammer] (sentIn [.inl a, .inr c, .inl b, .inr e]) s' ∧
      s'.filter (hasKey "id" (.int 1)) = [assign [("category_id", .int 3)] storedHammer] := by
  obtain ⟨hover, hturns⟩ := columns_that_were_read_are_written_back
  refine ⟨⟨_, rfl, hover _ _ _ _ _ _ none World.oneUser_sound rfl⟩, ?_⟩
  obtain ⟨hstatus₁, hsent₁⟩ := restocking_answered
  obtain ⟨hstatus₂, hsent₂⟩ := moving_answered
  obtain ⟨seen₁, seen₂, place₁, place₂, hsent₁⟩ := isChangeTo_eq hsent₁
  obtain ⟨seen₃, seen₄, place₃, place₄, hsent₂⟩ := isChangeTo_eq hsent₂
  have hturns := hturns restocking moving start start 1 _ _ .start .start restocking_changes
    moving_changes hstatus₁ hstatus₂
  rw [hsent₁, hsent₂] at hturns
  have hrun {seen seen' seen'' seen''' : List View} {place place' place'' place''' : Place} :
      Run "products" "id" [storedHammer] (sentIn [
        .inl ⟨.statement (keyedText "products" "id") [.int 1], seen, .ok (.rows [storedHammer])⟩,
        .inr ⟨.statement (keyedText "products" "id") [.int 1], seen', .ok (.rows [storedHammer])⟩,
        .inl ⟨.statement changeAllText ([.strAt "Hammer" place, .floatAt hammerPrice place', .int 7,
          .int 2] ++ [.int 1]), seen'', .ok (.done .null (.int 1))⟩,
        .inr ⟨.statement changeAllText ([.strAt "Hammer" place'', .floatAt hammerPrice place''',
          .int 0, .int 3] ++ [.int 1]), seen''', .ok (.done .null (.int 1))⟩])
        ((Store.change "id" (.int 1) (hammerWith 7 2) [storedHammer]).change "id" (.int 1)
          (hammerWith 0 3)) :=
    .cons (.selected rfl rfl) (.cons (.selected rfl rfl) (.cons (hammer_changed rfl)
      (.cons (hammer_changed rfl) (.nil _))))
  obtain ⟨a, b, c, e, after, hleft, hright, hafter, hcases⟩ := hturns _ _ _ storedHammer
    (.left (.right (.left (.right .nil)))) storedHammer_keyed rfl storedHammer_product hrun
  cases hleft
  cases hright
  refine ⟨_, _, _, _, _, hsent₁, hsent₂, hrun, ?_⟩
  rcases hcases with ⟨hsplit, -⟩ | ⟨hsplit, -⟩ | ⟨first, -, rfl⟩ | ⟨first, hsplit, -⟩
  · cases hsplit
  · cases hsplit
  · exact hafter
  · have hlast := congrArg List.getLast? hsplit
    simp at hlast

/-- A request restocks the hammer, which was renamed after it was read: its name is taken back. -/
theorem renaming_is_lost :
    ∃ fields read write text columns values key place, Changes restocking 1 fields ∧
      "name" ∉ (changesOf fields).names ∧ exchanges restocking start = [read, write] ∧
      read.result = .ok (.rows [storedHammer]) ∧
      write.call = .statement text (values ++ [key]) ∧
      Sql.Write.read? text = some (.change "products" columns "id") ∧
      (assign [("name", .str "Mallet")] storedHammer).get? "name" = some (.str "Mallet") ∧
      (assign (columns.zip values) (assign [("name", .str "Mallet")] storedHammer)).get? "name" =
        some (.strAt "Hammer" place) := by
  obtain ⟨seen, seen', place, place', hsent⟩ := isChangeTo_eq restocking_answered.2
  exact ⟨_, _, _, _, _, _, _, place, restocking_changes, by decide, hsent, rfl, rfl, changeAll_read,
    rfl, rfl⟩

end RowMapper.Shop
