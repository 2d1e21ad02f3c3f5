import RowMapper.Proofs.Shop.Product

/-!
# What success says

A request that changes or deletes a product is answered with success when its row was read and its
write was answered with a count; whether the count is zero is not asked.  So success says that the
row was there when it was read.  It is still there for the write unless another client removed it in
between, and of two requests that delete one product both succeed just when both have read the row
before either deletes it.
-/
namespace RowMapper.Shop

open Model (Mapper)
open Sql (Store keyedText)
open Sql.Store (Answers Interleaves Removes Run sentIn)
open World (Counts RemovesRow Rewrites SentAs)

/-! ## 1. The statements of a success -/

/-- The statements of a success: the row with an id was read, and then the row with the key that was
read was written, and the answer to that is a count that can be compared with zero. -/
inductive Succeeded (id : Int) (write : Sql.Write) : List Exchange → Prop
  | mk {read sent : Exchange} {row : Row} {rest : List Row} {text : String} {values : List Value}
      {key insertId count : Value} {found : Bool}
      (hread : read.call = .statement (keyedText "products" "id") [.int id])
      (hrow : read.result = .ok (.rows (row :: rest)))
      (hcall : sent.call = .statement text (values ++ [key]))
      (htext : Sql.Write.read? text = some write)
      (hkey : ∀ k, (Dictionary.ofList row).get? "id" = some k → SentAs k key)
      (hresult : sent.result = .ok (.done insertId count))
      (hcount : World.isPositive count = .ok found) : Succeeded id write [read, sent]

variable {id : Int} {sent : List Exchange} {found : Bool}

theorem Succeeded.pair {write : Sql.Write} (h : Succeeded id write sent) :
    ∃ a b, sent = [a, b] := by
  cases h
  exact ⟨_, _, rfl⟩

theorem table_of_safeName {m : Mapper} (hm : StoresProducts m) {table : String}
    (h : Sql.safeName m.tableName = .ok table) : table = "products" := by
  have hproducts : Sql.safeName (.str "products") = .ok "products" := rfl
  rw [hm.table_eq, hproducts] at h
  exact (Except.ok.inj h).symm

theorem Wrote.changed {changes : Dictionary Value} (hnodup : changes.names.Nodup)
    (hid : "id" ∉ changes.names)
    (h : Wrote id (fun m row x => Rewrites m (Entries.ofNamed changes) row x.call ∧ Counts x found)
      sent) : ∃ columns, Succeeded id (.change "products" columns "id") sent := by
  cases h with
  | mk hm hread hrow hwrite =>
    obtain ⟨hrewrites, insertId, count, hresult, hcount⟩ := hwrite
    obtain ⟨text, table, columns, values, key, hcall, htable, htext, -, hkey, -⟩ :=
      hrewrites.overwrites
    obtain rfl := table_of_safeName hm htable
    rw [hm.key_eq] at htext hkey
    refine ⟨columns, .mk hread hrow hcall htext (fun k hk => hkey k ?_) hresult hcount⟩
    rw [World.known, Entries.lastGiven_ofNamed hnodup, Dictionary.get?_eq_none hid, Option.none_or,
      hk]

theorem Wrote.removed
    (h : Wrote id (fun m row x => RemovesRow m row x.call ∧ Counts x found) sent) :
    Succeeded id (.removal "products" "id") sent := by
  cases h with
  | @mk m read write row rest hm hread hrow hwrite =>
    obtain ⟨hremoves, insertId, count, hresult, hcount⟩ := hwrite
    generalize hcall : write.call = call at hremoves
    cases hremoves with
    | @mk table key htable hwell hkey =>
      obtain rfl := table_of_safeName hm htable
      have htext := Sql.Write.read?_text hwell
      rw [Sql.Write.text, hm.key_eq] at htext
      rw [hm.key_eq] at hcall hkey
      replace hcall : write.call = .statement _ ([] ++ [key]) := hcall
      exact .mk hread hrow hcall htext hkey hresult hcount

/-- What a success sends. -/
theorem succeeded {r : Request} {w : World} {text : String} (hw : Served w)
    (hroute : routeOf? r.path = some (.product text)) (hmethod : r.method = "PUT" ∨ r.method = "DELETE")
    (hstatus : (handle r w).1.status = 200) :
    ∃ id write, Field.integerText text = .ok id ∧ Succeeded id write (exchanges r w) ∧
      ((r.method = "PUT" ∧ ∃ columns, write = .change "products" columns "id") ∨
        (r.method = "DELETE" ∧ write = .removal "products" "id")) := by
  have hsame {text' : String} (hroute' : routeOf? r.path = some (.product text')) : text' = text := by
    cases hroute.symm.trans hroute'
    rfl
  rcases hmethod with hmethod | hmethod
  · obtain ⟨id, fields, found, hchanges, hwrote⟩ := changed_exchanges hw hroute hmethod hstatus
    obtain ⟨hnodup, -, hid, -⟩ := hchanges.changes
    obtain ⟨columns, hsucceeded⟩ := hwrote.changed hnodup hid
    obtain ⟨-, text', body, hroute', hinteger, -⟩ := hchanges
    exact ⟨id, _, hsame hroute' ▸ hinteger, hsucceeded, .inl ⟨hmethod, columns, rfl⟩⟩
  · obtain ⟨id, found, hdeletes, hwrote⟩ := deleted_exchanges hw hroute hmethod hstatus
    obtain ⟨-, text', hroute', hinteger⟩ := hdeletes
    exact ⟨id, _, hsame hroute' ▸ hinteger, hwrote.removed, .inr ⟨hmethod, rfl⟩⟩

theorem deletion_succeeded {r : Request} {w : World} {text : String} (hw : Served w)
    (hroute : routeOf? r.path = some (.product text)) (hid : Field.integerText text = .ok id)
    (hmethod : r.method = "DELETE") (hstatus : (handle r w).1.status = 200) :
    Succeeded id (.removal "products" "id") (exchanges r w) := by
  obtain ⟨id', write, hid', hsucceeded, hkind⟩ := succeeded hw hroute (.inr hmethod) hstatus
  cases hid.symm.trans hid'
  rcases hkind with ⟨hput, -⟩ | ⟨-, rfl⟩
  · exact absurd (hput.symm.trans hmethod) (by decide)
  · exact hsucceeded

/-! ## 2. Over a table -/

/-- A write of products by their id: a change or a removal. -/
def WritesById (write : Sql.Write) : Prop :=
  (∃ columns, write = .change "products" columns "id") ∨ write = .removal "products" "id"

/-- An answer reports that rows were affected. -/
def AffectsSome (x : Exchange) : Prop :=
  ∃ insertId, ∃ n : Int, 0 < n ∧ x.result = .ok (.done insertId (.int n))

/-- An answer reports that no row was affected. -/
def AffectsNone (x : Exchange) : Prop := ∃ insertId, x.result = .ok (.done insertId (.int 0))

variable {write : Sql.Write} {a b c d : Exchange} {s s' t : Store}

/-- The row of a success is there when it is read, and its write names it by the id. -/
theorem Succeeded.reads (h : Succeeded id write [a, b]) (hs : s.Keyed "id")
    (hanswer : Answers "products" "id" s a s') :
    s' = s ∧ 0 < s.countP (Sql.hasKey "id" (.int id)) ∧ ∃ text values place insertId count,
      b.call = .statement text (values ++ [.intAt id place]) ∧
      Sql.Write.read? text = some write ∧ b.result = .ok (.done insertId count) := by
  cases h with
  | @mk _ _ row rest text values key insertId count found hread hrow hcall htext hkey hresult _ =>
    obtain ⟨hsame, hmem, hnodup, hid⟩ := hanswer.found hs hread hrow
    rw [Dictionary.ofList_of_nodup hnodup] at hkey
    have hplace : ∃ place, key = .intAt id place := by
      rcases (hkey _ hid).same rfl with rfl | ⟨number, rfl⟩
      · exact ⟨none, rfl⟩
      · exact ⟨some number, rfl⟩
    obtain ⟨place, rfl⟩ := hplace
    refine ⟨hsame, ?_, text, values, place, insertId, count, hcall, htext, hresult⟩
    obtain ⟨hmem, hkeyed⟩ := List.mem_filter.mp hmem
    exact List.countP_pos_iff.mpr ⟨row, hmem, hkeyed⟩

/-- A write by the id reports how many rows have the id. -/
theorem written_counts (hs : s.Keyed "id") (hwrite : WritesById write) {text : String}
    {values : List Value} {place : Place} {insertId count : Value}
    (hcall : b.call = .statement text (values ++ [.intAt id place]))
    (htext : Sql.Write.read? text = some write) (hresult : b.result = .ok (.done insertId count))
    (hanswer : Answers "products" "id" s b s') :
    count = .int (s.countP (Sql.hasKey "id" (.int id))) := by
  rw [← Sql.Store.countP_intAt hs id place]
  rcases hwrite with ⟨columns, rfl⟩ | rfl
  · exact (hanswer.change hcall htext hresult).2
  · exact (hanswer.removal hcall htext hresult).2

/-- A row that is not removed between its reading and its writing is written. -/
theorem Succeeded.affects {between : List Exchange} (h : Succeeded id write [a, b])
    (hwrite : WritesById write) (hs : s.Keyed "id")
    (hrun : Run "products" "id" s (a :: (between ++ [b])) s')
    (hbetween : ∀ x ∈ between, ¬Removes "products" "id" x.call) : AffectsSome b := by
  obtain ⟨t, hread, hrest⟩ := Sql.Store.run_cons.mp hrun
  obtain ⟨rfl, hthere, text, values, place, insertId, count, hcall, htext, hresult⟩ :=
    h.reads hs hread
  obtain ⟨u, hbetween_run, hwrite_run⟩ := Sql.Store.run_append.mp hrest
  obtain ⟨v, hlast, -⟩ := Sql.Store.run_cons.mp hwrite_run
  have hcount := written_counts (hbetween_run.keyed hs) hwrite hcall htext hresult hlast
  rw [hbetween_run.stays hbetween] at hcount
  exact ⟨insertId, _, by exact_mod_cast hthere, hcount ▸ hresult⟩

/-- After a removal by the id, the same removal affects nothing. -/
theorem removed_twice (hs : s.Keyed "id") {text text' : String} {values values' : List Value}
    {place place' : Place} {insertId insertId' count count' : Value}
    (hcall : b.call = .statement text (values ++ [.intAt id place]))
    (htext : Sql.Write.read? text = some (.removal "products" "id"))
    (hresult : b.result = .ok (.done insertId count))
    (hcall' : d.call = .statement text' (values' ++ [.intAt id place']))
    (htext' : Sql.Write.read? text' = some (.removal "products" "id"))
    (hresult' : d.result = .ok (.done insertId' count'))
    (hthere : 0 < s.countP (Sql.hasKey "id" (.int id)))
    (hrun : Run "products" "id" s [b, d] s') : AffectsSome b ∧ AffectsNone d := by
  obtain ⟨t, hfirst, hrun⟩ := Sql.Store.run_cons.mp hrun
  obtain ⟨u, hlast, -⟩ := Sql.Store.run_cons.mp hrun
  have hcount := written_counts hs (.inr rfl) hcall htext hresult hfirst
  have hcount' := written_counts (hfirst.keyed hs) (.inr rfl) hcall' htext' hresult' hlast
  obtain ⟨rfl, -⟩ := hfirst.removal hcall htext hresult
  refine ⟨⟨insertId, _, by exact_mod_cast hthere, hcount ▸ hresult⟩, insertId', ?_⟩
  rw [hresult', hcount', ← Sql.Store.countP_intAt (hfirst.keyed hs) id place,
    Sql.Store.countP_remove]
  rfl

/-- Two removals of one product, each after its own reading: both readings come first, and only the
first removal affects a row. -/
theorem removals_interleaved {turns : List (Exchange ⊕ Exchange)}
    (hleft : Succeeded id (.removal "products" "id") [a, b])
    (hright : Succeeded id (.removal "products" "id") [c, d])
    (hturns : Interleaves turns [a, b] [c, d]) (hs : s.Keyed "id")
    (hrun : Run "products" "id" s (sentIn turns) s') :
    ∃ first last, turns = first ++ last ∧ (first = [.inl a, .inr c] ∨ first = [.inr c, .inl a]) ∧
      ((last = [.inl b, .inr d] ∧ AffectsSome b ∧ AffectsNone d) ∨
        (last = [.inr d, .inl b] ∧ AffectsSome d ∧ AffectsNone b)) := by
  -- who reads after a removal does not find the row
  have hgone {x y z : Exchange} (hfirst : Succeeded id (.removal "products" "id") [x, y])
      (hnext : ∃ v, Succeeded id (.removal "products" "id") [z, v])
      (hrun : ∃ rest, Run "products" "id" s (x :: y :: z :: rest) s') : False := by
    obtain ⟨rest, hrun⟩ := hrun
    obtain ⟨v, hnext⟩ := hnext
    obtain ⟨t, hread, hafter⟩ := Sql.Store.run_cons.mp hrun
    obtain ⟨rfl, -, text, values, place, insertId, count, hcall, htext, hresult⟩ :=
      hfirst.reads hs hread
    obtain ⟨u, hwrite, hlater⟩ := Sql.Store.run_cons.mp hafter
    obtain ⟨u', hread', -⟩ := Sql.Store.run_cons.mp hlater
    obtain ⟨-, hthere, -⟩ := hnext.reads (hwrite.keyed hs) hread'
    rw [← Sql.Store.countP_intAt (hwrite.keyed hs) id place,
      (hwrite.removal hcall htext hresult).1, Sql.Store.countP_remove] at hthere
    exact absurd hthere (Nat.lt_irrefl 0)
  rcases Sql.Store.interleaves_pairs hturns with rfl | rfl | ⟨first, last, hfirst, hlast, rfl⟩
  · exact (hgone hleft ⟨d, hright⟩ ⟨_, hrun⟩).elim
  · exact (hgone hright ⟨b, hleft⟩ ⟨_, hrun⟩).elim
  refine ⟨first, last, rfl, hfirst, ?_⟩
  rw [sentIn, List.map_append] at hrun
  obtain ⟨t, hreads, hwrites⟩ := Sql.Store.run_append.mp hrun
  -- both have read the row, and the table is as before
  have hread : t = s ∧ Answers "products" "id" s a s ∧ Answers "products" "id" s c s := by
    rcases hfirst with rfl | rfl <;> obtain ⟨u, hx, hreads⟩ := Sql.Store.run_cons.mp hreads <;>
      obtain ⟨v, hy, hnil⟩ := Sql.Store.run_cons.mp hreads <;> cases hnil
    · obtain ⟨rfl, -⟩ := hleft.reads hs hx
      obtain ⟨rfl, -⟩ := hright.reads hs hy
      exact ⟨rfl, hx, hy⟩
    · obtain ⟨rfl, -⟩ := hright.reads hs hx
      obtain ⟨rfl, -⟩ := hleft.reads hs hy
      exact ⟨rfl, hy, hx⟩
  obtain ⟨rfl, ha, hc⟩ := hread
  obtain ⟨-, hthere, text, values, place, insertId, count, hcall, htext, hresult⟩ :=
    hleft.reads hs ha
  obtain ⟨-, -, text', values', place', insertId', count', hcall', htext', hresult'⟩ :=
    hright.reads hs hc
  rcases hlast with rfl | rfl
  · exact .inl ⟨rfl, removed_twice hs hcall htext hresult hcall' htext' hresult' hthere hwrites⟩
  · exact .inr ⟨rfl, removed_twice hs hcall' htext' hresult' hcall htext hresult hthere hwrites⟩

/-! ## 3. The requests -/

/-- **What success says of a request that changes or deletes a product.**  The row with the id was
read, then the row that was read was written by its key, and the answer to the write was a count;
nothing else was sent, and any count will do.  Over a table that counts truly, the write affects a
row if no other client removed one in between.  Of two deletions of one product that both succeed,
in whatever turns their statements come, both read before either deletes, and one deletes nothing. -/
theorem success_says_that_the_row_was_read {r : Request} {w : World} {text : String}
    (hw : Served w) (hroute : routeOf? r.path = some (.product text))
    (hmethod : r.method = "PUT" ∨ r.method = "DELETE") (hstatus : (handle r w).1.status = 200) :
    (∃ id write, Field.integerText text = .ok id ∧ Succeeded id write (exchanges r w) ∧
      ((r.method = "PUT" ∧ ∃ columns, write = .change "products" columns "id") ∨
        (r.method = "DELETE" ∧ write = .removal "products" "id"))) ∧
    (∀ (read write : Exchange) (between : List Exchange) (s s' : Store),
      exchanges r w = [read, write] → s.Keyed "id" →
      Run "products" "id" s (read :: (between ++ [write])) s' →
      (∀ x ∈ between, ¬Removes "products" "id" x.call) → AffectsSome write) ∧
    ∀ (r' : Request) (w' : World) (text' : String) (id : Int), Served w' →
      routeOf? r'.path = some (.product text') →
      Field.integerText text = .ok id → Field.integerText text' = .ok id →
      r.method = "DELETE" → r'.method = "DELETE" → (handle r' w').1.status = 200 →
      ∀ (turns : List (Exchange ⊕ Exchange)) (s s' : Store),
        Interleaves turns (exchanges r w) (exchanges r' w') → s.Keyed "id" →
        Run "products" "id" s (sentIn turns) s' →
        ∃ a b c d first last, exchanges r w = [a, b] ∧ exchanges r' w' = [c, d] ∧
          turns = first ++ last ∧ (first = [.inl a, .inr c] ∨ first = [.inr c, .inl a]) ∧
          ((last = [.inl b, .inr d] ∧ AffectsSome b ∧ AffectsNone d) ∨
            (last = [.inr d, .inl b] ∧ AffectsSome d ∧ AffectsNone b)) := by
  refine ⟨succeeded hw hroute hmethod hstatus, ?_, ?_⟩
  · intro read write between s s' hsent hs hrun hbetween
    obtain ⟨id, kind, -, hsucceeded, hkind⟩ := succeeded hw hroute hmethod hstatus
    rw [hsent] at hsucceeded
    refine hsucceeded.affects ?_ hs hrun hbetween
    exact hkind.imp And.right And.right
  · intro r' w' text' id hw' hroute' hid hid' hdelete hdelete' hstatus' turns s s' hturns hs hrun
    have hleft := deletion_succeeded hw hroute hid hdelete hstatus
    have hright := deletion_succeeded hw' hroute' hid' hdelete' hstatus'
    generalize exchanges r w = xs at hleft hturns ⊢
    generalize exchanges r' w' = ys at hright hturns ⊢
    obtain ⟨a, b, rfl⟩ := hleft.pair
    obtain ⟨c, d, rfl⟩ := hright.pair
    obtain ⟨first, last, hsplit, hfirst, hlast⟩ :=
      removals_interleaved hleft hright hturns hs hrun
    exact ⟨a, b, c, d, first, last, rfl, rfl, hsplit, hfirst, hlast⟩

/-! ## 4. A hammer -/

/-- The row of a product. -/
def hammer : Row := [("id", .int 1), ("name", .str "Hammer")]

/-- A request that deletes the hammer, which is read; the removal is said to affect some rows. -/
def deletion (count : Int) : Request where
  verb := "DELETE"
  address := "/api/products/1"
  replies := [
    ⟨.ok (.rows [[("id", .plain (.int 1)), ("name", .plain (.str "Hammer"))]]), none⟩,
    ⟨.ok (.done (.plain .null) (.plain (.int count))), none⟩]

/-- Whether the hammer was read and then removed, and how many rows that affected. -/
def isDeletion (count : Int) : List Exchange → Bool
  | [⟨.statement read [.intAt 1 none], _,
        .ok (.rows [[("id", .intAt 1 none), ("name", .strAt "Hammer" none)]])⟩,
      ⟨.statement write [.intAt 1 none], _, .ok (.done .null (.intAt n none))⟩] =>
    read == keyedText "products" "id" && write == Sql.removalText "products" "id" && n == count
  | _ => false

theorem isDeletion_eq {count : Int} (h : isDeletion count sent = true) : ∃ seen seen',
    sent = [⟨.statement (keyedText "products" "id") [.int 1], seen, .ok (.rows [hammer])⟩,
      ⟨.statement (Sql.removalText "products" "id") [.int 1], seen',
        .ok (.done .null (.int count))⟩] := by
  unfold isDeletion at h
  split at h
  · simp only [Bool.and_eq_true, beq_iff_eq] at h
    obtain ⟨⟨rfl, rfl⟩, rfl⟩ := h
    exact ⟨_, _, rfl⟩
  · cases h

theorem deletion_product (count : Int) :
    routeOf? (deletion count).path = some (.product "1") := by
  have hpath : (deletion count).path = "/api/products/1" := by
    show (deletion 0).path = "/api/products/1"
    decide +kernel
  have hparts : partsBetween '/' "/api/products/1" = ["", "api", "products", "1"] := by
    decide +kernel
  rw [hpath, routeOf?, hparts]
  rfl

theorem removal_wellFormed : (Sql.Write.removal "products" "id").WellFormed :=
  ⟨by decide, by rintro _ _ _ ⟨⟩⟩

theorem hammers_keyed : Store.Keyed "id" [hammer] := by
  intro row hrow
  obtain rfl := List.mem_singleton.mp hrow
  exact ⟨by decide, 1, rfl⟩

/-- The hammer is removed, and then it is gone. -/
theorem hammer_removed {seen : List View} {count : Int} {s : Store}
    (hcount : count = s.countP (Sql.hasKey "id" (.int 1))) : Answers "products" "id" s
      ⟨.statement (Sql.removalText "products" "id") [.int 1], seen, .ok (.done .null (.int count))⟩
      (s.remove "id" (.int 1)) := by
  subst hcount
  have htext := Sql.Write.read?_text removal_wellFormed
  rw [Sql.Write.text] at htext
  exact .removed rfl htext rfl

theorem hammer_read {seen : List View} : Answers "products" "id" [hammer]
    ⟨.statement (keyedText "products" "id") [.int 1], seen, .ok (.rows [hammer])⟩ [hammer] :=
  .selected rfl rfl

theorem deletion_answered (count : Int) (hcount : count = 0 ∨ count = 1) :
    (handle (deletion count) start).1.status = 200 ∧
      isDeletion count (exchanges (deletion count) start) = true := by
  rcases hcount with rfl | rfl <;> decide +kernel

/-- Two requests delete the hammer, both are answered with success, and one deletes nothing. -/
theorem hammer_is_deleted_once :
    (∃ write, Succeeded 1 write (exchanges (deletion 1) start)) ∧
    ∃ a b c d, exchanges (deletion 1) start = [a, b] ∧ exchanges (deletion 0) start = [c, d] ∧
      Run "products" "id" [hammer] [a, b] [] ∧ AffectsSome b ∧
      Run "products" "id" [hammer] (sentIn [.inl a, .inr c, .inl b, .inr d]) [] ∧ AffectsNone d := by
  have hroute := deletion_product
  obtain ⟨hstatus₁, hsent₁⟩ := deletion_answered 1 (.inr rfl)
  obtain ⟨hstatus₀, hsent₀⟩ := deletion_answered 0 (.inl rfl)
  have hone : Field.integerText "1" = .ok 1 := rfl
  obtain ⟨⟨id, write, hid, hsucceeded, -⟩, haffects, hinterleaved⟩ :=
    success_says_that_the_row_was_read .start (hroute 1) (.inr rfl) hstatus₁
  cases hone.symm.trans hid
  refine ⟨⟨write, hsucceeded⟩, ?_⟩
  obtain ⟨seen₁, seen₂, hsent₁⟩ := isDeletion_eq hsent₁
  obtain ⟨seen₃, seen₄, hsent₀⟩ := isDeletion_eq hsent₀
  have hgone : Sql.Store.remove "id" (.int 1) [hammer] = [] := rfl
  have hfirst {seen seen' : List View} : Run "products" "id" [hammer]
      [⟨.statement (keyedText "products" "id") [.int 1], seen, .ok (.rows [hammer])⟩,
        ⟨.statement (Sql.removalText "products" "id") [.int 1], seen',
          .ok (.done .null (.int 1))⟩] [] :=
    .cons hammer_read (.cons (hammer_removed rfl) (hgone ▸ .nil []))
  have hboth {seen seen' seen'' seen''' : List View} : Run "products" "id" [hammer]
      (sentIn [
        .inl ⟨.statement (keyedText "products" "id") [.int 1], seen, .ok (.rows [hammer])⟩,
        .inr ⟨.statement (keyedText "products" "id") [.int 1], seen', .ok (.rows [hammer])⟩,
        .inl ⟨.statement (Sql.removalText "products" "id") [.int 1], seen'',
          .ok (.done .null (.int 1))⟩,
        .inr ⟨.statement (Sql.removalText "products" "id") [.int 1], seen''',
          .ok (.done .null (.int 0))⟩]) [] :=
    .cons hammer_read (.cons hammer_read (.cons (hammer_removed rfl)
      (hgone ▸ .cons (hammer_removed rfl) (.nil []))))
  have haffected := haffects _ _ [] [hammer] [] hsent₁ hammers_keyed hfirst (List.forall_mem_nil _)
  refine ⟨_, _, _, _, hsent₁, hsent₀, hfirst, haffected, hboth, ?_⟩
  have hinterleaved := hinterleaved (deletion 0) start "1" 1 .start (hroute 0) hone hone rfl rfl
    hstatus₀
  rw [hsent₁, hsent₀] at hinterleaved
  obtain ⟨a, b, c, d, first, last, hleft, hright, hsplit, hfirst, hlast⟩ :=
    hinterleaved _ _ _ (.left (.right (.left (.right .nil)))) hammers_keyed hboth
  cases hleft
  cases hright
  rcases hfirst with rfl | rfl <;> rcases hlast with ⟨rfl, hlast⟩ | ⟨rfl, hlast⟩ <;> cases hsplit
  exact hlast.2

/-- A request deletes the hammer, which is gone after it was read; it is answered with success. -/
theorem missing_hammer_is_reported_deleted :
    (handle (deletion 0) start).1.status = 200 ∧
      ∃ read write, exchanges (deletion 0) start = [read, write] ∧ AffectsNone write := by
  obtain ⟨hstatus, hsent⟩ := deletion_answered 0 (.inl rfl)
  obtain ⟨seen, seen', hsent⟩ := isDeletion_eq hsent
  exact ⟨hstatus, _, _, hsent, .null, rfl⟩

end RowMapper.Shop
