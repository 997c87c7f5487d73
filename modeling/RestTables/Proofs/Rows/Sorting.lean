import RestTables.Proofs.Rows.Listing
import RestTables.Proofs.Rows.Page
import RestTables.Proofs.Sql.Collation

/-
Module: RestTables.Proofs.Rows.Sorting
Purpose: The order that is sent for a query says what the query asks, and it is total: it ends with the key, unless the
  query sorts by the key itself, so that no two rows are equal in it, however many parts before it leave them so.
Main exports: Order.NamesKey, Order.IsWritten, Query.exists_order_eq, Query.order_is_total
-/

namespace RestTables

open Sql

/-- The key column of a resource. -/
def Model.keyColumn (m : Model) : Column := ⟨m.table, m.keyField.name⟩

namespace Order

/-- The rows are sorted by the key of the resource itself. A column of a relation's target is not the key, whatever its
name. -/
def NamesKey (m : Model) (o : Order) : Prop := o.relation = none ∧ o.field = m.keyField.name

instance (m : Model) (o : Order) : Decidable (o.NamesKey m) := inferInstanceAs (Decidable (_ ∧ _))

/-- What a column to sort by is written as: the column of the resource or, behind the name of a relation, that of the
target of one so named, joined by its keys. The direction is kept. -/
structure IsWritten (g : Registry) (m : Model) (o : Order) (item : SortItem) : Prop where
  descending_eq : item.descending = o.descending
  root : o.relation = none → item.key = .column ⟨m.table, o.field⟩
  related : ∀ name, o.relation = some name → ∃ r ∈ m.relations, r.isNamed name = true ∧
    (m.DistinctRelations → r.name = name) ∧
    ∃ t, g.get? r.target = some t ∧ item.key = .related o.field r.remoteKey t.table ⟨m.table, r.localKey⟩

theorem namesKey_iff {m : Model} {o : Order} :
    (o.relation.isNone && o.field == m.keyField.name) = true ↔ o.NamesKey m := by
  simp [NamesKey]

end Order

namespace Query

variable {g : Registry} {m : Model}

/-- A column that was found is written. -/
theorem exists_sortItem (htargets : ∀ r ∈ m.relations, ∃ t, g.get? r.target = some t) {o : Order}
    (hrelation : ∀ name, o.relation = some name → ∃ r ∈ m.relations, r.name = name) :
    ∃ item, sortItem g m o = .ok item ∧ o.IsWritten g m item := by
  cases hname : o.relation with
  | none =>
    refine ⟨⟨.column ⟨m.table, o.field⟩, o.descending⟩, by rw [sortItem, hname], rfl, fun _ => rfl, ?_⟩
    intro name hsome
    rw [hname] at hsome
    cases hsome
  | some name =>
    obtain ⟨r, hr, rfl⟩ := hrelation name hname
    obtain ⟨s, hs, hrelated, hnamed⟩ := Model.exists_related?_of_mem hr
    obtain ⟨t, ht⟩ := htargets s hs
    have htarget : g.relationTarget m r.name = .ok (s, t) := by simp only [Registry.relationTarget, hrelated, ht]
    refine ⟨⟨.related o.field s.remoteKey t.table ⟨m.table, s.localKey⟩, o.descending⟩, ?_, rfl, ?_, ?_⟩
    · simp only [sortItem, hname, htarget]
      rfl
    · intro hnone
      rw [hname] at hnone
      cases hnone
    · intro name' hname'
      obtain rfl : r.name = name' := Option.some.inj (hname.symm.trans hname')
      exact ⟨s, hs, hnamed, fun hdistinct => congrArg _ (Model.eq_of_sameFold_name hdistinct hr hs hnamed), t, ht, rfl⟩

/-- The order of a query: its columns as they come, and then the key, unless it is one of them. -/
theorem exists_order_eq (htargets : ∀ r ∈ m.relations, ∃ t, g.get? r.target = some t) {orders : List Order}
    (hrelations : ∀ o ∈ orders, ∀ name, o.relation = some name → ∃ r ∈ m.relations, r.name = name) :
    ∃ written, List.Forall₂ (Order.IsWritten g m) orders written ∧
      order g m orders =
        .ok (written ++ if ∃ o ∈ orders, o.NamesKey m then [] else [⟨.column m.keyColumn, false⟩]) := by
  obtain ⟨written, hmap, hwritten⟩ := exists_mapM_eq_ok fun o ho => exists_sortItem htargets (hrelations o ho)
  refine ⟨written, hwritten, ?_⟩
  have hany : (orders.any fun o => o.relation.isNone && o.field == m.keyField.name) = true ↔
      ∃ o ∈ orders, o.NamesKey m := by
    simp only [List.any_eq_true, Order.namesKey_iff]
  rw [order, hmap]
  by_cases hkey : ∃ o ∈ orders, o.NamesKey m
  · rw [if_pos hkey, List.append_nil]
    exact if_pos (hany.mpr hkey)
  · rw [if_neg hkey]
    exact if_neg (mt hany.mp hkey)

/-- The order of whatever is asked for is total. It consists of the columns to sort by, as they come, and then of the
key, unless it is one of them. However a database orders the values of each column, no two rows with different keys are
equal in it, so they can be sorted in one way only, and a statement that is answered in this order has one answer,
whatever part of the rows it is cut to. -/
theorem order_is_total {declared : List Model} {tables : List Table} {config : Config} {c : Compiler}
    (hbuild : Registry.build declared tables config = .ok c.registry) (hm : c.model ∈ c.registry.models) {q : Query}
    (hq : c.Produces q) :
    ∃ written, List.Forall₂ (Order.IsWritten c.registry c.model) q.orders written ∧
      let items := written ++ if ∃ o ∈ q.orders, o.NamesKey c.model then [] else [⟨.column c.model.keyColumn, false⟩]
      order c.registry c.model q.orders = .ok items ∧
      ∀ (C : Collation) (E : Engine) (db : Database) (rows : List StoredRow), C.TellsApart c.model.keyColumn rows →
        (rows.Pairwise fun a b => C.compareBy E db items a b ≠ .eq) ∧
        ∃ sorted, (∀ l, l.Perm rows ∧ C.Sorted E db items l ↔ l = sorted) ∧
          ∀ s : Select, s.order = items → (E.matching db s.table s.condition).Perm rows →
            C.Sorted E db s.order (E.arrange s (E.matching db s.table s.condition)) →
            E.selected db s = Rows.cut s.limit s.offset sorted := by
  have htargets := Registry.targets_of_build hbuild hm
  have hrelations : ∀ o ∈ q.orders, ∀ name, o.relation = some name → ∃ r ∈ c.model.relations, r.name = name := by
    intro o ho name hname
    obtain ⟨field, hfinds, -⟩ := (Compiler.fits_of_produces hq).orders o ho
    rw [hname] at hfinds
    exact hfinds.1
  obtain ⟨written, hwritten, horder⟩ := exists_order_eq htargets hrelations
  refine ⟨written, hwritten, horder, fun C E db rows hapart => ?_⟩
  -- The key is among the items in any case, and a comparison that includes it tells rows with different keys apart.
  obtain ⟨descending, hkey⟩ := Rows.exists_key_mem_order horder
  refine ⟨hapart.imp fun hab => Collation.compareBy_ne_eq_of_mem hkey hab, ?_⟩
  obtain ⟨sorted, hsorted, hunique⟩ := @Collation.existsUnique_sorted C E db _ _ _ _ hkey hapart
  refine ⟨sorted, fun l => ⟨hunique l, fun h => h ▸ hsorted⟩, ?_⟩
  intro s hs hmatching harranged
  rw [hs] at harranged
  have heq := hunique _ ⟨(E.arrange_perm s _).trans hmatching, harranged⟩
  rw [← heq]
  rfl

/-- The key of an author does not tell books apart. -/
example : order bookCompiler.registry bookModel [⟨some "author", "id", true⟩] =
    .ok [⟨.related "id" "id" "author" ⟨"book", "author_id"⟩, true⟩, ⟨.column ⟨"book", "id"⟩, false⟩] := by
  decide +kernel

/-! ## Two printings -/

/-- Numbers as they count and texts as they are spelled; NULL before both. -/
def plainCollation : Collation where
  compare _ :=
    compareLex
      (compareOn fun v => match v with
        | some (.bigInt (some n)) => some n.toInt
        | _ => none)
      (compareOn fun v => match v with
        | some (.string (some s)) => some s
        | _ => none)
  transCmp _ := inferInstance

/-- The same book by the same author, printed again. -/
def reprintRow : StoredRow := fun name => if name = "id" then .bigInt (some 3) else bookRow name

/-- Sorted by their author, from the last name on, and by their title, two printings of a book come in one order. -/
theorem order_of_two_printings :
    ∃ items, order bookCompiler.registry bookModel
        (bookCompiler.ofArguments [("_sort", "-author.name;title")]).query.orders = .ok items ∧
      plainCollation.TellsApart bookModel.keyColumn [bookRow, reprintRow] ∧
      plainCollation.compareBy (.plain []) libraryDb items bookRow reprintRow ≠ .eq ∧
      ∃ sorted, ∀ l,
        l.Perm [bookRow, reprintRow] ∧ plainCollation.Sorted (.plain []) libraryDb items l ↔ l = sorted := by
  have hbuild : Registry.build [bookModel, authorModel] [] {} = .ok bookCompiler.registry := by decide +kernel
  have hapart : plainCollation.TellsApart bookModel.keyColumn [bookRow, reprintRow] :=
    List.pairwise_pair.mpr (by decide +kernel)
  obtain ⟨written, -, horder, htotal⟩ := order_is_total (c := bookCompiler) hbuild List.mem_cons_self
    (.arguments [("_sort", "-author.name;title")])
  obtain ⟨hdifferent, sorted, hsorted, -⟩ := htotal plainCollation (.plain []) libraryDb _ hapart
  exact ⟨_, horder, hapart, List.rel_of_pairwise_cons hdifferent (List.mem_singleton_self _), sorted, hsorted⟩

end Query

end RestTables
