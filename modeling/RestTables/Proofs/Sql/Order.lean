import Mathlib.Data.List.Pairwise
import RestTables.Proofs.Sql.Execution

/-
Module: RestTables.Proofs.Sql.Order
Purpose: The order in which rows are sent. A database that sorts by the key of a table sends its rows in one order,
  whatever condition they meet: where fewer meet it, those that are left stay in place.
Main exports: Engine.KeepsOrder, Engine.Sorts, Engine.keepsOrder_of_sorts, Engine.KeepsOrder.arrange_of_filter
-/

namespace RestTables.Sql.Engine

variable {E : Engine} {table : String} {order : List SortItem} {rows : List StoredRow}

/-- Statements for rows of a table in an order get them from one list: its rows that meet the condition, as they
stand. -/
def KeepsOrder (E : Engine) (table : String) (order : List SortItem) (rows : List StoredRow) : Prop :=
  ∃ sorted : List StoredRow, ∀ (s : Select) (p : StoredRow → Bool), s.table = table → s.order = order →
    E.arrange s (rows.filter p) = sorted.filter p

/-- Where fewer rows meet the condition, those that are left stay in place. -/
theorem KeepsOrder.arrange_of_filter (h : E.KeepsOrder table order rows) (s s' : Select) (hs : s.table = table)
    (hs' : s'.table = table) (horder : s.order = order) (horder' : s'.order = order) (p q : StoredRow → Bool) :
    E.arrange s' ((rows.filter p).filter q) = (E.arrange s (rows.filter p)).filter q := by
  obtain ⟨sorted, hsorted⟩ := h
  rw [List.filter_filter, hsorted s' _ hs' horder', hsorted s p hs horder, List.filter_filter]

/-- The database sorts: no row is sent after one that it must come before, and rows that may come either way have the
same value in every column that is sorted by. -/
structure Sorts (E : Engine) (before : String → List SortItem → StoredRow → StoredRow → Prop) : Prop where
  arranged (s : Select) (rows : List StoredRow) : (E.arrange s rows).Pairwise (before s.table s.order)
  tie {table name : String} {order : List SortItem} {descending : Bool} {a b : StoredRow}
    (sorted_by : ⟨.column ⟨table, name⟩, descending⟩ ∈ order) (hab : before table order a b)
    (hba : before table order b a) (ha : (a name).isSqlNull = false) (hb : (b name).isSqlNull = false) :
    E.Equal (a name) (b name)

/-- Sorted by a key of the table, the rows have only one order. -/
theorem keepsOrder_of_sorts {before : String → List SortItem → StoredRow → StoredRow → Prop} (hsorts : E.Sorts before)
    {key : String} {descending : Bool} (horder : ⟨.column ⟨table, key⟩, descending⟩ ∈ order)
    (hdistinct : E.KeyDistinct [key] rows) (hknown : ∀ row ∈ rows, (row key).isSqlNull = false) :
    E.KeepsOrder table order rows := by
  -- two rows that may come either way have one key, and so they are one row
  have hone : ∀ a ∈ rows, ∀ b ∈ rows, before table order a b → before table order b a → a = b := by
    intro a ha b hb hab hba
    by_contra hne
    have hequal := hsorts.tie horder hab hba (hknown a ha) (hknown b hb)
    have hsymm : Std.Symm fun a b : StoredRow => ¬ ∀ name ∈ [key], E.Equal (a name) (b name) :=
      ⟨fun a b h hba => h fun name hname => (hba name hname).symm⟩
    exact List.Pairwise.forall hdistinct ha hb hne (by simpa using hequal)
  let whole : Select := { table, columns := [], condition := .all [], order, limit := none, offset := none }
  refine ⟨E.arrange whole rows, ?_⟩
  rintro s p rfl rfl
  have hperm : (E.arrange s (rows.filter p)).Perm ((E.arrange whole rows).filter p) :=
    (E.arrange_perm s _).trans ((E.arrange_perm whole rows).symm.filter p)
  refine List.Perm.eq_of_pairwise ?_ (hsorts.arranged s _)
    ((hsorts.arranged whole rows).sublist List.filter_sublist) hperm
  intro a b ha hb
  have hmem : a ∈ rows := (List.mem_filter.mp ((E.arrange_perm s _).mem_iff.mp ha)).1
  have hmem' : b ∈ rows := (E.arrange_perm whole rows).mem_iff.mp (List.mem_filter.mp hb).1
  exact hone a hmem b hmem'

/-- The plain engine sends rows as they are stored. -/
theorem keepsOrder_plain (keys : List (String × List String)) (table : String) (order : List SortItem)
    (rows : List StoredRow) : (plain keys).KeepsOrder table order rows :=
  ⟨rows, fun _ _ _ _ => rfl⟩

end RestTables.Sql.Engine
