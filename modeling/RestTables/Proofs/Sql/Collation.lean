import Mathlib.Data.List.Pairwise
import RestTables.Proofs.Sql.Execution

/-
Module: RestTables.Proofs.Sql.Collation
Purpose: What the order of a statement means. A database orders the values of each column, with a place for NULL among
  them; rows are compared by one part of an order after the other. Where a part of it tells all rows apart, there is one
  way to sort them.
Main exports: Collation, Collation.value, Collation.compareBy, Collation.compareBy_eq_eq_iff, Collation.Sorted,
  Collation.existsUnique_sorted
-/

namespace RestTables

/-- The value, if it is known. -/
def Value.known? (v : Value) : Option Value := if v.isSqlNull then none else some v

namespace Sql

/-- The order of the values of each column. None stands for NULL, which has its place like any value. Values that are
not the same may compare as equal. -/
structure Collation where
  compare : Column → Option Value → Option Value → Ordering
  transCmp : ∀ c, Std.TransCmp (compare c)

attribute [instance] Collation.transCmp

/-- The column whose values a part of an order compares. -/
def SortKey.compared : SortKey → Column
  | .column c => c
  | .related field _ table _ => ⟨table, field⟩

namespace Collation

/-- Two values compared in a direction. -/
def compareIn (C : Collation) (c : Column) (descending : Bool) (a b : Option Value) : Ordering :=
  if descending then C.compare c b a else C.compare c a b

/-- Of two values, the one that comes first in a direction. -/
def earlier (C : Collation) (c : Column) (descending : Bool) (v w : Value) : Value :=
  if (C.compareIn c descending (some v) (some w)).isLE then v else w

/-- The value among some that comes before the others: the least one or, when the order goes down, the greatest. -/
def first (C : Collation) (c : Column) (descending : Bool) : List Value → Option Value
  | [] => none
  | v :: vs => some (vs.foldl (C.earlier c descending) v)

section Values

variable {C : Collation} {c : Column} {descending : Bool}

instance : Std.TransCmp (C.compareIn c descending) := by
  cases descending with
  | false => exact C.transCmp c
  | true => exact inferInstanceAs (Std.TransCmp fun a b => C.compare c b a)

/-- Values that are equal in one direction are in the other. -/
theorem compareIn_eq_eq_iff {a b : Option Value} : C.compareIn c descending a b = .eq ↔ C.compare c a b = .eq := by
  cases descending with
  | false => exact Iff.rfl
  | true => exact @Std.OrientedCmp.eq_comm _ (C.compare c) _ b a

theorem earlier_isLE (v w : Value) :
    (C.compareIn c descending (some (C.earlier c descending v w)) (some v)).isLE ∧
      (C.compareIn c descending (some (C.earlier c descending v w)) (some w)).isLE := by
  unfold earlier
  split
  · next hle => exact ⟨Std.ReflCmp.isLE_rfl, hle⟩
  · next hnle =>
    refine ⟨?_, Std.ReflCmp.isLE_rfl⟩
    rw [@Std.OrientedCmp.eq_swap _ (C.compareIn c descending)]
    cases hcmp : C.compareIn c descending (some v) (some w) <;> simp_all

/-- Nothing comes before what comes first, which is one of the values. -/
theorem mem_of_first {vs : List Value} {w : Value} (h : C.first c descending vs = some w) :
    w ∈ vs ∧ ∀ v ∈ vs, (C.compareIn c descending (some w) (some v)).isLE := by
  cases vs with
  | nil => cases h
  | cons u vs =>
    cases h
    -- The earlier of the first two stands for both in the rest of the list.
    induction vs generalizing u with
    | nil => simp [Std.ReflCmp.isLE_rfl]
    | cons v vs ih =>
      obtain ⟨hmem, hle⟩ := ih (C.earlier c descending u v)
      obtain ⟨hu, hv⟩ := @earlier_isLE C c descending u v
      obtain ⟨hfirst, hrest⟩ := List.forall_mem_cons.mp hle
      rw [List.foldl_cons]
      constructor
      · rcases List.mem_cons.mp hmem with heq | hmem
        · rw [heq, earlier]
          split <;> simp
        · exact List.mem_cons_of_mem _ (List.mem_cons_of_mem _ hmem)
      · simp only [List.forall_mem_cons]
        exact ⟨Std.TransCmp.isLE_trans hfirst hu, Std.TransCmp.isLE_trans hfirst hv, hrest⟩

end Values

/-! ## Rows -/

section Rows

variable (C : Collation) (E : Engine) (db : Database)

/-- The value that a row is sorted by: that of its column, or the first of the known ones in the rows of another table
whose remote key equals its local key. -/
def value (item : SortItem) (row : StoredRow) : Option Value :=
  match item.key with
  | .column c => (row c.name).known?
  | .related field remoteKey table localKey =>
    let rows := (db table).filter fun row' => E.Equal (row' remoteKey) (row localKey.name)
    C.first ⟨table, field⟩ item.descending (rows.filterMap fun row' => (row' field).known?)

/-- Two rows compared by a part of an order. -/
def compareItem (item : SortItem) (a b : StoredRow) : Ordering :=
  C.compareIn item.key.compared item.descending (C.value E db item a) (C.value E db item b)

/-- Two rows compared by an order: by each part where all that stand before it leave them equal. -/
def compareBy : List SortItem → StoredRow → StoredRow → Ordering
  | [], _, _ => .eq
  | item :: items, a, b => (C.compareItem E db item a b).then (compareBy items a b)

/-- No row stands behind one that comes after it. -/
def Sorted (items : List SortItem) (rows : List StoredRow) : Prop :=
  rows.Pairwise fun a b => (C.compareBy E db items a b).isLE

/-- No two rows compare as equal in a column. -/
def TellsApart (c : Column) (rows : List StoredRow) : Prop :=
  rows.Pairwise fun a b => C.compare c (a c.name).known? (b c.name).known? ≠ .eq

variable {C E db} {items : List SortItem} {rows : List StoredRow}

instance (item : SortItem) : Std.TransCmp (C.compareItem E db item) where
  eq_swap := by
    intro a b
    exact @Std.OrientedCmp.eq_swap _ (C.compareIn item.key.compared item.descending) _ _ _
  isLE_trans := by
    intro a b c hab hbc
    exact @Std.TransCmp.isLE_trans _ (C.compareIn item.key.compared item.descending) _ _ _ _ hab hbc

instance transCmp_compareBy : (items : List SortItem) → Std.TransCmp (C.compareBy E db items)
  | [] => inferInstanceAs (Std.TransCmp (compareOn fun _ : StoredRow => ()))
  | item :: items =>
    have := transCmp_compareBy items
    inferInstanceAs (Std.TransCmp (compareLex (C.compareItem E db item) (C.compareBy E db items)))

/-- Rows are equal in an order when they are in each part of it. -/
theorem compareBy_eq_eq_iff {a b : StoredRow} :
    C.compareBy E db items a b = .eq ↔ ∀ item ∈ items, C.compareItem E db item a b = .eq := by
  induction items with
  | nil => simp [compareBy]
  | cons item items ih => rw [compareBy, Ordering.then_eq_eq, ih, List.forall_mem_cons]

/-- A column of the order that tells rows apart does so whatever stands before it. -/
theorem compareBy_ne_eq_of_mem {c : Column} {descending : Bool} (hc : ⟨.column c, descending⟩ ∈ items)
    {a b : StoredRow} (h : C.compare c (a c.name).known? (b c.name).known? ≠ .eq) :
    C.compareBy E db items a b ≠ .eq := by
  intro heq
  have hitem := compareBy_eq_eq_iff.mp heq _ hc
  exact h (compareIn_eq_eq_iff.mp hitem)

/-- Rows can be sorted. -/
theorem exists_sorted (items : List SortItem) (rows : List StoredRow) :
    ∃ sorted, sorted.Perm rows ∧ C.Sorted E db items sorted := by
  refine ⟨rows.mergeSort fun a b => (C.compareBy E db items a b).isLE, List.mergeSort_perm _ _, ?_⟩
  apply List.pairwise_mergeSort
  · intro a b c
    exact Std.TransCmp.isLE_trans
  · intro a b
    rw [@Std.OrientedCmp.eq_swap _ (C.compareBy E db items) _ b a]
    cases C.compareBy E db items a b <;> rfl

/-- Rows that the order tells apart can be sorted in one way only. -/
theorem eq_of_sorted (h : rows.Pairwise fun a b => C.compareBy E db items a b ≠ .eq) {l l' : List StoredRow}
    (hl : l.Perm rows) (hl' : l'.Perm rows) (hsorted : C.Sorted E db items l) (hsorted' : C.Sorted E db items l') :
    l = l' := by
  refine List.Perm.eq_of_pairwise ?_ hsorted hsorted' (hl.trans hl'.symm)
  intro a b ha hb hab hba
  by_contra hne
  have hsymm : Std.Symm fun a b : StoredRow => C.compareBy E db items a b ≠ .eq :=
    ⟨fun a b h hba => h (Std.OrientedCmp.eq_comm.mp hba)⟩
  exact List.Pairwise.forall h (hl.mem_iff.mp ha) (hl'.mem_iff.mp hb) hne (Std.OrientedCmp.isLE_antisymm hab hba)

/-- An order with a column that tells the rows apart leaves nothing open. -/
theorem existsUnique_sorted {c : Column} {descending : Bool} (hc : ⟨.column c, descending⟩ ∈ items)
    (h : C.TellsApart c rows) : ∃! sorted, sorted.Perm rows ∧ C.Sorted E db items sorted := by
  have hapart : rows.Pairwise fun a b => C.compareBy E db items a b ≠ .eq :=
    h.imp fun hab => compareBy_ne_eq_of_mem hc hab
  have hsome : ∃ sorted, sorted.Perm rows ∧ C.Sorted E db items sorted := exists_sorted items rows
  obtain ⟨sorted, hperm, hsorted⟩ := hsome
  refine ⟨sorted, ⟨hperm, hsorted⟩, ?_⟩
  rintro l ⟨hl, hlsorted⟩
  exact eq_of_sorted hapart hl hperm hlsorted hsorted

end Rows

end Collation

end Sql

end RestTables
