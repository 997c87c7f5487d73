import RestTables.Proofs.Rows.Sorting
import RestTables.Proofs.Sql.Naming

/-
Module: RestTables.Proofs.Rows.Correlation
Purpose: A sort by a column of a relation's target gives each row the least or greatest value of what the relation
  leads to from that row. A subquery calls its own table by a fixed name; only a resource whose table has that name is
  out of its reach, and then the rows are sorted by something else.
Main exports: Model.Correlates, Query.correlates_iff_not_captures, Query.sort_is_captured
-/

namespace RestTables

open Sql

/-- A part of an order sorts each row of a resource by the value that comes first in its direction among those of a
column in exactly the rows that a relation leads to. -/
def Model.Correlates (m : Model) (C : Collation) (E : Engine) (N : Naming) (db : Database) (r : Relation) (t : Model)
    (field : String) (item : SortItem) : Prop :=
  ∀ row ∈ db m.table, ∃ key, C.sortKey? E N db m.table item = some key ∧
    C.IsFirst ⟨t.table, field⟩ item.descending
      (Collation.relatedValues E db t.table field r.remoteKey (row r.localKey)) (key row)

namespace Query

variable {g : Registry} {m t : Model} {r : Relation} {N : Naming} {field : String} {descending : Bool}

/-- What a sort behind the name of a relation is written as. -/
def relatedItem (m t : Model) (r : Relation) (field : String) (descending : Bool) : SortItem :=
  ⟨.related field r.remoteKey t.table ⟨m.table, r.localKey⟩, descending⟩

theorem sortItem_eq_relatedItem {name : String} (h : g.relationTarget m name = .ok (r, t)) :
    sortItem g m ⟨some name, field, descending⟩ = .ok (relatedItem m t r field descending) := by
  simp only [sortItem, h]
  rfl

section Written

variable (hfield : N.hasColumn t.table field = true) (hremote : N.hasColumn t.table r.remoteKey = true)

include hfield hremote

/-- Where the resource's own table is in reach, each row is sorted by what it is related to. -/
theorem correlates_of_not_captures (hlocal : N.hasColumn m.table r.localKey = true)
    (hfree : ¬N.Captures t.table m.table r.localKey) (C : Collation) (E : Engine) (db : Database) :
    m.Correlates C E N db r t field (relatedItem m t r field descending) := by
  intro row _
  refine ⟨_, Collation.sortKey?_eq_some_value hfield hremote hlocal hfree, ?_⟩
  exact Collation.isFirst_first _ _

/-- A row that has one number in all columns. -/
def uniformRow (n : Int64) : StoredRow := fun _ => .bigInt (some n)

/-- Where it is not, two rows are enough for one of them to be sorted by a value of the other. -/
theorem exists_not_correlates_of_captures (hcaptures : N.Captures t.table m.table r.localKey) :
    ∃ C E db, ¬m.Correlates C E N db r t field (relatedItem m t r field descending) := by
  refine ⟨plainCollation, .plain [], fun _ => [uniformRow 1, uniformRow 2], fun h => ?_⟩
  -- the one that does not come first is sorted by the number of the other one
  have hrow := h (uniformRow (if descending then 1 else 2)) (by cases descending <;> simp)
  obtain ⟨key, hkey, hfirst⟩ := hrow
  rw [relatedItem, Collation.sortKey?_of_captures hfield hremote hcaptures] at hkey
  split at hkey
  · cases hkey
    cases descending with
    | false =>
      have hmem : Value.bigInt (some 1) ∈ [Value.bigInt (some 2)] := Collation.mem_of_isFirst hfirst
      exact absurd hmem (by decide)
    | true =>
      have hmem : Value.bigInt (some 2) ∈ [Value.bigInt (some 1)] := Collation.mem_of_isFirst hfirst
      exact absurd hmem (by decide)
  · cases hkey

end Written

/-- A sort by a column of what a relation leads to gives each row the least value there or, when the order goes down,
the greatest, in every database: if and only if the name by which a subquery calls its table does not capture the
column of the resource that the relation starts from. The name of a relation stands for the first relation so called,
which is the relation itself where the names differ. -/
theorem correlates_iff_not_captures {declared : List Model} {tables : List Table} {config : Config}
    (hbuild : Registry.build declared tables config = .ok g) (hm : m ∈ g.models) (hr : r ∈ m.relations) (N : Naming)
    (hcolumns : ∀ t ∈ g.models, ∀ name, (t.column? name).isSome → N.hasColumn t.table name = true) :
    ∃ s ∈ m.relations, s.isNamed r.name = true ∧ (m.DistinctRelations → s = r) ∧
      ∃ t, g.get? s.target = some t ∧ ∀ field, (t.column? field).isSome → ∀ descending,
        ∃ item, sortItem g m ⟨some r.name, field, descending⟩ = .ok item ∧ item.descending = descending ∧
          ((∀ C E db, m.Correlates C E N db s t field item) ↔ ¬N.Captures t.table m.table s.localKey) := by
  -- What is looked up is the first relation of that name.
  obtain ⟨s, hs, hrelated, hnamed⟩ := Model.exists_related?_of_mem hr
  obtain ⟨t, ht, hlocal, hremote⟩ := Registry.exists_target_of_build hbuild hm hs
  have htmem : t ∈ g.models := List.mem_of_find?_eq_some ht
  have htarget : g.relationTarget m r.name = .ok (s, t) := by simp only [Registry.relationTarget, hrelated, ht]
  refine ⟨s, hs, hnamed, fun hdistinct => Model.eq_of_sameFold_name hdistinct hr hs hnamed, t, ht, ?_⟩
  intro field hfield descending
  refine ⟨_, sortItem_eq_relatedItem htarget, rfl, ?_⟩
  have hfield := hcolumns t htmem field hfield
  have hremote := hcolumns t htmem s.remoteKey hremote
  constructor
  · intro hall hcaptures
    obtain ⟨C, E, db, hnot⟩ := exists_not_correlates_of_captures hfield hremote hcaptures
    exact hnot (hall C E db)
  · intro hfree C E db
    exact correlates_of_not_captures hfield hremote (hcolumns m hm s.localKey hlocal) hfree C E db

/-! ## Trees -/

/-- A table whose rows each name the row above them, as a resource. -/
def treeModel (name table : String) : Model :=
  let key := (Field.new "id" .integer).primaryKey
  { name, table, url := "/" ++ table, description := none, collectionSuffix := "List"
    columns := [key, Field.new "parent_id" .integer, Field.new "title" .string], keyField := key
    relations := [Relation.scalar "parent" name "parent_id" "id"], methods := Verb.all }

/-- The names of a database with some resources, each taken as it is spelled. -/
def plainNaming (g : Registry) : Naming where
  sameTable := (· == ·)
  hasColumn table name := g.models.any fun t => t.table == table && (t.column? name).isSome
  passesOver := false
  sameTable_self := by simp

theorem hasColumn_plainNaming (g : Registry) : ∀ t ∈ g.models, ∀ name, (t.column? name).isSome →
    (plainNaming g).hasColumn t.table name = true := by
  intro t ht name hname
  simp only [plainNaming, List.any_eq_true, Bool.and_eq_true, beq_iff_eq]
  exact ⟨t, ht, rfl, hname⟩

/-- The nodes of a tree are sorted by the title of what stands above them. -/
theorem tree_correlates :
    let m := treeModel "Node" "node"
    let r := Relation.scalar "parent" "Node" "parent_id" "id"
    Registry.build [m] [] {} = .ok ⟨[m]⟩ ∧ r ∈ m.relations ∧
    (∀ t ∈ [m], ∀ name, (t.column? name).isSome → (plainNaming ⟨[m]⟩).hasColumn t.table name = true) ∧
    ∀ descending, ∃ item, sortItem ⟨[m]⟩ m ⟨some "parent", "title", descending⟩ = .ok item ∧
      ∀ C E db, m.Correlates C E (plainNaming ⟨[m]⟩) db r m "title" item := by
  intro m r
  have hbuild : Registry.build [m] [] {} = .ok ⟨[m]⟩ := by decide +kernel
  have hcolumns := hasColumn_plainNaming ⟨[m]⟩
  refine ⟨hbuild, List.mem_cons_self, hcolumns, fun descending => ?_⟩
  obtain ⟨s, hs, -, -, t, ht, hall⟩ := correlates_iff_not_captures hbuild List.mem_cons_self
    (List.mem_cons_self (a := r)) (plainNaming ⟨[m]⟩) hcolumns
  obtain rfl : s = r := List.mem_singleton.mp hs
  obtain rfl : t = m := List.mem_singleton.mp (List.mem_of_find?_eq_some ht)
  obtain ⟨item, hitem, -, hiff⟩ := hall "title" (by decide) descending
  exact ⟨item, hitem, hiff.mpr (by decide)⟩

/-- In a table called like the one of subqueries, nodes are sorted by rows that stand above themselves. There are none
here, and so the second node is sorted as if nothing stood above it. -/
theorem sort_is_captured :
    let m := treeModel "Related" "related"
    let r := Relation.scalar "parent" "Related" "parent_id" "id"
    let node := fun (id : Int64) (parent : Option Int64) (title name : String) =>
      if name = "id" then Value.bigInt (some id) else if name = "parent_id" then .bigInt parent
      else .string (some title)
    let db : Database := fun _ => [node 1 none "root", node 2 (some 1) "leaf"]
    Registry.build [m] [] {} = .ok ⟨[m]⟩ ∧ r ∈ m.relations ∧
    ∃ item key, sortItem ⟨[m]⟩ m ⟨some "parent", "title", false⟩ = .ok item ∧
      plainCollation.sortKey? (.plain []) (plainNaming ⟨[m]⟩) db m.table item = some key ∧
      key (node 2 (some 1) "leaf") = none ∧
      Collation.relatedValues (.plain []) db m.table "title" r.remoteKey (.bigInt (some 1)) =
        [.string (some "root")] ∧
      ¬m.Correlates plainCollation (.plain []) (plainNaming ⟨[m]⟩) db r m "title" item := by
  intro m r node db
  have hcaptures : (plainNaming ⟨[m]⟩).Captures m.table m.table r.localKey := by decide
  obtain ⟨key, hkey, hnone⟩ : ∃ key, plainCollation.sortKey? (.plain []) (plainNaming ⟨[m]⟩) db m.table
      (relatedItem m m r "title" false) = some key ∧ key (node 2 (some 1) "leaf") = none :=
    ⟨_, (Collation.sortKey?_of_captures (by decide) (by decide) hcaptures).trans (if_pos (by decide)),
      by decide +kernel⟩
  have hvalues : Collation.relatedValues (.plain []) db m.table "title" r.remoteKey (.bigInt (some 1)) =
      [.string (some "root")] := by decide +kernel
  -- The row above the leaf has a title, while the leaf is sorted without one.
  refine ⟨by decide +kernel, List.mem_cons_self, _, key, by decide +kernel, hkey, hnone, hvalues, fun h => ?_⟩
  obtain ⟨key', hkey', hfirst⟩ := h (node 2 (some 1) "leaf") (by simp [db])
  obtain rfl := Option.some.inj (hkey.symm.trans hkey')
  rw [hnone] at hfirst
  cases hfirst with
  | none hempty => exact absurd (hvalues.symm.trans hempty) nofun

end Query

end RestTables
