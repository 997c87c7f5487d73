import RestTables.Proofs.Query.Page
import RestTables.Proofs.Rows.Resolution
import RestTables.Proofs.Service.Statements
import RestTables.Proofs.Storage.Answers

/-
Module: RestTables.Proofs.Rows.Page
Purpose: What a page holds that a database answers which keeps its rows in one order: the rows at the place of the
  page, each with whatever its relations lead to.
Main exports: Rows.Pages, Rows.shownRow, Rows.exists_total_of_selectPage, Rows.resultOf_selectPage_cutFor,
  Rows.resultOf_selectPage
-/

namespace RestTables

open Sql Dialogue

theorem Cells.toNat_lt_of_int {cells : Cells} {name : String} {n : Int} (h : cells.int name = .ok n) :
    n.toNat < twoTo 63 := by
  unfold int int? at h
  split at h
  · next found hfound =>
    cases h
    split at hfound
    · obtain ⟨x, -, rfl⟩ := Option.map_eq_some_iff.mp hfound
      have hlt := x.toInt_lt
      have hbound : (twoTo 63 : Int) = 2 ^ 63 := by decide
      omega
    · cases hfound
  · cases h

namespace Rows

/-! ## Answers -/

/-- Rows from a place on, no more than a number of them. -/
def cut (limit offset : Option Nat) (rows : List α) : List α :=
  let rest := rows.drop (offset.getD 0)
  match limit with
  | none => rest
  | some n => rest.take n

/-- The columns that are read for a query. -/
def fieldsOf (m : Model) (q : Query) : List Field := m.loadColumns q.fields (localKeys m q.related)

/-- The answers to a query's statements are about the same rows in one order: their number, the part of them at a
place, and anything at all that their relations lead to. -/
structure Pages (answers : Answers) (g : Registry) (m : Model) (q : Query) (c : Condition) (order : List SortItem)
    (rows : List Cells) : Prop where
  count : answers (.count m.table c) = .ok [[(countColumn, .bigInt (some (Int64.ofNat rows.length)))]]
  select : ∀ limit offset, answers (.select
    { table := m.table, columns := (fieldsOf m q).map (·.name), condition := c, order, limit, offset }) =
      .ok (cut limit offset rows)
  related : ∀ load ∈ q.related, LoadsBy (fun s => ∃ found, answers s = .ok found) g m load

/-- The columns of a row that are shown. -/
def shownRow (m : Model) (q : Query) (cells : Cells) : Row :=
  { values := (fieldsOf m q).map fun f => (f.name, cells.decode f.name f.kind)
    projection := if q.fields.isEmpty then none else some q.fields }

variable {answers : Answers}

theorem resultOf_count {table : String} {c : Condition} {n : Nat} (hn : n < twoTo 63)
    (h : answers (.count table c) = .ok [[(countColumn, .bigInt (some (Int64.ofNat n)))]]) :
    resultOf answers (count table c).run = .ok n := by
  have hint : Cells.int [(countColumn, .bigInt (some (Int64.ofNat n)))] countColumn = .ok (n : Int) := by
    have hvalue : (Int64.ofNat n).toInt = n := Int64.toInt_ofNat_of_lt hn
    simp only [Cells.int, Cells.int?, List.lookup_cons_self, Option.map_some, hvalue]
  rw [count, resultOf_except_bind (resultOf_queryOne h)]
  exact resultOf_lift_bind hint

/-- Rows are counted in 63 bits. -/
theorem lt_of_resultOf_count {table : String} {c : Condition} {n : Nat}
    (h : resultOf answers (count table c).run = .ok n) : n < twoTo 63 := by
  obtain ⟨cells, -, h⟩ := exists_of_resultOf_bind h
  cases cells with
  | none =>
    cases h
    decide
  | some cells =>
    obtain ⟨k, hk, h⟩ := exists_of_resultOf_bind h
    cases h
    exact Cells.toNat_lt_of_int hk

/-- A page that was read is one of those that some number of rows fills. -/
theorem exists_total_of_selectPage {g : Registry} {m : Model} {plan : Plan} {result : PageResult}
    (h : resultOf answers (selectPage g m plan).run = .ok result) :
    ∃ total < twoTo 63, result.page = Page.of plan.page plan.limit total := by
  obtain ⟨c, -, h⟩ := exists_of_resultOf_bind h
  obtain ⟨total, htotal, h⟩ := exists_of_resultOf_bind h
  obtain ⟨order, -, h⟩ := exists_of_resultOf_bind h
  obtain ⟨found, -, h⟩ := exists_of_resultOf_bind h
  obtain ⟨records, -, h⟩ := exists_of_resultOf_bind h
  cases h
  exact ⟨total, lt_of_resultOf_count htotal, rfl⟩

theorem resultOf_select {s : Select} {fields : List Field} {found : List Cells}
    (h : answers (.select s) = .ok found) :
    resultOf answers (select s fields).run = .ok (found.map (ofCells fields)) :=
  resultOf_except_bind (resultOf_query h)

/-- The rows of some parts of the keys are read part by part. -/
theorem resultOf_relatedRows {relation : Relation} {target : Model} {fields : List Field} {parts : List (List Value)}
    {found : List Value → List Cells}
    (h : ∀ keys ∈ parts, answers (.select (relatedStatement relation target fields keys)) = .ok (found keys)) :
    resultOf answers (relatedRows relation target fields parts).run =
      .ok (parts.flatMap fun keys => (found keys).map (ofCells fields)) := by
  induction parts with
  | nil => rfl
  | cons keys parts ih =>
    obtain ⟨hfirst, hrest⟩ := List.forall_mem_cons.mp h
    rw [relatedRows, resultOf_except_bind (resultOf_select hfirst), resultOf_except_bind (ih hrest)]
    rfl

/-- Loading what a relation leads to leaves the rows as they are. -/
theorem resultOf_loadRelated {g : Registry} {m : Model} {load : Load}
    (h : LoadsBy (fun s => ∃ found, answers s = .ok found) g m load)
    (htarget : ∃ found : Relation × Model, g.relationTarget m load.relation = .ok found) (records : List Record) :
    ∃ loaded, resultOf answers (loadRelated g m records load).run = .ok loaded ∧
      loaded.map (·.toRow) = records.map (·.toRow) := by
  obtain ⟨⟨relation, target⟩, htarget⟩ := htarget
  choose found hfound using fun keys => h relation target keys htarget
  refine ⟨_, (resultOf_lift_bind htarget).trans
    (resultOf_except_bind (resultOf_relatedRows fun keys _ => hfound keys)), ?_⟩
  rw [List.map_map]
  rfl

theorem resultOf_loadAll {g : Registry} {m : Model} {loads : List Load}
    (h : ∀ load ∈ loads, LoadsBy (fun s => ∃ found, answers s = .ok found) g m load)
    (htargets : ∀ load ∈ loads, ∃ found : Relation × Model, g.relationTarget m load.relation = .ok found)
    (records : List Record) :
    ∃ loaded, resultOf answers (loadAll g m records loads).run = .ok loaded ∧
      loaded.map (·.toRow) = records.map (·.toRow) := by
  induction loads generalizing records with
  | nil => exact ⟨records, rfl, rfl⟩
  | cons load loads ih =>
    obtain ⟨hload, hloads⟩ := List.forall_mem_cons.mp h
    obtain ⟨htarget, htargets⟩ := List.forall_mem_cons.mp htargets
    obtain ⟨first, hfirst, hrows⟩ := resultOf_loadRelated hload htarget records
    obtain ⟨loaded, hloaded, hsame⟩ := ih hloads htargets first
    exact ⟨loaded, (resultOf_except_bind hfirst).trans hloaded, hsame.trans hrows⟩

theorem toRow_project (m : Model) (q : Query) (found : List Cells) :
    (project (found.map (ofCells (fieldsOf m q))) q.fields).map (·.toRow) = found.map (shownRow m q) := by
  unfold project
  split
  · next hnone =>
    rw [List.map_map]
    refine List.map_congr_left fun cells _ => ?_
    simp only [Function.comp_apply, ofCells, shownRow, hnone, ↓reduceIte]
  · next hsome =>
    rw [List.map_map, List.map_map]
    refine List.map_congr_left fun cells _ => ?_
    simp only [Function.comp_apply, ofCells, shownRow, hsome, Bool.false_eq_true, ↓reduceIte]

/-- The part of the rows that the statement for a page asks for: with a limit as many as fit on the page, from its offset
on, and all of them without one. -/
def cutFor (limit : Option Nat) (page : Page) (rows : List α) : List α :=
  cut (if limit.isSome then some page.size else none) (if limit.isSome then some page.offset else none) rows

section Select

variable {g : Registry} {m : Model} (plan : Plan) {c : Condition} {order : List SortItem} {rows : List Cells}
  (hc : plan.query.condition g m plan.join {} = .ok c) (horder : Query.order g m plan.query.orders = .ok order)
  (hpages : Pages answers g m plan.query c order rows)
  (htargets : ∀ load ∈ plan.query.related, ∃ found : Relation × Model, g.relationTarget m load.relation = .ok found)
  (hrows : rows.length < twoTo 63)

include hc horder hpages htargets hrows

/-- Whether the page is there or not, it holds the part of the rows that is asked for. -/
theorem resultOf_selectPage_cutFor :
    ∃ records, resultOf answers (selectPage g m plan).run =
        .ok ⟨records, Page.of plan.page plan.limit rows.length⟩ ∧
      records.map (·.toRow) =
        (cutFor plan.limit (Page.of plan.page plan.limit rows.length) rows).map (shownRow m plan.query) := by
  let page := Page.of plan.page plan.limit rows.length
  have hselect : answers (.select (pageStatement m (fieldsOf m plan.query) c order plan.limit.isSome page)) =
      .ok (cutFor plan.limit page rows) := hpages.select _ _
  obtain ⟨records, hrecords, htoRow⟩ := resultOf_loadAll hpages.related htargets
    (project ((cutFor plan.limit page rows).map (ofCells (fieldsOf m plan.query))) plan.query.fields)
  refine ⟨records, ?_, htoRow.trans (toRow_project m plan.query _)⟩
  rw [selectPage, resultOf_lift_bind hc, resultOf_except_bind (resultOf_count hrows hpages.count)]
  rw [resultOf_lift_bind horder]
  exact (resultOf_except_bind (resultOf_select hselect)).trans (resultOf_except_bind hrecords)

/-- A page holds the rows at its place. -/
theorem resultOf_selectPage (hpage : 1 ≤ plan.page) (hlast : plan.page ≤ Page.countOf plan.limit rows.length) :
    ∃ records, resultOf answers (selectPage g m plan).run =
        .ok ⟨records, Page.of plan.page plan.limit rows.length⟩ ∧
      records.map (·.toRow) = (Page.rowsOf plan.limit rows plan.page).map (shownRow m plan.query) := by
  let page := Page.of plan.page plan.limit rows.length
  have hoffset : page.offset = (plan.page - 1) * page.size := Page.offset_of hrows hpage hlast
  have hcut : cutFor plan.limit page rows = Page.rowsOf plan.limit rows plan.page := by
    rw [cutFor, hoffset]
    cases hlimit : plan.limit with
    | none => rfl
    | some size =>
      have hsize : page.size = size := by simp [page, Page.of, hlimit]
      simp [cut, Page.rowsOf, hsize]
  rw [← hcut]
  exact resultOf_selectPage_cutFor plan hc horder hpages htargets hrows

end Select

end Rows

end RestTables
