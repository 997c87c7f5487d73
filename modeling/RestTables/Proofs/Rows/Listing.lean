import RestTables.Proofs.Rows.Related
import RestTables.Proofs.Sql.Order
import RestTables.Proofs.Storage.History

/-
Module: RestTables.Proofs.Rows.Listing
Purpose: What reading asks of a database and what it makes of the rows that are there: one row that is looked for,
  and the rows of a page, which are counted, selected, and read along with what they are related to.
Main exports: Engine.answers, Dialogue.Only.forall_mem_statementsOf, Rows.readRow, Rows.counted, Rows.pageSelect,
  Rows.IsLoad, Rows.resultOf_selectPage_of_loadAll, Rows.statementsOf_selectPage, Rows.exists_resultOf_selectPage
-/

namespace RestTables

open Sql Dialogue

/-- The answers of a database to what is only asked. -/
def Sql.Engine.answers (E : Engine) (db : Database) (s : Statement) : Except StorageError (List Cells) :=
  .ok (E.rows db s)

/-! ## What is said -/

namespace Dialogue

variable {answers : Answers} {d : Dialogue α}

/-- What is said to a database that answers by itself is said on one of all paths. -/
theorem exists_says (answers : Answers) (d : Dialogue α) :
    ∃ log, d.Says log (resultOf answers d) ∧ log.filterMap Exchange.statement? = statementsOf answers d := by
  induction d with
  | done a => exact ⟨[], says_done_iff.mpr ⟨rfl, rfl⟩, rfl⟩
  | query s next ih =>
    obtain ⟨log, hlog, hsent⟩ := ih (answers s)
    exact ⟨.query s (answers s) :: log, says_query_iff.mpr ⟨_, log, rfl, hlog⟩, congrArg (s :: ·) hsent⟩
  | execute s next ih =>
    obtain ⟨log, hlog, hsent⟩ := ih (.ok default)
    exact ⟨.execute s (.ok default) :: log, says_execute_iff.mpr ⟨_, log, rfl, hlog⟩, congrArg (s :: ·) hsent⟩
  | mark m next ih =>
    obtain ⟨log, hlog, hsent⟩ := ih
    exact ⟨.mark m :: log, says_mark_iff.mpr ⟨log, rfl, hlog⟩, hsent⟩

/-- Where all that can be said are queries of a kind, those are all that is sent. -/
theorem Only.forall_mem_statementsOf {K : Statement → Prop} (h : Only (Exchange.Queries K) d) :
    ∀ s ∈ statementsOf answers d, K s := by
  obtain ⟨log, hlog, hsent⟩ := exists_says answers d
  rw [← hsent]
  intro s hs
  obtain ⟨x, hx, hstatement⟩ := List.mem_filterMap.mp hs
  obtain ⟨s', r, rfl, hK⟩ := h log _ hlog x hx
  cases hstatement
  exact hK

end Dialogue

/-! ## Cells -/

theorem Sql.StoredRow.lookup_cells {row : StoredRow} {columns : List String} {name : String} (h : name ∈ columns) :
    (row.cells columns).lookup name = some (row name) := by
  induction columns with
  | nil => cases h
  | cons c columns ih =>
    rw [cells, List.map_cons, List.lookup_cons]
    cases hbeq : name == c with
    | true =>
      obtain rfl : name = c := by simpa using hbeq
      rfl
    | false =>
      have hne : name ≠ c := by simpa using hbeq
      exact ih ((List.mem_cons.mp h).resolve_left hne)

/-- The value of a column, where it is of the column's kind, and else the NULL of the kind. -/
def Sql.StoredRow.read (row : StoredRow) (f : Field) : Value :=
  if (row f.name).hasKind f.kind then row f.name else .null f.kind

theorem Sql.StoredRow.hasKind_read (row : StoredRow) (f : Field) : (row.read f).hasKind f.kind = true := by
  unfold read
  split
  · assumption
  · exact Value.hasKind_null f.kind

/-- What is known of a column is what is stored in it. -/
theorem Sql.StoredRow.read_eq_of_known {row : StoredRow} {f : Field} (h : (row.read f).isSqlNull = false) :
    row.read f = row f.name := by
  unfold read at h ⊢
  split
  · rfl
  · next hkind =>
    rw [if_neg hkind, Value.isSqlNull_null] at h
    cases h

namespace Rows

/-- A stored row as some columns of it are read. -/
def readRow (fields : List Field) (row : StoredRow) : Record := ofCells fields (row.cells (fields.map (·.name)))

theorem values_readRow (fields : List Field) (row : StoredRow) :
    (readRow fields row).values = fields.map fun f => (f.name, row.read f) := by
  refine List.map_congr_left fun f hf => ?_
  rw [Cells.decode, StoredRow.lookup_cells (List.mem_map.mpr ⟨f, hf, rfl⟩), StoredRow.read]

theorem get?_readRow (fields : List Field) (row : StoredRow) (name : String) :
    (readRow fields row).get? name = (fields.find? (·.name == name)).map row.read := by
  rw [Row.get?, values_readRow, lookup_map_name]

end Rows

/-- A column of a stored row is read as its value, if that is of the column's kind. -/
theorem Model.get?_recordOf {m : Model} {f : Field} {name : String} (hf : m.column? name = some f)
    (row : StoredRow) :
    (m.recordOf row).get? name = some (if (row name).hasKind f.kind then row name else .null f.kind) := by
  have hread : m.recordOf row = Rows.readRow m.columns row := rfl
  have hfind : m.columns.find? (·.name == name) = some f := hf
  rw [hread, Rows.get?_readRow, hfind, Option.map_some, StoredRow.read, Compiler.name_of_column? hf]

namespace Rows

variable {E : Engine} {db : Database} {g : Registry} {m : Model}

/-! ## One row -/

/-- Looking for one row is one statement, and gives the first row that meets the condition. -/
theorem resultOf_selectOne (E : Engine) (db : Database) (m : Model) (c : Condition) :
    resultOf (E.answers db) (selectOne m c).run = .ok ((E.selected db (oneStatement m c)).head?.map m.recordOf) ∧
      statementsOf (E.answers db) (selectOne m c).run = [.select (oneStatement m c)] := by
  obtain ⟨log, hlog, hsent⟩ := exists_says (E.answers db) (selectOne m c).run
  refine ⟨?_, ?_⟩
  · rw [selectOne, resultOf_except_bind (resultOf_select rfl)]
    cases h : E.selected db (oneStatement m c) with
    | nil => simp [h, Engine.rows]; rfl
    | cons row rows => simp [h, Engine.rows]; rfl
  · obtain ⟨r, rfl, -⟩ := says_selectOne_iff.mp hlog
    exact hsent.symm

/-! ## Pages -/

/-- The number that a database gives when it is asked for the number of rows that meet a condition. -/
def counted (E : Engine) (db : Database) (table : String) (c : Condition) : Nat :=
  (Int64.ofNat (E.matching db table c).length).toInt.toNat

/-- The statement for the page that a plan asks for, out of a number of rows. -/
def pageSelect (m : Model) (plan : Plan) (c : Condition) (order : List SortItem) (total : Nat) : Select :=
  pageStatement m (fieldsOf m plan.query) c order plan.limit.isSome (Page.of plan.page plan.limit total)

/-- A statement for what one of some relations leads to. -/
def IsLoad (g : Registry) (m : Model) (loads : List Load) (s : Statement) : Prop :=
  ∃ load ∈ loads, ∃ relation target keys, g.relationTarget m load.relation = .ok (relation, target) ∧
    s = .select (relatedStatement relation target
      (target.loadColumns (load.columns.getD []) [relation.remoteKey]) keys)

theorem resultOf_count_of_engine (table : String) (c : Condition) :
    resultOf (E.answers db) (count table c).run = .ok (counted E db table c) := by
  have hrows : E.answers db (.count table c) =
      .ok [[(countColumn, .bigInt (some (Int64.ofNat (E.matching db table c).length)))]] := rfl
  rw [count, resultOf_except_bind (resultOf_queryOne hrows)]
  rfl

theorem statementsOf_count (table : String) (c : Condition) :
    statementsOf (E.answers db) (count table c).run = [.count table c] := by
  rfl

/-- A database answers whatever is loaded from it. -/
theorem loadsBy_answers (E : Engine) (db : Database) (g : Registry) (m : Model) (loads : List Load) :
    ∀ load ∈ loads, LoadsBy (fun s => ∃ found, E.answers db s = .ok found) g m load :=
  fun _ _ _ _ _ _ => ⟨_, rfl⟩

/-- A page is what is loaded for the rows of its statement. -/
theorem resultOf_selectPage_of_loadAll {plan : Plan} {c : Condition} {order : List SortItem} {records : List Record}
    (hc : plan.query.condition g m plan.join {} = .ok c) (horder : Query.order g m plan.query.orders = .ok order)
    (hload : resultOf (E.answers db) (loadAll g m
      (project ((E.selected db (pageSelect m plan c order (counted E db m.table c))).map
        (readRow (fieldsOf m plan.query))) plan.query.fields) plan.query.related).run = .ok records) :
    resultOf (E.answers db) (selectPage g m plan).run =
      .ok ⟨records, Page.of plan.page plan.limit (counted E db m.table c)⟩ := by
  let rows := E.selected db (pageSelect m plan c order (counted E db m.table c))
  have hselect : resultOf (E.answers db) (select (pageSelect m plan c order (counted E db m.table c))
      (fieldsOf m plan.query)).run = .ok (rows.map (readRow (fieldsOf m plan.query))) := by
    have hanswer : E.answers db (.select (pageSelect m plan c order (counted E db m.table c))) =
        .ok (rows.map (·.cells ((fieldsOf m plan.query).map (·.name)))) := rfl
    rw [resultOf_select hanswer, List.map_map]
    rfl
  rw [selectPage, resultOf_lift_bind hc, resultOf_except_bind (resultOf_count_of_engine m.table c)]
  rw [resultOf_lift_bind horder]
  exact (resultOf_except_bind hselect).trans (resultOf_except_bind hload)

section Plan

variable (E db) {plan : Plan} {c : Condition} {order : List SortItem}
  (hc : plan.query.condition g m plan.join {} = .ok c) (horder : Query.order g m plan.query.orders = .ok order)
  (htargets : ∀ load ∈ plan.query.related, ∃ found : Relation × Model, g.relationTarget m load.relation = .ok found)

include hc horder htargets

/-- A page holds the rows of its statement. -/
theorem exists_resultOf_selectPage :
    ∃ records, resultOf (E.answers db) (selectPage g m plan).run =
        .ok ⟨records, Page.of plan.page plan.limit (counted E db m.table c)⟩ ∧
      records.map (·.toRow) = (E.selected db (pageSelect m plan c order (counted E db m.table c))).map fun row =>
        shownRow m plan.query (row.cells ((fieldsOf m plan.query).map (·.name))) := by
  let rows := E.selected db (pageSelect m plan c order (counted E db m.table c))
  obtain ⟨records, hrecords, htoRow⟩ := resultOf_loadAll (loadsBy_answers E db g m plan.query.related) htargets
    (project (rows.map (readRow (fieldsOf m plan.query))) plan.query.fields)
  refine ⟨records, resultOf_selectPage_of_loadAll hc horder hrecords, ?_⟩
  have hcells : rows.map (readRow (fieldsOf m plan.query)) =
      (rows.map (·.cells ((fieldsOf m plan.query).map (·.name)))).map (ofCells (fieldsOf m plan.query)) := by
    rw [List.map_map]
    rfl
  rw [htoRow, hcells, toRow_project, List.map_map]
  rfl

/-- For a page its rows are counted and selected, and then what they are related to. -/
theorem statementsOf_selectPage :
    ∃ loads, statementsOf (E.answers db) (selectPage g m plan).run =
        .count m.table c :: .select (pageSelect m plan c order (counted E db m.table c)) :: loads ∧
      ∀ s ∈ loads, IsLoad g m plan.query.related s := by
  let found := (E.selected db (pageSelect m plan c order (counted E db m.table c))).map fun row =>
    row.cells ((fieldsOf m plan.query).map (·.name))
  have hselect : E.answers db (.select (pageSelect m plan c order (counted E db m.table c))) = .ok found := rfl
  let loading := loadAll g m (project (found.map (ofCells (fieldsOf m plan.query))) plan.query.fields)
    plan.query.related
  obtain ⟨records, hrecords, -⟩ := resultOf_loadAll (loadsBy_answers E db g m plan.query.related) htargets
    (project (found.map (ofCells (fieldsOf m plan.query))) plan.query.fields)
  refine ⟨statementsOf (E.answers db) loading.run, ?_, ?_⟩
  · rw [selectPage, statementsOf_lift_bind hc, statementsOf_except_bind (resultOf_count_of_engine m.table c),
      statementsOf_count]
    rw [statementsOf_lift_bind horder]
    refine congrArg (Statement.count m.table c :: ·) ?_
    refine (statementsOf_except_bind (resultOf_select hselect)).trans ?_
    refine congrArg (Statement.select _ :: ·) ?_
    refine (statementsOf_except_bind hrecords).trans ?_
    exact List.append_nil _
  · apply Only.forall_mem_statementsOf
    apply only_loadAll
    intro load hload relation target keys htarget
    exact ⟨load, hload, relation, target, keys, htarget, rfl⟩

end Plan

/-- What is done for a member of a list is done with success where it is done for all. -/
theorem exists_mem_of_mapM {α β ε : Type} {f : α → Except ε β} {l : List α} {bs : List β} (h : l.mapM f = .ok bs)
    {a : α} (ha : a ∈ l) : ∃ b ∈ bs, f a = .ok b := by
  replace h := mapM_eq_ok_iff.mp h
  induction h with
  | nil => cases ha
  | @cons _ b _ _ hfirst _ ih =>
    rcases List.mem_cons.mp ha with rfl | ha
    · exact ⟨b, List.mem_cons_self, hfirst⟩
    · obtain ⟨b', hb', hfa⟩ := ih ha
      exact ⟨b', List.mem_cons_of_mem b hb', hfa⟩

/-- The order of a query ends with the key, unless it has it before. -/
theorem exists_key_mem_order {orders : List Order} {order : List SortItem} (h : Query.order g m orders = .ok order) :
    ∃ descending, ⟨.column ⟨m.table, m.keyField.name⟩, descending⟩ ∈ order := by
  unfold Query.order at h
  obtain ⟨items, hitems, h⟩ := exists_of_bind_eq_ok h
  split at h
  · next hany =>
    cases h
    obtain ⟨o, ho, hkey⟩ := List.any_eq_true.mp hany
    simp only [Bool.and_eq_true, Option.isNone_iff_eq_none, beq_iff_eq] at hkey
    obtain ⟨item, hitem, hsort⟩ := exists_mem_of_mapM hitems ho
    simp only [Query.sortItem, hkey.1, hkey.2, Except.ok.injEq] at hsort
    exact ⟨o.descending, hsort ▸ hitem⟩
  · cases h
    exact ⟨false, List.mem_append_right _ (List.mem_singleton_self _)⟩

end Rows

namespace Handler

variable {answers : Answers}

theorem statementsOf_ofSession (d : Session α) :
    statementsOf answers (ofSession d).run = statementsOf answers d.run := by
  have hrun : (ofSession d).run = Dialogue.bind d.run fun r => .done (r.mapError ApiError.ofStorage) := rfl
  rw [hrun, statementsOf_bind]
  exact List.append_nil _

theorem statementsOf_ofExcept_bind {e : Except ApiError α} {a : α} (h : e = .ok a) (f : α → Handler β) :
    statementsOf answers (ofExcept e >>= f).run = statementsOf answers (f a).run := by
  subst h
  rfl

end Handler

end RestTables
