import RestTables.Rows.Related
import RestTables.Query.Page

/-
Module: RestTables.Rows.Page
Purpose: One page of a query's result: the rows are counted, one page is read, and then what its rows are
  related to.
Main exports: Rows.PageResult, Rows.selectPage
-/

namespace RestTables.Rows

open Sql

/-- The rows of a page, and how the page lies among all. -/
structure PageResult where
  records : List Record
  page : Page

/-- The number of rows; none for an answer without rows. -/
def count (table : String) (condition : Condition) : Session Nat := do
  match ← Session.queryOne (.count table condition) with
  | some cells => return ((← (cells.int countColumn : Except StorageError _))).toNat
  | none => return 0

/-- The columns at this end of the relations to read. -/
def localKeys (m : Model) (loads : List Load) : List String :=
  loads.filterMap fun load => (m.related? load.relation).map (·.localKey)

/-- The statement for one page. -/
def pageStatement (m : Model) (fields : List Field) (condition : Condition) (order : List SortItem)
    (limited : Bool) (page : Page) : Select :=
  { table := m.table
    columns := fields.map (·.name)
    condition
    order
    limit := if limited then some page.size else none
    offset := if limited then some page.offset else none }

/-- Records with what some relations lead to. -/
def loadAll (g : Registry) (m : Model) (records : List Record) : List Load → Session (List Record)
  | [] => pure records
  | load :: loads => do loadAll g m (← loadRelated g m records load) loads

/-- Records of which only some columns are shown; all when none are named. -/
def project (records : List Record) (fields : List String) : List Record :=
  if fields.isEmpty then records else records.map fun r => { r with projection := some fields }

/-- The page that a plan asks for. -/
def selectPage (g : Registry) (m : Model) (plan : Plan) : Session PageResult := do
  let q := plan.query
  let condition ← (q.condition g m plan.join {} : Except StorageError _)
  let total ← count m.table condition
  let page := Page.of plan.page plan.limit total
  let fields := m.loadColumns q.fields (localKeys m q.related)
  let order ← (Query.order g m q.orders : Except StorageError _)
  let records ← select (pageStatement m fields condition order plan.limit.isSome page) fields
  let records ← loadAll g m (project records q.fields) q.related
  return ⟨records, page⟩

end RestTables.Rows
