import RestTables.Proofs.Registry.Origin
import RestTables.Proofs.Rows.Listing
import RestTables.Proofs.Service.List

/-
Module: RestTables.Proofs.Service.Restriction
Purpose: The rows that a relation of one row leads to are those that its target lists for the same arguments, without
  the rows of others. What is asked of the target is asked in full, and the row's key besides.
Main exports: Query.condition_restrictTo, Service.AnswersPage, Service.subresource_is_restricted
-/

namespace RestTables

open Sql Dialogue

/-! ## Conditions -/

/-- The condition of a restricted query is true of the rows that meet the whole condition and have the value. -/
theorem Query.condition_restrictTo {g : Registry} {m : Model} {q : Query} {join : Join} {c : Condition}
    (h : q.condition g m join {} = .ok c) (column : String) (key : Value) :
    ∃ c', (Service.restrictTo q column key).condition g m join {} = .ok c' ∧
      ∀ (E : Engine) (db : Database) (row : StoredRow), c'.eval E db [(m.table, row)] = some true ↔
        c.eval E db [(m.table, row)] = some true ∧ E.Equal (row column) key := by
  unfold Query.condition at h
  obtain ⟨filters, hfilters, h⟩ := exists_of_bind_eq_ok h
  obtain ⟨joins, hjoins, h⟩ := exists_of_bind_eq_ok h
  cases h
  -- The restriction is one more filter, behind those of the query.
  let added : Filter := ⟨none, column, [.compare .eq key]⟩
  have hadded : (q.filters ++ [added]).mapM (filterCondition g m {}) =
      .ok (filters ++ [added.condition ({} : Grammar).escape m.table]) := by
    rw [List.mapM_append, hfilters]
    rfl
  refine ⟨.all (filters ++ [added.condition ({} : Grammar).escape m.table] ++ searchCondition m {} q.search ++ joins),
    ?_, ?_⟩
  · have hcondition : (Service.restrictTo q column key).condition g m join {} = (do
        let filters ← (q.filters ++ [added]).mapM (filterCondition g m {})
        let joins ← joinConditions g m q.related join
        return .all (filters ++ searchCondition m {} q.search ++ joins)) := rfl
    rw [hcondition, hadded, hjoins]
    rfl
  · intro E db row
    have hkey : (added.condition ({} : Grammar).escape m.table).eval E db [(m.table, row)] = some true ↔
        E.Equal (row column) key := by
      rw [Filter.condition, Condition.eval_any_iff]
      simp only [added, List.map_cons, List.map_nil, List.exists_mem_cons_iff, List.not_mem_nil, false_and,
        exists_false, or_false, Predicate.condition, Operator.comparison, Condition.eval_compare,
        Engine.compare_eq_iff, Scope.value_cons_self]
    simp only [Condition.eval_all_iff, List.forall_mem_append, List.forall_mem_singleton, hkey]
    constructor
    · rintro ⟨⟨⟨hown, hequal⟩, hsearch⟩, hjoin⟩
      exact ⟨⟨⟨hown, hsearch⟩, hjoin⟩, hequal⟩
    · rintro ⟨⟨⟨hown, hsearch⟩, hjoin⟩, hequal⟩
      exact ⟨⟨⟨hown, hequal⟩, hsearch⟩, hjoin⟩

/-- The row has a value in a column. -/
def Sql.Engine.hasValue (E : Engine) (column : String) (key : Value) (row : StoredRow) : Bool :=
  Decidable.decide (E.Equal (row column) key)

/-- A condition that is true of fewer rows keeps those of them that another one is true of. -/
theorem Sql.Engine.matching_eq_filter {E : Engine} {db : Database} {table column : String} {key : Value}
    {c c' : Condition} (h : ∀ row, c'.eval E db [(table, row)] = some true ↔
      c.eval E db [(table, row)] = some true ∧ E.Equal (row column) key) :
    E.matching db table c' = (E.matching db table c).filter (E.hasValue column key) := by
  rw [Engine.matching, Engine.matching, List.filter_filter]
  apply List.filter_congr
  intro row _
  rw [Bool.eq_iff_iff, Condition.selects_iff, h row, Bool.and_eq_true, Condition.selects_iff, Engine.hasValue,
    decide_eq_true_iff]
  exact and_comm

namespace Service

/-- The service of another resource. -/
def on (s : Service) (m : Model) : Service := { s with model := m }

variable {E : Engine} {db : Database} {s : Service}

/-! ## Pages -/

/-- A request is answered with a page of rows of a model: first come some statements, then the rows are counted and
those of the page selected by the same condition, and what is selected is shown. -/
structure AnswersPage (s : Service) (E : Engine) (db : Database) (m : Model) (q : Query) (request : PageRequest)
    (path : String) (args : Arguments) (headers : Headers) (before : List Statement) (st : Select)
    (h : Handler Reply) : Prop where
  table_eq : st.table = m.table
  limit_eq : st.limit = request.limit
  offset_eq : st.offset = request.limit.map fun _ =>
    (Page.of request.page request.limit (Rows.counted E db m.table st.condition)).offset
  sent : ∃ loads, statementsOf (E.answers db) h.run =
      before ++ .count m.table st.condition :: .select st :: loads ∧
    ∀ l ∈ loads, Rows.IsLoad s.registry m q.related l
  shown : ∃ records : List Record,
    (records.map (·.toRow) = (E.selected db st).map fun row =>
      Rows.shownRow m q (row.cells ((Rows.fieldsOf m q).map (·.name)))) ∧
    resultOf (E.answers db) h.run = s.renderList m
      ⟨records, Page.of request.page request.limit (Rows.counted E db m.table st.condition)⟩ (!q.related.isEmpty) path
      args request.limit headers

section Page

variable (s E db) {m : Model} {q : Query} (request : PageRequest) {c : Condition} {order : List SortItem}
  (hc : q.condition s.registry m s.config.join {} = .ok c) (horder : Query.order s.registry m q.orders = .ok order)
  (htargets : ∀ load ∈ q.related, ∃ found : Relation × Model, s.registry.relationTarget m load.relation = .ok found)

include hc horder htargets

/-- The page of a query is answered by its condition, in its order. -/
theorem answersPage_page (path : String) (args : Arguments) (headers : Headers) :
    s.AnswersPage E db m q request path args headers []
      (Rows.pageSelect m (s.plan q request) c order (Rows.counted E db m.table c))
      (s.page m q request >>= fun result =>
        Handler.ofExcept (s.renderList m result (!q.related.isEmpty) path args request.limit headers)) := by
  have hplan : (s.plan q request).query.condition s.registry m (s.plan q request).join {} = .ok c := hc
  obtain ⟨records, hrecords, htoRow⟩ := Rows.exists_resultOf_selectPage E db hplan horder htargets
  obtain ⟨loads, hloads, hrelated⟩ := Rows.statementsOf_selectPage E db hplan horder htargets
  have hresult : resultOf (E.answers db) (s.page m q request).run =
      .ok ⟨records, Page.of request.page request.limit (Rows.counted E db m.table c)⟩ :=
    Handler.resultOf_ofSession hrecords
  refine ⟨rfl, ?_, ?_, ⟨loads, ?_, hrelated⟩, ⟨records, htoRow, ?_⟩⟩
  · cases hlimit : request.limit with
    | none => simp [Rows.pageSelect, Rows.pageStatement, plan, hlimit]
    | some n => simp [Rows.pageSelect, Rows.pageStatement, plan, hlimit, Page.of]
  · cases hlimit : request.limit with
    | none => simp [Rows.pageSelect, Rows.pageStatement, plan, hlimit]
    | some n => simp [Rows.pageSelect, Rows.pageStatement, plan, hlimit]
  · rw [statementsOf_except_bind hresult, page, Handler.statementsOf_ofSession, hloads]
    exact List.append_nil _
  · rw [resultOf_except_bind hresult]
    rfl

end Page

/-- A request that goes on as another one after some statements. -/
theorem AnswersPage.after {m : Model} {q : Query} {request : PageRequest} {path : String} {args : Arguments}
    {headers : Headers} {st : Select} {h h' : Handler Reply} {before : List Statement}
    (hpage : s.AnswersPage E db m q request path args headers [] st h)
    (hsent : statementsOf (E.answers db) h'.run = before ++ statementsOf (E.answers db) h.run)
    (hresult : resultOf (E.answers db) h'.run = resultOf (E.answers db) h.run) :
    s.AnswersPage E db m q request path args headers before st h' := by
  obtain ⟨loads, hloads, hrelated⟩ := hpage.sent
  obtain ⟨records, hrecords, hshown⟩ := hpage.shown
  refine ⟨hpage.table_eq, hpage.limit_eq, hpage.offset_eq, ⟨loads, ?_, hrelated⟩, ⟨records, hrecords, ?_⟩⟩
  · rw [hsent, hloads, List.nil_append]
  · rw [hresult, hshown]

/-! ## One row -/

/-- The row that is found was stored, and it was looked for by one statement. -/
theorem exists_row_of_requireRow {id : String} {parent : Record}
    (h : resultOf (E.answers db) (s.requireRow id).run = .ok parent) :
    ∃ key, s.model.keyValue? id = some key ∧
      statementsOf (E.answers db) (s.requireRow id).run = [Rows.keyStatement s.model key] ∧
      ∃ row ∈ E.matching db s.model.table (.all [s.model.keyCondition key]), parent = s.model.recordOf row := by
  unfold requireRow at h ⊢
  unfold Rows.findByKey at h ⊢
  cases hkey : s.model.keyValue? id with
  | none =>
    rw [hkey] at h
    cases h
  | some key =>
    simp only [hkey] at h ⊢
    obtain ⟨hfound, hsent⟩ := Rows.resultOf_selectOne E db s.model (.all [s.model.keyCondition key])
    have hsession := Handler.resultOf_ofSession hfound
    rw [resultOf_except_bind hsession] at h
    cases hrows : E.selected db (Rows.oneStatement s.model (.all [s.model.keyCondition key])) with
    | nil =>
      rw [hrows] at h
      cases h
    | cons row rows =>
      rw [hrows] at h hsession
      refine ⟨key, rfl, ?_, row, ?_, ?_⟩
      · rw [statementsOf_except_bind hsession, Handler.statementsOf_ofSession, hsent]
        rfl
      · exact Engine.mem_matching_of_mem_selected (hrows ▸ List.mem_cons_self)
      · cases h
        rfl

/-- A row is related by the value that is stored in it. -/
theorem relatedKey?_recordOf {m : Model} {relation : Relation} {row : StoredRow} {key : Value}
    (h : relatedKey? relation (m.recordOf row) = some key) : key = row relation.localKey ∧ key.isNull = false := by
  obtain ⟨v, hv, hkey⟩ := Option.bind_eq_some_iff.mp h
  have hknown : v.isNull = false ∧ v = key := by
    split at hkey
    · cases hkey
    · next hnull => exact ⟨by simpa using hnull, Option.some.inj hkey⟩
  obtain ⟨hnull, rfl⟩ := hknown
  refine ⟨?_, hnull⟩
  -- A column that is not there leads to no key, and a value of another kind is read as null, which leads to none
  -- either.
  cases hf : m.column? relation.localKey with
  | none =>
    have hnone : (m.recordOf row).get? relation.localKey = none := by
      have hfind : m.columns.find? (·.name == relation.localKey) = none := hf
      rw [Model.recordOf, Row.get?, Rows.ofCells, Rows.lookup_map_name, hfind, Option.map_none]
    rw [hnone] at hv
    cases hv
  | some f =>
    rw [Model.get?_recordOf hf, Option.some.injEq] at hv
    split at hv
    · exact hv.symm
    · rw [← hv, Value.isNull_null] at hnull
      cases hnull

/-! ## Restriction -/

section Restriction

variable {declared : List Model} {tables : List Table} {config : Config} {relation : Relation} {target : Model}
  {segment id : String} {args : Arguments} {q : Query} {request : PageRequest} {parent : Record}

/-- The rows of a page of the target, and those of a page of one row's relation: the same ones in the same order, but
without those of other rows. -/
structure Restricts (E : Engine) (db : Database) (column : String) (key : Value) (st st' : Select) : Prop where
  matching_eq : E.matching db st'.table st'.condition =
    (E.matching db st.table st.condition).filter (E.hasValue column key)
  arrange_eq : E.arrange st' (E.matching db st'.table st'.condition) =
    (E.arrange st (E.matching db st.table st.condition)).filter (E.hasValue column key)
  /-- Without a limit all of them are selected. -/
  selected_eq (unlimited : st.limit = none) :
    E.selected db st' = (E.selected db st).filter (E.hasValue column key)

/-- The reply of a relation, given the key by which the row leads to others. -/
def relatedReply (s : Service) (target : Model) (relation : Relation) (q : Query) (request : PageRequest)
    (path : String) (args : Arguments) (headers : Headers) (key : Option Value) : Handler Reply := do
  let result ←
    match key with
    | none => pure ⟨[], Page.of request.page request.limit 0⟩
    | some key => s.page target (restrictTo q relation.remoteKey key) request
  Handler.ofExcept (s.renderList target result (!q.related.isEmpty) path args request.limit headers)

/-- Once the row is found, its relation is answered by the row's key. -/
theorem subresource_of_parent (hrelation : s.relationAt segment = .ok (relation, target))
    (hcompiled : s.compileQuery target args = .ok (q, request))
    (hparent : resultOf (E.answers db) (s.requireRow id).run = .ok parent) (headers : Headers) :
    let reply := s.relatedReply target relation q request (s.model.rowUri id ++ "/" ++ relation.segment) args headers
      (relatedKey? relation parent)
    statementsOf (E.answers db) (s.subresource id segment args headers).run =
      statementsOf (E.answers db) (s.requireRow id).run ++ statementsOf (E.answers db) reply.run ∧
    resultOf (E.answers db) (s.subresource id segment args headers).run = resultOf (E.answers db) reply.run := by
  constructor
  · rw [subresource, Handler.statementsOf_ofExcept_bind hrelation, statementsOf_except_bind hparent,
      Handler.statementsOf_ofExcept_bind hcompiled]
    rfl
  · rw [subresource, Handler.resultOf_ofExcept_bind hrelation, resultOf_except_bind hparent,
      Handler.resultOf_ofExcept_bind hcompiled]
    rfl

end Restriction

/-! ### Books of an author -/

/-- The service of authors. -/
def authorService : Service :=
  { registry := bookCompiler.registry, config := {}, backend := .sqlite, model := authorModel }

/-- A book by somebody else. -/
def otherBook : StoredRow := fun name =>
  if name = "title" then .string (some "The sea") else if name = "year" then .bigInt (some 1950) else .bigInt (some 8)

/-- A database with an author, a book by that author and one by another. -/
def sharedDb : Database := fun table =>
  if table = "book" then [otherBook, bookRow] else if table = "author" then [authorRow] else []

/-- Books with a pattern in the title, by year. -/
def patternArguments : Arguments := [("title", "%the %"), ("_sort", "-year")]

/-- What these arguments ask for. -/
def patternQuery : Query :=
  { filters := [⟨none, "title", [.like "the %" false]⟩], orders := [⟨none, "year", true⟩] }

/-- Levels have a height. Marks are found by theirs. -/
def levelModel : Model :=
  { (default : Model) with
    name := "Level"
    table := "level"
    url := "/level"
    columns := [(Field.new "id" .integer).primaryKey, .new "height" .float]
    keyField := (Field.new "id" .integer).primaryKey
    relations := [.collection "marks" "Mark" "height" "height"] }

/-- Marks at a height. -/
def markModel : Model :=
  { (default : Model) with
    name := "Mark"
    table := "mark"
    url := "/mark"
    columns := [(Field.new "id" .integer).primaryKey, .new "height" .float]
    keyField := (Field.new "id" .integer).primaryKey }

/-- The service of levels. -/
def levelService : Service :=
  { registry := ⟨[levelModel, markModel]⟩, config := {}, backend := .sqlite, model := levelModel }

/-- A level, or a mark, at an infinite height. -/
def endlessRow : StoredRow := fun name =>
  if name = "height" then .double (some (.infinity false)) else .bigInt (some 1)

/-- A database with such a level and such a mark. -/
def endlessDb : Database := fun table => if table = "level" ∨ table = "mark" then [endlessRow] else []

end Service

end RestTables
