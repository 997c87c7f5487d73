import RestTables.Proofs.Query.Compiled
import RestTables.Proofs.Service.Transaction
import RestTables.Proofs.Storage.Only

/-
Module: RestTables.Proofs.Service.Statements
Purpose: Every statement that a service can send, whatever is asked of it and whatever the database answers.
  Reading sends four kinds of statements and writing four more.
Main exports: Service.Asks, Service.Reads, Service.Writes, Service.only_list, Service.only_fetch, Service.only_get,
  Service.only_subresource, Service.only_create, Service.only_replace, Service.only_modify, Service.only_delete
-/

namespace RestTables

open Sql (Statement)
open Dialogue

/-! ## Rows -/

namespace Rows

variable {K : Statement → Prop} {g : Registry} {m : Model}

theorem only_query {s : Statement} (h : K s) : Only (Exchange.Queries K) (Session.query s).run := by
  intro log a hs x hx
  rw [Session.says_query_iff.mp hs] at hx
  exact ⟨s, a, List.mem_singleton.mp hx, h⟩

theorem only_execute {s : Statement} (h : K s) : Only (Exchange.Sends K) (Session.execute s).run := by
  intro log a hs x hx
  rw [Session.says_execute_iff.mp hs] at hx
  rw [List.mem_singleton.mp hx]
  intro s' hs'
  cases hs'
  exact h

theorem only_select {s : Sql.Select} {fields : List Field} (h : K (.select s)) :
    Only (Exchange.Queries K) (select s fields).run :=
  Only.except_bind (only_query h) fun _ => only_pure

theorem only_selectOne {c : Sql.Condition} (h : K (.select (oneStatement m c))) :
    Only (Exchange.Queries K) (selectOne m c).run :=
  Only.except_bind (only_select h) fun _ => only_pure

theorem only_findByKey (h : ∀ key, K (keyStatement m key)) (id : String) :
    Only (Exchange.Queries K) (findByKey m id).run := by
  unfold findByKey
  split
  · exact only_pure
  · next key _ => exact only_selectOne (h key)

theorem only_count {table : String} {c : Sql.Condition} (h : K (.count table c)) :
    Only (Exchange.Queries K) (count table c).run := by
  unfold count
  apply Only.except_bind (Only.except_bind (only_query h) fun _ => only_pure)
  intro cells
  cases cells with
  | none => exact only_pure
  | some cells => exact Only.lift_bind fun _ _ => only_pure

theorem only_relatedRows {relation : Relation} {target : Model} {fields : List Field}
    (h : ∀ keys, K (.select (relatedStatement relation target fields keys))) (parts : List (List Value)) :
    Only (Exchange.Queries K) (relatedRows relation target fields parts).run := by
  induction parts with
  | nil => exact only_pure
  | cons keys parts ih =>
    apply Only.except_bind (only_select (h keys))
    intro rows
    exact Only.except_bind ih fun _ => only_pure

/-- The statements for what some loads lead to, for any keys. -/
def LoadsBy (K : Statement → Prop) (g : Registry) (m : Model) (load : Load) : Prop :=
  ∀ relation target keys, g.relationTarget m load.relation = .ok (relation, target) →
    K (.select (relatedStatement relation target
      (target.loadColumns (load.columns.getD []) [relation.remoteKey]) keys))

theorem only_loadRelated {load : Load} (h : LoadsBy K g m load) (records : List Record) :
    Only (Exchange.Queries K) (loadRelated g m records load).run := by
  apply Only.lift_bind
  rintro ⟨relation, target⟩ htarget
  apply Only.except_bind (only_relatedRows (fun keys => h relation target keys htarget) _)
  intro rows
  exact only_pure

theorem only_loadAll {loads : List Load} (h : ∀ load ∈ loads, LoadsBy K g m load) (records : List Record) :
    Only (Exchange.Queries K) (loadAll g m records loads).run := by
  induction loads generalizing records with
  | nil => exact only_pure
  | cons load loads ih =>
    obtain ⟨hload, hloads⟩ := List.forall_mem_cons.mp h
    exact Only.except_bind (only_loadRelated hload records) fun loaded => ih hloads loaded

/-- A page is counted, selected, and then loaded along. -/
theorem only_selectPage {plan : Plan}
    (hcount : ∀ c, plan.query.condition g m plan.join {} = .ok c → K (.count m.table c))
    (hpage : ∀ c order page, plan.query.condition g m plan.join {} = .ok c →
      Query.order g m plan.query.orders = .ok order →
      K (.select (pageStatement m (m.loadColumns plan.query.fields (localKeys m plan.query.related)) c order
        plan.limit.isSome page)))
    (hloads : ∀ load ∈ plan.query.related, LoadsBy K g m load) :
    Only (Exchange.Queries K) (selectPage g m plan).run := by
  apply Only.lift_bind
  intro c hc
  apply Only.except_bind (only_count (hcount c hc))
  intro total
  apply Only.lift_bind
  intro order horder
  apply Only.except_bind (only_select (hpage c order _ hc horder))
  intro records
  exact Only.except_bind (only_loadAll hloads _) fun _ => only_pure

end Rows

namespace Handler

variable {P : Exchange → Prop}

theorem only_ofSession {d : Session α} (h : Only P d.run) : Only P (ofSession d).run := by
  intro log a hs
  obtain ⟨r, hr, -⟩ := says_ofSession_iff.mp hs
  exact h log r hr

theorem Only.ofExcept_bind {e : Except ApiError α} {f : α → Handler β}
    (hf : ∀ a, e = .ok a → Only P (f a).run) : Only P (ofExcept e >>= f).run := by
  cases e with
  | error e => exact only_done
  | ok a => exact hf a rfl

theorem only_transaction {h : Handler α} (hmark : ∀ m, P (.mark m)) (hh : Only P h.run) :
    Only P (transaction h).run := by
  intro log a hs x hx
  obtain ⟨body, hbody, rfl⟩ := says_transaction_iff.mp hs
  simp only [List.cons_append, List.mem_cons, List.mem_append, List.not_mem_nil, or_false] at hx
  rcases hx with rfl | hx | rfl
  · exact hmark _
  · exact hh body a hbody x hx
  · exact hmark _

end Handler

/-! ## Bodies -/

/-- A column is given the value that its member of the body becomes. -/
theorem Model.mem_bind_iff {m : Model} {data : Json.Object} {name : String} {v : Value} :
    (name, v) ∈ (m.bind data).values ↔
      ∃ f j, m.column? name = some f ∧ (name, j) ∈ data ∧ Value.ofJson? f.kind j = some v := by
  simp only [Model.bind, List.mem_filterMap, Model.bindMember?]
  constructor
  · rintro ⟨⟨_, _⟩, ⟨⟨key, j⟩, hmember, hcolumn⟩, hvalue⟩
    obtain ⟨f, hf, heq⟩ := Option.map_eq_some_iff.mp hcolumn
    cases heq
    obtain ⟨w, hw, heq⟩ := Option.map_eq_some_iff.mp hvalue
    cases heq
    exact ⟨f, j, hf, hmember, hw⟩
  · rintro ⟨f, j, hf, hmember, hv⟩
    exact ⟨(name, some v), ⟨(name, j), hmember, by simp [hf, hv]⟩, rfl⟩

/-! ## Services -/

namespace Service

/-- The queries that a service asks of its own model and of the targets of its relations. -/
inductive Asks (s : Service) : Model → Query → Prop where
  | own {q : Query} (produced : Compiler.Produces { registry := s.registry, model := s.model } q) :
    Asks s s.model q
  | behind {relation : Relation} {target : Model} {q : Query} (relation_mem : relation ∈ s.model.relations)
    (target_eq : s.registry.get? relation.target = some target)
    (produced : Compiler.Produces { registry := s.registry, model := target } q) (key : Value) :
    Asks s target (restrictTo q relation.remoteKey key)

/-- The statements with which a service reads. -/
inductive Reads (s : Service) : Statement → Prop where
  /-- The row with a key. -/
  | key (key : Value) : Reads s (Rows.keyStatement s.model key)
  | count {m : Model} {q : Query} {c : Sql.Condition} (asked : s.Asks m q)
    (condition_eq : q.condition s.registry m s.config.join {} = .ok c) : Reads s (.count m.table c)
  | page {m : Model} {q : Query} {c : Sql.Condition} {order : List Sql.SortItem} (asked : s.Asks m q)
    (condition_eq : q.condition s.registry m s.config.join {} = .ok c)
    (order_eq : Query.order s.registry m q.orders = .ok order) (limited : Bool) (page : Page) :
    Reads s (.select (Rows.pageStatement m (m.loadColumns q.fields (Rows.localKeys m q.related)) c order limited
      page))
  /-- The rows that a relation leads to from some keys. -/
  | related {m : Model} {q : Query} {load : Load} {relation : Relation} {target : Model} (asked : s.Asks m q)
    (load_mem : load ∈ q.related)
    (target_eq : s.registry.relationTarget m load.relation = .ok (relation, target)) (keys : List Value) :
    Reads s (.select (Rows.relatedStatement relation target
      (target.loadColumns (load.columns.getD []) [relation.remoteKey]) keys))

/-- The statements with which a service changes rows, and the one that looks for an equal row first. -/
inductive Writes (s : Service) : Statement → Prop where
  | equalRow {row : List (String × Value)} (bound : ∀ e ∈ row, (s.model.column? e.1).isSome) :
    Writes s (.select (Rows.oneStatement s.model (.all (row.map (Rows.matchCondition s.model)))))
  | insert {row : List (String × Value)}
    (bound : ∀ e ∈ row, e.1 = s.model.keyField.name ∨ (s.model.column? e.1).isSome) :
    Writes s (Rows.insertStatement s.model row)
  | update {changes : List (String × Value)} (bound : ∀ e ∈ changes, (s.model.column? e.1).isSome)
    (key : Value) : Writes s (.update s.model.table changes (.all [s.model.keyCondition key]))
  | delete (key : Value) : Writes s (.delete s.model.table (.all [s.model.keyCondition key]))

/-- The statements that a service sends. -/
def Utters (s : Service) (statement : Statement) : Prop := s.Reads statement ∨ s.Writes statement

variable {s : Service}

theorem compileQuery_produces {m : Model} {args : Arguments} {q : Query} {request : PageRequest}
    (h : s.compileQuery m args = .ok (q, request)) :
    Compiler.Produces { registry := s.registry, model := m } q := by
  obtain ⟨_, -, h⟩ := exists_of_bind_eq_ok h
  cases h
  exact .arguments _

theorem compilePayload_produces {p : Payload} {args : Arguments} {q : Query} {request : PageRequest}
    (h : s.compilePayload p args = .ok (q, request)) :
    Compiler.Produces { registry := s.registry, model := s.model } q := by
  obtain ⟨_, -, h⟩ := exists_of_bind_eq_ok h
  cases h
  exact .payload p

/-! ### Reading -/

theorem only_page {m : Model} {q : Query} (asked : s.Asks m q) (request : PageRequest) :
    Only (Exchange.Queries s.Reads) (s.page m q request).run := by
  apply Handler.only_ofSession
  apply Rows.only_selectPage
  · exact fun c hc => .count asked hc
  · exact fun c order page hc horder => .page asked hc horder _ page
  · exact fun load hload relation target keys htarget => .related asked hload htarget keys

theorem only_requireRow_of {K : Statement → Prop} (hkey : ∀ key, K (Rows.keyStatement s.model key)) (id : String) :
    Only (Exchange.Queries K) (s.requireRow id).run := by
  apply Only.except_bind (Handler.only_ofSession (Rows.only_findByKey hkey id))
  intro r
  cases r with
  | none => exact only_throw
  | some r => exact only_pure

theorem only_requireRow (s : Service) (id : String) : Only (Exchange.Queries s.Reads) (s.requireRow id).run :=
  only_requireRow_of .key id

/-- A page that was asked for is rendered without a further statement. -/
theorem only_page_bind {m : Model} {q : Query} (asked : s.Asks m q) (request : PageRequest)
    (f : Rows.PageResult → Except ApiError Reply) :
    Only (Exchange.Queries s.Reads) (s.page m q request >>= fun result => Handler.ofExcept (f result)).run :=
  Only.except_bind (only_page asked request) fun _ => only_done

theorem only_list (s : Service) (args : Arguments) (headers : Headers) :
    Only (Exchange.Queries s.Reads) (s.list args headers).run := by
  apply Handler.Only.ofExcept_bind
  rintro ⟨q, request⟩ hq
  exact only_page_bind (.own (compileQuery_produces hq)) request _

theorem only_fetch (s : Service) (args : Arguments) (headers : Headers) (body : List UInt8) :
    Only (Exchange.Queries s.Reads) (s.fetch args headers body).run := by
  apply Handler.Only.ofExcept_bind
  intro payload _
  apply Handler.Only.ofExcept_bind
  rintro ⟨q, request⟩ hq
  exact only_page_bind (.own (compilePayload_produces hq)) request _

theorem only_get (s : Service) (id : String) (args : Arguments) (headers : Headers) :
    Only (Exchange.Queries s.Reads) (s.get id args headers).run := by
  apply Handler.Only.ofExcept_bind
  rintro ⟨q, request⟩ hq
  apply Only.except_bind (s.only_requireRow id)
  intro row
  have asked : s.Asks s.model q := .own (compileQuery_produces hq)
  have hloads : ∀ load ∈ q.related, Rows.LoadsBy s.Reads s.registry s.model load :=
    fun load hload relation target keys htarget => .related asked hload htarget keys
  apply Only.except_bind
  · apply Handler.only_ofSession
    exact Only.except_bind (Rows.only_loadAll hloads _) fun _ => only_pure
  · intro r
    exact only_pure

/-- A relation of the resource is one of its model's, and leads to its target. -/
theorem relationAt_eq_ok {segment : String} {relation : Relation} {target : Model}
    (h : s.relationAt segment = .ok (relation, target)) :
    relation ∈ s.model.relations ∧ s.registry.get? relation.target = some target := by
  unfold relationAt at h
  split at h
  · cases h
  · next r hr =>
    split at h
    · cases h
    · next t ht =>
      cases h
      exact ⟨List.mem_of_find?_eq_some hr, ht⟩

theorem only_subresource (s : Service) (id segment : String) (args : Arguments) (headers : Headers) :
    Only (Exchange.Queries s.Reads) (s.subresource id segment args headers).run := by
  apply Handler.Only.ofExcept_bind
  rintro ⟨relation, target⟩ hrelation
  obtain ⟨hmem, htarget⟩ := relationAt_eq_ok hrelation
  apply Only.except_bind (s.only_requireRow id)
  intro parent
  apply Handler.Only.ofExcept_bind
  rintro ⟨q, request⟩ hq
  dsimp only
  split
  · -- without a key to look for, the target is not asked at all
    exact Only.except_bind only_pure fun _ => only_done
  · next key _ => exact only_page_bind (.behind hmem htarget (compileQuery_produces hq) key) request _

/-! ### Writing -/

/-- A body is taken for a whole row when no part of it is reported. -/
theorem bindComplete_eq_ok_iff {data : Json.Object} {mayLack : List String} {row : List (String × Value)} :
    s.bindComplete data mayLack = .ok row ↔
      (∀ name ∈ (s.model.validate data).missing, name ∈ mayLack) ∧ (s.model.validate data).unknown = [] ∧
        (s.model.bind data).invalid = [] ∧ (s.model.bind data).values = row := by
  have hcheck : (((s.model.validate data).missing.filter fun name => !mayLack.contains name).isEmpty &&
      (s.model.validate data).unknown.isEmpty && (s.model.bind data).invalid.isEmpty) = true ↔
        ((∀ name ∈ (s.model.validate data).missing, name ∈ mayLack) ∧ (s.model.validate data).unknown = []) ∧
          (s.model.bind data).invalid = [] := by
    simp
  simp only [bindComplete]
  split
  · next h =>
    obtain ⟨⟨hmissing, hunknown⟩, hinvalid⟩ := hcheck.mp h
    rw [Except.ok.injEq]
    exact ⟨fun heq => ⟨hmissing, hunknown, hinvalid, heq⟩, fun hall => hall.2.2.2⟩
  · next h =>
    refine ⟨nofun, ?_⟩
    rintro ⟨hmissing, hunknown, hinvalid, -⟩
    exact absurd (hcheck.mpr ⟨⟨hmissing, hunknown⟩, hinvalid⟩) h

/-- A body that is not taken for a whole row is answered with all that is wrong with it. -/
theorem bindComplete_eq_error {data : Json.Object} {mayLack : List String} {e : ApiError}
    (h : s.bindComplete data mayLack = .error e) :
    e = .validationFailed ((s.model.validate data).missing.filter fun name => !mayLack.contains name)
      (s.model.validate data).unknown (s.model.bind data).invalid := by
  simp only [bindComplete] at h
  split at h
  · cases h
  · cases h
    rfl

/-- For a part of a row nothing is missing. -/
theorem bindPartial_eq_ok_iff {data : Json.Object} {row : List (String × Value)} :
    s.bindPartial data = .ok row ↔
      (s.model.validate data).unknown = [] ∧ (s.model.bind data).invalid = [] ∧
        (s.model.bind data).values = row := by
  have hcheck : ((s.model.validate data).unknown.isEmpty && (s.model.bind data).invalid.isEmpty) = true ↔
      (s.model.validate data).unknown = [] ∧ (s.model.bind data).invalid = [] := by
    simp
  simp only [bindPartial]
  split
  · next h =>
    obtain ⟨hunknown, hinvalid⟩ := hcheck.mp h
    rw [Except.ok.injEq]
    exact ⟨fun heq => ⟨hunknown, hinvalid, heq⟩, fun hall => hall.2.2⟩
  · next h =>
    refine ⟨nofun, ?_⟩
    rintro ⟨hunknown, hinvalid, -⟩
    exact absurd (hcheck.mpr ⟨hunknown, hinvalid⟩) h

theorem bindPartial_eq_error {data : Json.Object} {e : ApiError} (h : s.bindPartial data = .error e) :
    e = .validationFailed [] (s.model.validate data).unknown (s.model.bind data).invalid := by
  simp only [bindPartial] at h
  split at h
  · cases h
  · cases h
    rfl

section Sending

/-! Whatever is true of the statements below is true of all that are sent. -/

theorem sends_mark (K : Statement → Prop) (m : Mark) : (Exchange.mark m).Sends K := nofun

variable {K : Statement → Prop} (hkey : ∀ key, K (Rows.keyStatement s.model key))

include hkey

theorem only_insertRow {row : List (String × Value)} (hinsert : K (Rows.insertStatement s.model row)) :
    Only (Exchange.Sends K) (s.insertRow row).run := by
  apply Handler.only_ofSession
  intro log a hs x hx
  cases hb : s.backend.returnsRows with
  | true =>
    obtain ⟨r, rfl, -⟩ := (Rows.says_insert_iff_of_returnsRows hb).mp hs
    rw [List.mem_singleton.mp hx]
    intro st hst
    cases hst
    exact hinsert
  | false =>
    rcases (Rows.says_insert_iff_of_not_returnsRows hb).mp hs with ⟨e, rfl, -⟩ | ⟨effect, r, rfl, -⟩
    · rw [List.mem_singleton.mp hx]
      intro st hst
      cases hst
      exact hinsert
    · rcases List.mem_pair.mp hx with rfl | rfl
      · intro st hst
        cases hst
        exact hinsert
      · intro st hst
        cases hst
        exact hkey _

theorem only_requireRow_sends (id : String) : Only (Exchange.Sends K) (s.requireRow id).run :=
  (only_requireRow_of hkey id).mono fun _ hx => hx.sends fun _ hread => hread

theorem only_updateRow {key : Value} {changes : List (String × Value)}
    (hupdate : changes ≠ [] → K (.update s.model.table changes (.all [s.model.keyCondition key]))) (id : String) :
    Only (Exchange.Sends K) (s.updateRow id key changes).run := by
  apply Only.except_bind
  · apply Handler.only_ofSession
    unfold Rows.update
    split
    · exact only_pure
    · next hsome => exact Only.discard (Rows.only_execute (hupdate fun hnone => hsome (by rw [hnone]; rfl)))
  · intro _
    exact only_requireRow_sends hkey id

theorem only_create_of {body : List UInt8}
    (hrow : ∀ data row, bodyObject body = .ok data → s.bindComplete data [] = .ok row →
      K (.select (Rows.oneStatement s.model (.all (row.map (Rows.matchCondition s.model))))) ∧
        K (Rows.insertStatement s.model row)) :
    Only (Exchange.Sends K) (s.create body).run := by
  apply Handler.Only.ofExcept_bind
  intro data hdata
  apply Handler.Only.ofExcept_bind
  intro row hbound
  obtain ⟨hequal, hinsert⟩ := hrow data row hdata hbound
  apply Only.except_bind
  · apply Handler.only_transaction (sends_mark K)
    apply Only.except_bind
    · exact (Handler.only_ofSession (Rows.only_selectOne hequal)).mono fun _ hx => hx.sends fun _ hread => hread
    · intro existing
      cases existing with
      | some r => exact only_throw
      | none => exact only_insertRow hkey hinsert
  · intro r
    exact only_pure

theorem only_replace_of {id : String} {body : List UInt8}
    (hrow : ∀ key data row, s.requireKey id = .ok key → bodyObject body = .ok data →
      s.bindComplete (data.filter (·.1 != s.model.keyField.name)) [s.model.keyField.name] = .ok row →
        K (Rows.insertStatement s.model (row ++ [(s.model.keyField.name, key)])) ∧
          (row ≠ [] → K (.update s.model.table row (.all [s.model.keyCondition key])))) (headers : Headers) :
    Only (Exchange.Sends K) (s.replace id headers body).run := by
  apply Handler.Only.ofExcept_bind
  intro key hid
  apply Handler.Only.ofExcept_bind
  intro data hdata
  apply Handler.Only.ofExcept_bind
  intro row hbound
  obtain ⟨hinsert, hupdate⟩ := hrow key data row hid hdata hbound
  apply Handler.only_transaction (sends_mark K)
  have hfind := Handler.only_ofSession (Rows.only_findByKey hkey id)
  apply Only.except_bind (hfind.mono fun _ hx => hx.sends fun _ hread => hread)
  intro existing
  cases existing with
  | none => exact Only.except_bind (only_insertRow hkey hinsert) fun _ => only_pure
  | some r =>
    apply Handler.Only.ofExcept_bind
    intro _ _
    exact Only.except_bind (only_updateRow hkey hupdate id) fun _ => only_pure

theorem only_modify_of {id : String} {body : List UInt8}
    (hchanges : ∀ key data changes, s.requireKey id = .ok key → bodyObject body = .ok data →
      s.bindPartial (data.filter (·.1 != s.model.keyField.name)) = .ok changes → changes ≠ [] →
        K (.update s.model.table changes (.all [s.model.keyCondition key]))) (headers : Headers) :
    Only (Exchange.Sends K) (s.modify id headers body).run := by
  apply Handler.Only.ofExcept_bind
  intro key hid
  apply Handler.Only.ofExcept_bind
  intro data hdata
  apply Handler.Only.ofExcept_bind
  intro changes hbound
  apply Handler.only_transaction (sends_mark K)
  apply Only.except_bind (only_requireRow_sends hkey id)
  intro existing
  apply Handler.Only.ofExcept_bind
  intro _ _
  have hupdate := hchanges key data changes hid hdata hbound
  exact Only.except_bind (only_updateRow hkey hupdate id) fun _ => only_pure

theorem only_delete_of {id : String}
    (hdelete : ∀ key, s.requireKey id = .ok key → K (.delete s.model.table (.all [s.model.keyCondition key])))
    (headers : Headers) : Only (Exchange.Sends K) (s.delete id headers).run := by
  apply Handler.Only.ofExcept_bind
  intro key hid
  apply Handler.only_transaction (sends_mark K)
  apply Only.except_bind (only_requireRow_sends hkey id)
  intro existing
  apply Handler.Only.ofExcept_bind
  intro _ _
  apply Only.except_bind
  · apply Only.discard
    apply Handler.only_ofSession
    exact Only.except_bind (Rows.only_execute (hdelete key hid)) fun _ => only_pure
  · intro _
    exact only_pure

end Sending

/-! What is bound is bound to columns. -/

theorem column?_isSome_of_mem_bind {m : Model} {data : Json.Object} {e : String × Value}
    (h : e ∈ (m.bind data).values) : (m.column? e.1).isSome := by
  obtain ⟨f, j, hf, -, -⟩ := Model.mem_bind_iff.mp h
  exact Option.isSome_of_eq_some hf

theorem bindComplete_eq_ok {data : Json.Object} {mayLack : List String} {row : List (String × Value)}
    (h : s.bindComplete data mayLack = .ok row) : ∀ e ∈ row, (s.model.column? e.1).isSome := by
  obtain ⟨-, -, -, rfl⟩ := bindComplete_eq_ok_iff.mp h
  exact fun e => column?_isSome_of_mem_bind

theorem bindPartial_eq_ok {data : Json.Object} {row : List (String × Value)}
    (h : s.bindPartial data = .ok row) : ∀ e ∈ row, (s.model.column? e.1).isSome := by
  obtain ⟨-, -, rfl⟩ := bindPartial_eq_ok_iff.mp h
  exact fun e => column?_isSome_of_mem_bind

theorem utters_key (key : Value) : s.Utters (Rows.keyStatement s.model key) := .inl (.key key)

theorem only_create (s : Service) (body : List UInt8) : Only (Exchange.Sends s.Utters) (s.create body).run := by
  apply only_create_of utters_key
  intro data row _ hrow
  have bound := bindComplete_eq_ok hrow
  exact ⟨.inr (.equalRow bound), .inr (.insert fun e he => .inr (bound e he))⟩

theorem only_replace (s : Service) (id : String) (headers : Headers) (body : List UInt8) :
    Only (Exchange.Sends s.Utters) (s.replace id headers body).run := by
  refine only_replace_of utters_key ?_ headers
  intro key data row _ _ hrow
  have bound := bindComplete_eq_ok hrow
  refine ⟨.inr (.insert ?_), fun _ => .inr (.update bound key)⟩
  intro e he
  rcases List.mem_append.mp he with he | he
  · exact .inr (bound e he)
  · rw [List.mem_singleton.mp he]
    exact .inl rfl

theorem only_modify (s : Service) (id : String) (headers : Headers) (body : List UInt8) :
    Only (Exchange.Sends s.Utters) (s.modify id headers body).run :=
  only_modify_of utters_key (fun key _ _ _ _ hchanges _ => .inr (.update (bindPartial_eq_ok hchanges) key)) headers

theorem only_delete (s : Service) (id : String) (headers : Headers) :
    Only (Exchange.Sends s.Utters) (s.delete id headers).run :=
  only_delete_of utters_key (fun key _ => .inr (.delete key)) headers

end Service

end RestTables
