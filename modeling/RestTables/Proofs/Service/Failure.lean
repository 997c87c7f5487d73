import RestTables.Proofs.Storage.Failure
import RestTables.Service.Write

/-
Module: RestTables.Proofs.Service.Failure
Purpose: Nothing that a service does goes on after a failed statement. Whatever fails, the request is refused for that
  failure, and a transaction is rolled back first.
Main exports: Session.Fails, Handler.Refuses, Service.refuses_list, Service.refuses_fetch, Service.refuses_get,
  Service.refuses_subresource, Service.refuses_create, Service.refuses_replace, Service.refuses_modify,
  Service.refuses_delete
-/

namespace RestTables

open Dialogue

/-- The failure of a statement is the failure of the session. -/
abbrev Session.Fails (d : Session α) : Prop := FailsWith [] id d

/-- The failure of a statement is the reason for which a request is refused, after some marks. -/
abbrev Handler.Refuses (marks : List Mark) (h : Handler α) : Prop := FailsWith marks ApiError.ofStorage h

/-! ## Sessions -/

namespace Session

theorem fails_query (s : Sql.Statement) : (query s).Fails := .query (fun _ => rfl) .done

theorem fails_queryOne (s : Sql.Statement) : (queryOne s).Fails := (fails_query s).bind fun _ => failsWith_done _

theorem fails_execute (s : Sql.Statement) : (execute s).Fails := .execute (fun _ => rfl) .done

end Session

namespace Rows

variable (m : Model)

theorem fails_select (s : Sql.Select) (fields : List Field) : (select s fields).Fails :=
  (Session.fails_query _).bind fun _ => failsWith_done _

theorem fails_selectOne (c : Sql.Condition) : (selectOne m c).Fails :=
  (fails_select _ _).bind fun _ => failsWith_done _

theorem fails_findByKey (id : String) : (findByKey m id).Fails := by
  unfold findByKey
  split
  · exact failsWith_done _
  · exact fails_selectOne m _

theorem fails_findMatching (data : List (String × Value)) : (findMatching m data).Fails := fails_selectOne m _

theorem fails_count (table : String) (c : Sql.Condition) : (count table c).Fails := by
  apply (Session.fails_queryOne _).bind
  intro cells
  cases cells with
  | none => exact failsWith_done _
  | some cells => exact .lift_bind fun _ => failsWith_done _

theorem fails_relatedRows (relation : Relation) (target : Model) (fields : List Field) (parts : List (List Value)) :
    (relatedRows relation target fields parts).Fails := by
  induction parts with
  | nil => exact failsWith_done _
  | cons keys parts ih =>
    apply (fails_select _ fields).bind
    intro rows
    exact ih.bind fun _ => failsWith_done _

theorem fails_loadRelated (g : Registry) (records : List Record) (load : Load) :
    (loadRelated g m records load).Fails := by
  apply FailsWith.lift_bind
  rintro ⟨relation, target⟩
  exact (fails_relatedRows relation target _ _).bind fun _ => failsWith_done _

theorem fails_loadAll (g : Registry) (records : List Record) (loads : List Load) :
    (loadAll g m records loads).Fails := by
  induction loads generalizing records with
  | nil => exact failsWith_done _
  | cons load loads ih => exact (fails_loadRelated m g records load).bind fun loaded => ih loaded

/-- A page is not shown unless it was counted, read, and loaded along. -/
theorem fails_selectPage (g : Registry) (plan : Plan) : (selectPage g m plan).Fails := by
  apply FailsWith.lift_bind
  intro c
  apply (fails_count _ c).bind
  intro total
  apply FailsWith.lift_bind
  intro order
  apply (fails_select _ _).bind
  intro records
  exact (fails_loadAll m g _ _).bind fun _ => failsWith_done _

theorem fails_insert (b : Backend) (row : List (String × Value)) : (insert b m row).Fails := by
  unfold insert
  split
  · apply (Session.fails_queryOne _).bind
    intro cells
    cases cells <;> exact failsWith_done _
  · apply (Session.fails_execute _).bind
    intro effect
    apply (fails_selectOne m _).bind
    intro r
    cases r <;> exact failsWith_done _

theorem fails_update (key : Value) (changes : List (String × Value)) : (update m key changes).Fails := by
  unfold update
  split
  · exact failsWith_done _
  · exact (Session.fails_execute _).discard

theorem fails_delete (key : Value) : (delete m key).Fails := (Session.fails_execute _).bind fun _ => failsWith_done _

end Rows

/-! ## Handlers -/

namespace Handler

variable {marks : List Mark}

theorem refuses_ofSession {d : Session α} (h : d.Fails) : (ofSession d).Refuses [] := h.adapt

/-- What is decided beforehand needs no statement. -/
theorem Refuses.ofExcept_bind {e : Except ApiError α} {f : α → Handler β} (hf : ∀ a, (f a).Refuses marks) :
    (ofExcept e >>= f).Refuses marks := by
  apply FailsWith.bind _ hf
  exact failsWith_done e

/-- A failure in a transaction rolls it back. -/
theorem refuses_transaction {h : Handler α} (hh : h.Refuses []) : (transaction h).Refuses [.rollback] := by
  refine .mark (Breaks.bind hh (fun _ => rfl) fun r => ?_)
  cases r <;> exact .mark (.done _)

end Handler

namespace Service

variable (s : Service)

theorem refuses_requireRow (id : String) : (s.requireRow id).Refuses [] := by
  apply (Handler.refuses_ofSession (Rows.fails_findByKey s.model id)).bind
  intro r
  cases r <;> exact failsWith_done _

/-- A page that was asked for is shown without a further statement. -/
theorem refuses_page_bind (m : Model) (q : Query) (request : PageRequest) (f : Rows.PageResult → Except ApiError Reply) :
    (s.page m q request >>= fun result => Handler.ofExcept (f result)).Refuses [] :=
  (Handler.refuses_ofSession (Rows.fails_selectPage m s.registry _)).bind fun _ => failsWith_done _

theorem refuses_list (args : Arguments) (headers : Headers) : (s.list args headers).Refuses [] := by
  apply Handler.Refuses.ofExcept_bind
  rintro ⟨q, request⟩
  exact s.refuses_page_bind s.model q request _

theorem refuses_fetch (args : Arguments) (headers : Headers) (body : List UInt8) :
    (s.fetch args headers body).Refuses [] := by
  apply Handler.Refuses.ofExcept_bind
  intro payload
  apply Handler.Refuses.ofExcept_bind
  rintro ⟨q, request⟩
  exact s.refuses_page_bind s.model q request _

theorem refuses_get (id : String) (args : Arguments) (headers : Headers) : (s.get id args headers).Refuses [] := by
  apply Handler.Refuses.ofExcept_bind
  rintro ⟨q, request⟩
  apply (s.refuses_requireRow id).bind
  intro row
  apply FailsWith.bind
  · apply Handler.refuses_ofSession
    exact (Rows.fails_loadAll s.model s.registry _ _).bind fun _ => failsWith_done _
  · intro r
    exact failsWith_done _

theorem refuses_subresource (id segment : String) (args : Arguments) (headers : Headers) :
    (s.subresource id segment args headers).Refuses [] := by
  apply Handler.Refuses.ofExcept_bind
  rintro ⟨relation, target⟩
  apply (s.refuses_requireRow id).bind
  intro parent
  apply Handler.Refuses.ofExcept_bind
  rintro ⟨q, request⟩
  dsimp only
  split
  · exact .bind (failsWith_done _) fun _ => failsWith_done _
  · exact s.refuses_page_bind target _ request _

theorem refuses_insertRow (row : List (String × Value)) : (s.insertRow row).Refuses [] :=
  Handler.refuses_ofSession (Rows.fails_insert s.model s.backend row)

theorem refuses_updateRow (id : String) (key : Value) (changes : List (String × Value)) :
    (s.updateRow id key changes).Refuses [] :=
  (Handler.refuses_ofSession (Rows.fails_update s.model key changes)).bind fun _ => s.refuses_requireRow id

theorem refuses_create (body : List UInt8) : (s.create body).Refuses [.rollback] := by
  apply Handler.Refuses.ofExcept_bind
  intro data
  apply Handler.Refuses.ofExcept_bind
  intro row
  apply FailsWith.bind
  · apply Handler.refuses_transaction
    apply (Handler.refuses_ofSession (Rows.fails_findMatching s.model row)).bind
    intro existing
    cases existing with
    | none => exact s.refuses_insertRow row
    | some r => exact failsWith_done _
  · intro r
    exact failsWith_done _

theorem refuses_replace (id : String) (headers : Headers) (body : List UInt8) :
    (s.replace id headers body).Refuses [.rollback] := by
  apply Handler.Refuses.ofExcept_bind
  intro key
  apply Handler.Refuses.ofExcept_bind
  intro data
  apply Handler.Refuses.ofExcept_bind
  intro row
  apply Handler.refuses_transaction
  apply (Handler.refuses_ofSession (Rows.fails_findByKey s.model id)).bind
  intro existing
  cases existing with
  | none => exact (s.refuses_insertRow _).bind fun _ => failsWith_done _
  | some r =>
    apply Handler.Refuses.ofExcept_bind
    intro _
    exact (s.refuses_updateRow id key row).bind fun _ => failsWith_done _

theorem refuses_modify (id : String) (headers : Headers) (body : List UInt8) :
    (s.modify id headers body).Refuses [.rollback] := by
  apply Handler.Refuses.ofExcept_bind
  intro key
  apply Handler.Refuses.ofExcept_bind
  intro data
  apply Handler.Refuses.ofExcept_bind
  intro changes
  apply Handler.refuses_transaction
  apply (s.refuses_requireRow id).bind
  intro existing
  apply Handler.Refuses.ofExcept_bind
  intro _
  exact (s.refuses_updateRow id key changes).bind fun _ => failsWith_done _

theorem refuses_delete (id : String) (headers : Headers) : (s.delete id headers).Refuses [.rollback] := by
  apply Handler.Refuses.ofExcept_bind
  intro key
  apply Handler.refuses_transaction
  apply (s.refuses_requireRow id).bind
  intro existing
  apply Handler.Refuses.ofExcept_bind
  intro _
  exact (Handler.refuses_ofSession (Rows.fails_delete s.model key)).discard.bind fun _ => failsWith_done _

end Service

end RestTables
