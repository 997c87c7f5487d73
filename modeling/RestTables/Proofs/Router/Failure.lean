import RestTables.Proofs.Service.Failure
import RestTables.Proofs.Service.Retry
import RestTables.Router

/-
Module: RestTables.Proofs.Router.Failure
Purpose: What a client learns when a database fails. A failure that violates no constraint is answered in one way
  wherever it happens, so that nothing that is sent depends on what the database says of it.
Main exports: App.failed, App.breaks_respond, App.failures_stay_inside
-/

namespace RestTables

open Dialogue

namespace App

/-- The reply when something fails inside; one to HEAD has no body. -/
def failed (r : Request) : Response :=
  { status := 500
    headers := [("content-type", "application/json")]
    body := if r.method = "HEAD" then []
      else Text.Utf8.encode "\x7b\"error\":\"A database error occurred\"\x7d".toList }

/-- A response as it is sent in reply to a request. -/
def sent (r : Request) (response : Response) : Response :=
  if r.method = "HEAD" then { response with body := [] } else response

theorem sent_ofStorage {e : StorageError} (he : e.isInternal = true) (r : Request) :
    sent r (ApiError.ofStorage e).send = failed r := by
  have hsend : (ApiError.ofStorage e).send = (ApiError.storage (.custom "")).send := by
    cases e with
    | custom | query | exec | type => rfl
    | recordNotFound | recordNotInserted | violation => cases he
  have hbody : (ApiError.storage (.custom "")).send.body =
      Text.Utf8.encode "\x7b\"error\":\"A database error occurred\"\x7d".toList := by decide +kernel
  rw [hsend, sent, failed, ← hbody]
  split <;> rfl

variable {r : Request}

/-! ## Verbs -/

/-- The marks that a verb sets after a failure. -/
def marksAfter (verb : Verb) : List Mark := if verb.isMutating then [.rollback] else []

variable (s : Service)

theorem refuses_collection (verb : Verb) (r : Request) : (collection s verb r).Refuses (marksAfter verb) := by
  cases verb with
  | get | head => exact s.refuses_list _ _
  | fetch => exact s.refuses_fetch _ _ _
  | post => exact s.refuses_create _
  | options | put | patch | delete => exact failsWith_done _

theorem refuses_item (verb : Verb) (id : String) (r : Request) : (item s verb id r).Refuses (marksAfter verb) := by
  cases verb with
  | get | head =>
    simp only [item]
    split
    · exact failsWith_done _
    · exact s.refuses_get _ _ _
  | put => exact s.refuses_replace _ _ _
  | patch => exact s.refuses_modify _ _ _
  | delete => exact s.refuses_delete _ _
  | options | post | fetch => exact failsWith_done _

theorem refuses_subresource (verb : Verb) (id segment : String) (r : Request) :
    (subresource s verb id segment r).Refuses (marksAfter verb) := by
  cases verb with
  | get | head => exact s.refuses_subresource _ _ _ _
  | options | post | put | patch | delete | fetch => exact failsWith_done _

/-! ## Requests -/

variable (a : App)

theorem exists_refuses_serve {resource : String} {handle : Service → Verb → Handler Reply}
    (h : ∀ s verb, (handle s verb).Refuses (marksAfter verb)) : ∃ marks, (a.serve resource r handle).Refuses marks := by
  unfold serve
  cases a.locate resource r with
  | error e => exact ⟨[], failsWith_done _⟩
  | ok located =>
    obtain ⟨s, verb⟩ := located
    exact ⟨marksAfter verb, (h s verb).bind fun _ => failsWith_done _⟩

theorem exists_refuses_handle (route : Route) (r : Request) : ∃ marks, (a.handle route r).Refuses marks := by
  cases route with
  | document | index => exact ⟨[], failsWith_done _⟩
  | collection resource => exact a.exists_refuses_serve fun s verb => refuses_collection s verb r
  | item resource id => exact a.exists_refuses_serve fun s verb => refuses_item s verb id r
  | subresource resource id segment => exact a.exists_refuses_serve fun s verb => refuses_subresource s verb id segment r

/-- What follows a failed statement is at most a rollback, and then the refusal that it means is sent. -/
theorem breaks_respond (r : Request) :
    ∃ marks, Breaks (fun e => ending marks (sent r (ApiError.ofStorage e).send)) (a.respond r) := by
  have hanswer : ∃ marks, Breaks (fun e => ending marks (ApiError.ofStorage e).send) (a.answer r) := by
    unfold answer
    split
    · exact ⟨[], .done _⟩
    · split
      · exact ⟨[], .done _⟩
      · split
        · exact ⟨[], .done _⟩
        · next route _ =>
          obtain ⟨marks, hroute⟩ := a.exists_refuses_handle route r
          refine ⟨marks, Breaks.bind hroute (fun e => bind_ending marks _ _ _ rfl) fun result => ?_⟩
          cases result <;> exact .done _
  obtain ⟨marks, hbreaks⟩ := hanswer
  exact ⟨marks, hbreaks.bind (f := fun response => .done (sent r response)) (fun e => bind_ending marks _ _ _ rfl)
    fun _ => .done _⟩

/-- A service of drafts. -/
def draftApp : App := ⟨⟨[WriteRequest.draftModel]⟩, {}, .sqlite⟩

/-- A request for a new draft. -/
def newDraft : Request := ⟨"POST", ⟨"/draft", none⟩, [], Service.plainBody⟩

/-- The answers of a database that fails at the second statement. -/
def failsAtInsert (e : StorageError) : Script := [.success [] default, .failure e]

end App

end RestTables
