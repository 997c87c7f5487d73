import RestTables.Proofs.Service.Statements
import RestTables.Router

/-
Module: RestTables.Proofs.Router.Statements
Purpose: Every statement that is sent for a request. It is one that the service of a registered model sends, and
  one that reads where the verb of the request does not change rows.
Main exports: App.serviceOf, App.Reads, App.Utters, App.only_respond, App.only_respond_reads
-/

namespace RestTables.App

open Sql (Statement)
open Dialogue

/-- One resource of an app at work. -/
def serviceOf (a : App) (m : Model) : Service :=
  { registry := a.registry, config := a.config, backend := a.backend, model := m }

/-- The statements with which the resources of an app are read. -/
def Reads (a : App) (statement : Statement) : Prop :=
  ∃ m ∈ a.registry.models, (a.serviceOf m).Reads statement

/-- The statements that are sent for the resources of an app. -/
def Utters (a : App) (statement : Statement) : Prop :=
  ∃ m ∈ a.registry.models, (a.serviceOf m).Utters statement

variable {a : App} {r : Request}

theorem requireVerb_eq_ok {m : Model} {verb : Verb} (h : requireVerb m r = .ok verb) :
    verb? r = some verb ∧ m.allows verb = true := by
  unfold requireVerb at h
  split at h
  · cases h
  · next v hv =>
    split at h
    · next hallows =>
      cases h
      exact ⟨hv, hallows⟩
    · cases h

/-- What is located is a registered model at work, and a verb that it allows. -/
theorem locate_eq_ok {resource : String} {s : Service} {verb : Verb} (h : a.locate resource r = .ok (s, verb)) :
    ∃ m ∈ a.registry.models, s = a.serviceOf m ∧ verb? r = some verb ∧ m.allows verb = true := by
  unfold locate at h
  split at h
  · cases h
  · next m hm =>
    cases hverb : requireVerb m r with
    | error e =>
      rw [hverb] at h
      cases h
    | ok v =>
      rw [hverb] at h
      cases h
      exact ⟨m, List.mem_of_find?_eq_some hm, rfl, requireVerb_eq_ok hverb⟩

/-! ## Verbs -/

section Verbs

variable {s : Service} {verb : Verb}

theorem only_collection_reads (hverb : verb.isMutating = false) (r : Request) :
    Only (Exchange.Queries s.Reads) (collection s verb r).run := by
  cases verb with
  | get | head => exact s.only_list _ _
  | fetch => exact s.only_fetch _ _ _
  | options => exact only_pure
  | post | put | patch | delete => cases hverb

theorem only_item_reads (hverb : verb.isMutating = false) (id : String) (r : Request) :
    Only (Exchange.Queries s.Reads) (item s verb id r).run := by
  cases verb with
  | get | head =>
    simp only [item]
    split
    · exact only_pure
    · exact s.only_get _ _ _
  | options => exact only_pure
  | fetch => exact only_throw
  | post | put | patch | delete => cases hverb

/-- What a row is related to can only be read. -/
theorem only_subresource_reads (verb : Verb) (id segment : String) (r : Request) :
    Only (Exchange.Queries s.Reads) (subresource s verb id segment r).run := by
  cases verb with
  | get | head => exact s.only_subresource _ _ _ _
  | options => exact only_pure
  | post | put | patch | delete | fetch => exact only_throw

theorem sends_of_queries {x : Exchange} (h : x.Queries s.Reads) : x.Sends s.Utters := h.sends fun _ => .inl

theorem only_collection (s : Service) (verb : Verb) (r : Request) :
    Only (Exchange.Sends s.Utters) (collection s verb r).run := by
  cases verb with
  | post => exact s.only_create _
  | get | head | fetch | options => exact (only_collection_reads rfl r).mono fun _ => sends_of_queries
  | put | patch | delete => exact only_throw

theorem only_item (s : Service) (verb : Verb) (id : String) (r : Request) :
    Only (Exchange.Sends s.Utters) (item s verb id r).run := by
  cases verb with
  | put => exact s.only_replace _ _ _
  | patch => exact s.only_modify _ _ _
  | delete => exact s.only_delete _ _
  | get | head | fetch | options => exact (only_item_reads rfl id r).mono fun _ => sends_of_queries
  | post => exact only_throw

end Verbs

/-! ## Requests -/

theorem only_serve {P : Exchange → Prop} {resource : String} {handle : Service → Verb → Handler Reply}
    (h : ∀ m ∈ a.registry.models, ∀ verb, verb? r = some verb → m.allows verb = true →
      Only P (handle (a.serviceOf m) verb).run) :
    Only P (a.serve resource r handle).run := by
  apply Handler.Only.ofExcept_bind
  rintro ⟨s, verb⟩ hlocate
  obtain ⟨m, hm, rfl, hverb, hallows⟩ := locate_eq_ok hlocate
  exact Only.except_bind (h m hm verb hverb hallows) fun _ => only_pure

theorem only_sendResult {P : Exchange → Prop} {h : Handler Reply} (hh : Only P h.run) : (sendResult h).Only P := by
  apply Only.bind hh
  intro result
  cases result with
  | ok reply => exact only_done
  | error e => exact only_done

/-- What is sent for a request is sent for a verb that it asks for, by the service of a registered model that
allows the verb. -/
theorem only_respond_of_verbs {P : Exchange → Prop}
    (h : ∀ m ∈ a.registry.models, ∀ verb, verb? r = some verb → m.allows verb = true →
      Only P (collection (a.serviceOf m) verb r).run ∧
      (∀ id, Only P (item (a.serviceOf m) verb id r).run) ∧
      ∀ id segment, Only P (subresource (a.serviceOf m) verb id segment r).run) :
    (a.respond r).Only P := by
  have hroute : ∀ route, Only P (a.handle route r).run := by
    intro route
    cases route with
    | document => exact only_pure
    | index => exact only_pure
    | collection resource =>
      rw [handle]
      exact only_serve fun m hm verb hverb hallows => (h m hm verb hverb hallows).1
    | item resource id =>
      rw [handle]
      exact only_serve fun m hm verb hverb hallows => (h m hm verb hverb hallows).2.1 id
    | subresource resource id segment =>
      rw [handle]
      exact only_serve fun m hm verb hverb hallows => (h m hm verb hverb hallows).2.2 id segment
  have hanswer : (a.answer r).Only P := by
    unfold answer
    split
    · exact only_done
    · split
      · exact only_done
      · split
        · exact only_done
        · next route _ => exact only_sendResult (hroute route)
  -- the body that is left out for HEAD takes no statement
  exact Only.bind hanswer fun _ => only_done

/-- Where the verb that a request asks for does not change rows, or is not allowed, rows are only read. -/
theorem only_respond_reads
    (h : ∀ m ∈ a.registry.models, ∀ verb, verb? r = some verb → m.allows verb = true → verb.isMutating = false) :
    (a.respond r).Only (Exchange.Queries a.Reads) := by
  apply only_respond_of_verbs
  intro m hm verb hverb hallows
  have hmutating := h m hm verb hverb hallows
  have hreads : ∀ x : Exchange, x.Queries (a.serviceOf m).Reads → x.Queries a.Reads := by
    rintro _ ⟨s, answer, rfl, hs⟩
    exact ⟨s, answer, rfl, m, hm, hs⟩
  exact ⟨(only_collection_reads hmutating r).mono hreads,
    fun id => (only_item_reads hmutating id r).mono hreads,
    fun id segment => (only_subresource_reads verb id segment r).mono hreads⟩

/-- Whatever is asked, what is sent is sent by the service of a registered model. -/
theorem only_respond (a : App) (r : Request) : (a.respond r).Only (Exchange.Sends a.Utters) := by
  apply only_respond_of_verbs
  intro m hm verb _ _
  have hutters : ∀ x : Exchange, x.Sends (a.serviceOf m).Utters → x.Sends a.Utters :=
    fun x hx s hs => ⟨m, hm, hx s hs⟩
  exact ⟨(only_collection _ verb r).mono hutters,
    fun id => (only_item _ verb id r).mono hutters,
    fun id segment => (only_subresource_reads verb id segment r).mono fun x hx => hutters x (sends_of_queries hx)⟩

end RestTables.App
