import RestTables.Proofs.Service.Precondition
import RestTables.Proofs.Service.Retry
import RestTables.Router

/-
Module: RestTables.Proofs.Service.Tags
Purpose: The entity tags that clients are told. A reply about a row carries the tag of the row that the last statement
  before it was answered with, whether that was a look-up or an insert, and this is the tag that a precondition is
  checked against: a request that names it is refused for its precondition only when the row has become another one.
Main exports: Handler.Calm, Service.TellsTag, Headers.Names, Service.Informs, Service.told_tags_are_current
-/

namespace RestTables

open Sql Dialogue

/-! ## Refusals for other reasons -/

/-- The refusal does not say that a precondition is missing or not met. -/
def ApiError.IsCalm (e : ApiError) : Prop := e.status ≠ 412 ∧ e.status ≠ 428

theorem ApiError.isCalm_iff {e : ApiError} : e.IsCalm ↔ e ≠ .preconditionFailed ∧ e ≠ .preconditionRequired := by
  cases e <;> simp [IsCalm, status]

theorem ApiError.isCalm_ofStorage (e : StorageError) : (ofStorage e).IsCalm := by
  unfold ofStorage
  split <;> exact isCalm_iff.mpr ⟨nofun, nofun⟩

theorem ApiError.isCalm_validationFailed (missing unknown invalid : List String) :
    (validationFailed missing unknown invalid).IsCalm :=
  ⟨(by decide : 422 ≠ 412), (by decide : 422 ≠ 428)⟩

namespace Handler

/-- Whatever the database answers, there is no refusal for a precondition. -/
def Calm (h : Handler α) : Prop := ∀ log e, Says h.run log (.error e) → e.IsCalm

theorem calm_ofSession {d : Session α} : (ofSession d).Calm := by
  intro log e hs
  obtain ⟨r, -, hr⟩ := says_ofSession_iff.mp hs
  cases r with
  | error e' =>
    cases hr
    exact ApiError.isCalm_ofStorage e'
  | ok a => cases hr

theorem calm_throw {e : ApiError} (he : e.IsCalm) : Calm (throw e : Handler α) := by
  intro log e' hs
  obtain ⟨-, heq⟩ := says_throw_iff.mp hs
  cases heq
  exact he

theorem calm_pure {a : α} : Calm (pure a : Handler α) := by
  intro log e hs
  obtain ⟨-, heq⟩ := says_pure_iff.mp hs
  cases heq

theorem Calm.bind {h : Handler α} {f : α → Handler β} (hh : h.Calm) (hf : ∀ a, (f a).Calm) : (h >>= f).Calm := by
  intro log e hs
  rcases says_except_bind_iff.mp hs with ⟨_, a, second, -, -, hsecond⟩ | ⟨e', heq, hs'⟩
  · exact hf a second e hsecond
  · cases heq
    exact hh log e hs'

end Handler

namespace Service

variable {s : Service}

theorem isCalm_notFound (s : Service) (id : String) : (s.notFound id).IsCalm :=
  ApiError.isCalm_iff.mpr ⟨nofun, nofun⟩

/-- A part of a path that cannot be a key is told to be no row. -/
theorem isCalm_of_requireKey {id : String} {e : ApiError} (h : s.requireKey id = .error e) : e.IsCalm := by
  unfold requireKey at h
  split at h
  · cases h
  · cases h
    exact s.isCalm_notFound id

/-- A body that holds no object is a bad one. -/
theorem isCalm_of_bodyObject {body : List UInt8} {e : ApiError} (h : bodyObject body = .error e) : e.IsCalm := by
  unfold bodyObject at h
  split at h
  · cases h
    exact ApiError.isCalm_iff.mpr ⟨nofun, nofun⟩
  · split at h <;> cases h <;> exact ApiError.isCalm_iff.mpr ⟨nofun, nofun⟩

theorem isCalm_of_bindComplete {data : Json.Object} {mayLack : List String} {e : ApiError}
    (h : s.bindComplete data mayLack = .error e) : e.IsCalm := by
  rw [bindComplete_eq_error h]
  exact ApiError.isCalm_validationFailed _ _ _

theorem isCalm_of_bindPartial {data : Json.Object} {e : ApiError} (h : s.bindPartial data = .error e) : e.IsCalm := by
  rw [bindPartial_eq_error h]
  exact ApiError.isCalm_validationFailed _ _ _

theorem calm_requireRow (s : Service) (id : String) : (s.requireRow id).Calm := by
  apply Handler.Calm.bind Handler.calm_ofSession
  intro r
  cases r with
  | none => exact Handler.calm_throw (s.isCalm_notFound id)
  | some r => exact Handler.calm_pure

/-! ## Rows that are told of -/

/-- A statement that is answered with a row of the resource: one that looks for a key, or an insert where the database
sends the new row. -/
def ReadsRow (s : Service) (statement : Statement) : Prop :=
  (∃ key, statement = Rows.keyStatement s.model key) ∨
    s.backend.returnsRows = true ∧ ∃ row, statement = Rows.insertStatement s.model row

/-- The last statement is answered with the cells of a row. -/
def ReadsLast (s : Service) (log : List Exchange) (r : Record) : Prop :=
  ∃ pre statement cells more post,
    log = pre ++ .query statement (.ok (cells :: more)) :: post ∧ (∀ x ∈ post, x.isMark = true) ∧
      s.ReadsRow statement ∧ r = Rows.ofCells s.model.columns cells

variable {log : List Exchange} {r : Record}

/-- What came before does not matter, and neither does a mark behind it. -/
theorem ReadsLast.within (h : s.ReadsLast log r) (before after : List Exchange)
    (hafter : ∀ x ∈ after, x.isMark = true) : s.ReadsLast (before ++ log ++ after) r := by
  obtain ⟨pre, statement, cells, more, post, rfl, hpost, hstatement, hr⟩ := h
  refine ⟨before ++ pre, statement, cells, more, post ++ after, by simp, ?_, hstatement, hr⟩
  exact List.forall_mem_append.mpr ⟨hpost, hafter⟩

theorem ReadsLast.behind (h : s.ReadsLast log r) (before : List Exchange) : s.ReadsLast (before ++ log) r := by
  simpa using h.within before [] (by simp)

/-- The row with a key, or the news that there is none. -/
def rowOrNotFound (s : Service) (id : String) (rows : List Cells) : Except ApiError Record :=
  match Rows.firstOf s.model rows with
  | some r => .ok r
  | none => .error (s.notFound id)

/-- A row that must be there is looked for by its key. -/
theorem says_requireRow_iff {id : String} {key : Value} {a : Except ApiError Record}
    (hkey : s.model.keyValue? id = some key) :
    Says (s.requireRow id).run log a ↔
      ∃ answer, log = [.query (Rows.keyStatement s.model key) answer] ∧
        a = (answer.mapError ApiError.ofStorage).bind (s.rowOrNotFound id) := by
  unfold requireRow
  simp only [says_except_bind_iff, Handler.says_ofSession_iff, Rows.says_findByKey_iff hkey]
  constructor
  · rintro (⟨_, found, second, rfl, ⟨_, ⟨answer, rfl, rfl⟩, hfound⟩, hsecond⟩ |
      ⟨e, rfl, _, ⟨answer, rfl, rfl⟩, hfailed⟩)
    · rcases answer with e | (_ | ⟨cells, more⟩)
      · cases hfound
      · cases hfound
        obtain ⟨rfl, rfl⟩ := says_throw_iff.mp hsecond
        exact ⟨.ok [], rfl, rfl⟩
      · cases hfound
        obtain ⟨rfl, rfl⟩ := says_pure_iff.mp hsecond
        exact ⟨.ok (cells :: more), rfl, rfl⟩
    · cases answer with
      | error e' =>
        cases hfailed
        exact ⟨.error e', rfl, rfl⟩
      | ok rows => cases hfailed
  · rintro ⟨answer, rfl, rfl⟩
    rcases answer with e | (_ | ⟨cells, more⟩)
    · exact .inr ⟨_, rfl, _, ⟨.error e, rfl, rfl⟩, rfl⟩
    · exact .inl ⟨_, none, [], rfl, ⟨_, ⟨.ok [], rfl, rfl⟩, rfl⟩, says_throw_iff.mpr ⟨rfl, rfl⟩⟩
    · exact .inl ⟨_, some (Rows.ofCells s.model.columns cells), [], rfl, ⟨_, ⟨.ok (cells :: more), rfl, rfl⟩, rfl⟩,
        says_pure_iff.mpr ⟨rfl, rfl⟩⟩

/-- For what cannot be a key nothing is found. -/
theorem exists_keyValue?_of_requireRow {id : String} (h : Says (s.requireRow id).run log (.ok r)) :
    ∃ key, s.model.keyValue? id = some key := by
  refine Option.ne_none_iff_exists'.mp fun hkey => ?_
  have hrun : (s.requireRow id).run = .done (.error (s.notFound id)) := by
    simp only [requireRow, Rows.findByKey, hkey]
    rfl
  rw [hrun] at h
  obtain ⟨-, hcontra⟩ := says_done_iff.mp h
  cases hcontra

theorem readsLast_requireRow {id : String} (h : Says (s.requireRow id).run log (.ok r)) : s.ReadsLast log r := by
  obtain ⟨key, hkey⟩ := exists_keyValue?_of_requireRow h
  obtain ⟨answer, rfl, ha⟩ := (says_requireRow_iff hkey).mp h
  rcases answer with e | (_ | ⟨cells, more⟩)
  · cases ha
  · cases ha
  · cases ha
    exact ⟨[], _, cells, more, [], rfl, by simp, .inl ⟨key, rfl⟩, rfl⟩

/-- A new row comes back from the insert itself, or is looked for by its key. -/
theorem readsLast_insert {row : List (String × Value)} (h : Says (Rows.insert s.backend s.model row).run log (.ok r)) :
    s.ReadsLast log r := by
  -- The row that is told of is the first one of an answer.
  have hfirst : ∀ {a : Except StorageError (List Cells)},
      .ok r = a.bind (fun rows => Rows.inserted (Rows.firstOf s.model rows)) →
      ∃ cells more, a = .ok (cells :: more) ∧ r = Rows.ofCells s.model.columns cells := by
    intro a ha
    rcases a with e | (_ | ⟨cells, more⟩)
    · cases ha
    · cases ha
    · cases ha
      exact ⟨cells, more, rfl, rfl⟩
  cases hb : s.backend.returnsRows with
  | true =>
    obtain ⟨a, rfl, ha⟩ := (Rows.says_insert_iff_of_returnsRows hb).mp h
    obtain ⟨cells, more, rfl, rfl⟩ := hfirst ha
    exact ⟨[], _, cells, more, [], rfl, by simp, .inr ⟨hb, row, rfl⟩, rfl⟩
  | false =>
    rcases (Rows.says_insert_iff_of_not_returnsRows hb).mp h with ⟨e, -, hcontra⟩ | ⟨effect, a, rfl, ha⟩
    · cases hcontra
    · obtain ⟨cells, more, rfl, rfl⟩ := hfirst ha
      exact ⟨[.execute (Rows.insertStatement s.model row) (.ok effect)], _, cells, more, [], rfl, by simp,
        .inl ⟨_, rfl⟩, rfl⟩

theorem readsLast_insertRow {row : List (String × Value)} (h : Says (s.insertRow row).run log (.ok r)) :
    s.ReadsLast log r := by
  obtain ⟨a, ha, heq⟩ := Handler.says_ofSession_iff.mp h
  cases a with
  | error e => cases heq
  | ok r' =>
    cases heq
    exact readsLast_insert ha

/-- A changed row is looked for by its key. -/
theorem readsLast_updateRow {id : String} {key : Value} {changes : List (String × Value)}
    (h : Says (s.updateRow id key changes).run log (.ok r)) : s.ReadsLast log r := by
  rcases says_except_bind_iff.mp h with ⟨first, _, second, rfl, -, hsecond⟩ | ⟨e, hcontra, -⟩
  · exact (readsLast_requireRow hsecond).behind first
  · cases hcontra

/-! ## The tag of a reply -/

/-- A tag can be sent in a header field. -/
theorem isValue_tag (body : Json) : Headers.isValue (EntityTag.of body) = true := by
  refine List.all_eq_true.mpr fun c hc => ?_
  have hread := List.all_eq_true.mp (EntityTag.isReadable_of body) c hc
  simp only [Headers.isValueChar, Bool.or_eq_true, Bool.and_eq_true, decide_eq_true_eq, bne_iff_ne] at hread ⊢
  rcases hread with htab | ⟨hlow, hhigh⟩
  · exact .inl htab
  · exact .inr ⟨hlow, by omega⟩

/-- A tag that a reply is given is sent with it. -/
theorem get?_etag_send (reply : Reply) (body : Json) :
    (reply.header "etag" (EntityTag.of body)).send.headers.get? "etag" = some (EntityTag.of body) := by
  have hheader : (reply.headers.trySet "etag" (EntityTag.of body)).get? "etag" = some (EntityTag.of body) := by
    rw [Headers.get?_trySet, if_pos (isValue_tag body)]
  -- how the tag is made of the body is of no account any more
  generalize EntityTag.of body = tag at hheader ⊢
  unfold Reply.send Reply.header
  split
  · exact hheader
  · exact (Headers.get?_extend_typeHeader _ (by decide)).trans hheader
  · exact (Headers.get?_extend_typeHeader _ (by decide)).trans hheader

/-- A response carries the tag of the row that was read last. -/
def TellsTag (s : Service) (log : List Exchange) (response : Response) : Prop :=
  ∃ r, s.ReadsLast log r ∧ response.headers.get? "etag" = some (s.currentTag r)

theorem tellsTag_itemReply (enabled : s.config.conditionalRequestEnabled = true) {status : Nat} {withLocation : Bool}
    (h : s.ReadsLast log r) : s.TellsTag log (s.itemReply r status withLocation).send := by
  refine ⟨r, h, ?_⟩
  rw [itemReply, if_pos enabled]
  exact get?_etag_send _ _

/-- A reply with a body carries the tag of the body, also when the client is told that it has it already. -/
theorem get?_etag_conditionalRead (enabled : s.config.conditionalRequestEnabled = true) {headers : Headers}
    {reply : Reply} {body : Json} (hbody : reply.body = .json body) :
    (s.conditionalRead headers reply).send.headers.get? "etag" = some (EntityTag.of body) := by
  simp only [conditionalRead, enabled, Bool.not_true, Bool.false_eq_true, ↓reduceIte, hbody]
  split
  · exact get?_etag_send _ _
  · exact get?_etag_send _ _

/-- A row that is shown alone and in full carries its tag. -/
theorem tellsTag_get (enabled : s.config.conditionalRequestEnabled = true) {id : String} {args : Arguments}
    {headers : Headers} {q : Query} {page : PageRequest} {reply : Reply}
    (hcompiled : s.compileQuery s.model args = .ok (q, page)) (hfields : q.fields = []) (hrelated : q.related = [])
    (hlinks : (s.listOptions args).noLinks = false) (h : Says (s.get id args headers).run log (.ok reply)) :
    s.TellsTag log reply.send := by
  unfold Service.get at h
  rcases Handler.says_ofExcept_bind h with ⟨-, e, hcontra⟩ | ⟨compiled, hok, h⟩
  · cases hcontra
  obtain rfl : (q, page) = compiled := Except.ok.inj (hcompiled.symm.trans hok)
  rcases says_except_bind_iff.mp h with ⟨first, row, second, rfl, hrow, hrest⟩ | ⟨e, hcontra, -⟩
  · have hexpand : s.expandOne row [] = pure row := rfl
    simp only [hfields, hrelated, List.isEmpty_nil, ↓reduceIte, hexpand, hlinks, Bool.not_true, Bool.not_false]
      at hrest
    obtain ⟨rfl, hreply⟩ := says_pure_iff.mp hrest
    cases hreply
    refine ⟨row, by simpa using readsLast_requireRow hrow, ?_⟩
    exact get?_etag_conditionalRead enabled rfl
  · cases hcontra

/-! ## Requests -/

theorem TellsTag.within {response : Response} (h : s.TellsTag log response) (before : List Exchange)
    {after : List Exchange} (hafter : ∀ x ∈ after, x.isMark = true) :
    s.TellsTag (before ++ log ++ after) response := by
  obtain ⟨r, hread, htag⟩ := h
  exact ⟨r, hread.within before _ hafter, htag⟩

/-- What is done with a row: it is not refused for a precondition, and unless the row is gone the reply tells of it. -/
structure Informs (s : Service) (h : Handler Reply) : Prop where
  calm : h.Calm
  success {log : List Exchange} {reply : Reply} (said : Says h.run log (.ok reply)) : reply.status < 300
  tells {log : List Exchange} {reply : Reply} (said : Says h.run log (.ok reply)) (stays : reply.status ≠ 204) :
    s.TellsTag log reply.send

/-- A row that is read again is told of. -/
theorem informs_itemReply (enabled : s.config.conditionalRequestEnabled = true) {h : Handler Record} (calm : h.Calm)
    (reads : ∀ log r, Says h.run log (.ok r) → s.ReadsLast log r) {status : Nat} (hstatus : status < 300)
    (withLocation : Bool) : s.Informs (h >>= fun r => pure (s.itemReply r status withLocation)) where
  calm := calm.bind fun _ => Handler.calm_pure
  success {log reply} said := by
    rcases says_except_bind_iff.mp said with ⟨_, r, second, -, -, hsecond⟩ | ⟨e, hcontra, -⟩
    · obtain ⟨-, hreply⟩ := says_pure_iff.mp hsecond
      cases hreply
      obtain ⟨headers, hreply⟩ := s.itemReply_eq r status withLocation
      rw [hreply]
      exact hstatus
    · cases hcontra
  tells {log reply} said _ := by
    rcases says_except_bind_iff.mp said with ⟨first, r, second, rfl, hfirst, hsecond⟩ | ⟨e, hcontra, -⟩
    · obtain ⟨rfl, hreply⟩ := says_pure_iff.mp hsecond
      cases hreply
      rw [List.append_nil]
      exact tellsTag_itemReply enabled (reads first r hfirst)
    · cases hcontra

/-- A row that is deleted is gone. -/
theorem informs_delete (s : Service) (key : Value) :
    s.Informs (discard (Handler.ofSession (Rows.delete s.model key)) >>= fun _ => pure (Reply.empty 204)) where
  calm := by
    refine Handler.Calm.bind ?_ fun _ => Handler.calm_pure
    intro log e hs
    obtain ⟨a, ha, heq⟩ := says_discard_iff.mp hs
    cases a with
    | error e' =>
      cases heq
      exact Handler.calm_ofSession log e ha
    | ok n => cases heq
  success {log reply} said := by
    rcases says_except_bind_iff.mp said with ⟨_, _, second, -, -, hsecond⟩ | ⟨e, hcontra, -⟩
    · obtain ⟨-, hreply⟩ := says_pure_iff.mp hsecond
      cases hreply
      decide
    · cases hcontra
  tells {log reply} said stays := by
    rcases says_except_bind_iff.mp said with ⟨first, _, second, -, -, hsecond⟩ | ⟨e, hcontra, -⟩
    · obtain ⟨-, hreply⟩ := says_pure_iff.mp hsecond
      cases hreply
      exact absurd rfl stays
    · cases hcontra

theorem informs_throw {e : ApiError} (he : e.IsCalm) : s.Informs (throw e) where
  calm := Handler.calm_throw he
  success said := by
    obtain ⟨-, hcontra⟩ := says_throw_iff.mp said
    cases hcontra
  tells said _ := by
    obtain ⟨-, hcontra⟩ := says_throw_iff.mp said
    cases hcontra

theorem calm_updateRow (s : Service) (id : String) (key : Value) (changes : List (String × Value)) :
    (s.updateRow id key changes).Calm :=
  Handler.calm_ofSession.bind fun _ => s.calm_requireRow id

end Service

namespace ItemRequest

variable {s : Service} {q : ItemRequest} {log : List Exchange} {a : Except ApiError Reply}

/-- A request is refused beforehand, or looks for its row, checks it and tells of it. -/
inductive Guarded (s : Service) (q : ItemRequest) : List Exchange → Except ApiError Reply → Prop
  | refused {e : ApiError} (calm : e.IsCalm) : Guarded s q [] (.error e)
  | checked {key : Value} {absent : Handler Reply} {present : Record → Handler Reply} {log : List Exchange}
    {a : Except ApiError Reply} (key_eq : s.model.keyValue? q.id = some key) (absent_informs : s.Informs absent)
    (present_informs : ∀ r, s.Informs (present r))
    (said : Says (Handler.transaction (s.guarded q.id q.headers absent present)).run log a) : Guarded s q log a

theorem guarded_of_says (enabled : s.config.conditionalRequestEnabled = true) (h : Says (q.handler s).run log a) :
    Guarded s q log a := by
  have hinsert : ∀ row, s.Informs ((s.itemReply · 201 true) <$> s.insertRow row) := fun _ =>
    Service.informs_itemReply enabled Handler.calm_ofSession (fun _ _ => Service.readsLast_insertRow) (by decide) true
  have hupdate : ∀ (id : String) (key : Value) (changes : List (String × Value)) (r : Record),
      s.Informs ((s.itemReply · 200 false) <$> s.updateRow id key changes) := fun id key changes _ =>
    Service.informs_itemReply enabled (s.calm_updateRow id key changes) (fun _ _ => Service.readsLast_updateRow)
      (by decide) false
  -- Whatever sends a request back before the transaction is no matter of tags.
  cases outset_of_says h with
  | keyless key_eq => exact .refused (Service.isCalm_of_requireKey key_eq)
  | malformed data_eq => exact .refused (Service.isCalm_of_bodyObject data_eq)
  | incomplete row_eq => exact .refused (Service.isCalm_of_bindComplete row_eq)
  | unassignable changes_eq => exact .refused (Service.isCalm_of_bindPartial changes_eq)
  | replaces key_eq data_eq row_eq said =>
    exact .checked (Service.requireKey_eq_ok_iff.mp key_eq) (hinsert _) (hupdate _ _ _) said
  | modifies key_eq data_eq changes_eq said =>
    exact .checked (Service.requireKey_eq_ok_iff.mp key_eq) (Service.informs_throw (s.isCalm_notFound _)) (hupdate _ _ _) said
  | deletes key_eq said =>
    exact .checked (Service.requireKey_eq_ok_iff.mp key_eq) (Service.informs_throw (s.isCalm_notFound _))
      (fun _ => Service.informs_delete s _) said

/-- A reply to such a request is that of a handler that informs, behind the look-up in its transaction. -/
theorem Guarded.exists_informs {reply : Reply} (h : Guarded s q log (.ok reply)) :
    ∃ (informant : Handler Reply) (before body : List Exchange), s.Informs informant ∧
      Says informant.run body (.ok reply) ∧ log = before ++ body ++ [.mark .commit] := by
  cases h with
  | checked key_eq absent_informs present_informs said =>
    obtain ⟨body, hbody, rfl⟩ := Handler.says_transaction_iff.mp said
    rcases Service.says_guarded_cases key_eq hbody with ⟨e, -, hcontra⟩ | ⟨rest, rfl, hrest⟩ |
      ⟨cells, more, ⟨e, -, -, hcontra⟩ | ⟨rest, rfl, -, hrest⟩⟩
    · cases hcontra
    · exact ⟨_, [_, _], rest, absent_informs, hrest, rfl⟩
    · cases hcontra
    · exact ⟨_, [_, _], rest, present_informs _, hrest, rfl⟩

/-- It tells of the row, unless the row is gone. -/
theorem Guarded.tells {reply : Reply} (h : Guarded s q log (.ok reply)) (hstays : reply.status ≠ 204) :
    s.TellsTag log reply.send := by
  obtain ⟨informant, before, body, hinforms, hsaid, rfl⟩ := h.exists_informs
  exact (hinforms.tells hsaid hstays).within before (by simp [Exchange.isMark, Exchange.statement?])

theorem Guarded.success {reply : Reply} (h : Guarded s q log (.ok reply)) : reply.status < 300 := by
  obtain ⟨informant, _, _, hinforms, hsaid, -⟩ := h.exists_informs
  exact hinforms.success hsaid

/-- Such a request is not refused for its precondition when the row, if there is one, passes the check. -/
theorem Guarded.isCalm {e : ApiError} (h : Guarded s q log (.error e))
    (hcheck : ∀ key cells more rest,
      log = .mark .begin :: .query (Rows.keyStatement s.model key) (.ok (cells :: more)) :: rest →
      s.checkPrecondition q.headers (Rows.ofCells s.model.columns cells) = .ok ()) : e.IsCalm := by
  cases h with
  | refused calm => exact calm
  | checked key_eq absent_informs present_informs said =>
    obtain ⟨body, hbody, rfl⟩ := Handler.says_transaction_iff.mp said
    rcases Service.says_guarded_cases key_eq hbody with ⟨e', -, heq⟩ | ⟨rest, -, hrest⟩ |
      ⟨cells, more, ⟨e', rfl, hunmet, -⟩ | ⟨rest, -, -, hrest⟩⟩
    · cases heq
      exact ApiError.isCalm_ofStorage e'
    · exact absent_informs.calm rest e hrest
    · rw [hcheck _ cells more _ rfl] at hunmet
      cases hunmet
    · exact (present_informs _).calm rest e hrest

end ItemRequest

namespace Service

variable {s : Service} {log : List Exchange}

/-- A new row is told of. -/
theorem tellsTag_create (enabled : s.config.conditionalRequestEnabled = true) {body : List UInt8} {reply : Reply}
    (h : Says (s.create body).run log (.ok reply)) : s.TellsTag log reply.send := by
  unfold create at h
  rcases Handler.says_ofExcept_bind_iff.mp h with ⟨e, -, -, hcontra⟩ | ⟨data, -, h⟩
  · cases hcontra
  rcases Handler.says_ofExcept_bind_iff.mp h with ⟨e, -, -, hcontra⟩ | ⟨row, -, h⟩
  · cases hcontra
  rcases says_except_bind_iff.mp h with ⟨first, r, second, rfl, hfirst, hsecond⟩ | ⟨e, hcontra, -⟩
  · obtain ⟨rfl, hreply⟩ := says_pure_iff.mp hsecond
    cases hreply
    obtain ⟨said, hsaid, rfl⟩ := Handler.says_transaction_iff.mp hfirst
    rcases says_insertUnlessThere_iff.mp hsaid with
      ⟨e, -, hcontra⟩ | ⟨cells, more, -, hcontra⟩ | ⟨rest, a, rfl, ha, heq⟩
    · cases hcontra
    · cases hcontra
    · cases a with
      | error e => cases heq
      | ok r' =>
        cases heq
        -- The insert ends with the row that it reads, and only the end of the transaction follows.
        have hread := (readsLast_insert ha).within [.mark .begin, .query (likeStatement s.model row) (.ok [])]
          [.mark (Mark.ending (Except.ok r : Except ApiError Record))]
          (by simp [Exchange.isMark, Exchange.statement?])
        rw [List.append_nil]
        exact tellsTag_itemReply enabled hread
  · cases hcontra

end Service

/-- The first field of the request that asks for a tag can be read, and the tag is one of the parts between its
commas. -/
def Headers.Names (headers : Headers) (tag : String) : Prop :=
  ∃ list, headers.text? "if-match" = some list ∧ ∃ part ∈ Text.split [','] list.toList, Text.trim part = tag.toList

/-- A tag alone is such a list. -/
theorem Headers.names_of_get? {headers : Headers} {body : Json}
    (h : headers.get? "if-match" = some (EntityTag.of body)) : headers.Names (EntityTag.of body) := by
  refine ⟨EntityTag.of body, ?_, _, ?_, EntityTag.trim_of body⟩
  · rw [text?, h, Option.bind_some, if_pos (EntityTag.isReadable_of body)]
  · rw [EntityTag.split_of]
    exact List.mem_singleton_self _

namespace Service

variable {s : Service}

/-- A request that names the tag of a row passes the check. -/
theorem checkPrecondition_of_names (enabled : s.config.conditionalRequestEnabled = true) {headers : Headers}
    {r : Record} (h : headers.Names (s.currentTag r)) : s.checkPrecondition headers r = .ok () := by
  obtain ⟨list, htext, part, hpart, htrim⟩ := h
  have hentry := List.mem_map_of_mem (f := EntityTag.Entry.read) hpart
  rw [EntityTag.Entry.read_of htrim] at hentry
  exact (checkPrecondition_eq_ok_iff enabled).mpr ⟨list, htext, EntityTag.matchesStrong_iff.mpr (.inr hentry)⟩

end Service

/-- A response is a reply or a refusal as it is sent. -/
theorem App.says_sendResult_iff {h : Handler Reply} {log : List Exchange} {response : Response} :
    Says (App.sendResult h) log response ↔
      (∃ reply, Says h.run log (.ok reply) ∧ response = reply.send) ∨
      ∃ e : ApiError, Says h.run log (.error e) ∧ response = e.send := by
  constructor
  · intro hs
    obtain ⟨first, a, second, rfl, ha, hrest⟩ := says_bind_iff.mp hs
    cases a with
    | ok reply =>
      obtain ⟨rfl, rfl⟩ := says_done_iff.mp hrest
      exact .inl ⟨reply, by rwa [List.append_nil], rfl⟩
    | error e =>
      obtain ⟨rfl, rfl⟩ := says_done_iff.mp hrest
      exact .inr ⟨e, by rwa [List.append_nil], rfl⟩
  · rintro (⟨reply, ha, rfl⟩ | ⟨e, ha, rfl⟩)
    · exact says_bind_iff.mpr ⟨log, _, [], (List.append_nil log).symm, ha, says_done_iff.mpr ⟨rfl, rfl⟩⟩
    · exact says_bind_iff.mpr ⟨log, _, [], (List.append_nil log).symm, ha, says_done_iff.mpr ⟨rfl, rfl⟩⟩

theorem Reply.status_send (reply : Reply) : reply.send.status = reply.status := by
  unfold send
  split <;> rfl

/-- Refusals have other statuses than replies. -/
theorem ApiError.le_status_send (e : ApiError) : 400 ≤ e.send.status := by
  cases e <;> simp [send, status]

namespace Service

variable {s : Service}

/-- Every tag that is told can be used. With conditional requests, the response to a look-up of a row without a
projection, without expansions and with its links, and every response to a write that tells of a row, carries the tag of
the row that the last statement before it was answered with. A request that names the tag of a row is not refused for
its precondition, unless the row that is looked for has become another one. -/
theorem told_tags_are_current (enabled : s.config.conditionalRequestEnabled = true) :
    (∀ id args headers q page log response, s.compileQuery s.model args = .ok (q, page) → q.fields = [] →
      q.related = [] → (s.listOptions args).noLinks = false →
      Says (App.sendResult (s.get id args headers)) log response → response.status = 200 ∨ response.status = 304 →
      s.TellsTag log response) ∧
    (∀ (w : WriteRequest) log response, Says (App.sendResult (w.handler s)) log response →
      response.status = 200 ∨ response.status = 201 → s.TellsTag log response) ∧
    ∀ (q : ItemRequest) (r : Record) log response, q.headers.Names (s.currentTag r) →
      Says (App.sendResult (q.handler s)) log response →
      (∀ key cells more rest,
        log = .mark .begin :: .query (Rows.keyStatement s.model key) (.ok (cells :: more)) :: rest →
        Rows.ofCells s.model.columns cells = r) →
      response.status ≠ 412 ∧ response.status ≠ 428 := by
  refine ⟨?_, ?_, ?_⟩
  · intro id args headers q page log response hcompiled hfields hrelated hlinks hsaid hstatus
    rcases App.says_sendResult_iff.mp hsaid with ⟨reply, hreply, rfl⟩ | ⟨e, -, rfl⟩
    · exact tellsTag_get enabled hcompiled hfields hrelated hlinks hreply
    · -- An error has a status of its own, which is none of these.
      have hrefused := e.le_status_send
      omega
  · intro w log response hsaid hstatus
    rcases App.says_sendResult_iff.mp hsaid with ⟨reply, hreply, rfl⟩ | ⟨e, -, rfl⟩
    · cases w with
      | create body => exact tellsTag_create enabled hreply
      | item q =>
        rw [Reply.status_send] at hstatus
        exact (ItemRequest.guarded_of_says enabled hreply).tells (by omega)
    · have hrefused := e.le_status_send
      omega
  · intro q r log response hnames hsaid hsame
    rcases App.says_sendResult_iff.mp hsaid with ⟨reply, hreply, rfl⟩ | ⟨e, he, rfl⟩
    · have hsuccess := (ItemRequest.guarded_of_says enabled hreply).success
      rw [Reply.status_send]
      omega
    · refine (ItemRequest.guarded_of_says enabled he).isCalm ?_
      intro key cells more rest hlog
      rw [hsame key cells more rest hlog]
      exact checkPrecondition_of_names enabled hnames

/-- A row that is there is shown. -/
theorem says_get {id : String} {args : Arguments} {headers : Headers} {q : Query} {page : PageRequest} {key : Value}
    (cells : Cells) (more : List Cells) (hcompiled : s.compileQuery s.model args = .ok (q, page))
    (hfields : q.fields = []) (hrelated : q.related = []) (hkey : s.model.keyValue? id = some key) :
    Says (s.get id args headers).run [.query (Rows.keyStatement s.model key) (.ok (cells :: more))]
      (.ok (s.conditionalRead headers ((Reply.json 200 (.obj (s.registry.render s.model
        (Rows.ofCells s.model.columns cells) false (!(s.listOptions args).noLinks)))).header "link"
        (Link.ofResource (s.model.links (Rows.ofCells s.model.columns cells).toRow))))) := by
  have hrequired : Says (s.requireRow id).run [.query (Rows.keyStatement s.model key) (.ok (cells :: more))]
      (.ok (Rows.ofCells s.model.columns cells)) := (says_requireRow_iff hkey).mpr ⟨_, rfl, rfl⟩
  have hexpand : ∀ r, s.expandOne r [] = pure r := fun _ => rfl
  refine Handler.says_ofExcept_bind_iff.mpr (.inr ⟨_, hcompiled, ?_⟩)
  refine says_except_bind_iff.mpr (.inl ⟨[_], _, [], rfl, hrequired, ?_⟩)
  simp only [hfields, hrelated, List.isEmpty_nil, ↓reduceIte, hexpand]
  exact says_pure_iff.mpr ⟨rfl, rfl⟩

/-- The note is shown with its tag, and then deleted with it. -/
theorem told_tags_are_current_of_note :
    (∃ log response, Says (App.sendResult (ItemRequest.noteService.get "1" [] [])) log response ∧
      response.status = 200 ∧ ItemRequest.noteService.TellsTag log response) ∧
    ∃ log response, Says (App.sendResult (ItemRequest.noteDeletion.handler ItemRequest.noteService)) log response ∧
      log.countP Exchange.isWrite = 1 ∧ response.status ≠ 412 ∧ response.status ≠ 428 := by
  have hkey : ItemRequest.noteModel.keyValue? "1" = some (.bigInt (some 1)) := rfl
  have hcompiled : ItemRequest.noteService.compileQuery ItemRequest.noteModel [] = .ok ({}, ⟨1, some 1000, []⟩) :=
    rfl
  obtain ⟨hget, -, hdelete⟩ := told_tags_are_current (s := ItemRequest.noteService) rfl
  constructor
  · have hsaid : Says (App.sendResult (ItemRequest.noteService.get "1" [] [])) _ _ :=
      App.says_sendResult_iff.mpr
        (.inl ⟨_, says_get (ItemRequest.noteRow.cells ["id", "text"]) [] hcompiled rfl rfl hkey, rfl⟩)
    exact ⟨_, _, hsaid, rfl, hget _ _ _ _ _ _ _ hcompiled rfl rfl rfl hsaid (.inl rfl)⟩
  · have hsaid : Says (App.sendResult (ItemRequest.noteDeletion.handler ItemRequest.noteService)) _ _ :=
      App.says_sendResult_iff.mpr (.inl ⟨_, @ItemRequest.says_delete_of_checked _ _ _ _
        (ItemRequest.noteRow.cells ["id", "text"]) [] ⟨0, 1⟩ hkey ItemRequest.checkPrecondition_note, rfl⟩)
    refine ⟨_, _, hsaid, rfl, ?_⟩
    refine hdelete ItemRequest.noteDeletion (ItemRequest.noteModel.recordOf ItemRequest.noteRow) _ _
      (Headers.names_of_get? rfl) hsaid ?_
    intro key cells more rest hlog
    simp only [ItemRequest.transactionLog, List.cons_append, List.cons.injEq, Exchange.query.injEq, Except.ok.injEq,
      true_and] at hlog
    obtain ⟨⟨-, rfl, -⟩, -⟩ := hlog
    rfl

end Service

end RestTables
