import Mathlib.Data.Set.Function
import RestTables.Proofs.Http.EntityTag
import RestTables.Proofs.Service.Course
import RestTables.Proofs.Storage.World

/-
Module: RestTables.Proofs.Service.Precondition
Purpose: No update is lost. A row is changed or deleted only for a request that names the entity tag of the row
  as it is in the same transaction; so, whatever other clients do, a request that names one tag changes no
  other row than the one that the tag was made of.
Main exports: Service.checkPrecondition_eq_ok_iff, ItemRequest.WritesOnlyOnMatch, ItemRequest.RefusesOtherwise,
  ItemRequest.CommitsOnlyCurrent, ItemRequest.no_lost_update
-/

namespace RestTables

open Sql Dialogue

namespace Service

variable {s : Service} {headers : Headers} {r : Record}

/-- The tag of a row as it is. -/
def currentTag (s : Service) (r : Record) : String := EntityTag.of (s.canonical r)

/-- The precondition is met when the first header field of that name can be read and matches strictly. -/
theorem checkPrecondition_eq_ok_iff (enabled : s.config.conditionalRequestEnabled = true) :
    s.checkPrecondition headers r = .ok () ↔
      ∃ value, headers.text? "if-match" = some value ∧
        EntityTag.matchesStrong value (s.currentTag r) = true := by
  unfold checkPrecondition
  cases hget : headers.get? "if-match" with
  | none => simp [enabled, Headers.text?, hget]
  | some value =>
    cases htext : headers.text? "if-match" with
    | none => simp [enabled, currentTag, EntityTag.matchesStrong_empty]
    | some text => simp [enabled, currentTag]

/-- A field that can be read is the first of its name. -/
theorem get?_of_text? {name value : String} (h : headers.text? name = some value) :
    headers.get? name = some value := by
  obtain ⟨first, hfirst, hread⟩ := Option.bind_eq_some_iff.mp h
  split at hread
  · cases hread
    exact hfirst
  · cases hread

/-- Without the field a precondition is asked for. -/
theorem checkPrecondition_of_get?_none (enabled : s.config.conditionalRequestEnabled = true)
    (h : headers.get? "if-match" = none) :
    s.checkPrecondition headers r = .error .preconditionRequired := by
  simp [checkPrecondition, enabled, h]

/-- With a field that does not match the precondition fails. -/
theorem checkPrecondition_of_not_matches {value : String} (enabled : s.config.conditionalRequestEnabled = true)
    (h : headers.get? "if-match" = some value)
    (hmatch : EntityTag.matchesStrong value (s.currentTag r) = false) :
    s.checkPrecondition headers r = .error .preconditionFailed := by
  have hnot : EntityTag.matchesStrong ((headers.text? "if-match").getD "") (s.currentTag r) = false := by
    cases htext : headers.text? "if-match" with
    | none => exact EntityTag.matchesStrong_empty _
    | some text =>
      have hfirst := get?_of_text? htext
      rw [h, Option.some.injEq] at hfirst
      rwa [Option.getD_some, ← hfirst]
  unfold currentTag at hnot
  simp [checkPrecondition, enabled, h, hnot]

end Service

namespace ItemRequest

variable (s : Service) (q : ItemRequest)

/-- Whatever the database answers, a statement that changes or removes a row is about the row with the key of
the request, which has been read just before in the same transaction, and whose tag the first header field
matches strictly. -/
def WritesOnlyOnMatch : Prop :=
  ∀ pre x post a, Says (q.handler s).run (pre ++ x :: post) a → x.isRewrite = true →
    ∃ key cells more value,
      s.model.keyValue? q.id = some key ∧
      pre = [.mark .begin, .query (Rows.keyStatement s.model key) (.ok (cells :: more))] ∧
      (∃ statement r, x = .execute statement r ∧ Rows.KeyWrite s.model key statement) ∧
      (∀ y ∈ post, y.isWrite = false) ∧
      q.headers.get? "if-match" = some value ∧
      EntityTag.matchesStrong value (s.currentTag (Rows.ofCells s.model.columns cells)) = true

/-- When there is a row, a request without a precondition is refused with 428 and one with a precondition that
is not met with 412, and nothing is written. -/
def RefusesOtherwise : Prop :=
  ∀ key cells more rest a,
    Says (q.handler s).run
      (.mark .begin :: .query (Rows.keyStatement s.model key) (.ok (cells :: more)) :: rest) a →
    (q.headers.get? "if-match" = none →
      a = .error .preconditionRequired ∧ ApiError.status .preconditionRequired = 428 ∧
        rest = [.mark .rollback]) ∧
    ∀ value, q.headers.get? "if-match" = some value →
      EntityTag.matchesStrong value (s.currentTag (Rows.ofCells s.model.columns cells)) = false →
      a = .error .preconditionFailed ∧ ApiError.status .preconditionFailed = 412 ∧ rest = [.mark .rollback]

/-- When the request names one tag and a transaction of it is committed in which a row was changed or removed,
then at that moment there was one row with the key, and its tag was that one. If the tag was made of some body,
and the hash does not collide on the two, that body was the row as it was shown. -/
def CommitsOnlyCurrent (E : Engine) (w : World (Except ApiError Reply)) : Prop :=
  ∀ i log rest db value weak tag x, w.dialogues[i]? = some (q.handler s).run →
    w.Transacts E i log .commit rest db → x ∈ log → x.isRewrite = true →
    q.headers.get? "if-match" = some value → EntityTag.entries value = [.tag weak tag] →
    ∃ key row,
      s.model.keyValue? q.id = some key ∧
      E.matching w.db s.model.table (.all [s.model.keyCondition key]) = [row] ∧
      E.Answers w.db x db ∧
      weak = false ∧ tag = EntityTag.opaqueOf (s.currentTag (s.model.recordOf row)).toList ∧
      ∀ body : Json, tag = EntityTag.opaqueOf (EntityTag.of body).toList →
        Set.InjOn Sha256.hash {body.bytes, (s.canonical (s.model.recordOf row)).bytes} →
        (s.canonical (s.model.recordOf row)).bytes = body.bytes

variable {s q}

theorem writesOnlyOnMatch (enabled : s.config.conditionalRequestEnabled = true) : WritesOnlyOnMatch s q := by
  intro pre x post a hs hrewrite
  obtain ⟨key, cells, more, hkey, hcheck, hpre, hx, hpost⟩ := exists_of_isRewrite hs hrewrite
  obtain ⟨value, htext, hmatch⟩ := (Service.checkPrecondition_eq_ok_iff enabled).mp hcheck
  exact ⟨key, cells, more, value, hkey, hpre, hx, hpost, Service.get?_of_text? htext, hmatch⟩

theorem refusesOtherwise (enabled : s.config.conditionalRequestEnabled = true) : RefusesOtherwise s q := by
  intro key cells more rest a hs
  have hunmet : ∀ e, s.checkPrecondition q.headers (Rows.ofCells s.model.columns cells) = .error e →
      a = .error e ∧ rest = [.mark .rollback] := by
    intro e he
    generalize hlog : Exchange.mark .begin ::
      .query (Rows.keyStatement s.model key) (.ok (cells :: more)) :: rest = log at hs
    -- of the courses that find a row, the one that it fails the check in is left
    cases course_of_path hs with
    | refused e => cases hlog
    | unread key_eq => cases (eq_of_transactionLog hlog).1
    | absent key_eq additive => cases (eq_of_transactionLog hlog).1
    | unmet key_eq check =>
      obtain ⟨hfound, rfl⟩ := eq_of_transactionLog hlog
      cases hfound
      cases he.symm.trans check
      exact ⟨rfl, rfl⟩
    | met key_eq check body_eq =>
      cases (eq_of_transactionLog hlog).1
      cases he.symm.trans check
  constructor
  · intro hnone
    obtain ⟨rfl, rfl⟩ := hunmet _ (Service.checkPrecondition_of_get?_none enabled hnone)
    exact ⟨rfl, rfl, rfl⟩
  · intro value hvalue hmatch
    obtain ⟨rfl, rfl⟩ := hunmet _ (Service.checkPrecondition_of_not_matches enabled hvalue hmatch)
    exact ⟨rfl, rfl, rfl⟩

/-- What is said in a committed transaction of a request in which a row was changed or removed. -/
theorem exists_of_transacts {E : Engine} {w : World (Except ApiError Reply)} {i : Nat} {log : List Exchange}
    {rest : Dialogue (Except ApiError Reply)} {db : Database} {x : Exchange}
    (hi : w.dialogues[i]? = some (q.handler s).run) (h : w.Transacts E i log .commit rest db) (hx : x ∈ log)
    (hrewrite : x.isRewrite = true) :
    ∃ key cells more tail, s.model.keyValue? q.id = some key ∧
      s.checkPrecondition q.headers (Rows.ofCells s.model.columns cells) = .ok () ∧
      log = .query (Rows.keyStatement s.model key) (.ok (cells :: more)) :: x :: tail ∧
      ∀ y ∈ tail, y.isWrite = false := by
  obtain ⟨d, hd, hpath⟩ := h.path
  obtain rfl : (q.handler s).run = d := Option.some.inj (hi.symm.trans hd)
  obtain ⟨later, a, hlater⟩ := rest.exists_result
  have hrun : Says (q.handler s).run ((.mark .begin :: log ++ [.mark .commit]) ++ later) a :=
    hpath.append hlater
  obtain ⟨key, cells, more, statement, r, tail, hkey, hcheck, -, -, hquiet, hlog⟩ :=
    (course_of_path hrun).of_isRewrite (by simp [hx]) hrewrite
  have hbody : log ++ .mark .commit :: later =
      (.query (Rows.keyStatement s.model key) (.ok (cells :: more)) :: x :: tail) ++
        .mark (Mark.ending a) :: [] := by
    simpa [transactionLog] using hlog
  -- a request sets no marks but the two around its transaction
  have hmarks : ∀ y ∈ .query (Rows.keyStatement s.model key) (.ok (cells :: more)) :: x :: tail,
      y.isMark = false := by
    rcases WriteRequest.transactional s (.item q) _ a hrun with ⟨hnil, -⟩ | ⟨body, hsame, hbodyMarks, -⟩
    · simp at hnil
    · rw [hlog] at hsame
      simp only [transactionLog, List.cons_append, List.cons.injEq, true_and] at hsame
      have hcut : .query (Rows.keyStatement s.model key) (.ok (cells :: more)) :: x :: tail = body :=
        List.append_cancel_right hsame
      rwa [hcut]
  obtain ⟨rfl, -, -⟩ := List.append_cons_inj_of_unique (p := Exchange.isMark) rfl hmarks (by simp) hbody
  exact ⟨key, cells, more, tail, hkey, hcheck, rfl, hquiet⟩

theorem commitsOnlyCurrent {E : Engine} {w : World (Except ApiError Reply)}
    (enabled : s.config.conditionalRequestEnabled = true)
    (distinct : E.KeyDistinct [s.model.keyField.name] (w.db s.model.table)) : CommitsOnlyCurrent s q E w := by
  intro i log rest db value weak tag x hi htransacts hx hrewrite hvalue hentries
  obtain ⟨key, cells, more, tail, hkey, hcheck, rfl, hquiet⟩ := exists_of_transacts hi htransacts hx hrewrite
  obtain ⟨now, hfind, after, hwrite, hreads⟩ := htransacts.history
  obtain ⟨rfl, row, hone, hrecord⟩ := Rows.matching_of_answers (by simp) distinct hfind
  obtain rfl : db = after := hreads.eq_of_not_isWrite hquiet
  rw [hrecord] at hcheck
  obtain ⟨text, htext, hmatch⟩ := (Service.checkPrecondition_eq_ok_iff enabled).mp hcheck
  obtain rfl : value = text := Option.some.inj (hvalue.symm.trans (Service.get?_of_text? htext))
  have htag : weak = false ∧ tag = EntityTag.opaqueOf (s.currentTag (s.model.recordOf row)).toList := by
    rw [EntityTag.matchesStrong_iff, hentries] at hmatch
    simpa [eq_comm] using hmatch
  refine ⟨key, row, hkey, hone, hwrite, htag.1, htag.2, ?_⟩
  -- Tags are hashes, so another body with this tag would be a collision.
  intro body hbody hfree
  have hhash : Sha256.hash (s.canonical (s.model.recordOf row)).bytes = Sha256.hash body.bytes :=
    EntityTag.hash_eq_of_opaqueOf_eq (htag.2.symm.trans hbody)
  exact hfree (by simp) (by simp) hhash

/-- No update is lost. Where conditional requests are enabled and the key is unique, a row is changed or
removed only for a request whose precondition names the tag of the row in the same transaction, and all others
are refused. So, after any interleaving of any clients' dialogues, a request that names one tag changes the
row only as long as the row is what the tag was made of. -/
theorem no_lost_update (enabled : s.config.conditionalRequestEnabled = true) {E : Engine}
    {w₀ w : World (Except ApiError Reply)}
    (unique : E.Enforces fun db => E.KeyDistinct [s.model.keyField.name] (db s.model.table))
    (start : E.KeyDistinct [s.model.keyField.name] (w₀.db s.model.table)) (reaches : World.Reaches E w₀ w) :
    WritesOnlyOnMatch s q ∧ RefusesOtherwise s q ∧ CommitsOnlyCurrent s q E w :=
  ⟨writesOnlyOnMatch enabled, refusesOtherwise enabled,
    commitsOnlyCurrent enabled (reaches.preserves unique start)⟩

/-! ## A deletion that is committed -/

/-- A row that is there and passes the check is deleted when the database does what it is told. -/
theorem says_delete_of_checked {id : String} {headers : Headers} {key : Value} {cells : Cells} {more : List Cells}
    {effect : Effect} (hkey : s.model.keyValue? id = some key)
    (hcheck : s.checkPrecondition headers (Rows.ofCells s.model.columns cells) = .ok ()) :
    Says (s.delete id headers).run
      (transactionLog s.model key (.ok (cells :: more))
        [.execute (.delete s.model.table (.all [s.model.keyCondition key])) (.ok effect)]
        (.ok (Reply.empty 204)))
      (.ok (Reply.empty 204)) := by
  have hrequire : s.requireKey id = .ok key := Service.requireKey_eq_ok_iff.mpr hkey
  have hfind : Says (Handler.ofSession (Rows.findByKey s.model id)).run
      [.query (Rows.keyStatement s.model key) (.ok (cells :: more))]
      (.ok (some (Rows.ofCells s.model.columns cells))) :=
    Handler.says_ofSession_iff.mpr ⟨_, (Rows.says_findByKey_iff hkey).mpr ⟨_, rfl, rfl⟩, rfl⟩
  have hdelete : Says (discard (Handler.ofSession (Rows.delete s.model key))).run
      [.execute (.delete s.model.table (.all [s.model.keyCondition key])) (.ok effect)] (.ok ()) :=
    says_discard_iff.mpr
      ⟨_, Handler.says_ofSession_iff.mpr ⟨_, Rows.says_delete_iff.mpr ⟨_, rfl, rfl⟩, rfl⟩, rfl⟩
  have hpassed : Says (Handler.ofExcept
      (s.checkPrecondition headers (Rows.ofCells s.model.columns cells))).run [] (.ok ()) :=
    Handler.says_ofExcept_iff.mpr ⟨rfl, hcheck.symm⟩
  unfold Service.delete
  rw [hrequire]
  apply says_except_bind_iff.mpr
  refine .inl ⟨[], key, _, rfl, Handler.says_ofExcept_iff.mpr ⟨rfl, rfl⟩, ?_⟩
  apply Handler.says_transaction_iff.mpr
  refine ⟨[_, _], ?_, rfl⟩
  rw [Service.requireRow_bind_eq_guarded]
  apply says_except_bind_iff.mpr
  refine .inl ⟨[_], _, [_], rfl, hfind, ?_⟩
  apply says_except_bind_iff.mpr
  refine .inl ⟨[], (), [_], rfl, hpassed, ?_⟩
  apply says_except_bind_iff.mpr
  exact .inl ⟨[_], (), [], rfl, hdelete, says_pure_iff.mpr ⟨rfl, rfl⟩⟩

/-- A table of notes. -/
def noteModel : Model :=
  { (default : Model) with
    name := "Note"
    table := "note"
    columns := [(Field.new "id" .integer).primaryKey, Field.new "text" .string]
    keyField := (Field.new "id" .integer).primaryKey }

/-- The service of notes, with conditional requests. -/
def noteService : Service :=
  { registry := ⟨[noteModel]⟩
    config := { conditionalRequestEnabled := true }
    backend := .sqlite
    model := noteModel }

/-- The only note. -/
def noteRow : StoredRow := fun name => if name = "id" then .bigInt (some 1) else .string (some "a")

/-- A request to delete the note as it is. -/
def noteDeletion : ItemRequest := .delete "1" [("if-match", noteService.currentTag (noteModel.recordOf noteRow))]

/-- A database with that note. -/
def noteDb : Database := fun table => if table = "note" then [noteRow] else []

/-- The engine that keeps the notes. -/
def noteEngine : Engine := .plain [("note", ["id"])]

/-- The note is the only row with its key. -/
theorem matching_note : noteEngine.matching noteDb "note" (.all [noteModel.keyCondition (.bigInt (some 1))]) =
    noteDb "note" := by
  apply Engine.plain_matching_eq_self
  intro row hrow
  obtain rfl : row = noteRow := by simpa [noteDb] using hrow
  decide

/-- The request passes the check, since it names the tag of the note. -/
theorem checkPrecondition_note :
    noteService.checkPrecondition noteDeletion.headers (noteModel.recordOf noteRow) = .ok () := by
  apply (Service.checkPrecondition_eq_ok_iff rfl).mpr
  refine ⟨noteService.currentTag (noteModel.recordOf noteRow), ?_, ?_⟩
  · have hread := EntityTag.isReadable_of (noteService.canonical (noteModel.recordOf noteRow))
    simp only [Headers.text?, Headers.get?, noteDeletion, ItemRequest.headers, List.lookup_cons_self,
      Option.bind_some, Service.currentTag, hread, ↓reduceIte]
  · exact EntityTag.matchesStrong_iff.mpr (.inr (by simp [Service.currentTag, EntityTag.entries_of]))

/-- What is said when the note is deleted. -/
def noteLog : List Exchange :=
  let deletion : Statement := .delete "note" (.all [noteModel.keyCondition (.bigInt (some 1))])
  [.query (Rows.keyStatement noteModel (.bigInt (some 1))) (.ok [noteRow.cells ["id", "text"]]),
    .execute deletion (.ok (noteEngine.effect noteDb deletion))]

/-- The note is there and then it is gone. -/
theorem history_note : noteEngine.History noteDb noteLog (noteDb.set "note" []) := by
  have hselected : noteEngine.selected noteDb
      (Rows.oneStatement noteModel (.all [noteModel.keyCondition (.bigInt (some 1))])) = [noteRow] :=
    Engine.selected_of_matching_singleton matching_note rfl rfl
  have hnext : noteEngine.next noteDb (.delete "note" (.all [noteModel.keyCondition (.bigInt (some 1))])) =
      noteDb.set "note" [] := (Engine.next_of_matching_all matching_note []).2
  have hrows : noteEngine.rows noteDb (Rows.keyStatement noteModel (.bigInt (some 1))) =
      [noteRow.cells ["id", "text"]] := by
    simp only [Rows.keyStatement, Engine.rows, hselected]
    rfl
  refine ⟨noteDb, ?_, noteDb.set "note" [], ?_, rfl⟩
  · rw [← hrows]
    exact .rows (by simp [Engine.permits, Rows.keyStatement, Statement.isWrite])
  · rw [← hnext]
    apply Engine.Answers.effect
    intro _
    rw [hnext]
    simp [noteEngine, Engine.plain, Engine.keepsKeys]

/-- One client at this database. -/
def noteWorld : World (Except ApiError Reply) := ⟨noteDb, [(noteDeletion.handler noteService).run]⟩

/-- The note is deleted, and the theorem says of this that no update is lost. -/
theorem no_lost_update_of_noteDeletion :
    (noteWorld.Transacts noteEngine 0 noteLog .commit (.done (.ok (Reply.empty 204))) (noteDb.set "note" []) ∧
      ∃ x ∈ noteLog, x.isRewrite = true) ∧
    WritesOnlyOnMatch noteService noteDeletion ∧ RefusesOtherwise noteService noteDeletion ∧
      CommitsOnlyCurrent noteService noteDeletion noteEngine noteWorld := by
  have hkey : noteModel.keyValue? "1" = some (.bigInt (some 1)) := by decide +kernel
  refine ⟨⟨⟨⟨_, rfl, ?_⟩, history_note⟩, _, List.mem_cons_of_mem _ List.mem_cons_self, rfl⟩, ?_⟩
  · exact says_delete_of_checked hkey checkPrecondition_note
  · refine no_lost_update rfl (Engine.plain_enforces (by decide)) ?_ .refl
    exact List.pairwise_singleton _ noteRow

end ItemRequest

end RestTables
