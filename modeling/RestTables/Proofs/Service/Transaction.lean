import RestTables.Proofs.Rows.Statements
import RestTables.Service.Write

/-
Module: RestTables.Proofs.Service.Transaction
Purpose: The verbs that change rows say nothing, or they say all in one transaction, which ends as the reply
  does: with a commit when there is one, with a rollback when there is a refusal. No more than one statement
  in it changes rows, whatever the database answers.
Main exports: Handler.says_transaction_iff, Handler.Transactional, Service.transactional_create,
  Service.transactional_replace, Service.transactional_modify, Service.transactional_delete
-/

namespace RestTables

open Dialogue

/-- The mark that ends a transaction with some result. -/
def Mark.ending : Except ε α → Mark
  | .ok _ => .commit
  | .error _ => .rollback

namespace Handler

variable {h : Handler α} {log : List Exchange} {a : Except ApiError α}

/-- A choice that has been made already needs no database. -/
theorem says_ofExcept_iff {e : Except ApiError α} :
    Says (ofExcept e).run log a ↔ log = [] ∧ a = e := says_done_iff

theorem run_ofExcept_ok_bind (b : β) (f : β → Handler α) : (ofExcept (.ok b) >>= f).run = (f b).run := rfl

theorem run_ofExcept_error_bind (e : ApiError) (f : β → Handler α) :
    (ofExcept (.error e) >>= f).run = .done (.error e) := rfl

/-- A refusal tells the failure of a statement in other words. -/
theorem says_ofSession_iff {d : Session α} :
    Says (ofSession d).run log a ↔ ∃ r, Says d.run log r ∧ a = r.mapError ApiError.ofStorage := says_adapt_iff

/-- A transaction brackets what is said in it, and ends as its result does. -/
theorem says_transaction_iff :
    Says (transaction h).run log a ↔
      ∃ body, Says h.run body a ∧ log = .mark .begin :: body ++ [.mark (Mark.ending a)] := by
  unfold transaction
  simp only [ExceptT.run_mk, says_mark_iff, says_bind_iff]
  constructor
  · rintro ⟨_, rfl, body, r, end_, rfl, hbody, hs⟩
    cases r with
    | ok b =>
      obtain ⟨_, rfl, hdone⟩ := says_mark_iff.mp hs
      obtain ⟨rfl, rfl⟩ := says_done_iff.mp hdone
      exact ⟨body, hbody, rfl⟩
    | error e =>
      obtain ⟨_, rfl, hdone⟩ := says_mark_iff.mp hs
      obtain ⟨rfl, rfl⟩ := says_done_iff.mp hdone
      exact ⟨body, hbody, rfl⟩
  · rintro ⟨body, hbody, rfl⟩
    refine ⟨_, rfl, body, a, [.mark (Mark.ending a)], rfl, hbody, ?_⟩
    cases a with
    | ok b => exact says_mark_iff.mpr ⟨[], rfl, says_done_iff.mpr ⟨rfl, rfl⟩⟩
    | error e => exact says_mark_iff.mpr ⟨[], rfl, says_done_iff.mpr ⟨rfl, rfl⟩⟩

/-- What is decided beforehand says nothing, and refuses or goes on. -/
theorem says_ofExcept_bind_iff {e : Except ApiError β} {f : β → Handler α} :
    Says (ofExcept e >>= f).run log a ↔
      (∃ e', e = .error e' ∧ log = [] ∧ a = .error e') ∨ ∃ b, e = .ok b ∧ Says (f b).run log a := by
  cases e with
  | error e =>
    rw [run_ofExcept_error_bind]
    simp
  | ok b =>
    rw [run_ofExcept_ok_bind]
    simp

theorem says_ofExcept_bind {e : Except ApiError β} {f : β → Handler α}
    (h : Says (ofExcept e >>= f).run log a) :
    (log = [] ∧ ∃ e', a = .error e') ∨ ∃ b, e = .ok b ∧ Says (f b).run log a :=
  (says_ofExcept_bind_iff.mp h).imp_left fun ⟨e', _, hlog, ha⟩ => ⟨hlog, e', ha⟩

theorem within_ofExcept (e : Except ApiError α) (n : Nat) : Within (ofExcept e).run n := within_done

theorem within_ofSession {d : Session α} {n : Nat} (hd : Within d.run n) : Within (ofSession d).run n := by
  intro log a hs
  obtain ⟨r, hr, -⟩ := says_ofSession_iff.mp hs
  exact hd log r hr

/-! ## Transactions -/

/-- Nothing is said and the request is refused, or all is said in one transaction that ends as the result
does and changes rows with no more than one statement. -/
def Transactional (h : Handler α) : Prop :=
  ∀ log a, Says h.run log a →
    (log = [] ∧ ∃ e, a = .error e) ∨
    ∃ body, log = .mark .begin :: body ++ [.mark (Mark.ending a)] ∧ (∀ x ∈ body, x.isMark = false) ∧
      body.countP Exchange.isWrite ≤ 1

/-- What writes no more than once can be done in a transaction. -/
theorem transactional_transaction (hh : Within h.run 1) : Transactional (transaction h) := by
  intro log a hs
  obtain ⟨body, hbody, rfl⟩ := says_transaction_iff.mp hs
  obtain ⟨hmark, hcount⟩ := hh body a hbody
  exact .inr ⟨body, rfl, hmark, hcount⟩

/-- What can be refused beforehand is. -/
theorem Transactional.ofExcept_bind {e : Except ApiError β} {f : β → Handler α}
    (hf : ∀ b, Transactional (f b)) : Transactional (ofExcept e >>= f) := by
  intro log a hs
  rcases says_ofExcept_bind hs with hrefused | ⟨b, -, hrest⟩
  · exact .inl hrefused
  · exact hf b log a hrest

/-- Something that is made of the result afterwards. -/
theorem Transactional.map {f : α → β} (hh : Transactional h) : Transactional (f <$> h) := by
  intro log b hs
  obtain ⟨a, ha, rfl⟩ := says_except_map_iff.mp hs
  rcases hh log a ha with ⟨rfl, e, rfl⟩ | ⟨body, rfl, hbody⟩
  · exact .inl ⟨rfl, e, rfl⟩
  · refine .inr ⟨body, ?_, hbody⟩
    cases a <;> rfl

end Handler

namespace Service

/-- A part of a path is taken for the key that it stands for. -/
theorem requireKey_eq_ok_iff {s : Service} {id : String} {key : Value} :
    s.requireKey id = .ok key ↔ s.model.keyValue? id = some key := by
  unfold requireKey
  split
  · next hkey => simp [hkey]
  · next hkey => simp [hkey]

variable (s : Service)

theorem within_insertRow (row : List (String × Value)) : Within (s.insertRow row).run 1 :=
  Handler.within_ofSession (Rows.within_insert s.backend s.model row)

theorem within_requireRow (id : String) : Within (s.requireRow id).run 0 := by
  unfold requireRow
  apply Within.except_bind (n := 0) (k := 0) (Handler.within_ofSession (Rows.within_findByKey s.model id))
  intro r
  cases r with
  | none => exact within_done
  | some r => exact within_done

theorem within_updateRow (id : String) (key : Value) (changes : List (String × Value)) :
    Within (s.updateRow id key changes).run 1 :=
  Within.except_bind (n := 1) (k := 0) (Handler.within_ofSession (Rows.within_update s.model key changes))
    fun _ => s.within_requireRow id

/-- A new row is looked for before it is inserted. -/
theorem transactional_create (body : List UInt8) : (s.create body).Transactional := by
  unfold create
  apply Handler.Transactional.ofExcept_bind
  intro data
  apply Handler.Transactional.ofExcept_bind
  intro row
  rw [bind_pure_comp]
  apply Handler.Transactional.map
  apply Handler.transactional_transaction
  apply Within.except_bind (n := 0) (k := 1) (Handler.within_ofSession (Rows.within_findMatching s.model row))
  intro existing
  cases existing with
  | none => exact s.within_insertRow row
  | some r => exact within_done

/-- A row is replaced, or inserted where there is none. -/
theorem transactional_replace (id : String) (headers : Headers) (body : List UInt8) :
    (s.replace id headers body).Transactional := by
  unfold replace
  apply Handler.Transactional.ofExcept_bind
  intro key
  apply Handler.Transactional.ofExcept_bind
  intro data
  apply Handler.Transactional.ofExcept_bind
  intro row
  apply Handler.transactional_transaction
  apply Within.except_bind (n := 0) (k := 1) (Handler.within_ofSession (Rows.within_findByKey s.model id))
  intro existing
  cases existing with
  | none => exact Within.except_bind (n := 1) (k := 0) (s.within_insertRow _) fun _ => within_done
  | some r =>
    apply Within.except_bind (n := 0) (k := 1) (Handler.within_ofExcept _ 0)
    intro _
    exact Within.except_bind (n := 1) (k := 0) (s.within_updateRow id key row) fun _ => within_done

/-- A row is changed where there is one. -/
theorem transactional_modify (id : String) (headers : Headers) (body : List UInt8) :
    (s.modify id headers body).Transactional := by
  unfold modify
  apply Handler.Transactional.ofExcept_bind
  intro key
  apply Handler.Transactional.ofExcept_bind
  intro data
  apply Handler.Transactional.ofExcept_bind
  intro changes
  apply Handler.transactional_transaction
  apply Within.except_bind (n := 0) (k := 1) (s.within_requireRow id)
  intro existing
  apply Within.except_bind (n := 0) (k := 1) (Handler.within_ofExcept _ 0)
  intro _
  exact Within.except_bind (n := 1) (k := 0) (s.within_updateRow id key changes) fun _ => within_done

/-- A row is deleted where there is one. -/
theorem transactional_delete (id : String) (headers : Headers) : (s.delete id headers).Transactional := by
  unfold delete
  apply Handler.Transactional.ofExcept_bind
  intro key
  apply Handler.transactional_transaction
  apply Within.except_bind (n := 0) (k := 1) (s.within_requireRow id)
  intro existing
  apply Within.except_bind (n := 0) (k := 1) (Handler.within_ofExcept _ 0)
  intro _
  refine Within.except_bind (n := 1) (k := 0) ?_ fun _ => within_done
  intro log a hs
  obtain ⟨r, hr, -⟩ := says_discard_iff.mp hs
  exact Handler.within_ofSession (Rows.within_delete s.model key) log r hr

end Service

/-! ## Requests -/

/-- A request that changes the row with an id. -/
inductive ItemRequest where
  | replace (id : String) (headers : Headers) (body : List UInt8)
  | modify (id : String) (headers : Headers) (body : List UInt8)
  | delete (id : String) (headers : Headers)

namespace ItemRequest

/-- The id of the row. -/
def id : ItemRequest → String
  | .replace id _ _ | .modify id _ _ | .delete id _ => id

/-- The header fields. -/
def headers : ItemRequest → Headers
  | .replace _ headers _ | .modify _ headers _ | .delete _ headers => headers

/-- What is done for it. -/
def handler (s : Service) : ItemRequest → Handler Reply
  | .replace id headers body => s.replace id headers body
  | .modify id headers body => s.modify id headers body
  | .delete id headers => s.delete id headers

end ItemRequest

/-- A request that changes rows. -/
inductive WriteRequest where
  | create (body : List UInt8)
  | item (q : ItemRequest)

namespace WriteRequest

/-- What is done for it. -/
def handler (s : Service) : WriteRequest → Handler Reply
  | .create body => s.create body
  | .item q => q.handler s

theorem transactional (s : Service) (q : WriteRequest) : (q.handler s).Transactional := by
  match q with
  | .create body => exact s.transactional_create body
  | .item (.replace id headers body) => exact s.transactional_replace id headers body
  | .item (.modify id headers body) => exact s.transactional_modify id headers body
  | .item (.delete id headers) => exact s.transactional_delete id headers

end WriteRequest

end RestTables
