import RestTables.Proofs.Rows.OneRow
import RestTables.Proofs.Service.Transaction

/-
Module: RestTables.Proofs.Service.Course
Purpose: All that can happen when a row is replaced, changed or deleted, whatever the database answers. The row
  is looked for first, its entity tag is checked next, and only then may one statement change it.
Main exports: Rows.WriteThenReads, Service.says_guarded_cases, ItemRequest.Outset, ItemRequest.outset_of_says,
  ItemRequest.Course, ItemRequest.course_of_path, ItemRequest.exists_of_isRewrite
-/

namespace RestTables

open Sql Dialogue

namespace Rows

/-- The row with a key is changed or removed once or not at all, and then no rows are changed. -/
inductive WriteThenReads (m : Model) (key : Value) : List Exchange → Prop
  | reads {log : List Exchange} (quiet : ∀ x ∈ log, x.isWrite = false) : WriteThenReads m key log
  | write {s : Statement} {r : Except StorageError Effect} {log : List Exchange} (write : KeyWrite m key s)
      (quiet : ∀ x ∈ log, x.isWrite = false) : WriteThenReads m key (.execute s r :: log)

variable {m : Model} {key : Value} {log : List Exchange}

/-- Further reading changes nothing. -/
theorem WriteThenReads.append {more : List Exchange} (h : WriteThenReads m key log)
    (hmore : ∀ x ∈ more, x.isWrite = false) : WriteThenReads m key (log ++ more) := by
  cases h with
  | reads quiet => exact .reads fun x hx => (List.mem_append.mp hx).elim (quiet x) (hmore x)
  | write write quiet => exact .write write fun x hx => (List.mem_append.mp hx).elim (quiet x) (hmore x)

/-- What changes or removes rows there is the write of the row with the key, and it comes first. -/
theorem WriteThenReads.exists_of_isRewrite {x : Exchange} (h : WriteThenReads m key log) (hx : x ∈ log)
    (hrewrite : x.isRewrite = true) :
    ∃ s r rest, x = .execute s r ∧ KeyWrite m key s ∧ log = x :: rest ∧ ∀ y ∈ rest, y.isWrite = false := by
  have hwrite := Exchange.isWrite_of_isRewrite hrewrite
  cases h with
  | reads quiet => simp [quiet x hx] at hwrite
  | write write quiet =>
    rcases List.mem_cons.mp hx with rfl | hrest
    · exact ⟨_, _, _, rfl, write, rfl, quiet⟩
    · simp [quiet x hrest] at hwrite

/-- An insert changes no row that is there. -/
theorem not_isRewrite_insert {b : Backend} {row : List (String × Value)} {a : Except StorageError Record}
    (h : Says (insert b m row).run log a) : ∀ x ∈ log, x.isRewrite = false := by
  obtain ⟨x, rest, rfl, hx, hrest⟩ := says_insert h
  intro y hy
  rcases List.mem_cons.mp hy with rfl | hy
  · simp [Exchange.isRewrite, hx, insertStatement, Statement.isRewrite]
  · apply Bool.eq_false_iff.mpr
    intro hrewrite
    have hwrite := Exchange.isWrite_of_isRewrite hrewrite
    simp [(hrest y hy).2] at hwrite

/-- An update is such a write, or nothing. -/
theorem writeThenReads_update {changes : List (String × Value)} {a : Except StorageError Unit}
    (h : Says (update m key changes).run log a) : WriteThenReads m key log := by
  rcases says_update_iff.mp h with ⟨-, rfl, -⟩ | ⟨-, r, rfl, -⟩
  · exact .reads (by simp)
  · exact .write (.update changes) (by simp)

/-- A deletion is such a write. -/
theorem writeThenReads_delete {a : Except StorageError Nat} (h : Says (delete m key).run log a) :
    WriteThenReads m key log := by
  obtain ⟨r, rfl, -⟩ := says_delete_iff.mp h
  exact .write .delete (by simp)

end Rows

namespace Service

variable {s : Service} {key : Value} {log : List Exchange}

/-- An update and the reading of the row behind it. -/
theorem writeThenReads_updateRow {id : String} {changes : List (String × Value)} {a : Except ApiError Record}
    (h : Says (s.updateRow id key changes).run log a) : Rows.WriteThenReads s.model key log := by
  rcases says_except_bind_iff.mp h with ⟨first, _, second, rfl, hfirst, hsecond⟩ | ⟨e, -, hfirst⟩
  · obtain ⟨r, hr, -⟩ := Handler.says_ofSession_iff.mp hfirst
    exact (Rows.writeThenReads_update hr).append ((s.within_requireRow id).not_isWrite hsecond)
  · obtain ⟨r, hr, -⟩ := Handler.says_ofSession_iff.mp hfirst
    exact Rows.writeThenReads_update hr

/-- An insert changes no row that is there. -/
theorem not_isRewrite_insertRow (s : Service) {row : List (String × Value)} {a : Except ApiError Record}
    (h : Says (s.insertRow row).run log a) : ∀ x ∈ log, x.isRewrite = false := by
  obtain ⟨r, hr, -⟩ := Handler.says_ofSession_iff.mp h
  exact Rows.not_isRewrite_insert hr

/-- The row is looked for. Where there is one, the entity tag is checked before anything is done with it. -/
def guarded (s : Service) (id : String) (headers : Headers) (absent : Handler Reply)
    (present : Record → Handler Reply) : Handler Reply := do
  match ← Handler.ofSession (Rows.findByKey s.model id) with
  | none => absent
  | some existing => do
    Handler.ofExcept (s.checkPrecondition headers existing)
    present existing

/-- The row cannot be read, or is not there, or does not pass the check, or is dealt with. -/
theorem says_guarded_cases {id : String} {headers : Headers} {absent : Handler Reply}
    {present : Record → Handler Reply} {a : Except ApiError Reply} (hkey : s.model.keyValue? id = some key)
    (h : Says (s.guarded id headers absent present).run log a) :
    (∃ e, log = [.query (Rows.keyStatement s.model key) (.error e)] ∧ a = .error (ApiError.ofStorage e)) ∨
    (∃ body, log = .query (Rows.keyStatement s.model key) (.ok []) :: body ∧ Says absent.run body a) ∨
    ∃ cells more,
      (∃ e, log = [.query (Rows.keyStatement s.model key) (.ok (cells :: more))] ∧
        s.checkPrecondition headers (Rows.ofCells s.model.columns cells) = .error e ∧ a = .error e) ∨
      ∃ body, log = .query (Rows.keyStatement s.model key) (.ok (cells :: more)) :: body ∧
        s.checkPrecondition headers (Rows.ofCells s.model.columns cells) = .ok () ∧
        Says (present (Rows.ofCells s.model.columns cells)).run body a := by
  rcases says_except_bind_iff.mp h with ⟨first, found, second, rfl, hfirst, hsecond⟩ | ⟨e, rfl, hfirst⟩
  · obtain ⟨r, hr, hfound⟩ := Handler.says_ofSession_iff.mp hfirst
    obtain ⟨rows, rfl, rfl⟩ := (Rows.says_findByKey_iff hkey).mp hr
    cases rows with
    | error e => cases hfound
    | ok rows =>
      cases hfound
      cases rows with
      | nil => exact .inr (.inl ⟨second, rfl, hsecond⟩)
      | cons cells more =>
        rcases says_except_bind_iff.mp hsecond with ⟨check, u, rest, rfl, hcheck, hrest⟩ | ⟨e, rfl, hcheck⟩
        · obtain ⟨rfl, hok⟩ := Handler.says_ofExcept_iff.mp hcheck
          exact .inr (.inr ⟨cells, more, .inr ⟨rest, rfl, hok.symm, hrest⟩⟩)
        · obtain ⟨rfl, herror⟩ := Handler.says_ofExcept_iff.mp hcheck
          exact .inr (.inr ⟨cells, more, .inl ⟨e, rfl, herror.symm, rfl⟩⟩)
  · obtain ⟨r, hr, hfound⟩ := Handler.says_ofSession_iff.mp hfirst
    obtain ⟨rows, rfl, rfl⟩ := (Rows.says_findByKey_iff hkey).mp hr
    cases rows with
    | error e' =>
      cases hfound
      exact .inl ⟨e', rfl, rfl⟩
    | ok rows => cases hfound

/-- A row that must be there and is checked. -/
theorem requireRow_bind_eq_guarded (id : String) (headers : Headers) (present : Record → Handler Reply) :
    (s.requireRow id >>= fun existing =>
      Handler.ofExcept (s.checkPrecondition headers existing) >>= fun _ => present existing) =
      s.guarded id headers (throw (s.notFound id)) present := by
  unfold requireRow guarded
  rw [LawfulMonad.bind_assoc]
  refine congrArg _ (funext fun r => ?_)
  cases r with
  | none => rfl
  | some r => rfl

end Service

namespace ItemRequest

/-! ## The outset -/

/-- How a request sets out. It is refused by what it says, or its row is looked for in a transaction with what was read
of it. -/
inductive Outset (s : Service) : ItemRequest → List Exchange → Except ApiError Reply → Prop
  /-- The id is no key. -/
  | keyless {q : ItemRequest} {e : ApiError} (key_eq : s.requireKey q.id = .error e) : Outset s q [] (.error e)
  /-- The body is no object. -/
  | malformed {q : ItemRequest} {body : List UInt8} {e : ApiError} (data_eq : Service.bodyObject body = .error e) :
    Outset s q [] (.error e)
  /-- The members of the body are not those of a whole row. -/
  | incomplete {q : ItemRequest} {data : Json.Object} {omitted : List String} {e : ApiError}
    (row_eq : s.bindComplete data omitted = .error e) : Outset s q [] (.error e)
  /-- The members of the body are not those of a row. -/
  | unassignable {q : ItemRequest} {data : Json.Object} {e : ApiError} (changes_eq : s.bindPartial data = .error e) :
    Outset s q [] (.error e)
  | replaces {id : String} {headers : Headers} {body : List UInt8} {key : Value} {data : Json.Object}
    {row : List (String × Value)} {log : List Exchange} {a : Except ApiError Reply} (key_eq : s.requireKey id = .ok key)
    (data_eq : Service.bodyObject body = .ok data)
    (row_eq : s.bindComplete (data.filter (·.1 != s.model.keyField.name)) [s.model.keyField.name] = .ok row)
    (said : Says (Handler.transaction (s.guarded id headers
      ((s.itemReply · 201 true) <$> s.insertRow (row ++ [(s.model.keyField.name, key)]))
      fun _ => (s.itemReply · 200 false) <$> s.updateRow id key row)).run log a) :
    Outset s (.replace id headers body) log a
  | modifies {id : String} {headers : Headers} {body : List UInt8} {key : Value} {data : Json.Object}
    {changes : List (String × Value)} {log : List Exchange} {a : Except ApiError Reply}
    (key_eq : s.requireKey id = .ok key) (data_eq : Service.bodyObject body = .ok data)
    (changes_eq : s.bindPartial (data.filter (·.1 != s.model.keyField.name)) = .ok changes)
    (said : Says (Handler.transaction (s.guarded id headers (throw (s.notFound id))
      fun _ => (s.itemReply · 200 false) <$> s.updateRow id key changes)).run log a) :
    Outset s (.modify id headers body) log a
  | deletes {id : String} {headers : Headers} {key : Value} {log : List Exchange} {a : Except ApiError Reply}
    (key_eq : s.requireKey id = .ok key)
    (said : Says (Handler.transaction (s.guarded id headers (throw (s.notFound id))
      fun _ => (fun _ => Reply.empty 204) <$> discard (Handler.ofSession (Rows.delete s.model key)))).run log a) :
    Outset s (.delete id headers) log a

/-- Every request sets out in one of these ways. -/
theorem outset_of_says {s : Service} {q : ItemRequest} {log : List Exchange} {a : Except ApiError Reply}
    (h : Says (q.handler s).run log a) : Outset s q log a := by
  cases q with
  | replace id headers body =>
    rcases Handler.says_ofExcept_bind_iff.mp h with ⟨e, he, rfl, rfl⟩ | ⟨key, hkey, h⟩
    · exact .keyless he
    rcases Handler.says_ofExcept_bind_iff.mp h with ⟨e, he, rfl, rfl⟩ | ⟨data, hdata, h⟩
    · exact .malformed he
    rcases Handler.says_ofExcept_bind_iff.mp h with ⟨e, he, rfl, rfl⟩ | ⟨row, hrow, h⟩
    · exact .incomplete he
    exact .replaces hkey hdata hrow h
  | modify id headers body =>
    rcases Handler.says_ofExcept_bind_iff.mp h with ⟨e, he, rfl, rfl⟩ | ⟨key, hkey, h⟩
    · exact .keyless he
    rcases Handler.says_ofExcept_bind_iff.mp h with ⟨e, he, rfl, rfl⟩ | ⟨data, hdata, h⟩
    · exact .malformed he
    rcases Handler.says_ofExcept_bind_iff.mp h with ⟨e, he, rfl, rfl⟩ | ⟨changes, hchanges, h⟩
    · exact .unassignable he
    rw [Service.requireRow_bind_eq_guarded] at h
    exact .modifies hkey hdata hchanges h
  | delete id headers =>
    rcases Handler.says_ofExcept_bind_iff.mp h with ⟨e, he, rfl, rfl⟩ | ⟨key, hkey, h⟩
    · exact .keyless he
    rw [Service.requireRow_bind_eq_guarded] at h
    exact .deletes hkey h

/-! ## The course -/

/-- The marks of a transaction, what is looked for in it first, and what follows. -/
def transactionLog (m : Model) (key : Value) (found : Except StorageError (List Cells)) (body : List Exchange)
    (a : Except ApiError Reply) : List Exchange :=
  .mark .begin :: .query (Rows.keyStatement m key) found :: body ++ [.mark (Mark.ending a)]

/-- Transactions that begin with the same look at a row found the same rows. -/
theorem eq_of_transactionLog {m : Model} {key key' : Value} {found found' : Except StorageError (List Cells)}
    {rest body : List Exchange} {a : Except ApiError Reply}
    (h : .mark .begin :: .query (Rows.keyStatement m key) found :: rest = transactionLog m key' found' body a) :
    found = found' ∧ rest = body ++ [.mark (Mark.ending a)] := by
  simp only [transactionLog, List.cons_append, List.cons.injEq, Exchange.query.injEq, true_and] at h
  exact ⟨h.1.2, h.2⟩

/-- What can happen to a request, with all that is said and answered. -/
inductive Course (s : Service) (q : ItemRequest) : List Exchange → Except ApiError Reply → Prop
  /-- It is refused before anything is said. -/
  | refused (e : ApiError) : Course s q [] (.error e)
  /-- The row cannot be read. -/
  | unread {key : Value} {e : StorageError} (key_eq : s.model.keyValue? q.id = some key) :
    Course s q (transactionLog s.model key (.error e) [] (.error (ApiError.ofStorage e)))
      (.error (ApiError.ofStorage e))
  /-- There is no row, and no row that is there is changed. -/
  | absent {key : Value} {body : List Exchange} {a : Except ApiError Reply}
    (key_eq : s.model.keyValue? q.id = some key) (additive : ∀ x ∈ body, x.isRewrite = false) :
    Course s q (transactionLog s.model key (.ok []) body a) a
  /-- There is a row, but the precondition is not met. -/
  | unmet {key : Value} {cells : Cells} {more : List Cells} {e : ApiError}
    (key_eq : s.model.keyValue? q.id = some key)
    (check : s.checkPrecondition q.headers (Rows.ofCells s.model.columns cells) = .error e) :
    Course s q (transactionLog s.model key (.ok (cells :: more)) [] (.error e)) (.error e)
  /-- There is a row, the precondition is met, and one statement may change the row. -/
  | met {key : Value} {cells : Cells} {more : List Cells} {body : List Exchange} {a : Except ApiError Reply}
    (key_eq : s.model.keyValue? q.id = some key)
    (check : s.checkPrecondition q.headers (Rows.ofCells s.model.columns cells) = .ok ())
    (body_eq : Rows.WriteThenReads s.model key body) :
    Course s q (transactionLog s.model key (.ok (cells :: more)) body a) a

variable {s : Service} {q : ItemRequest} {log : List Exchange} {a : Except ApiError Reply}

/-- A request that is refused changes nothing. -/
theorem not_isRewrite_throw {e : ApiError} :
    ∀ log a, Says (throw e : Handler Reply).run log a → ∀ x ∈ log, x.isRewrite = false := by
  intro log a hs
  obtain ⟨rfl, -⟩ := says_throw_iff.mp hs
  simp

/-- A transaction that looks for the row and checks it first takes one of these courses. -/
theorem course_of_guarded {key : Value} {absent : Handler Reply} {present : Record → Handler Reply}
    (hkey : s.requireKey q.id = .ok key)
    (habsent : ∀ log a, Says absent.run log a → ∀ x ∈ log, x.isRewrite = false)
    (hpresent : ∀ r log a, Says (present r).run log a → Rows.WriteThenReads s.model key log)
    (h : Says (Handler.transaction (s.guarded q.id q.headers absent present)).run log a) : Course s q log a := by
  have key_eq := Service.requireKey_eq_ok_iff.mp hkey
  obtain ⟨body, hbody, rfl⟩ := Handler.says_transaction_iff.mp h
  rcases Service.says_guarded_cases key_eq hbody with ⟨e, rfl, rfl⟩ | ⟨rest, rfl, hrest⟩ |
    ⟨cells, more, ⟨e, rfl, hcheck, rfl⟩ | ⟨rest, rfl, hcheck, hrest⟩⟩
  · exact .unread key_eq
  · exact .absent key_eq (habsent rest a hrest)
  · exact .unmet key_eq hcheck
  · exact .met key_eq hcheck (hpresent _ rest a hrest)

/-- Whatever the database answers, a request takes one of these courses. -/
theorem course_of_path (h : Says (q.handler s).run log a) : Course s q log a := by
  cases outset_of_says h with
  | keyless | malformed | incomplete | unassignable => exact .refused _
  | replaces key_eq _ _ said =>
    refine course_of_guarded key_eq (fun log a hs => ?_) (fun _ log a hs => ?_) said
    · obtain ⟨b, hb, -⟩ := says_except_map_iff.mp hs
      exact s.not_isRewrite_insertRow hb
    · obtain ⟨b, hb, -⟩ := says_except_map_iff.mp hs
      exact Service.writeThenReads_updateRow hb
  | modifies key_eq _ _ said =>
    refine course_of_guarded key_eq not_isRewrite_throw (fun _ log a hs => ?_) said
    obtain ⟨b, hb, -⟩ := says_except_map_iff.mp hs
    exact Service.writeThenReads_updateRow hb
  | deletes key_eq said =>
    refine course_of_guarded key_eq not_isRewrite_throw (fun _ log a hs => ?_) said
    obtain ⟨b, hb, -⟩ := says_except_map_iff.mp hs
    obtain ⟨b', hb', -⟩ := says_discard_iff.mp hb
    obtain ⟨r', hr', -⟩ := Handler.says_ofSession_iff.mp hb'
    exact Rows.writeThenReads_delete hr'

/-- What is said in a course is said in its transaction, and only a met precondition lets a row be changed. -/
theorem Course.of_isRewrite {log : List Exchange} {a : Except ApiError Reply} {x : Exchange}
    (h : Course s q log a) (hx : x ∈ log) (hrewrite : x.isRewrite = true) :
    ∃ key cells more statement r rest,
      s.model.keyValue? q.id = some key ∧
      s.checkPrecondition q.headers (Rows.ofCells s.model.columns cells) = .ok () ∧
      x = .execute statement r ∧ Rows.KeyWrite s.model key statement ∧ (∀ y ∈ rest, y.isWrite = false) ∧
      log = transactionLog s.model key (.ok (cells :: more)) (x :: rest) a := by
  have hmark : ∀ m, (Exchange.mark m).isRewrite = false := fun m => rfl
  have hquery : ∀ key r, (Exchange.query (Rows.keyStatement s.model key) r).isRewrite = false := fun key r => rfl
  -- A rewrite is neither a mark of the transaction nor the look-up at its start.
  have hbody : ∀ {key found body}, x ∈ transactionLog s.model key found body a → x ∈ body := by
    intro key found body hmem
    simp only [transactionLog, List.cons_append, List.mem_cons, List.mem_append, List.not_mem_nil,
      or_false] at hmem
    rcases hmem with rfl | rfl | hmem | rfl
    · simp [hmark] at hrewrite
    · simp [hquery] at hrewrite
    · exact hmem
    · simp [hmark] at hrewrite
  cases h with
  | refused e => simp at hx
  | unread key_eq => simpa using hbody hx
  | absent key_eq additive => simp [additive x (hbody hx)] at hrewrite
  | unmet key_eq check => simpa using hbody hx
  | met key_eq check body_eq =>
    obtain ⟨statement, r, rest, rfl, hwrite, rfl, hquiet⟩ := body_eq.exists_of_isRewrite (hbody hx) hrewrite
    exact ⟨_, _, _, statement, r, rest, key_eq, check, rfl, hwrite, hquiet, rfl⟩

/-- A statement of a request that changes or removes a row is the write of the row with the key. Before it the
row is read and checked, and after it nothing is written. -/
theorem exists_of_isRewrite {pre post : List Exchange} {x : Exchange}
    (h : Says (q.handler s).run (pre ++ x :: post) a) (hrewrite : x.isRewrite = true) :
    ∃ key cells more,
      s.model.keyValue? q.id = some key ∧
      s.checkPrecondition q.headers (Rows.ofCells s.model.columns cells) = .ok () ∧
      pre = [.mark .begin, .query (Rows.keyStatement s.model key) (.ok (cells :: more))] ∧
      (∃ statement r, x = .execute statement r ∧ Rows.KeyWrite s.model key statement) ∧
      ∀ y ∈ post, y.isWrite = false := by
  obtain ⟨key, cells, more, statement, r, rest, hkey, hcheck, hx, hwrite, hquiet, hlog⟩ :=
    (course_of_path h).of_isRewrite (by simp) hrewrite
  have hend : (Exchange.mark (Mark.ending a)).isWrite = false := rfl
  have hafter : ∀ y ∈ rest ++ [.mark (Mark.ending a)], y.isWrite = false :=
    List.forall_mem_append.mpr ⟨hquiet, by simpa using hend⟩
  have hbefore : ∀ y ∈ [Exchange.mark .begin, .query (Rows.keyStatement s.model key) (.ok (cells :: more))],
      y.isWrite = false := by
    simp [Exchange.isWrite, Exchange.statement?, Rows.keyStatement, Statement.isWrite]
  have hsplit : pre ++ x :: post =
      [.mark .begin, .query (Rows.keyStatement s.model key) (.ok (cells :: more))] ++
        x :: (rest ++ [.mark (Mark.ending a)]) := by
    simpa [transactionLog] using hlog
  obtain ⟨rfl, -, rfl⟩ := List.append_cons_inj_of_unique (Exchange.isWrite_of_isRewrite hrewrite) hbefore hafter
    hsplit
  exact ⟨key, cells, more, hkey, hcheck, rfl, ⟨statement, r, hx, hwrite⟩, hafter⟩

end ItemRequest

end RestTables
