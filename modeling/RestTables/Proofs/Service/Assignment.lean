import RestTables.Proofs.Service.Repeat

/-
Module: RestTables.Proofs.Service.Assignment
Purpose: The statement by which a request changes rows. It gives values to the columns that the body names and to no
  others, and the key of a row is never changed: a row that is there is found by the key in the path, and a row that is
  put where there is none has that key, whatever key the body names.
Main exports: WriteRequest.Issues, WriteRequest.Issues.nodup, WriteRequest.countP_isWrite_item,
  WriteRequest.issues_what_is_given
-/

namespace RestTables

open Sql Dialogue

/-! ## How much is written -/

namespace Rows

variable {m : Model} {key : Value} {row changes : List (String × Value)} {log : List Exchange}

theorem countP_isWrite_insert {b : Backend} {a : Except StorageError Record} (h : Says (insert b m row).run log a) :
    log.countP Exchange.isWrite = 1 := by
  obtain ⟨x, rest, rfl, hx, hrest⟩ := says_insert h
  have hwrite : x.isWrite = true := by simp [Exchange.isWrite, hx, insertStatement, Statement.isWrite]
  have hnone : rest.countP Exchange.isWrite = 0 := by
    simpa [List.countP_eq_zero] using fun y hy => (hrest y hy).2
  rw [List.countP_cons_of_pos hwrite, hnone]

theorem countP_isWrite_update {a : Except StorageError Unit} (h : Says (update m key changes).run log a) :
    log.countP Exchange.isWrite = if changes = [] then 0 else 1 := by
  rcases says_update_iff.mp h with ⟨hnone, rfl, -⟩ | ⟨hsome, r, rfl, -⟩
  · rw [if_pos hnone, List.countP_nil]
  · rw [if_neg hsome]
    rfl

theorem countP_isWrite_delete {a : Except StorageError Nat} (h : Says (delete m key).run log a) :
    log.countP Exchange.isWrite = 1 := by
  obtain ⟨r, rfl, -⟩ := says_delete_iff.mp h
  rfl

end Rows

/-- A row is read, changed where there is anything to change, and read again. -/
theorem Service.countP_isWrite_updateRow {s : Service} {id : String} {key : Value} {changes : List (String × Value)}
    {log : List Exchange} {r : Record} (h : Says (s.updateRow id key changes).run log (.ok r)) :
    log.countP Exchange.isWrite = if changes = [] then 0 else 1 := by
  rcases says_except_bind_iff.mp h with ⟨first, _, second, rfl, hfirst, hsecond⟩ | ⟨e, hcontra, -⟩
  · obtain ⟨_, hupdate, -⟩ := Handler.says_ofSession_iff.mp hfirst
    have hread : second.countP Exchange.isWrite = 0 := by
      simpa [List.countP_eq_zero] using (s.within_requireRow id).not_isWrite hsecond
    rw [List.countP_append, Rows.countP_isWrite_update hupdate, hread, Nat.add_zero]
  · cases hcontra

/-! ## What is written -/

/-- The columns that a statement gives values to. -/
def Sql.Statement.assigned : Statement → List String
  | .insert _ row _ => row.map (·.1)
  | .update _ changes _ => changes.map (·.1)
  | _ => []

namespace WriteRequest

/-- The statement by which a request changes rows. -/
inductive Issues (s : Service) : WriteRequest → Statement → Prop
  /-- A new row has the columns that the body names. -/
  | insert {body : List UInt8} {data : Json.Object} {row : List (String × Value)}
    (taken : Service.bodyObject body = .ok data) (gives : s.model.Gives data row) :
    Issues s (.create body) (Rows.insertStatement s.model row)
  /-- A row that is put where there is none has the other columns that the body names, and the key in the path. -/
  | put {id : String} {headers : Headers} {body : List UInt8} {data : Json.Object} {key : Value}
    {row : List (String × Value)} (taken : Service.bodyObject body = .ok data)
    (key_eq : s.model.keyValue? id = some key)
    (gives : s.model.Gives (data.filter (·.1 != s.model.keyField.name)) row) :
    Issues s (.item (.replace id headers body)) (Rows.insertStatement s.model (row ++ [(s.model.keyField.name, key)]))
  /-- In the row with the key in the path the other columns that the body names are changed, if there are any. -/
  | update {q : ItemRequest} {body : List UInt8} {data : Json.Object} {key : Value} {changes : List (String × Value)}
    (body_eq : q.body? = some body) (taken : Service.bodyObject body = .ok data)
    (key_eq : s.model.keyValue? q.id = some key)
    (gives : s.model.Gives (data.filter (·.1 != s.model.keyField.name)) changes) (some : changes ≠ []) :
    Issues s (.item q) (.update s.model.table changes (.all [s.model.keyCondition key]))
  /-- The row with the key in the path is deleted. -/
  | delete {id : String} {headers : Headers} {key : Value} (key_eq : s.model.keyValue? id = some key) :
    Issues s (.item (.delete id headers)) (.delete s.model.table (.all [s.model.keyCondition key]))

variable {s : Service} {q : WriteRequest} {st : Statement} {log : List Exchange} {reply : Reply}

/-- No column is given two values. -/
theorem Issues.nodup (h : q.Issues s st) : st.assigned.Nodup := by
  cases h with
  | insert taken gives => exact gives.nodup
  | @put _ _ _ _ key row taken key_eq gives =>
    -- The key in the body was dropped before that of the path was put behind.
    have hother : ∀ name ∈ row.map (·.1), name ≠ s.model.keyField.name := by
      rw [gives.names_eq]
      intro name hname
      obtain ⟨member, hmember, rfl⟩ := List.mem_map.mp hname
      exact bne_iff_ne.mp (List.mem_filter.mp hmember).2
    change ((row ++ [(s.model.keyField.name, key)]).map (·.1)).Nodup
    rw [List.map_append]
    exact List.nodup_append.mpr ⟨gives.nodup, List.nodup_singleton _, fun name hname other hkey => by
      rw [List.mem_singleton.mp hkey]
      exact hother name hname⟩
  | update body_eq taken key_eq gives some => exact gives.nodup
  | delete key_eq => exact List.nodup_nil

/-- Whatever the database answers, what changes rows is such a statement. -/
theorem only_issues (s : Service) (q : WriteRequest) :
    Only (Exchange.Sends fun st => st.isWrite = true → q.Issues s st) (q.handler s).run := by
  match q with
  | .create body =>
    refine Service.only_create_of (fun _ => nofun) fun data row hdata hrow => ⟨nofun, fun _ => ?_⟩
    exact .insert hdata (Service.gives_of_bindComplete (Service.nodup_keys_of_bodyObject hdata) hrow)
  | .item (.replace id headers body) =>
    refine Service.only_replace_of (fun _ => nofun) (fun key data row hid hdata hrow => ?_) headers
    have hgives := Service.gives_of_bindComplete (nodup_keys_filter (Service.nodup_keys_of_bodyObject hdata) _) hrow
    have hkey := Service.requireKey_eq_ok_iff.mp hid
    exact ⟨fun _ => .put hdata hkey hgives, fun hsome _ => .update rfl hdata hkey hgives hsome⟩
  | .item (.modify id headers body) =>
    refine Service.only_modify_of (fun _ => nofun) (fun key data changes hid hdata hchanges hsome _ => ?_) headers
    have hgives := Service.gives_of_bindPartial (nodup_keys_filter (Service.nodup_keys_of_bodyObject hdata) _) hchanges
    exact .update rfl hdata (Service.requireKey_eq_ok_iff.mp hid) hgives hsome
  | .item (.delete id headers) =>
    refine Service.only_delete_of (fun _ => nofun) (fun key hid _ => ?_) headers
    exact .delete (Service.requireKey_eq_ok_iff.mp hid)

/-! ## What is answered -/

/-- The body of a request names no column but the key. -/
def NamesOnlyKey (s : Service) (q : ItemRequest) : Prop :=
  ∃ body data, q.body? = some body ∧ Service.bodyObject body = .ok data ∧
    data.filter (·.1 != s.model.keyField.name) = []

theorem countP_isWrite_create {body : List UInt8} (h : Says (s.create body).run log (.ok reply)) :
    log.countP Exchange.isWrite = 1 := by
  rcases Handler.says_ofExcept_bind_iff.mp h with ⟨e, -, -, hcontra⟩ | ⟨data, hdata, h'⟩
  · cases hcontra
  rcases Handler.says_ofExcept_bind_iff.mp h' with ⟨e, -, -, hcontra⟩ | ⟨row, hrow, -⟩
  · cases hcontra
  rw [Service.run_create hdata hrow] at h
  obtain ⟨r, hr, hreply⟩ := says_except_map_iff.mp h
  obtain ⟨body, hbody, rfl⟩ := Handler.says_transaction_iff.mp hr
  rcases Service.says_insertUnlessThere_iff.mp hbody with ⟨e, -, rfl⟩ | ⟨cells, more, -, rfl⟩ | ⟨rest, r, rfl, hrest, -⟩
  · cases hreply
  · cases hreply
  · simp [Rows.countP_isWrite_insert hrest, Exchange.isWrite, Exchange.statement?, Service.likeStatement,
      Statement.isWrite]

/-- A row that is looked for before it is changed: nothing is changed in looking for it. -/
theorem countP_isWrite_guarded {id : String} {headers : Headers} {key : Value} {absent : Handler Reply}
    {present : Record → Handler Reply} (hkey : s.model.keyValue? id = some key)
    (h : Says (Handler.transaction (s.guarded id headers absent present)).run log (.ok reply)) :
    ∃ rest, log.countP Exchange.isWrite = rest.countP Exchange.isWrite ∧
      (Says absent.run rest (.ok reply) ∨ ∃ r, Says (present r).run rest (.ok reply)) := by
  obtain ⟨body, hbody, rfl⟩ := Handler.says_transaction_iff.mp h
  have hcount : ∀ found rest, (ItemRequest.transactionLog s.model key found rest (.ok reply)).countP Exchange.isWrite =
      rest.countP Exchange.isWrite := by
    intro found rest
    simp [ItemRequest.transactionLog, Exchange.isWrite, Exchange.statement?, Rows.keyStatement, Statement.isWrite]
  rcases Service.says_guarded_cases hkey hbody with ⟨e, -, hcontra⟩ | ⟨rest, rfl, hrest⟩ |
    ⟨cells, more, ⟨e, -, -, hcontra⟩ | ⟨rest, rfl, -, hrest⟩⟩
  · cases hcontra
  · exact ⟨rest, hcount _ _, .inl hrest⟩
  · cases hcontra
  · exact ⟨rest, hcount _ _, .inr ⟨_, hrest⟩⟩

theorem countP_isWrite_item {q : ItemRequest} (hq : q.isDeletion = false)
    (h : Says (q.handler s).run log (.ok reply)) :
    log.countP Exchange.isWrite = 1 ∨ log.countP Exchange.isWrite = 0 ∧ NamesOnlyKey s q := by
  obtain ⟨body, data, key, changes, absent, hbody, hdata, hgives, hassigns⟩ := ItemRequest.exists_assigns hq h
  rw [← q.withHeaders_headers, hassigns.handler_eq, Service.assigning] at h
  obtain ⟨rest, hcount, habsent | ⟨r, hpresent⟩⟩ := countP_isWrite_guarded hassigns.key_eq h
  · rcases hassigns.absent_eq with rfl | ⟨-, rfl⟩
    · obtain ⟨-, hcontra⟩ := says_throw_iff.mp habsent
      cases hcontra
    · rw [bind_pure_comp] at habsent
      obtain ⟨r, hinsert, -⟩ := says_except_map_iff.mp habsent
      obtain ⟨_, hinsert, -⟩ := Handler.says_ofSession_iff.mp hinsert
      exact .inl (hcount.trans (Rows.countP_isWrite_insert hinsert))
  · rw [bind_pure_comp] at hpresent
    obtain ⟨r, hupdate, hr⟩ := says_except_map_iff.mp hpresent
    cases r with
    | error e => cases hr
    | ok r =>
      rw [hcount, Service.countP_isWrite_updateRow hupdate]
      -- An update of nothing is not sent, and it is of nothing where the body names no column but the key.
      by_cases hnone : changes = []
      · have hnames : data.filter (·.1 != s.model.keyField.name) = [] := by
          have hkeys : Json.Object.keys (data.filter (·.1 != s.model.keyField.name)) = [] := by
            rw [← hgives.names_eq, hnone, List.map_nil]
          exact List.map_eq_nil_iff.mp hkeys
        exact .inr ⟨if_pos hnone, body, data, hbody, hdata, hnames⟩
      · exact .inl (if_neg hnone)

theorem countP_isWrite_delete {id : String} {headers : Headers}
    (h : Says (s.delete id headers).run log (.ok reply)) : log.countP Exchange.isWrite = 1 := by
  cases ItemRequest.outset_of_says (q := .delete id headers) h with
  | deletes key_eq said =>
    obtain ⟨rest, hcount, habsent | ⟨r, hpresent⟩⟩ :=
      countP_isWrite_guarded (Service.requireKey_eq_ok_iff.mp key_eq) said
    · obtain ⟨-, hcontra⟩ := says_throw_iff.mp habsent
      cases hcontra
    · obtain ⟨_, hdelete, -⟩ := says_except_map_iff.mp hpresent
      obtain ⟨_, hdelete, -⟩ := says_discard_iff.mp hdelete
      obtain ⟨_, hdelete, -⟩ := Handler.says_ofSession_iff.mp hdelete
      exact hcount.trans (Rows.countP_isWrite_delete hdelete)

/-- Whatever the database answers, all that a request changes it changes with a statement that gives values to the
columns that the body names, each once and with the value that is read from its member; the key in the path is that of
the row, and the key that the body names has no part in it. A request that is answered has sent one such statement,
unless it is for a row that is there and its body names no column but the key. -/
theorem issues_what_is_given (s : Service) (q : WriteRequest) :
    Only (Exchange.Sends fun st => st.isWrite = true → q.Issues s st ∧ st.assigned.Nodup) (q.handler s).run ∧
    ∀ log reply, Says (q.handler s).run log (.ok reply) →
      log.countP Exchange.isWrite = 1 ∨
      log.countP Exchange.isWrite = 0 ∧ ∃ item, q = .item item ∧ NamesOnlyKey s item := by
  constructor
  · refine (only_issues s q).mono fun x hx st hst hwrite => ?_
    have hissues := hx st hst hwrite
    exact ⟨hissues, hissues.nodup⟩
  · intro log reply h
    cases q with
    | create body => exact .inl (countP_isWrite_create h)
    | item item =>
      cases hdeletion : item.isDeletion with
      | false => exact (countP_isWrite_item hdeletion h).imp_right fun ⟨hcount, hnames⟩ => ⟨hcount, item, rfl, hnames⟩
      | true =>
        cases item with
        | delete id headers => exact .inl (countP_isWrite_delete h)
        | replace | modify => cases hdeletion

/-- A draft is put at a number, with a body that names another one. -/
def draftRenaming : WriteRequest :=
  .item (.replace "7" [] (Text.Utf8.encode "\x7b\"id\":9,\"text\":\"new\"\x7d".toList))

/-- Where there is no such draft, it gets the number in the path. -/
theorem issues_of_renamed_draft :
    ∃ log reply, Says (draftRenaming.handler draftService).run log (.ok reply) ∧
      .execute "INSERT INTO \"draft\" (\"text\", \"id\") VALUES (?, ?)" [.string (some "new"), .bigInt (some 7)] ∈
        log.map (Exchange.event .sqlite) ∧
      log.countP Exchange.isWrite = 1 ∧
      ∀ x ∈ log, x.Sends fun st => st.isWrite = true → draftRenaming.Issues draftService st ∧ st.assigned.Nodup := by
  -- No row is found, the insert succeeds, and the row is read back.
  let script : Script := [.success [] default, .success [] ⟨7, 1⟩, .success [[("id", .bigInt (some 7))]] default]
  obtain ⟨log, hsays, hlog⟩ := Script.exists_path_of_run .sqlite script (draftRenaming.handler draftService).run
  have hanswered : (script.run .sqlite (draftRenaming.handler draftService).run).1.toOption.isSome = true := by
    decide +kernel
  obtain ⟨reply, hreply⟩ : ∃ reply, (script.run .sqlite (draftRenaming.handler draftService).run).1 = .ok reply := by
    cases hresult : (script.run .sqlite (draftRenaming.handler draftService).run).1 with
    | ok reply => exact ⟨reply, rfl⟩
    | error e =>
      rw [hresult] at hanswered
      cases hanswered
  rw [hreply] at hsays
  obtain ⟨hissues, hwrites⟩ := issues_what_is_given draftService draftRenaming
  have hinserts : .execute "INSERT INTO \"draft\" (\"text\", \"id\") VALUES (?, ?)"
      [.string (some "new"), .bigInt (some 7)] ∈ log.map (Exchange.event .sqlite) := by
    rw [← hlog]
    decide +kernel
  refine ⟨log, reply, hsays, hinserts, ?_, hissues log _ hsays⟩
  rcases hwrites log reply hsays with hone | ⟨hnone, -⟩
  · exact hone
  · obtain ⟨x, hx, hevent⟩ := List.mem_map.mp hinserts
    have hwrite : x.isWrite = true := by
      rw [← Exchange.isWrite_event .sqlite x, hevent]
      decide +kernel
    exact absurd hwrite (by simpa using List.countP_eq_zero.mp hnone x hx)

end WriteRequest

end RestTables
