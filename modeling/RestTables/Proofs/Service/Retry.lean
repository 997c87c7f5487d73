import RestTables.Proofs.Rows.Matching
import RestTables.Proofs.Service.Nulls

/-
Module: RestTables.Proofs.Service.Retry
Purpose: A new row that is sent twice. A row is inserted only where none agrees with all that is given, and the row
  that an insert has stored agrees, so that the second time nothing is inserted: the client is told of a conflict, and
  where the row is, as it was the first time.
Main exports: Handler.Transacts, Handler.Conflicts, Model.Gives, Service.transacts_create_iff,
  Service.gives_of_bindComplete, Service.isPlain_of_bindComplete, Service.retry_inserts_nothing
-/

namespace RestTables

open Sql Dialogue

namespace Handler

/-- Between the marks of a transaction stands what is said in it. -/
theorem says_transaction_marks_iff {h : Handler α} {log : List Exchange} {a : Except ApiError α} :
    Says (transaction h).run (.mark .begin :: log ++ [.mark (Mark.ending a)]) a ↔ Says h.run log a := by
  rw [says_transaction_iff]
  constructor
  · rintro ⟨body, hbody, hlog⟩
    obtain rfl : log = body := by simpa using hlog
    exact hbody
  · exact fun hbody => ⟨log, hbody, rfl⟩

/-- A request is answered after a transaction, and these are its statements and what they make of a database. It is
there to stay when there is a reply. -/
structure Transacts (E : Engine) (h : Handler Reply) (db : Database) (log : List Exchange)
    (a : Except ApiError Reply) (db' : Database) : Prop where
  said : Says h.run (.mark .begin :: log ++ [.mark (Mark.ending a)]) a
  history : E.History db log db'

/-- What is done in one transaction. -/
theorem transacts_transaction_iff {E : Engine} {h : Handler Reply} {db db' : Database} {log : List Exchange}
    {a : Except ApiError Reply} :
    (transaction h).Transacts E db log a db' ↔ Says h.run log a ∧ E.History db log db' :=
  ⟨fun ht => ⟨says_transaction_marks_iff.mp ht.said, ht.history⟩,
    fun ht => ⟨says_transaction_marks_iff.mpr ht.1, ht.2⟩⟩

/-- From now on a request is refused as a conflict, for a row that a reply told of: nothing is inserted and the database
stays as it is, and unless a statement fails the client is told what the reply told, where the row is. -/
structure Conflicts (E : Engine) (h : Handler Reply) (db : Database) (reply : Reply) (e : ApiError) : Prop where
  status : e.send.status = 409
  location : e.send.headers.get? "location" = reply.send.headers.get? "location"
  possible : ∃ log, h.Transacts E db log (.error e) db ∧ ∀ x ∈ log, x.succeeds = true
  refuses {log : List Exchange} {a : Except ApiError Reply} {db' : Database} (h : h.Transacts E db log a db') :
    (∀ x ∈ log, x.isWrite = false) ∧ db' = db ∧ ((∀ x ∈ log, x.succeeds = true) → a = .error e)

end Handler

/-! ## Replies -/

/-- The type of a body is apart from other fields. -/
theorem Headers.get?_extend_typeHeader {type name : String} (h : Headers) (hname : name ≠ "content-type") :
    ((Reply.typeHeader type).extend h).get? name = h.get? name := by
  have hne : (name == "content-type") = false := beq_false_of_ne hname
  unfold get? extend Reply.typeHeader
  rw [List.filter_singleton]
  cases !h.any (·.1 == "content-type") with
  | true => rw [cond_true, List.singleton_append, List.lookup_cons, hne]
  | false => rfl

/-- A value for one name leaves the values of the others. -/
theorem Headers.get?_trySet_of_ne (h : Headers) {name other : String} (value : String) (hne : other ≠ name) :
    (h.trySet name value).get? other = h.get? other := by
  have hbeq : (other == name) = false := beq_false_of_ne hne
  have hset : (h.set name value).get? other = h.get? other := by
    unfold get? set remove
    induction h with
    | nil => simp [List.lookup_cons, hbeq]
    | cons field h ih =>
      obtain ⟨k, v⟩ := field
      by_cases hk : k = name
      · subst hk
        simpa [List.lookup_cons, hbeq] using ih
      · simp only [List.filter_cons, bne_iff_ne, ne_eq, hk, not_false_eq_true, ↓reduceIte, List.cons_append,
          List.lookup_cons, ih]
  unfold trySet
  split
  · exact hset
  · rfl

theorem Headers.get?_trySet (h : Headers) (name value : String) :
    (h.trySet name value).get? name = if isValue value then some value else h.get? name := by
  unfold trySet
  split <;> simp

/-! ## Bodies -/

/-- Where nothing is reported, every member of the body is bound. -/
theorem Model.exists_bindMember? {m : Model} {data : Json.Object} {member : String × Json}
    (hunknown : (m.validate data).unknown = []) (hinvalid : (m.bind data).invalid = []) (hmember : member ∈ data) :
    ∃ v, m.bindMember? member = some (member.1, some v) := by
  obtain ⟨key, j⟩ := member
  have hname : key ∈ data.keys := List.mem_map.mpr ⟨_, hmember, rfl⟩
  have hknown : key ∈ m.required ∨ key ∈ m.optional := by
    by_contra hnot
    have hmem : key ∈ (m.validate data).unknown := by
      simpa [validate, hname] using hnot
    rw [hunknown] at hmem
    cases hmem
  -- Members that are not unknown are those of columns, and a value that can not be read would be reported.
  have hcolumn : ∃ f ∈ m.columns, f.name = key := by
    rcases hknown with hrequired | hoptional
    · obtain ⟨f, hf, hfname⟩ := List.mem_map.mp hrequired
      exact ⟨f, List.mem_of_mem_filter hf, hfname⟩
    · obtain ⟨f, hf, hfname⟩ := List.mem_map.mp hoptional
      exact ⟨f, List.mem_of_mem_filter hf, hfname⟩
  obtain ⟨f, hf⟩ : ∃ f, m.column? key = some f := by
    obtain ⟨f, hmem, hfname⟩ := hcolumn
    exact Option.isSome_iff_exists.mp (List.find?_isSome.mpr ⟨f, hmem, by simpa using hfname⟩)
  cases hv : Value.ofJson? f.kind j with
  | some v => exact ⟨v, by simp [bindMember?, hf, hv]⟩
  | none =>
    have hmem : key ∈ (m.bind data).invalid := by
      refine List.mem_map.mpr ⟨(key, none), List.mem_filter.mpr ⟨?_, rfl⟩, rfl⟩
      exact List.mem_filterMap.mpr ⟨_, hmember, by simp [bindMember?, hf, hv]⟩
    rw [hinvalid] at hmem
    cases hmem

/-- Columns get the values of a body: each name in it gets the value that is read from its member, once, and no other
column gets any. -/
structure Model.Gives (m : Model) (data : Json.Object) (row : List (String × Value)) : Prop where
  names_eq : row.map (·.1) = data.keys
  once : data.keys.Nodup
  value {name : String} {v : Value} (mem : (name, v) ∈ row) :
    ∃ f j, m.column? name = some f ∧ data.get? name = some j ∧ Value.ofJson? f.kind j = some v

/-- No column gets two values. -/
theorem Model.Gives.nodup {m : Model} {data : Json.Object} {row : List (String × Value)} (h : m.Gives data row) :
    (row.map (·.1)).Nodup := h.names_eq ▸ h.once

/-- A column gets a value where the body names it. -/
theorem Model.Gives.lookup_isSome_iff {m : Model} {data : Json.Object} {row : List (String × Value)}
    (h : m.Gives data row) {name : String} : (row.lookup name).isSome = true ↔ name ∈ data.keys := by
  rw [← h.names_eq]
  constructor
  · intro hsome
    obtain ⟨v, hv⟩ := Option.isSome_iff_exists.mp hsome
    exact List.mem_map.mpr ⟨_, mem_of_lookup hv, rfl⟩
  · intro hname
    obtain ⟨⟨_, v⟩, hmem, rfl⟩ := List.mem_map.mp hname
    exact Option.isSome_of_eq_some (lookup_eq_some_of_mem h.nodup hmem)

/-- Where nothing is reported, the body is given as it is. -/
theorem Model.gives_bind {m : Model} {data : Json.Object} (hkeys : data.keys.Nodup)
    (hunknown : (m.validate data).unknown = []) (hinvalid : (m.bind data).invalid = []) :
    m.Gives data (m.bind data).values where
  names_eq := by
    rw [bind, List.filterMap_filterMap, List.map_filterMap, Json.Object.keys, ← List.filterMap_eq_map]
    refine List.filterMap_congr fun member hmember => ?_
    obtain ⟨v, hv⟩ := exists_bindMember? hunknown hinvalid hmember
    simp [hv]
  once := hkeys
  value := by
    intro name v hmem
    obtain ⟨f, j, hf, hmember, hv⟩ := mem_bind_iff.mp hmem
    exact ⟨f, j, hf, Json.Object.get?_eq_some_of_mem hkeys hmember, hv⟩

namespace Service

/-- Where a row is, as far as it can be told in a header field. -/
def location? (s : Service) (r : Record) : Option String := (s.model.recordUri r.toRow).filter Headers.isValue

theorem location_alreadyExists (s : Service) (r : Record) :
    (ApiError.alreadyExists (s.model.recordUri r.toRow)).send.headers.get? "location" = s.location? r := by
  rw [ApiError.send, Headers.get?_extend_typeHeader _ (by decide), location?]
  cases s.model.recordUri r.toRow with
  | none => rfl
  | some uri => exact (Headers.get?_trySet [] "location" uri).trans (Option.filter_some ..).symm

/-- What a reply about a row holds. -/
theorem itemReply_eq (s : Service) (r : Record) (status : Nat) (withLocation : Bool) :
    ∃ headers, s.itemReply r status withLocation = ⟨status, headers, .json (s.canonical r)⟩ := by
  unfold itemReply
  cases s.model.recordUri r.toRow <;> cases withLocation <;> cases s.config.conditionalRequestEnabled <;> exact ⟨_, rfl⟩

theorem status_itemReply (s : Service) (r : Record) (status : Nat) :
    (s.itemReply r status true).send.status = status := by
  obtain ⟨headers, hreply⟩ := s.itemReply_eq r status true
  rw [hreply]
  rfl

theorem location_itemReply (s : Service) (r : Record) (status : Nat) :
    (s.itemReply r status true).send.headers.get? "location" = s.location? r := by
  have hlink : ((Reply.json status (s.canonical r)).header "link"
      (Link.ofResource (s.model.links r.toRow))).headers.get? "location" = none :=
    Headers.get?_trySet_of_ne _ _ (by decide)
  have hlocation : (s.itemReply r status true).headers.get? "location" = s.location? r := by
    have hbefore : ∀ reply : Reply, (if s.config.conditionalRequestEnabled then
        reply.header "etag" (EntityTag.of (s.canonical r)) else reply).headers.get? "location" =
          reply.headers.get? "location" := by
      intro reply
      split
      · exact Headers.get?_trySet_of_ne _ _ (by decide)
      · rfl
    unfold itemReply location?
    rw [hbefore]
    cases s.model.recordUri r.toRow with
    | none => exact hlink
    | some uri => exact (Headers.get?_trySet _ "location" uri).trans (hlink ▸ (Option.filter_some ..).symm)
  obtain ⟨headers, hreply⟩ := s.itemReply_eq r status true
  rw [hreply] at hlocation ⊢
  exact (Headers.get?_extend_typeHeader headers (by decide)).trans hlocation

variable {s : Service} {E : Engine} {db db' : Database} {data : Json.Object} {row : List (String × Value)}
  {body : List UInt8}

/-! ## The new row -/

theorem gives_of_bindComplete {mayLack : List String} (hkeys : data.keys.Nodup)
    (hrow : s.bindComplete data mayLack = .ok row) : s.model.Gives data row := by
  obtain ⟨-, hunknown, hinvalid, rfl⟩ := bindComplete_eq_ok_iff.mp hrow
  exact Model.gives_bind hkeys hunknown hinvalid

theorem gives_of_bindPartial (hkeys : data.keys.Nodup) (hrow : s.bindPartial data = .ok row) :
    s.model.Gives data row := by
  obtain ⟨hunknown, hinvalid, rfl⟩ := bindPartial_eq_ok_iff.mp hrow
  exact Model.gives_bind hkeys hunknown hinvalid

/-- What is bound to a whole row. -/
theorem isPlain_of_bindComplete (hkeys : data.keys.Nodup) (hrow : s.bindComplete data [] = .ok row)
    (hfinite : ∀ entry ∈ row, entry.2.IsFinite) : Rows.IsPlain row := by
  refine ⟨(gives_of_bindComplete hkeys hrow).nodup, fun {entry} hentry => ?_⟩
  obtain ⟨-, -, -, rfl⟩ := bindComplete_eq_ok_iff.mp hrow
  obtain ⟨f, j, -, -, hv⟩ := Model.mem_bind_iff.mp hentry
  exact Value.isNull_eq_isSqlNull_of_ofJson? hv (hfinite _ hentry)

theorem lookup_isSome_of_mem (hkeys : data.keys.Nodup) (hrow : s.bindComplete data [] = .ok row) {name : String}
    (hname : name ∈ data.keys) : (row.lookup name).isSome :=
  (gives_of_bindComplete hkeys hrow).lookup_isSome_iff.mpr hname

/-- The statement that looks for a row like the new one. -/
def likeStatement (m : Model) (row : List (String × Value)) : Statement :=
  .select (Rows.oneStatement m (.all (row.map (Rows.matchCondition m))))

/-- A row like the new one is looked for, and the new one is inserted where there is none. -/
def insertUnlessThere (s : Service) (row : List (String × Value)) : Handler Record := do
  match ← Handler.ofSession (Rows.findMatching s.model row) with
  | some existing => throw (.alreadyExists (s.model.recordUri existing.toRow))
  | none => s.insertRow row

theorem run_create (hdata : bodyObject body = .ok data) (hrow : s.bindComplete data [] = .ok row) :
    (s.create body).run = ((s.itemReply · 201 true) <$> Handler.transaction (s.insertUnlessThere row)).run := by
  rw [← bind_pure_comp]
  simp only [create, hdata, hrow, Handler.run_ofExcept_ok_bind]
  rfl

theorem says_insertUnlessThere_iff {log : List Exchange} {a : Except ApiError Record} :
    Says (s.insertUnlessThere row).run log a ↔
      (∃ e, log = [.query (likeStatement s.model row) (.error e)] ∧ a = .error (.ofStorage e)) ∨
      (∃ cells more, log = [.query (likeStatement s.model row) (.ok (cells :: more))] ∧
        a = .error (.alreadyExists (s.model.recordUri (Rows.ofCells s.model.columns cells).toRow))) ∨
      ∃ rest r, log = .query (likeStatement s.model row) (.ok []) :: rest ∧
        Says (Rows.insert s.backend s.model row).run rest r ∧ a = r.mapError ApiError.ofStorage := by
  unfold insertUnlessThere Rows.findMatching
  simp only [says_except_bind_iff, Handler.says_ofSession_iff, Rows.says_selectOne_iff]
  constructor
  · rintro (⟨first, existing, rest, rfl, ⟨r, ⟨answer, rfl, rfl⟩, hfound⟩, hrest⟩ |
      ⟨e, rfl, r, ⟨answer, rfl, rfl⟩, hfailed⟩)
    · cases answer with
      | error e => cases hfound
      | ok rows =>
        cases rows with
        | nil =>
          cases hfound
          obtain ⟨r, hr, rfl⟩ := Handler.says_ofSession_iff.mp hrest
          exact .inr (.inr ⟨rest, r, rfl, hr, rfl⟩)
        | cons cells more =>
          cases hfound
          obtain ⟨rfl, rfl⟩ := says_throw_iff.mp hrest
          exact .inr (.inl ⟨cells, more, rfl, rfl⟩)
    · cases answer with
      | error e' =>
        cases hfailed
        exact .inl ⟨e', rfl, rfl⟩
      | ok rows => cases hfailed
  · rintro (⟨e, rfl, rfl⟩ | ⟨cells, more, rfl, rfl⟩ | ⟨rest, r, rfl, hr, rfl⟩)
    · exact .inr ⟨_, rfl, _, ⟨.error e, rfl, rfl⟩, rfl⟩
    · exact .inl ⟨_, some (Rows.ofCells s.model.columns cells), [], rfl, ⟨_, ⟨.ok (cells :: more), rfl, rfl⟩, rfl⟩,
        says_throw_iff.mpr ⟨rfl, rfl⟩⟩
    · exact .inl ⟨_, none, rest, rfl, ⟨_, ⟨.ok [], rfl, rfl⟩, rfl⟩, Handler.says_ofSession_iff.mpr ⟨r, hr, rfl⟩⟩

theorem ending_map (a : Except ε α) (f : α → β) : Mark.ending (a.map f) = Mark.ending a := by cases a <;> rfl

/-- What is said about a new row is said in one transaction. -/
theorem transacts_create_iff (hdata : bodyObject body = .ok data) (hrow : s.bindComplete data [] = .ok row)
    {log : List Exchange} {a : Except ApiError Reply} :
    (s.create body).Transacts E db log a db' ↔
      (∃ r, Says (s.insertUnlessThere row).run log r ∧ a = r.map (s.itemReply · 201 true)) ∧ E.History db log db' := by
  have hsaid : Says (s.create body).run (.mark .begin :: log ++ [.mark (Mark.ending a)]) a ↔
      ∃ r, Says (s.insertUnlessThere row).run log r ∧ a = r.map (s.itemReply · 201 true) := by
    rw [run_create hdata hrow, says_except_map_iff]
    refine exists_congr fun r => and_congr_left ?_
    rintro rfl
    rw [ending_map]
    exact Handler.says_transaction_marks_iff
  exact ⟨fun h => ⟨hsaid.mp h.said, h.history⟩, fun h => ⟨hsaid.mpr h.1, h.2⟩⟩

/-! ## Once -/

/-- Where a row is inserted, none was there that agrees with it. -/
theorem not_agrees_of_answers (hplain : Rows.IsPlain row)
    (h : E.Answers db (.query (likeStatement s.model row) (.ok [])) db') :
    ∀ stored ∈ db s.model.table, ¬E.Agrees row stored := by
  have hmatching := Rows.matching_eq_nil_of_rows h.rows_eq.symm
  rw [Engine.matching, List.filter_eq_nil_iff] at hmatching
  exact fun stored hstored => (Rows.selects_matchCondition_iff hplain).not.mp (hmatching stored hstored)

/-- A statement that changes rows is only said where no row agrees with the new one. -/
theorem not_agrees_of_isWrite (hplain : Rows.IsPlain row) {log : List Exchange} {a : Except ApiError Record}
    (h : Says (s.insertUnlessThere row).run log a) (hhistory : E.History db log db')
    (hwrite : ∃ x ∈ log, x.isWrite = true) : ∀ stored ∈ db s.model.table, ¬E.Agrees row stored := by
  obtain ⟨x, hx, hwrite⟩ := hwrite
  rcases says_insertUnlessThere_iff.mp h with ⟨e, rfl, -⟩ | ⟨cells, more, rfl, -⟩ | ⟨rest, r, rfl, -, -⟩
  · cases List.mem_singleton.mp hx
    cases hwrite
  · cases List.mem_singleton.mp hx
    cases hwrite
  · obtain ⟨mid, hanswers, -⟩ := hhistory
    exact not_agrees_of_answers hplain hanswers

/-- A request for a new row that has been answered has stored it behind the rows that were there, none of which agrees
with it. -/
theorem stored_of_create (hkeeps : E.Keeps s.model) (hplain : Rows.IsPlain row)
    (hkey : s.model.keyField.autoIncrement = true ∨ (row.lookup s.model.keyField.name).isSome) {log : List Exchange}
    {r : Record} (h : Says (s.insertUnlessThere row).run log (.ok r)) (hhistory : E.History db log db') :
    r = s.model.recordOf (E.complete db s.model.table row) ∧
      db' s.model.table = db s.model.table ++ [E.complete db s.model.table row] ∧
      ∀ stored ∈ db s.model.table, ¬E.Agrees row stored := by
  rcases says_insertUnlessThere_iff.mp h with ⟨e, -, hr⟩ | ⟨cells, more, -, hr⟩ | ⟨rest, result, rfl, hinsert, hr⟩
  · cases hr
  · cases hr
  · obtain ⟨mid, hanswers, hhistory⟩ := hhistory
    obtain rfl : mid = db := hanswers.eq_of_not_isWrite rfl
    cases result with
    | error e => cases hr
    | ok r' =>
      cases hr
      obtain ⟨hrecord, rfl⟩ := Rows.inserted_of_history hkeeps hkey hinsert hhistory
      exact ⟨hrecord, Database.set_self .., not_agrees_of_answers hplain hanswers⟩

/-! ## Twice -/

section Twice

variable {old : List StoredRow} {new : StoredRow} (hplain : Rows.IsPlain row) (htable : db s.model.table = old ++ [new])
  (hold : ∀ stored ∈ old, ¬E.Agrees row stored) (hnew : E.Agrees row new)

include hplain htable hold hnew

/-- Where a row agrees, it is found. -/
theorem rows_likeStatement :
    E.rows db (likeStatement s.model row) = [new.cells (s.model.columns.map (·.name))] := by
  have hselected := Engine.selected_of_matching_singleton
    (s := Rows.oneStatement s.model (.all (row.map (Rows.matchCondition s.model))))
    (Rows.matching_matchCondition_eq_singleton hplain htable hold hnew) rfl rfl
  simp only [likeStatement, Engine.rows, hselected]
  rfl

/-- Where a row agrees, nothing is inserted, and the client is told where the row is. -/
theorem conflict_of_create {log : List Exchange} {a : Except ApiError Record}
    (h : Says (s.insertUnlessThere row).run log a) (hhistory : E.History db log db') :
    (∀ x ∈ log, x.isWrite = false) ∧ db' = db ∧
      ((∀ x ∈ log, x.succeeds = true) →
        a = .error (.alreadyExists (s.model.recordUri (s.model.recordOf new).toRow))) := by
  rcases says_insertUnlessThere_iff.mp h with ⟨e, rfl, rfl⟩ | ⟨cells, more, rfl, rfl⟩ | ⟨rest, r, rfl, -, -⟩
  · have hread : ∀ x ∈ [Exchange.query (likeStatement s.model row) (.error e)], x.isWrite = false := by
      simp [Exchange.isWrite, Exchange.statement?, likeStatement, Statement.isWrite]
    refine ⟨hread, hhistory.eq_of_not_isWrite hread, fun hsucceeds => ?_⟩
    cases hsucceeds _ (List.mem_singleton_self _)
  · have hread : ∀ x ∈ [Exchange.query (likeStatement s.model row) (.ok (cells :: more))], x.isWrite = false := by
      simp [Exchange.isWrite, Exchange.statement?, likeStatement, Statement.isWrite]
    refine ⟨hread, hhistory.eq_of_not_isWrite hread, fun _ => ?_⟩
    -- The look-up finds the row, so its answer is neither an empty one nor another row.
    obtain ⟨mid, hanswers, -⟩ := hhistory
    have hrows := hanswers.rows_eq
    rw [rows_likeStatement hplain htable hold hnew] at hrows
    obtain ⟨rfl, -⟩ := List.cons.inj hrows
    rfl
  · obtain ⟨mid, hanswers, -⟩ := hhistory
    have hrows := hanswers.rows_eq
    rw [rows_likeStatement hplain htable hold hnew] at hrows
    cases hrows

/-- That is how a request can be answered. -/
theorem exists_conflict_of_create :
    ∃ log, Says (s.insertUnlessThere row).run log
        (.error (.alreadyExists (s.model.recordUri (s.model.recordOf new).toRow))) ∧
      E.History db log db ∧ ∀ x ∈ log, x.succeeds = true := by
  have hrows := rows_likeStatement hplain htable hold hnew
  refine ⟨[.query (likeStatement s.model row) (.ok [new.cells (s.model.columns.map (·.name))])], ?_, ?_, ?_⟩
  · exact says_insertUnlessThere_iff.mpr (.inr (.inl ⟨_, [], rfl, rfl⟩))
  · exact ⟨db, Engine.answers_query rfl hrows, rfl⟩
  · simp [Exchange.succeeds]

end Twice

/-- A row is inserted only where none agrees with all that is given. Where what is inserted is kept, and its key is
known, the same request sent once more after it was answered inserts nothing: it is refused as a conflict, and the
client is told where the row is, as it was told the first time. -/
theorem retry_inserts_nothing (hdata : bodyObject body = .ok data) (hrow : s.bindComplete data [] = .ok row)
    (hfinite : ∀ entry ∈ row, entry.2.IsFinite) :
    (∀ E db log a db', (s.create body).Transacts E db log a db' → (∃ x ∈ log, x.isWrite = true) →
      ∀ stored ∈ db s.model.table, ¬E.Agrees row stored) ∧
    ∀ E : Engine, E.Keeps s.model →
      s.model.keyField.autoIncrement = true ∨ s.model.keyField.name ∈ data.keys →
      ∀ db log reply db', (s.create body).Transacts E db log (.ok reply) db' →
        ∃ new, db' s.model.table = db s.model.table ++ [new] ∧ reply.send.status = 201 ∧
          reply.send.headers.get? "location" = s.location? (s.model.recordOf new) ∧
          ∃ e, (s.create body).Conflicts E db' reply e := by
  have hkeys := nodup_keys_of_bodyObject hdata
  have hplain := isPlain_of_bindComplete hkeys hrow hfinite
  refine ⟨fun E db log a db' htransacts hwrite => ?_, fun E hkeeps hkey db log reply db' htransacts => ?_⟩
  · obtain ⟨⟨r, hr, -⟩, hhistory⟩ := (transacts_create_iff hdata hrow).mp htransacts
    exact not_agrees_of_isWrite hplain hr hhistory hwrite
  · obtain ⟨⟨r, hr, hreply⟩, hhistory⟩ := (transacts_create_iff hdata hrow).mp htransacts
    cases r with
    | error e => cases hreply
    | ok r =>
      cases hreply
      have hgiven := hkey.imp_right (lookup_isSome_of_mem hkeys hrow)
      obtain ⟨rfl, htable, hold⟩ := stored_of_create hkeeps hplain hgiven hr hhistory
      have hnew : E.Agrees row (E.complete db s.model.table row) := Rows.agrees_complete hkeeps hplain
      obtain ⟨log', hagain, hhistory', hsucceeds⟩ := exists_conflict_of_create hplain htable hold hnew
      refine ⟨_, htable, status_itemReply s _ 201, location_itemReply s _ 201,
        .alreadyExists (s.model.recordUri (s.model.recordOf (E.complete db s.model.table row)).toRow), rfl, ?_, ?_,
        fun htransacts' => ?_⟩
      · exact (location_alreadyExists s _).trans (location_itemReply s _ 201).symm
      · exact ⟨log', (transacts_create_iff hdata hrow).mpr ⟨⟨_, hagain, rfl⟩, hhistory'⟩, hsucceeds⟩
      · obtain ⟨⟨r, hr, rfl⟩, hhistory'⟩ := (transacts_create_iff hdata hrow).mp htransacts'
        obtain ⟨hread, hsame, hrefused⟩ := conflict_of_create hplain htable hold hnew hr hhistory'
        exact ⟨hread, hsame, fun hsucceeds => by rw [hrefused hsucceeds]; rfl⟩

/-! ### Drafts -/

/-- The number that a row has for an id. -/
def rowId (row : StoredRow) : Nat :=
  match row "id" with
  | .bigInt (some n) => n.toNatClampNeg
  | _ => 0

/-- An engine that numbers the rows of each table. -/
def numberingEngine : Engine :=
  { Engine.plain [("draft", ["id"])] with
    complete := fun db table row name =>
      (row.lookup name).getD
        (if name = "id" then .bigInt (some (Int64.ofNat (min ((db table).length + 1) Rows.maxRowNumber))) else default)
    rowNumber := rowId }

open WriteRequest (draftModel draftService)

/-- The numbers of drafts are kept apart. -/
theorem keeps_numberingEngine : numberingEngine.Keeps draftModel where
  distinct := Engine.plain_enforces (by decide +kernel)
  verbatim := by
    intro db row name v hgiven
    simp [numberingEngine, hgiven]
  numbered := by
    have hkey : draftModel.keyField.name = "id" := by decide +kernel
    rw [hkey]
    intro db row _ habsent
    have hbound : min ((db draftModel.table).length + 1) Rows.maxRowNumber < 2 ^ 63 :=
      (Nat.min_le_right _ _).trans_lt (by decide)
    have hid : numberingEngine.complete db draftModel.table row "id" =
        .bigInt (some (Int64.ofNat (min ((db draftModel.table).length + 1) Rows.maxRowNumber))) := by
      simp [numberingEngine, habsent]
    have hnumber : numberingEngine.rowNumber (numberingEngine.complete db draftModel.table row) =
        min ((db draftModel.table).length + 1) Rows.maxRowNumber := by
      show rowId _ = _
      rw [rowId, hid]
      exact Int64.toNatClampNeg_ofNat_of_lt hbound
    rw [hnumber, Nat.min_assoc, Nat.min_self]
    exact hid
  reflexive := fun _ => beq_self_eq_true _

/-- A body that gives nothing but a text. -/
def plainBody : List UInt8 := Text.Utf8.encode "\x7b\"text\":\"new\"\x7d".toList

/-- What such a body gives. -/
def plainRow : List (String × Value) := [("text", .string (some "new"))]

/-- No rows at all. -/
def emptyDb : Database := fun _ => []

/-- The new draft and no other row. -/
def draftDb : Database := emptyDb.set "draft" [numberingEngine.complete emptyDb "draft" plainRow]

/-- What is said for such a body where there are no rows: the new draft is inserted and read back. -/
def plainLog : List Exchange :=
  [.query (likeStatement draftModel plainRow) (.ok []),
    .execute (Rows.insertStatement draftModel plainRow) (.ok ⟨1, 1⟩),
    .query (Rows.keyStatement draftModel (.bigInt (some 1)))
      (.ok [[("id", .bigInt (some 1)), ("text", .string (some "new")), ("state", default)]])]

/-- A draft is inserted where there is none, and the next time the client is told where it is. -/
theorem retry_of_draft :
    ∃ reply, (draftService.create plainBody).Transacts numberingEngine emptyDb plainLog (.ok reply) draftDb ∧
      reply.send.headers.get? "location" = some "/draft/1" ∧
      ∃ e, (draftService.create plainBody).Conflicts numberingEngine draftDb reply e := by
  have hdata : bodyObject plainBody = .ok [("text", .str "new")] := by decide +kernel
  have hrow : draftService.bindComplete [("text", .str "new")] [] = .ok plainRow := by decide +kernel
  have hplain : ∀ entry ∈ plainRow, entry.2.IsFinite := List.forall_mem_singleton.mpr trivial
  -- No row like it is there; it is inserted, and read back by the number that the database gave it.
  have hlooked : numberingEngine.rows emptyDb (likeStatement draftModel plainRow) = [] := by decide +kernel
  have hread : numberingEngine.rows draftDb (Rows.keyStatement draftModel (.bigInt (some 1))) =
      [[("id", .bigInt (some 1)), ("text", .string (some "new")), ("state", default)]] := by decide +kernel
  have hfirst : (draftService.create plainBody).Transacts numberingEngine emptyDb plainLog
      (.ok (draftService.itemReply (draftModel.recordOf (numberingEngine.complete emptyDb "draft" plainRow)) 201 true))
      draftDb := by
    have hrecord : Rows.firstOf draftModel
        [[("id", .bigInt (some 1)), ("text", .string (some "new")), ("state", default)]] =
          some (draftModel.recordOf (numberingEngine.complete emptyDb "draft" plainRow)) := by rfl
    have hinsert : Says (Rows.insert .sqlite draftModel plainRow).run plainLog.tail
        (.ok (draftModel.recordOf (numberingEngine.complete emptyDb "draft" plainRow))) := by
      refine (Rows.says_insert_iff_of_not_returnsRows rfl).mpr (.inr ⟨_, _, rfl, ?_⟩)
      simp only [Except.bind, hrecord, Rows.inserted]
    refine (transacts_create_iff hdata hrow).mpr ⟨⟨.ok _, ?_, rfl⟩, ?_⟩
    · exact says_insertUnlessThere_iff.mpr (.inr (.inr ⟨_, _, rfl, hinsert, rfl⟩))
    · refine ⟨emptyDb, ?_, draftDb, ?_, draftDb, ?_, rfl⟩
      · exact Engine.answers_query rfl hlooked
      · exact Engine.answers_execute (by decide +kernel) (by decide +kernel) rfl
      · exact Engine.answers_query rfl hread
  obtain ⟨new, htable, -, hlocation, hconflicts⟩ :=
    (retry_inserts_nothing hdata hrow hplain).2 numberingEngine keeps_numberingEngine (.inl (by decide +kernel))
      emptyDb _ _ _ hfirst
  exact ⟨_, hfirst, by decide +kernel, hconflicts⟩

end Service

end RestTables
