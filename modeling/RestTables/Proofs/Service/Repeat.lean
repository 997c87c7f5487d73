import RestTables.Proofs.Service.Tags

/-
Module: RestTables.Proofs.Service.Repeat
Purpose: Rows that are written twice. A request that replaces or changes a row gives some columns their values and no
  others, so the same request sent once more finds the row with its key, gives it the values that it has, and is
  answered with the same row; it does not matter whether the first one found the row or inserted it.
Main exports: Engine.KeepsWritten, Rows.Holds, Handler.Steady, Handler.Repeats, Service.repeats_assigning,
  ItemRequest.Assigns, ItemRequest.repeated_write_changes_nothing
-/

namespace RestTables

open Sql Dialogue

/-! ## Databases that keep what is written -/

namespace Sql

namespace Engine

/-- The database keeps the values that the rows of a model are given, and their keys apart. -/
structure KeepsWritten (E : Engine) (m : Model) : Prop where
  distinct : E.Enforces fun db => E.KeyDistinct [m.keyField.name] (db m.table)
  verbatim {db : Database} {row : List (String × Value)} {name : String} {v : Value}
    (given : row.lookup name = some v) : E.complete db m.table row name = v
  /-- A key is equal to itself; of floating-point numbers this is not asked. -/
  reflexive {v : Value} (exact : m.keyField.kind ≠ .float) (known : v.IsKnown m.keyField.kind) : E.equal v v = true

variable {E : Engine} {db : Database}

/-- A plain engine keeps what is written, and the keys that it is told of. -/
theorem keepsWritten_plain {keys : List (String × List String)} {m : Model}
    (h : (m.table, [m.keyField.name]) ∈ keys) : (plain keys).KeepsWritten m where
  distinct := plain_enforces h
  verbatim := by
    intro db row name v given
    simp [plain, given]
  reflexive _ _ := beq_self_eq_true _

/-- An update that gives each row the values that it has leaves the database as it is. -/
theorem next_update_eq_self {table : String} {c : Condition} {changes : List (String × Value)}
    (h : ∀ row ∈ E.matching db table c, row.assign changes = row) : E.next db (.update table changes c) = db := by
  have hmap : ((db table).map fun row => if c.selects E db table row then row.assign changes else row) = db table := by
    refine (List.map_congr_left fun row hrow => ?_).trans (List.map_id _)
    split
    · next hselects => exact h row (List.mem_filter.mpr ⟨hrow, hselects⟩)
    · rfl
  simp only [next, hmap, Database.set_eq_self]

end Engine

namespace StoredRow

variable {row : StoredRow} {changes : List (String × Value)}

@[simp] theorem assign_nil : row.assign [] = row := rfl

/-- Values that are given twice are given once. -/
@[simp] theorem assign_assign : (row.assign changes).assign changes = row.assign changes := by
  funext name
  unfold assign
  cases changes.lookup name <;> rfl

end StoredRow

end Sql

/-! ## Rows that have been written -/

namespace Rows

variable {E : Engine} {db db' : Database} {m : Model} {key : Value} {changes : List (String × Value)} {row : StoredRow}

/-- The only row with a key has the values that are to be written, and no constraint is violated where there are any. -/
structure Holds (E : Engine) (m : Model) (key : Value) (changes : List (String × Value)) (db : Database)
    (row : StoredRow) : Prop where
  matching_eq : E.matching db m.table (.all [m.keyCondition key]) = [row]
  assign_eq : row.assign changes = row
  permitted : changes ≠ [] → E.refusal? db = none

/-- What has a key after the row with the key was given values has these values. -/
theorem exists_of_mem_matching_update
    (h : row ∈ E.matching (E.next db (.update m.table changes (.all [m.keyCondition key]))) m.table
      (.all [m.keyCondition key])) : ∃ old : StoredRow, row = old.assign changes := by
  obtain ⟨hrow, hselected⟩ := Engine.mem_matching.mp h
  rw [Engine.next, Database.set_self] at hrow
  obtain ⟨old, hold, rfl⟩ := List.mem_map.mp hrow
  split at hselected
  · next hselects => exact ⟨old, if_pos hselects⟩
  · next hselects =>
    have hequal : E.Equal (old m.keyField.name) key := Engine.eval_keyCondition_iff.mp hselected
    exact absurd (Condition.selects_iff.mpr (Engine.eval_keyCondition_iff.mpr hequal)) hselects

end Rows

/-! ## What changes nothing -/

/-- What comes one after the other. -/
theorem Sql.Engine.history_append {E : Engine} {first second : List Exchange} {db db' : Database} :
    E.History db (first ++ second) db' ↔ ∃ mid, E.History db first mid ∧ E.History mid second db' := by
  induction first generalizing db with
  | nil => simp
  | cons x first ih =>
    simp only [List.cons_append, Engine.history_cons, ih]
    constructor
    · rintro ⟨mid, hx, mid', hfirst, hsecond⟩
      exact ⟨mid', ⟨mid, hx, hfirst⟩, hsecond⟩
    · rintro ⟨mid', ⟨mid, hx, hfirst⟩, hsecond⟩
      exact ⟨mid, hx, mid', hfirst, hsecond⟩

namespace Handler

variable {E : Engine} {db : Database}

/-- Whatever is answered, the database stays as it is, and unless a statement fails this is the result. -/
structure Steady (E : Engine) (h : Handler α) (db : Database) (r : α) : Prop where
  possible : ∃ log, Says h.run log (.ok r) ∧ E.History db log db ∧ ∀ x ∈ log, x.succeeds = true
  stays {log : List Exchange} {a : Except ApiError α} {db' : Database} (said : Says h.run log a)
    (history : E.History db log db') :
    db' = db ∧ (a = .ok r ∨ (∃ e, a = .error e) ∧ ∃ x ∈ log, x.succeeds = false)

theorem steady_pure (r : α) : Steady E (pure r) db r where
  possible := ⟨[], says_pure_iff.mpr ⟨rfl, rfl⟩, rfl, by simp⟩
  stays said history := by
    obtain ⟨rfl, rfl⟩ := says_pure_iff.mp said
    exact ⟨history, .inl rfl⟩

theorem steady_ofExcept {e : Except ApiError α} {r : α} (h : e = .ok r) : Steady E (ofExcept e) db r := by
  subst h
  exact steady_pure r

theorem Steady.bind {h : Handler α} {f : α → Handler β} {r : α} {r' : β} (hh : h.Steady E db r)
    (hf : (f r).Steady E db r') : (h >>= f).Steady E db r' where
  possible := by
    obtain ⟨first, hfirst, hhistory, hsucceeds⟩ := hh.possible
    obtain ⟨second, hsecond, hhistory', hsucceeds'⟩ := hf.possible
    exact ⟨first ++ second, says_except_bind_iff.mpr (.inl ⟨first, r, second, rfl, hfirst, hsecond⟩),
      Engine.history_append.mpr ⟨db, hhistory, hhistory'⟩, List.forall_mem_append.mpr ⟨hsucceeds, hsucceeds'⟩⟩
  stays said history := by
    rcases says_except_bind_iff.mp said with ⟨first, b, second, rfl, hfirst, hsecond⟩ | ⟨e, rfl, hfirst⟩
    · obtain ⟨mid, hhistory, hhistory'⟩ := Engine.history_append.mp history
      -- Once the first part is done the rows are as before it, and so the second is steady there.
      obtain ⟨rfl, hb | ⟨⟨e, hcontra⟩, -⟩⟩ := hh.stays hfirst hhistory
      · cases hb
        obtain ⟨hdb, ha⟩ := hf.stays hsecond hhistory'
        refine ⟨hdb, ha.imp_right fun ⟨he, x, hx, hfails⟩ => ⟨he, x, List.mem_append_right _ hx, hfails⟩⟩
      · cases hcontra
    · obtain ⟨hdb, hcontra | ⟨-, hfails⟩⟩ := hh.stays hfirst history
      · cases hcontra
      · exact ⟨hdb, .inr ⟨⟨e, rfl⟩, hfails⟩⟩

/-- From now on a request changes nothing: unless a statement fails it is answered with 200, and with the body and the
entity tag of a reply. -/
structure Repeats (E : Engine) (h : Handler Reply) (db : Database) (reply : Reply) : Prop where
  possible : ∃ log again, h.Transacts E db log (.ok again) db ∧ ∀ x ∈ log, x.succeeds = true
  repeats {log : List Exchange} {a : Except ApiError Reply} {db' : Database} (h : h.Transacts E db log a db') :
    db' = db ∧ ((∃ again, a = .ok again ∧ again.send.status = 200 ∧ again.send.body = reply.send.body ∧
      again.send.headers.get? "etag" = reply.send.headers.get? "etag") ∨
        (∃ e, a = .error e) ∧ ∃ x ∈ log, x.succeeds = false)

/-- A transaction that is steady is answered alike every time. -/
theorem Steady.repeats {h : Handler Reply} {again reply : Reply} (hh : h.Steady E db again)
    (hstatus : again.send.status = 200) (hbody : again.send.body = reply.send.body)
    (htag : again.send.headers.get? "etag" = reply.send.headers.get? "etag") :
    (transaction h).Repeats E db reply where
  possible := by
    obtain ⟨log, hsaid, hhistory, hsucceeds⟩ := hh.possible
    exact ⟨log, again, transacts_transaction_iff.mpr ⟨hsaid, hhistory⟩, hsucceeds⟩
  repeats htransacts := by
    obtain ⟨hsaid, hhistory⟩ := transacts_transaction_iff.mp htransacts
    obtain ⟨hdb, ha⟩ := hh.stays hsaid hhistory
    exact ⟨hdb, ha.imp_left fun ha => ⟨again, ha, hstatus, hbody, htag⟩⟩

end Handler

/-! ## Rows that are written and read -/

namespace Service

variable {s : Service} {E : Engine} {db db' : Database} {id : String} {key : Value} {changes : List (String × Value)}
  {row : StoredRow} {headers : Headers} {absent : Handler Reply} {log : List Exchange}

/-- The only row with a key is read. -/
theorem steady_findByKey (hkey : s.model.keyValue? id = some key)
    (hmatching : E.matching db s.model.table (.all [s.model.keyCondition key]) = [row]) :
    (Handler.ofSession (Rows.findByKey s.model id)).Steady E db (some (s.model.recordOf row)) := by
  have hrows := Rows.rows_keyStatement_of_matching_singleton hmatching
  constructor
  · refine ⟨[.query (Rows.keyStatement s.model key) (.ok [row.cells (s.model.columns.map (·.name))])], ?_,
      ⟨db, Engine.answers_query rfl hrows, rfl⟩, by simp [Exchange.succeeds]⟩
    exact Handler.says_ofSession_iff.mpr ⟨_, (Rows.says_findByKey_iff hkey).mpr ⟨_, rfl, rfl⟩, rfl⟩
  · intro log a db' hsaid hhistory
    obtain ⟨_, hfind, rfl⟩ := Handler.says_ofSession_iff.mp hsaid
    obtain ⟨answer, rfl, rfl⟩ := (Rows.says_findByKey_iff hkey).mp hfind
    obtain ⟨mid, hanswers, rfl⟩ := hhistory
    refine ⟨hanswers.eq_of_not_isWrite rfl, ?_⟩
    cases answer with
    | error e => exact .inr ⟨⟨_, rfl⟩, _, List.mem_singleton_self _, rfl⟩
    | ok rows =>
      rw [hanswers.rows_eq, hrows]
      exact .inl rfl

theorem steady_requireRow (hkey : s.model.keyValue? id = some key)
    (hmatching : E.matching db s.model.table (.all [s.model.keyCondition key]) = [row]) :
    (s.requireRow id).Steady E db (s.model.recordOf row) :=
  (steady_findByKey hkey hmatching).bind (Handler.steady_pure _)

/-- What is written once more is there already. -/
theorem steady_update (hholds : Rows.Holds E s.model key changes db row) :
    (Handler.ofSession (Rows.update s.model key changes)).Steady E db () := by
  have hnext : E.next db (.update s.model.table changes (.all [s.model.keyCondition key])) = db := by
    refine Engine.next_update_eq_self fun other hother => ?_
    rw [hholds.matching_eq] at hother
    rw [List.mem_singleton.mp hother]
    exact hholds.assign_eq
  constructor
  · -- Without changes no statement is sent. Else the update finds the row as it would leave it.
    by_cases hchanges : changes = []
    · exact ⟨[], Handler.says_ofSession_iff.mpr ⟨_, Rows.says_update_iff.mpr (.inl ⟨hchanges, rfl, rfl⟩), rfl⟩, rfl,
        by simp⟩
    · let statement : Statement := .update s.model.table changes (.all [s.model.keyCondition key])
      refine ⟨[.execute statement (.ok (E.effect db statement))], Handler.says_ofSession_iff.mpr
        ⟨.ok (), Rows.says_update_iff.mpr (.inr ⟨hchanges, .ok (E.effect db statement), rfl, rfl⟩), rfl⟩,
        ⟨db, ?_, rfl⟩, by simp [Exchange.succeeds]⟩
      exact Engine.answers_execute (hholds.permitted hchanges) rfl hnext
  · intro log a db' hsaid hhistory
    obtain ⟨_, hupdate, rfl⟩ := Handler.says_ofSession_iff.mp hsaid
    rcases Rows.says_update_iff.mp hupdate with ⟨-, rfl, rfl⟩ | ⟨-, answer, rfl, rfl⟩
    · exact ⟨hhistory, .inl rfl⟩
    · obtain ⟨mid, hanswers, rfl⟩ := hhistory
      cases hanswers with
      | effect permitted => exact ⟨hnext, .inl rfl⟩
      | noEffect _ e => exact ⟨rfl, .inr ⟨⟨_, rfl⟩, _, List.mem_singleton_self _, rfl⟩⟩

/-- The row with a key is given values; what is done where there is none is left open. -/
def assigning (s : Service) (id : String) (headers : Headers) (key : Value) (changes : List (String × Value))
    (absent : Handler Reply) : Handler Reply :=
  Handler.transaction (s.guarded id headers absent fun _ => do
    return s.itemReply (← s.updateRow id key changes) 200 false)

/-- The tag of a reply about a row is that of the row, whatever else the reply says. -/
theorem etag_itemReply (r : Record) (status : Nat) (withLocation : Bool) :
    (s.itemReply r status withLocation).send.headers.get? "etag" =
      if s.config.conditionalRequestEnabled then some (s.currentTag r) else none := by
  cases enabled : s.config.conditionalRequestEnabled with
  | true =>
    rw [itemReply, if_pos enabled]
    exact get?_etag_send _ _
  | false =>
    have hlink : ((Reply.json status (s.canonical r)).header "link"
        (Link.ofResource (s.model.links r.toRow))).headers.get? "etag" = none :=
      Headers.get?_trySet_of_ne _ _ (by decide)
    have hheaders : (s.itemReply r status withLocation).headers.get? "etag" = none := by
      rw [itemReply, if_neg (by simp [enabled])]
      cases s.model.recordUri r.toRow with
      | none => exact hlink
      | some uri =>
        cases withLocation with
        | false => exact hlink
        | true => exact (Headers.get?_trySet_of_ne _ uri (by decide)).trans hlink
    obtain ⟨headers, hreply⟩ := s.itemReply_eq r status withLocation
    rw [hreply] at hheaders ⊢
    exact (Headers.get?_extend_typeHeader headers (by decide)).trans hheaders

/-- Where a row holds what is to be written, writing it once more changes nothing. -/
theorem repeats_assigning (hkey : s.model.keyValue? id = some key) (hholds : Rows.Holds E s.model key changes db row)
    (hcheck : s.checkPrecondition headers (s.model.recordOf row) = .ok ()) (status : Nat) (withLocation : Bool) :
    (s.assigning id headers key changes absent).Repeats E db
      (s.itemReply (s.model.recordOf row) status withLocation) := by
  have hsteady : (s.guarded id headers absent fun _ => do
      return s.itemReply (← s.updateRow id key changes) 200 false).Steady E db
        (s.itemReply (s.model.recordOf row) 200 false) := by
    refine (steady_findByKey hkey hholds.matching_eq).bind ?_
    refine (Handler.steady_ofExcept hcheck).bind ?_
    refine ((steady_update hholds).bind (steady_requireRow hkey hholds.matching_eq)).bind ?_
    exact Handler.steady_pure _
  obtain ⟨_, hreply⟩ := s.itemReply_eq (s.model.recordOf row) 200 false
  obtain ⟨_, hfirst⟩ := s.itemReply_eq (s.model.recordOf row) status withLocation
  refine hsteady.repeats ?_ ?_ ((etag_itemReply ..).trans (etag_itemReply ..).symm)
  · rw [hreply]
    rfl
  · rw [hreply, hfirst]
    rfl

/-! ## The first time -/

/-- A row that must be there is the only one with its key. -/
theorem exists_matching_of_requireRow (hkey : s.model.keyValue? id = some key)
    (hdistinct : E.KeyDistinct [s.model.keyField.name] (db s.model.table)) {r : Record}
    (h : Says (s.requireRow id).run log (.ok r)) (hhistory : E.History db log db') :
    db' = db ∧ ∃ row, E.matching db s.model.table (.all [s.model.keyCondition key]) = [row] ∧
      r = s.model.recordOf row := by
  obtain ⟨answer, rfl, hr⟩ := (says_requireRow_iff hkey).mp h
  obtain ⟨mid, hanswers, rfl⟩ := hhistory
  rcases answer with e | (_ | ⟨cells, more⟩)
  · cases hr
  · cases hr
  · cases hr
    exact Rows.matching_of_answers (fun n hn => List.mem_singleton.mp hn) hdistinct hanswers

/-- A row that was given values holds them. -/
theorem exists_holds_of_updateRow (hkeeps : E.KeepsWritten s.model) (hkey : s.model.keyValue? id = some key)
    (hstart : E.KeyDistinct [s.model.keyField.name] (db s.model.table)) {r : Record}
    (h : Says (s.updateRow id key changes).run log (.ok r)) (hhistory : E.History db log db') :
    ∃ row, r = s.model.recordOf row ∧ Rows.Holds E s.model key changes db' row := by
  rcases says_except_bind_iff.mp h with ⟨first, _, second, rfl, hfirst, hsecond⟩ | ⟨e, hcontra, -⟩
  · obtain ⟨mid, hupdated, hread⟩ := Engine.history_append.mp hhistory
    have hdistinct : E.KeyDistinct [s.model.keyField.name] (mid s.model.table) :=
      hupdated.preserves hkeeps.distinct hstart
    obtain ⟨rfl, row, hmatching, rfl⟩ := exists_matching_of_requireRow hkey hdistinct hsecond hread
    refine ⟨row, rfl, ?_⟩
    obtain ⟨result, hupdate, hresult⟩ := Handler.says_ofSession_iff.mp hfirst
    rcases Rows.says_update_iff.mp hupdate with ⟨rfl, -, -⟩ | ⟨-, answer, rfl, rfl⟩
    · exact ⟨hmatching, StoredRow.assign_nil, nofun⟩
    · obtain ⟨_, hanswers, rfl⟩ := hupdated
      cases hanswers with
      | noEffect _ e => cases hresult
      | effect permitted =>
        have hmem : row ∈ E.matching (E.next db (.update s.model.table changes (.all [s.model.keyCondition key])))
            s.model.table (.all [s.model.keyCondition key]) := by
          rw [hmatching]
          exact List.mem_singleton_self row
        obtain ⟨old, rfl⟩ := Rows.exists_of_mem_matching_update hmem
        exact ⟨hmatching, StoredRow.assign_assign, fun _ => permitted rfl⟩
  · cases hcontra

/-- A row that was inserted with a key holds what it was given. -/
theorem exists_holds_of_insertRow (hkeeps : E.KeepsWritten s.model) (exact : s.model.keyField.kind ≠ .float)
    (hkey : s.model.keyValue? id = some key) (hother : changes.lookup s.model.keyField.name = none) {r : Record}
    (h : Says (s.insertRow (changes ++ [(s.model.keyField.name, key)])).run log (.ok r))
    (hhistory : E.History db log db') :
    ∃ row, r = s.model.recordOf row ∧ Rows.Holds E s.model key changes db' row := by
  have hgiven : (changes ++ [(s.model.keyField.name, key)]).lookup s.model.keyField.name = some key := by
    rw [List.lookup_append, hother, List.lookup_cons_self, Option.none_or]
  obtain ⟨result, hinsert, hresult⟩ := Handler.says_ofSession_iff.mp h
  cases result with
  | error e => cases hresult
  | ok r' =>
    cases hresult
    -- The row was given its key, so no counter of the database is asked.
    have hread : ∀ effect, Rows.insertedKey s.model (changes ++ [(s.model.keyField.name, key)]) effect = key := by
      intro effect
      rw [Rows.insertedKey, hgiven, Option.getD_some]
    obtain ⟨hrecord, rfl, hpermitted⟩ := Rows.inserted_of_history_of_key hkeeps.distinct
      ((hkeeps.verbatim hgiven).trans (hread _).symm) hinsert hhistory
    have hknown := Value.isKnown_of_ofText? hkey
    refine ⟨_, hrecord, ?_, ?_, fun _ => hpermitted⟩
    · refine Rows.matching_key_of_mem (hkeeps.distinct _ hpermitted) ?_ ?_
      · rw [Database.set_self]
        exact List.mem_append_right _ (List.mem_singleton_self _)
      · rw [hkeeps.verbatim hgiven]
        exact ⟨hknown.2, hknown.2, hkeeps.reflexive exact hknown⟩
    · funext name
      unfold StoredRow.assign
      cases hlookup : changes.lookup name with
      | none => rfl
      | some v =>
        have hwritten : (changes ++ [(s.model.keyField.name, key)]).lookup name = some v := by
          rw [List.lookup_append, hlookup, Option.some_or]
        rw [Option.getD_some, hkeeps.verbatim hwritten]

/-- The field that is met by any row. -/
theorem checkPrecondition_of_any (h : headers.get? "if-match" = some "*") (r : Record) :
    s.checkPrecondition headers r = .ok () := by
  cases enabled : s.config.conditionalRequestEnabled with
  | false => simp [checkPrecondition, enabled]
  | true =>
    have htext : headers.text? "if-match" = some "*" := by
      rw [Headers.text?, h]
      rfl
    have hentries : EntityTag.entries "*" = [.any] := by decide
    refine (checkPrecondition_eq_ok_iff enabled).mpr ⟨"*", htext, EntityTag.matchesStrong_iff.mpr (.inl ?_)⟩
    rw [hentries]
    exact List.mem_singleton_self _

end Service

/-! ## Requests -/

namespace ItemRequest

/-- The request with other header fields. -/
def withHeaders (headers : Headers) : ItemRequest → ItemRequest
  | .replace id _ body => .replace id headers body
  | .modify id _ body => .modify id headers body
  | .delete id _ => .delete id headers

/-- The body, where there is one. -/
def body? : ItemRequest → Option (List UInt8)
  | .replace _ _ body | .modify _ _ body => some body
  | .delete .. => none

/-- The row is to be deleted. -/
def isDeletion : ItemRequest → Bool
  | .replace .. | .modify .. => false
  | .delete .. => true

theorem withHeaders_headers (q : ItemRequest) : q.withHeaders q.headers = q := by cases q <;> rfl

/-- A request gives the row with its key some values, whatever its header fields are. Where there is none it is refused,
or a row with these values and the key is inserted. -/
structure Assigns (s : Service) (q : ItemRequest) (key : Value) (changes : List (String × Value))
    (absent : Handler Reply) : Prop where
  key_eq : s.model.keyValue? q.id = some key
  handler_eq (headers : Headers) :
    (q.withHeaders headers).handler s = s.assigning q.id headers key changes absent
  absent_eq : absent = throw (s.notFound q.id) ∨
    changes.lookup s.model.keyField.name = none ∧
      absent = s.insertRow (changes ++ [(s.model.keyField.name, key)]) >>= fun r => pure (s.itemReply r 201 true)

variable {s : Service} {q : ItemRequest} {log : List Exchange} {reply : Reply}

/-- Where a body has no member for a column, nothing is bound to it. -/
theorem lookup_bind_filter {m : Model} {data : Json.Object} :
    (m.bind (data.filter (·.1 != m.keyField.name))).values.lookup m.keyField.name = none := by
  rw [List.lookup_eq_none_iff]
  rintro ⟨name, v⟩ hbound
  obtain ⟨f, j, -, hmember, -⟩ := Model.mem_bind_iff.mp hbound
  exact bne_comm.trans (List.mem_filter.mp hmember).2

theorem assigns_replace {id : String} {headers : Headers} {body : List UInt8} {key : Value} {data : Json.Object}
    {row : List (String × Value)} (hkey : s.requireKey id = .ok key) (hdata : Service.bodyObject body = .ok data)
    (hrow : s.bindComplete (data.filter (·.1 != s.model.keyField.name)) [s.model.keyField.name] = .ok row) :
    Assigns s (.replace id headers body) key row
      (s.insertRow (row ++ [(s.model.keyField.name, key)]) >>= fun r => pure (s.itemReply r 201 true)) := by
  refine ⟨Service.requireKey_eq_ok_iff.mp hkey, fun headers => ExceptT.ext ?_, .inr ⟨?_, rfl⟩⟩
  · simp only [withHeaders, handler, Service.replace, hkey, hdata, hrow, Handler.run_ofExcept_ok_bind]
    rfl
  · obtain ⟨-, -, -, rfl⟩ := Service.bindComplete_eq_ok_iff.mp hrow
    exact lookup_bind_filter

theorem assigns_modify {id : String} {headers : Headers} {body : List UInt8} {key : Value} {data : Json.Object}
    {changes : List (String × Value)} (hkey : s.requireKey id = .ok key) (hdata : Service.bodyObject body = .ok data)
    (hchanges : s.bindPartial (data.filter (·.1 != s.model.keyField.name)) = .ok changes) :
    Assigns s (.modify id headers body) key changes (throw (s.notFound id)) := by
  refine ⟨Service.requireKey_eq_ok_iff.mp hkey, fun headers => ExceptT.ext ?_, .inl rfl⟩
  simp only [withHeaders, handler, Service.modify, hkey, hdata, hchanges, Handler.run_ofExcept_ok_bind,
    Service.requireRow_bind_eq_guarded]
  rfl

/-- A request that is answered and is not to delete the row is such a request, and the values are those that its body
gives to other columns than the key. -/
theorem exists_assigns (hq : q.isDeletion = false) (h : Says (q.handler s).run log (.ok reply)) :
    ∃ body data key changes absent, q.body? = some body ∧ Service.bodyObject body = .ok data ∧
      s.model.Gives (data.filter (·.1 != s.model.keyField.name)) changes ∧ Assigns s q key changes absent := by
  cases outset_of_says h with
  | replaces key_eq data_eq row_eq _ =>
    have hkeys := WriteRequest.nodup_keys_filter (Service.nodup_keys_of_bodyObject data_eq)
    exact ⟨_, _, _, _, _, rfl, data_eq, Service.gives_of_bindComplete (hkeys _) row_eq,
      assigns_replace key_eq data_eq row_eq⟩
  | modifies key_eq data_eq changes_eq _ =>
    have hkeys := WriteRequest.nodup_keys_filter (Service.nodup_keys_of_bodyObject data_eq)
    exact ⟨_, _, _, _, _, rfl, data_eq, Service.gives_of_bindPartial (hkeys _) changes_eq,
      assigns_modify key_eq data_eq changes_eq⟩
  | deletes key_eq _ => cases hq

/-- After a request that was answered the row with its key holds what was written, and the reply is about this row. -/
theorem Assigns.exists_holds {E : Engine} {db db' : Database} {key : Value} {changes : List (String × Value)}
    {absent : Handler Reply} (hassigns : Assigns s q key changes absent) (hkeeps : E.KeepsWritten s.model)
    (exact : s.model.keyField.kind ≠ .float) (hstart : E.KeyDistinct [s.model.keyField.name] (db s.model.table))
    (h : (q.handler s).Transacts E db log (.ok reply) db') :
    ∃ row status withLocation, reply = s.itemReply (s.model.recordOf row) status withLocation ∧
      Rows.Holds E s.model key changes db' row := by
  rw [← q.withHeaders_headers, hassigns.handler_eq, Service.assigning, Handler.transacts_transaction_iff] at h
  obtain ⟨hsaid, hhistory⟩ := h
  rcases Service.says_guarded_cases hassigns.key_eq hsaid with ⟨e, -, hcontra⟩ | ⟨rest, rfl, hrest⟩ |
    ⟨cells, more, ⟨e, -, -, hcontra⟩ | ⟨rest, rfl, -, hrest⟩⟩
  · cases hcontra
  · obtain ⟨mid, hanswers, hhistory⟩ := hhistory
    rcases hassigns.absent_eq with rfl | ⟨hother, rfl⟩
    · obtain ⟨-, hcontra⟩ := says_throw_iff.mp hrest
      cases hcontra
    · rw [bind_pure_comp] at hrest
      obtain ⟨r, hinsert, hr⟩ := says_except_map_iff.mp hrest
      cases r with
      | error e => cases hr
      | ok r =>
        cases hr
        obtain ⟨row, rfl, hholds⟩ :=
          Service.exists_holds_of_insertRow hkeeps exact hassigns.key_eq hother hinsert hhistory
        exact ⟨row, 201, true, rfl, hholds⟩
  · cases hcontra
  · obtain ⟨mid, hanswers, hhistory⟩ := hhistory
    -- The row that was found was only read, so the update starts from the same rows.
    obtain rfl : mid = db := hanswers.eq_of_not_isWrite rfl
    rw [bind_pure_comp] at hrest
    obtain ⟨r, hupdate, hr⟩ := says_except_map_iff.mp hrest
    cases r with
    | error e => cases hr
    | ok r =>
      cases hr
      obtain ⟨row, rfl, hholds⟩ := Service.exists_holds_of_updateRow hkeeps hassigns.key_eq hstart hupdate hhistory
      exact ⟨row, 200, false, rfl, hholds⟩

/-- A row that is written once more stays as it is. Where the database keeps what is written and the keys of the model
apart, and these are no floating-point numbers, a request that replaces or changes a row and is answered can be sent
again for whatever row is there: it leaves the database as it is, and unless a statement fails it is answered with 200
and with the same body and entity tag. -/
theorem repeated_write_changes_nothing {E : Engine} {db db' : Database} {headers : Headers}
    (hkeeps : E.KeepsWritten s.model) (exact : s.model.keyField.kind ≠ .float) (hq : q.isDeletion = false)
    (hstart : E.KeyDistinct [s.model.keyField.name] (db s.model.table))
    (h : (q.handler s).Transacts E db log (.ok reply) db') (hany : headers.get? "if-match" = some "*") :
    ((q.withHeaders headers).handler s).Repeats E db' reply := by
  obtain ⟨-, -, key, changes, absent, -, -, -, hassigns⟩ := exists_assigns hq h.said
  obtain ⟨row, status, withLocation, rfl, hholds⟩ := hassigns.exists_holds hkeeps exact hstart h
  rw [hassigns.handler_eq]
  exact Service.repeats_assigning hassigns.key_eq hholds (Service.checkPrecondition_of_any hany _) status withLocation

/-- A note with a key, whatever there was. -/
def noteReplacement : ItemRequest := .replace "7" [] Service.plainBody

/-- The row that is inserted for it where there is none. -/
def newNote : List (String × Value) := [("text", .string (some "new")), ("id", .bigInt (some 7))]

/-- What is said then: the note is looked for, inserted and read back. -/
def noteReplacementLog : List Exchange :=
  [.query (Rows.keyStatement noteModel (.bigInt (some 7))) (.ok []),
    .execute (Rows.insertStatement noteModel newNote) (.ok ⟨0, 1⟩),
    .query (Rows.keyStatement noteModel (.bigInt (some 7)))
      (.ok [[("id", .bigInt (some 7)), ("text", .string (some "new"))]])]

/-- A note is put where there was none, and then once more. -/
theorem repeated_write_of_note :
    ∃ reply db', (noteReplacement.handler noteService).Transacts noteEngine Service.emptyDb noteReplacementLog
        (.ok reply) db' ∧
      db' "note" = [noteEngine.complete Service.emptyDb "note" newNote] ∧
      ((noteReplacement.withHeaders [("if-match", "*")]).handler noteService).Repeats noteEngine db' reply := by
  let stored := noteEngine.complete Service.emptyDb "note" newNote
  have hkey : noteService.requireKey "7" = .ok (.bigInt (some 7)) := by decide +kernel
  have hdata : Service.bodyObject Service.plainBody = .ok [("text", .str "new")] := by decide +kernel
  have hrow : noteService.bindComplete
      (([("text", .str "new")] : Json.Object).filter (·.1 != noteService.model.keyField.name))
      [noteService.model.keyField.name] = .ok [("text", .string (some "new"))] := by decide +kernel
  have hassigns := @assigns_replace noteService "7" [] Service.plainBody _ _ _ hkey hdata hrow
  -- The log is answered by the empty table first and then by the row that it has stored.
  have hlooked : noteEngine.rows Service.emptyDb (Rows.keyStatement noteModel (.bigInt (some 7))) = [] := by
    decide +kernel
  have hread : noteEngine.rows (Service.emptyDb.set "note" [stored])
      (Rows.keyStatement noteModel (.bigInt (some 7))) =
        [[("id", .bigInt (some 7)), ("text", .string (some "new"))]] := by decide +kernel
  have hinsert : Says (Rows.insert .sqlite noteModel newNote).run noteReplacementLog.tail
      (.ok (noteModel.recordOf stored)) :=
    (Rows.says_insert_iff_of_not_returnsRows rfl).mpr (.inr ⟨_, _, rfl, rfl⟩)
  have hfirst : (noteReplacement.handler noteService).Transacts noteEngine Service.emptyDb noteReplacementLog
      (.ok (noteService.itemReply (noteModel.recordOf stored) 201 true)) (Service.emptyDb.set "note" [stored]) := by
    have hfind := Handler.says_ofSession_iff.mpr
      ⟨_, (@Rows.says_findByKey_iff noteModel _ "7" _ hassigns.key_eq _).mpr ⟨.ok [], rfl, rfl⟩, rfl⟩
    rw [noteReplacement, ← withHeaders_headers (.replace _ _ _), hassigns.handler_eq, Service.assigning,
      Handler.transacts_transaction_iff]
    constructor
    · refine says_except_bind_iff.mpr (.inl ⟨[_], none, noteReplacementLog.tail, rfl, hfind, ?_⟩)
      refine says_except_bind_iff.mpr (.inl ⟨_, _, [], rfl, Handler.says_ofSession_iff.mpr ⟨_, hinsert, rfl⟩, ?_⟩)
      exact says_pure_iff.mpr ⟨rfl, rfl⟩
    · refine ⟨Service.emptyDb, ?_, Service.emptyDb.set "note" [stored], ?_, Service.emptyDb.set "note" [stored], ?_,
        rfl⟩
      · exact Engine.answers_query rfl hlooked
      · exact Engine.answers_execute (by decide +kernel) (by decide +kernel) rfl
      · exact Engine.answers_query rfl hread
  have hstart : noteEngine.KeyDistinct [noteService.model.keyField.name]
      (Service.emptyDb noteService.model.table) := List.Pairwise.nil
  refine ⟨_, _, hfirst, Database.set_self .., ?_⟩
  exact repeated_write_changes_nothing (Engine.keepsWritten_plain (by decide +kernel)) (by decide +kernel) rfl hstart
    hfirst rfl

end ItemRequest

end RestTables
