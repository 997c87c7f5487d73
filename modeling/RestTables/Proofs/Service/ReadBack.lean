import RestTables.Proofs.Service.KeyColumns
import RestTables.Proofs.Service.Retry

/-
Module: RestTables.Proofs.Service.ReadBack
Purpose: How a new row is read back where the database does not send it. It is looked for by the key that was given, or
  else by the number that the database reports; that finds the new row where the key is given or numbered, and
  nowhere else. A key that the database fills in some other way is not known, and the request is rolled back or answered
  with another row.
Main exports: Rows.IsNewKey, Rows.KnowsKey, Rows.insert_eq_ok_of_knowsKey, Service.says_create_of_isWrite,
  Service.AnswersWithNewRow, Service.answersWithNewRow_iff_knowsKey, Service.reads_back_iff_key_known,
  Service.knowsKey_of_isRequired
-/

namespace RestTables

open Sql Dialogue

/-- What can be shown is not NULL. -/
theorem Value.isSqlNull_of_isNull {v : Value} (h : v.isNull = false) : v.isSqlNull = false := by
  have hshown : v.isSqlNull = true → v.isNull = true := by
    intro hnull
    unfold isSqlNull at hnull
    unfold isNull toJson
    split at hnull <;> obtain rfl := Option.isNone_iff_eq_none.mp hnull <;> rfl
  exact Bool.eq_false_iff.mpr fun hnull => by simp [hshown hnull] at h

namespace Rows

variable {m : Model} {data : Json.Object} {row : List (String × Value)} {effect : Effect}

/-! ## Keys of new rows -/

/-- A value is the key of a new row: it is of the kind of the key, and it is the one that was given, or else the number
of the row where the database numbers them. -/
structure IsNewKey (m : Model) (row : List (String × Value)) (effect : Effect) (key : Value) : Prop where
  hasKind : key.hasKind m.keyField.kind = true
  origin : match row.lookup m.keyField.name with
    | some given => key = given
    | none => m.keyField.autoIncrement = true ∧ key = .bigInt (some (Int64.ofNat effect.lastId))

/-- The key of a new row is known: it is given and can be shown, or the database numbers the rows. -/
def KnowsKey (m : Model) (row : List (String × Value)) : Prop :=
  match row.lookup m.keyField.name with
  | some given => given.isNull = false
  | none => m.keyField.autoIncrement = true

instance (m : Model) (row : List (String × Value)) : Decidable (KnowsKey m row) :=
  match h : row.lookup m.keyField.name with
  | some given => decidable_of_iff (given.isNull = false) (by simp only [KnowsKey, h])
  | none => decidable_of_iff (m.keyField.autoIncrement = true) (by simp only [KnowsKey, h])

/-- A new row is looked for by its key where the body gives one, and else only where the keys are whole numbers that
the database counts. -/
theorem isNewKey_insertedKey_iff (hcolumn : m.column? m.keyField.name = some m.keyField) (hgives : m.Gives data row)
    (heffect : effect.lastId ≤ maxRowNumber) :
    IsNewKey m row effect (insertedKey m row effect) ↔
      m.keyField.name ∈ data.keys ∨ m.keyField.autoIncrement = true ∧ m.keyField.kind = .integer := by
  rw [← hgives.lookup_isSome_iff]
  cases hlookup : row.lookup m.keyField.name with
  | some given =>
    have hkey : insertedKey m row effect = given := by rw [insertedKey, hlookup, Option.getD_some]
    obtain ⟨f, j, hf, -, hv⟩ := hgives.value (mem_of_lookup hlookup)
    obtain rfl : m.keyField = f := Option.some.inj (hcolumn.symm.trans hf)
    refine iff_of_true ⟨?_, ?_⟩ (.inl rfl)
    · rw [hkey]
      exact Value.hasKind_of_ofJson? hv
    · rw [hlookup]
      exact hkey
  | none =>
    -- Without a key in the body the database is asked for its counter, which is a whole number for any kind of key.
    have hkey : insertedKey m row effect = .bigInt (some (Int64.ofNat effect.lastId)) := by
      rw [insertedKey, hlookup, Option.getD_none, Nat.min_eq_left heffect]
    have hkind : ∀ n kind, (Value.bigInt n).hasKind kind = true ↔ kind = .integer := by
      intro n kind
      cases kind <;> simp [Value.hasKind]
    rw [hkey]
    constructor
    · intro h
      have horigin := h.origin
      rw [hlookup] at horigin
      exact .inr ⟨horigin.1, (hkind _ _).mp h.hasKind⟩
    · rintro (hcontra | ⟨hauto, hinteger⟩)
      · cases hcontra
      · refine ⟨(hkind _ _).mpr hinteger, ?_⟩
        rw [hlookup]
        exact ⟨hauto, rfl⟩

/-! ## Rows that are found -/

variable {E : Engine} {db db' : Database} {log : List Exchange} {b : Backend}

/-- A key that is known is equal to itself. -/
theorem KnowsKey.equal_self (hknows : KnowsKey m row) (hkeeps : E.Keeps m) :
    E.Equal (E.complete db m.table row m.keyField.name) (E.complete db m.table row m.keyField.name) := by
  have hshown : (E.complete db m.table row m.keyField.name).isNull = false := by
    unfold KnowsKey at hknows
    cases hlookup : row.lookup m.keyField.name with
    | some given =>
      rw [hlookup] at hknows
      rw [hkeeps.verbatim hlookup]
      exact hknows
    | none =>
      rw [hlookup] at hknows
      rw [hkeeps.numbered hknows hlookup]
      rfl
  exact ⟨Value.isSqlNull_of_isNull hshown, Value.isSqlNull_of_isNull hshown, hkeeps.reflexive hshown⟩

/-- Where the key is known and nothing fails, whoever inserts a row is given the row that is stored. -/
theorem insert_eq_ok_of_knowsKey (hb : b.returnsRows = false) (hkeeps : E.Keeps m) (hknows : KnowsKey m row)
    {a : Except StorageError Record} (h : Says (insert b m row).run log a) (hhistory : E.History db log db')
    (hsucceeds : ∀ x ∈ log, x.succeeds = true) : a = .ok (m.recordOf (E.complete db m.table row)) := by
  rcases (says_insert_iff_of_not_returnsRows hb).mp h with ⟨e, rfl, -⟩ | ⟨effect, answer, rfl, rfl⟩
  · cases hsucceeds _ List.mem_cons_self
  obtain ⟨mid, hanswers, _, hread, -⟩ := hhistory
  cases hanswers with
  | effect permitted =>
    cases answer with
    | error e => cases hsucceeds _ (List.mem_cons_of_mem _ List.mem_cons_self)
    | ok rows =>
      -- The key was given or is counted, so the stored row has the key that is looked for.
      have hgiven : m.keyField.autoIncrement = true ∨ (row.lookup m.keyField.name).isSome = true := by
        unfold KnowsKey at hknows
        split at hknows
        · next hlookup => exact .inr (Option.isSome_of_eq_some hlookup)
        · exact .inl hknows
      have hkey : E.complete db m.table row m.keyField.name =
          insertedKey m row (E.effect db (insertStatement m row)) := complete_keyField hkeeps hgiven
      have hstored : E.complete db m.table row ∈ E.next db (insertStatement m row) m.table := by
        rw [insertStatement, Engine.next, Database.set_self]
        exact List.mem_append_right _ (List.mem_singleton_self _)
      have hmatching := matching_key_of_mem (hkeeps.distinct _ (permitted rfl)) hstored (hknows.equal_self hkeeps)
      rw [hkey] at hmatching
      rw [hread.rows_eq, rows_keyStatement_of_matching_singleton hmatching]
      rfl

/-! ## Rows that are lost -/

/-- A value of the kind of the key that is not the number of a first row. -/
def defaultKey (m : Model) : Value := m.keyField.kind.sample false

theorem defaultKey_ne_one (m : Model) : defaultKey m ≠ .bigInt (some 1) := by
  unfold defaultKey
  generalize m.keyField.kind = kind
  cases kind <;> decide +kernel

/-- An engine that fills the key of a model with a default where it is neither given nor numbered. Like any engine it
knows the first row of a table by the number one. -/
def fillingEngine (m : Model) : Engine :=
  { Engine.plain [(m.table, [m.keyField.name])] with
    equal := fun a b => !a.isNull && a == b
    complete := fun _ _ row name =>
      (row.lookup name).getD
        (if name = m.keyField.name then
          if m.keyField.autoIncrement then .bigInt (some 1) else defaultKey m
        else default)
    rowNumber := fun _ => 1
    equal_symm := by
      intro a b h
      obtain ⟨hshown, hsame⟩ := Bool.and_eq_true_iff.mp h
      obtain rfl := beq_iff_eq.mp hsame
      exact h
    equal_trans := by
      intro a b c h h'
      obtain ⟨-, hsame⟩ := Bool.and_eq_true_iff.mp h
      obtain rfl := beq_iff_eq.mp hsame
      exact h' }

theorem keeps_fillingEngine (m : Model) : (fillingEngine m).Keeps m where
  distinct := by
    intro db hdb
    have hkeys := Engine.plain_refusal?_eq_none_iff.mp hdb (m.table, [m.keyField.name]) (List.mem_singleton_self _)
    refine hkeys.imp fun hdistinct hequal => hdistinct fun n hn => ?_
    obtain ⟨ha, hb, hsame⟩ := hequal n hn
    exact ⟨ha, hb, beq_iff_eq.mp (Bool.and_eq_true_iff.mp hsame).2⟩
  verbatim := by
    intro db row name v hgiven
    simp [fillingEngine, hgiven]
  numbered := by
    intro db row hauto habsent
    simp only [fillingEngine, habsent, Option.getD_none, ↓reduceIte, hauto]
    rfl
  reflexive := by
    intro v hshown
    simp [fillingEngine, hshown]

/-- Where the key is not known, the engine finds no row by the key that is looked for. -/
theorem not_equal_insertedKey (hunknown : ¬KnowsKey m row) :
    ¬(fillingEngine m).Equal ((fillingEngine m).complete db m.table row m.keyField.name)
      (insertedKey m row ⟨1, 1⟩) := by
  rintro ⟨-, -, hequal⟩
  obtain ⟨hshown, hsame⟩ := Bool.and_eq_true_iff.mp hequal
  have hsame := beq_iff_eq.mp hsame
  unfold KnowsKey at hunknown
  -- A key that was given is null, and a null equals nothing. One that was not given is the default, which is not one.
  cases hlookup : row.lookup m.keyField.name with
  | some given =>
    rw [hlookup] at hunknown
    rw [(keeps_fillingEngine m).verbatim hlookup] at hshown
    exact hunknown (by simpa using hshown)
  | none =>
    rw [hlookup] at hunknown
    have hkey : insertedKey m row ⟨1, 1⟩ = .bigInt (some 1) := by
      rw [insertedKey, hlookup]
      rfl
    have hfilled : (fillingEngine m).complete db m.table row m.keyField.name = defaultKey m := by
      simp [fillingEngine, hlookup, hunknown]
    exact defaultKey_ne_one m (hfilled.symm.trans (hsame.trans hkey))

end Rows

open WriteRequest (draftModel draftService)

namespace Service

variable {s : Service} {data : Json.Object} {row : List (String × Value)} {body : List UInt8} {log : List Exchange}

/-! ## Requests -/

/-- Where the database does not send new rows, one statement follows the insert of a row that has succeeded: it looks
for the row by the key that was inserted. -/
theorem says_create_of_isWrite (hb : s.backend.returnsRows = false) (hdata : bodyObject body = .ok data)
    (hrow : s.bindComplete data [] = .ok row) {a : Except ApiError Reply} (h : Says (s.create body).run log a)
    {x : Exchange} (hx : x ∈ log) (hwrite : x.isWrite = true) (hsucceeds : x.succeeds = true) :
    ∃ effect answer, log = [.mark .begin, .query (likeStatement s.model row) (.ok []),
      .execute (Rows.insertStatement s.model row) (.ok effect),
      .query (Rows.keyStatement s.model (Rows.insertedKey s.model row effect)) answer, .mark (Mark.ending a)] := by
  rw [run_create hdata hrow] at h
  obtain ⟨r, hr, rfl⟩ := says_except_map_iff.mp h
  obtain ⟨said, hsaid, rfl⟩ := Handler.says_transaction_iff.mp hr
  -- The marks around the transaction write nothing.
  have hmem : x ∈ said := by
    rcases List.mem_cons.mp hx with rfl | hx
    · cases hwrite
    rcases List.mem_append.mp hx with hx | hx
    · exact hx
    · cases List.mem_singleton.mp hx
      cases hwrite
  rcases says_insertUnlessThere_iff.mp hsaid with ⟨e, rfl, -⟩ | ⟨cells, more, rfl, -⟩ |
    ⟨rest, inserted, rfl, hinsert, -⟩
  · cases List.mem_singleton.mp hmem
    cases hwrite
  · cases List.mem_singleton.mp hmem
    cases hwrite
  · rcases (Rows.says_insert_iff_of_not_returnsRows hb).mp hinsert with ⟨e, rfl, -⟩ | ⟨effect, answer, rfl, -⟩
    · rcases List.mem_pair.mp hmem with rfl | rfl
      · cases hwrite
      · cases hsucceeds
    · refine ⟨effect, answer, ?_⟩
      rw [ending_map]
      rfl

/-- A request for a new row that has inserted it is answered with this row, unless a statement fails, wherever the
database keeps what is inserted. -/
def AnswersWithNewRow (s : Service) (body : List UInt8) (row : List (String × Value)) : Prop :=
  ∀ E : Engine, E.Keeps s.model → ∀ db log a db', (s.create body).Transacts E db log a db' →
    (∃ x ∈ log, x.isWrite = true) → (∀ x ∈ log, x.succeeds = true) →
      a = .ok (s.itemReply (s.model.recordOf (E.complete db s.model.table row)) 201 true)

theorem answersWithNewRow_of_knowsKey (hb : s.backend.returnsRows = false) (hdata : bodyObject body = .ok data)
    (hrow : s.bindComplete data [] = .ok row) (hknows : Rows.KnowsKey s.model row) : s.AnswersWithNewRow body row := by
  intro E hkeeps db log a db' htransacts hwrite hsucceeds
  obtain ⟨⟨r, hr, rfl⟩, hhistory⟩ := (transacts_create_iff hdata hrow).mp htransacts
  obtain ⟨x, hx, hwrite⟩ := hwrite
  rcases says_insertUnlessThere_iff.mp hr with ⟨e, rfl, -⟩ | ⟨cells, more, rfl, -⟩ |
    ⟨rest, inserted, rfl, hinsert, rfl⟩
  · cases List.mem_singleton.mp hx
    cases hwrite
  · cases List.mem_singleton.mp hx
    cases hwrite
  · obtain ⟨mid, hanswers, hhistory⟩ := hhistory
    obtain rfl : mid = db := hanswers.eq_of_not_isWrite rfl
    rw [Rows.insert_eq_ok_of_knowsKey hb hkeeps hknows hinsert hhistory (List.forall_mem_cons.mp hsucceeds).2]
    rfl

/-- Where the key is not known, a request can be rolled back although nothing has failed. -/
theorem exists_rolled_back (hb : s.backend.returnsRows = false) (hdata : bodyObject body = .ok data)
    (hrow : s.bindComplete data [] = .ok row) (hunknown : ¬Rows.KnowsKey s.model row) :
    ∃ E : Engine, E.Keeps s.model ∧ ∃ log db',
      (s.create body).Transacts E emptyDb log (.error (.ofStorage .recordNotInserted)) db' ∧
        (∃ x ∈ log, x.isWrite = true) ∧ ∀ x ∈ log, x.succeeds = true := by
  -- The database fills the key in by a default, while it knows the row by the number one.
  let E := Rows.fillingEngine s.model
  let new := E.complete emptyDb s.model.table row
  let insert : Exchange := .execute (Rows.insertStatement s.model row) (.ok ⟨1, 1⟩)
  let read : Exchange := .query (Rows.keyStatement s.model (Rows.insertedKey s.model row ⟨1, 1⟩)) (.ok [])
  have hinsert : Says (Rows.insert s.backend s.model row).run [insert, read] (.error .recordNotInserted) :=
    (Rows.says_insert_iff_of_not_returnsRows hb).mpr (.inr ⟨⟨1, 1⟩, .ok [], rfl, rfl⟩)
  have hlooked : E.rows emptyDb (likeStatement s.model row) = [] := by
    rw [likeStatement, Engine.rows, Engine.selected_of_matching_nil (by rfl), List.map_nil]
  have hpermitted : E.refusal? (emptyDb.set s.model.table [new]) = none := by
    refine Engine.plain_refusal?_eq_none_iff.mpr fun key hkey => ?_
    rw [List.mem_singleton.mp hkey, Database.set_self]
    exact List.pairwise_singleton ..
  -- The row is there, but not under the key that is asked for.
  have hread : E.rows (emptyDb.set s.model.table [new])
      (Rows.keyStatement s.model (Rows.insertedKey s.model row ⟨1, 1⟩)) = [] := by
    have hmatching : E.matching (emptyDb.set s.model.table [new]) s.model.table
        (.all [s.model.keyCondition (Rows.insertedKey s.model row ⟨1, 1⟩)]) = [] := by
      rw [List.eq_nil_iff_forall_not_mem]
      intro stored hstored
      obtain ⟨hmem, hequal⟩ := Engine.mem_matching.mp hstored
      rw [Database.set_self] at hmem
      obtain rfl := List.mem_singleton.mp hmem
      exact Rows.not_equal_insertedKey hunknown (Engine.eval_keyCondition_iff.mp hequal)
    rw [Rows.keyStatement, Engine.rows, Engine.selected_of_matching_nil hmatching, List.map_nil]
  refine ⟨E, Rows.keeps_fillingEngine s.model, [.query (likeStatement s.model row) (.ok []), insert, read],
    emptyDb.set s.model.table [new], ?_, ?_, ?_⟩
  · refine (transacts_create_iff hdata hrow).mpr ⟨⟨.error _, ?_, rfl⟩, ?_⟩
    · exact says_insertUnlessThere_iff.mpr (.inr (.inr ⟨_, _, rfl, hinsert, rfl⟩))
    · exact ⟨emptyDb, Engine.answers_query rfl hlooked, emptyDb.set s.model.table [new],
        Engine.answers_execute hpermitted rfl rfl, emptyDb.set s.model.table [new], Engine.answers_query rfl hread, rfl⟩
  · exact ⟨insert, by simp, rfl⟩
  · simp [insert, read, Exchange.succeeds]

/-- The key must be known, and that is enough. -/
theorem answersWithNewRow_iff_knowsKey (hb : s.backend.returnsRows = false) (hdata : bodyObject body = .ok data)
    (hrow : s.bindComplete data [] = .ok row) : s.AnswersWithNewRow body row ↔ Rows.KnowsKey s.model row := by
  refine ⟨fun hanswers => ?_, answersWithNewRow_of_knowsKey hb hdata hrow⟩
  by_contra hunknown
  obtain ⟨E, hkeeps, log, db', htransacts, hwrite, hsucceeds⟩ := exists_rolled_back hb hdata hrow hunknown
  cases hanswers E hkeeps _ _ _ _ htransacts hwrite hsucceeds

/-- Where the database does not send new rows, a row that was inserted is looked for by one more statement. The key in
it is that of the new row where the body gives the key, and else only where the keys are whole numbers that the database
counts. The request is answered with the new row, wherever the database keeps what is inserted and unless a statement
fails, if the key is given and can be shown or is counted; otherwise it can be rolled back although nothing has
failed. -/
theorem reads_back_iff_key_known {declared : List Model} {tables : List Table} {config : Config} {s : Service}
    (h : Registry.build declared tables config = .ok s.registry)
    (hdeclared : ∀ o ∈ declared, ∃ d : Model.Declaration, d.build = .ok o) (hm : s.model ∈ s.registry.models)
    (hb : s.backend.returnsRows = false) {body : List UInt8} {data : Json.Object} {row : List (String × Value)}
    (hdata : bodyObject body = .ok data) (hrow : s.bindComplete data [] = .ok row) :
    (∀ log a, Says (s.create body).run log a → ∀ x ∈ log, x.isWrite = true → x.succeeds = true →
      ∃ effect answer, log = [.mark .begin, .query (likeStatement s.model row) (.ok []),
        .execute (Rows.insertStatement s.model row) (.ok effect),
        .query (Rows.keyStatement s.model (Rows.insertedKey s.model row effect)) answer, .mark (Mark.ending a)]) ∧
    (∀ effect : Effect, effect.lastId ≤ Rows.maxRowNumber →
      (Rows.IsNewKey s.model row effect (Rows.insertedKey s.model row effect) ↔
        s.model.keyField.name ∈ data.keys ∨
          s.model.keyField.autoIncrement = true ∧ s.model.keyField.kind = .integer)) ∧
    (s.AnswersWithNewRow body row ↔ Rows.KnowsKey s.model row) := by
  refine ⟨fun log a hsays x => says_create_of_isWrite hb hdata hrow hsays, fun effect heffect => ?_,
    answersWithNewRow_iff_knowsKey hb hdata hrow⟩
  exact Rows.isNewKey_insertedKey_iff (Registry.column?_keyField h hdeclared hm)
    (gives_of_bindComplete (nodup_keys_of_bodyObject hdata) hrow) heffect

section Whole

variable (hnames : (s.model.columns.map (·.name)).Nodup) {f : Field} (hf : f ∈ s.model.columns)
  (hrow : s.bindComplete data [] = .ok row)

include hnames hf hrow

/-- Clients may set what a whole row gives. -/
theorem isWritable_of_mem {j : Json} (hmember : (f.name, j) ∈ data) : f.isWritable = true := by
  obtain ⟨-, hunknown, -, -⟩ := bindComplete_eq_ok_iff.mp hrow
  exact Model.isWritable_of_known hnames hf hunknown hmember

/-- What must be given is not given as null. -/
theorem ne_null_of_isRequired (hkeys : data.keys.Nodup) {j : Json} (hmember : (f.name, j) ∈ data)
    (hrequired : f.isRequired = true) : j ≠ .null := by
  rintro rfl
  obtain ⟨hmissing, -, -, -⟩ := bindComplete_eq_ok_iff.mp hrow
  exact List.not_mem_nil (hmissing f.name ((Model.mem_missing_of_null hnames hf hkeys hmember).mpr hrequired))

/-- What is left out need not be given. -/
theorem isRequired_of_get?_none (habsent : data.get? f.name = none) : f.isRequired = false := by
  obtain ⟨hmissing, -, -, -⟩ := bindComplete_eq_ok_iff.mp hrow
  rw [← Bool.not_eq_true]
  intro hrequired
  refine List.not_mem_nil (hmissing f.name (List.mem_filter.mpr ⟨(Model.mem_required_iff hnames hf).mpr hrequired, ?_⟩))
  rw [habsent]
  rfl

end Whole

/-- The key of a new row is known where the database counts the keys, and where clients must give them. -/
theorem knowsKey_of_isRequired {declared : List Model} {tables : List Table} {config : Config} {s : Service}
    (h : Registry.build declared tables config = .ok s.registry)
    (hdeclared : ∀ o ∈ declared, ∃ d : Model.Declaration, d.build = .ok o) (hm : s.model ∈ s.registry.models)
    {body : List UInt8} {data : Json.Object} {row : List (String × Value)} (hdata : bodyObject body = .ok data)
    (hrow : s.bindComplete data [] = .ok row) (hfinite : ∀ entry ∈ row, entry.2.IsFinite)
    (hkey : s.model.keyField.isWritable = false ∨ s.model.keyField.isRequired = true) :
    Rows.KnowsKey s.model row := by
  have hkeys := nodup_keys_of_bodyObject hdata
  have hgives := gives_of_bindComplete hkeys hrow
  have hnames := Registry.nodup_columns h hdeclared hm
  have hmem : s.model.keyField ∈ s.model.columns :=
    List.mem_of_find?_eq_some (Registry.column?_keyField h hdeclared hm)
  unfold Rows.KnowsKey
  cases hlookup : row.lookup s.model.keyField.name with
  | some given =>
    have hgiven := mem_of_lookup hlookup
    obtain ⟨f, j, -, hget, hv⟩ := hgives.value hgiven
    have hmember : (s.model.keyField.name, j) ∈ data := mem_of_lookup hget
    have hrequired : s.model.keyField.isRequired = true :=
      hkey.resolve_left (by simp [isWritable_of_mem hnames hmem hrow hmember])
    have hj : j ≠ .null := ne_null_of_isRequired hnames hmem hrow hkeys hmember hrequired
    change given.isNull = false
    rw [Value.isNull_eq_isSqlNull_of_ofJson? hv (hfinite _ hgiven)]
    exact Bool.eq_false_iff.mpr fun hnull => hj ((Value.isSqlNull_iff_of_ofJson? hv).mp hnull)
  | none =>
    -- What the body holds would be in the row.
    have habsent : data.get? s.model.keyField.name = none := by
      refine Option.eq_none_iff_forall_ne_some.mpr fun j hget => ?_
      have hname : s.model.keyField.name ∈ data.keys := List.mem_map.mpr ⟨_, mem_of_lookup hget, rfl⟩
      rw [← hgives.lookup_isSome_iff, hlookup] at hname
      cases hname
    have hwritable : s.model.keyField.isWritable = false :=
      hkey.resolve_right (by simp [isRequired_of_get?_none hnames hmem hrow habsent])
    change s.model.keyField.autoIncrement = true
    simp only [Field.isWritable, Bool.not_eq_false', Bool.and_eq_true] at hwritable
    exact hwritable.2

/-! ### Countries and seats -/

/-- Rows that have a name, and a key of some kind that the database fills by itself. -/
def filledDeclaration (name table key : String) (kind : Kind) : Model.Declaration :=
  { name, table, fields := [(Field.new key kind).primaryKey.withDefault, Field.new "name" .string] }

/-- The service of such rows. -/
def filledService (name table key : String) (kind : Kind) : Service :=
  let model := ((filledDeclaration name table key kind).build.toOption).getD default
  { registry := ⟨[model]⟩, config := { conditionalRequestEnabled := false }, backend := .sqlite, model }

/-- Countries have a text for a key. -/
def countryService : Service := filledService "Country" "country" "code" .string

/-- Seats have a number for a key. -/
def seatService : Service := filledService "Seat" "seat" "number" .integer

theorem build_country : (filledDeclaration "Country" "country" "code" .string).build = .ok countryService.model := by
  rfl

/-- A body that gives nothing but a name. -/
def namedBody : List UInt8 := Text.Utf8.encode "\x7b\"name\":\"a\"\x7d".toList

/-- A new draft is read back by its number, and a new country by a number that is no key of it. -/
theorem reads_back_of_draft_and_country :
    draftService.AnswersWithNewRow plainBody plainRow ∧
    Rows.IsNewKey draftModel plainRow ⟨1, 1⟩ (Rows.insertedKey draftModel plainRow ⟨1, 1⟩) ∧
    ¬countryService.AnswersWithNewRow namedBody [("name", .string (some "a"))] ∧
    ¬Rows.IsNewKey countryService.model [("name", .string (some "a"))] ⟨1, 1⟩ (.bigInt (some 1)) := by
  have hdraft : Registry.build [draftModel] [] {} = .ok draftService.registry := by decide +kernel
  have hdrafts : ∀ o ∈ [draftModel], ∃ d : Model.Declaration, d.build = .ok o :=
    List.forall_mem_singleton.mpr ⟨WriteRequest.draftDeclaration, WriteRequest.build_draft⟩
  have hdraftData : bodyObject plainBody = .ok [("text", .str "new")] := by decide +kernel
  have hdraftRow : draftService.bindComplete [("text", .str "new")] [] = .ok plainRow := by decide +kernel
  have hcountry : Registry.build [countryService.model] [] {} = .ok countryService.registry := by decide +kernel
  have hcountries : ∀ o ∈ [countryService.model], ∃ d : Model.Declaration, d.build = .ok o :=
    List.forall_mem_singleton.mpr ⟨_, build_country⟩
  have hcountryData : bodyObject namedBody = .ok [("name", .str "a")] := by decide +kernel
  have hcountryRow : countryService.bindComplete [("name", .str "a")] [] = .ok [("name", .string (some "a"))] := by
    decide +kernel
  -- A draft is counted by the database. A country has a text for a key, which the body does not give.
  obtain ⟨-, hdraftKey, hdraftAnswers⟩ := reads_back_iff_key_known hdraft hdrafts (List.mem_singleton_self _) rfl
    hdraftData hdraftRow
  obtain ⟨-, hcountryKey, hcountryAnswers⟩ := reads_back_iff_key_known hcountry hcountries
    (List.mem_singleton_self _) rfl hcountryData hcountryRow
  refine ⟨hdraftAnswers.mpr (by decide +kernel), (hdraftKey ⟨1, 1⟩ (by decide)).mpr (.inr (by decide +kernel)),
    hcountryAnswers.not.mpr (by decide +kernel), (hcountryKey ⟨1, 1⟩ (by decide)).not.mpr (by decide +kernel)⟩

/-- A country is looked for by a number, is not found, and its insert is undone, although the database keeps what is
inserted and no statement fails. A seat is the second row of its table and is looked for by the number two, which is the
key of another seat, and the request is answered with that one. -/
theorem new_row_goes_astray :
    (∃ E : Engine, E.Keeps countryService.model ∧ ∃ log db',
      (countryService.create namedBody).Transacts E emptyDb log (.error (.ofStorage .recordNotInserted)) db' ∧
        (∃ x ∈ log, x.isWrite = true) ∧ ∀ x ∈ log, x.succeeds = true) ∧
    Script.run .sqlite [.success [] default, .success [] ⟨1, 1⟩, .success [] default]
        (countryService.create namedBody).run =
      (.error (.ofStorage .recordNotInserted),
        [.mark .begin,
          .query "SELECT \"country\".\"code\", \"country\".\"name\" FROM \"country\" WHERE \"country\".\"name\" = ? LIMIT ?"
            [.string (some "a"), .bigUnsigned (some 1)],
          .execute "INSERT INTO \"country\" (\"name\") VALUES (?)" [.string (some "a")],
          .query "SELECT \"country\".\"code\", \"country\".\"name\" FROM \"country\" WHERE \"country\".\"code\" = ? LIMIT ?"
            [.bigInt (some 1), .bigUnsigned (some 1)],
          .mark .rollback]) ∧
    ((Script.run .sqlite [.success [] default, .success [] ⟨2, 1⟩,
        .success [[("number", .bigInt (some 2)), ("name", .string (some "b"))]] default]
        (seatService.create namedBody).run).1.map fun reply => (reply.status, reply.body)) =
      .ok (201, .json (.obj [("_links", .obj [("self", .str "/seat/2")]), ("name", .str "b"), ("number", .int 2)])) := by
  refine ⟨?_, by decide +kernel, by decide +kernel⟩
  have hdata : bodyObject namedBody = .ok [("name", .str "a")] := by decide +kernel
  have hrow : countryService.bindComplete [("name", .str "a")] [] = .ok [("name", .string (some "a"))] := by
    decide +kernel
  exact exists_rolled_back rfl hdata hrow (by decide +kernel)

end Service

end RestTables
