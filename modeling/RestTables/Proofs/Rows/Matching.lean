import RestTables.Proofs.Json.Members
import RestTables.Proofs.Rows.OneRow
import RestTables.Proofs.Value.Coerce

/-
Module: RestTables.Proofs.Rows.Matching
Purpose: Rows that are looked for by all values of a new row, before it is inserted. They are the rows that agree with
  it in every column that it gives, a NULL agreeing with a NULL. A database that keeps what is inserted finds the new
  row by its values afterwards, and reads it back by its key.
Main exports: Engine.Agrees, Engine.Keeps, Rows.selects_matchCondition_iff, Rows.agrees_complete,
  Rows.inserted_of_history
-/

namespace RestTables

open Sql Dialogue

/-! ## Databases that keep what is inserted -/

namespace Sql.Engine

/-- A stored row has the values of a new one in every column that the new row gives: the same value, or a NULL where
the new row has one. -/
def Agrees (E : Engine) (row : List (String × Value)) (stored : StoredRow) : Prop :=
  ∀ entry ∈ row, (entry.2.isSqlNull = true ∧ (stored entry.1).isSqlNull = true) ∨ E.Equal (stored entry.1) entry.2

/-- The database keeps the rows of a model as they are inserted, and their keys apart. -/
structure Keeps (E : Engine) (m : Model) : Prop where
  distinct : E.Enforces fun db => E.KeyDistinct [m.keyField.name] (db m.table)
  verbatim {db : Database} {row : List (String × Value)} {name : String} {v : Value}
    (given : row.lookup name = some v) : E.complete db m.table row name = v
  /-- A new row that does not give its key gets its number for one. -/
  numbered {db : Database} {row : List (String × Value)} (automatic : m.keyField.autoIncrement = true)
    (absent : row.lookup m.keyField.name = none) :
    E.complete db m.table row m.keyField.name =
      .bigInt (some (Int64.ofNat (min (E.rowNumber (E.complete db m.table row)) Rows.maxRowNumber)))
  /-- A value that can be shown is equal to itself. -/
  reflexive {v : Value} (shown : v.isNull = false) : E.equal v v = true

end Sql.Engine

namespace Rows

variable {E : Engine} {db db' : Database} {m : Model} {row : List (String × Value)} {stored : StoredRow}

/-- What a new row may hold: each column once, and only values that show as null where they are NULL. -/
structure IsPlain (row : List (String × Value)) : Prop where
  nodup : (row.map (·.1)).Nodup
  isNull_eq {entry : String × Value} (mem : entry ∈ row) : entry.2.isNull = entry.2.isSqlNull

/-! ## Rows that agree -/

theorem eval_matchCondition_iff {entry : String × Value} (h : entry.2.isNull = entry.2.isSqlNull) :
    (matchCondition m entry).eval E db [(m.table, stored)] = some true ↔
      (entry.2.isSqlNull = true ∧ (stored entry.1).isSqlNull = true) ∨ E.Equal (stored entry.1) entry.2 := by
  cases hnull : entry.2.isSqlNull with
  | true =>
    have hne : ¬E.Equal (stored entry.1) entry.2 := fun hequal => by simp [Engine.Equal, hnull] at hequal
    simp [matchCondition, h.trans hnull, Condition.eval, hne]
  | false => simp [matchCondition, h.trans hnull, Condition.eval_compare, Engine.compare_eq_iff]

/-- The rows that are looked for are those that agree, whatever else is in the database. -/
theorem selects_matchCondition_iff (hrow : IsPlain row) :
    (Condition.all (row.map (matchCondition m))).selects E db m.table stored = true ↔ E.Agrees row stored := by
  rw [Condition.selects_iff, Condition.eval_all_iff, List.forall_mem_map]
  exact forall₂_congr fun entry hentry => eval_matchCondition_iff (hrow.isNull_eq hentry)

/-- Behind rows that do not agree, one that does is the only one that is found. -/
theorem matching_matchCondition_eq_singleton {old : List StoredRow} {new : StoredRow} (hrow : IsPlain row)
    (htable : db m.table = old ++ [new]) (hold : ∀ stored ∈ old, ¬E.Agrees row stored) (hnew : E.Agrees row new) :
    E.matching db m.table (.all (row.map (matchCondition m))) = [new] := by
  have hnone : old.filter ((Condition.all (row.map (matchCondition m))).selects E db m.table) = [] :=
    List.filter_eq_nil_iff.mpr fun stored hstored => (selects_matchCondition_iff hrow).not.mpr (hold stored hstored)
  have hone : (Condition.all (row.map (matchCondition m))).selects E db m.table new = true :=
    (selects_matchCondition_iff hrow).mpr hnew
  rw [Engine.matching, htable, List.filter_append, hnone, List.nil_append, List.filter_cons_of_pos hone,
    List.filter_nil]

/-- The new row agrees with what was inserted. -/
theorem agrees_complete (hkeeps : E.Keeps m) (hrow : IsPlain row) : E.Agrees row (E.complete db m.table row) := by
  rintro ⟨name, v⟩ hentry
  rw [hkeeps.verbatim (lookup_eq_some_of_mem hrow.nodup hentry)]
  have hnull := hrow.isNull_eq hentry
  cases hv : v.isSqlNull with
  | true => exact .inl ⟨rfl, rfl⟩
  | false => exact .inr ⟨hv, hv, hkeeps.reflexive (hnull.trans hv)⟩

/-- Where no row is sent, none meets the condition. -/
theorem matching_eq_nil_of_rows {c : Condition} (h : E.rows db (.select (oneStatement m c)) = []) :
    E.matching db m.table c = [] := by
  have hselected : E.selected db (oneStatement m c) = [] := List.map_eq_nil_iff.mp h
  have htake : (E.arrange (oneStatement m c) (E.matching db m.table c)).take 1 = [] := hselected
  have harrange : E.arrange (oneStatement m c) (E.matching db m.table c) = [] := by simpa using htake
  exact List.nil_perm.mp (harrange ▸ E.arrange_perm _ _)

/-- A row that is sent is one that meets the condition. -/
theorem exists_mem_of_rows {c : Condition} {cells : Cells} {more : List Cells}
    (h : E.rows db (.select (oneStatement m c)) = cells :: more) :
    ∃ found ∈ E.matching db m.table c, ofCells m.columns cells = m.recordOf found := by
  have hmem : cells ∈ E.rows db (.select (oneStatement m c)) := h ▸ List.mem_cons_self
  obtain ⟨found, hfound, rfl⟩ := List.mem_map.mp hmem
  exact ⟨found, Engine.mem_matching_of_mem_selected hfound, rfl⟩

/-! ## The new row -/

/-- The key by which a new row is read back is the one that it has. -/
theorem complete_keyField (hkeeps : E.Keeps m)
    (hkey : m.keyField.autoIncrement = true ∨ (row.lookup m.keyField.name).isSome) :
    E.complete db m.table row m.keyField.name = insertedKey m row (E.effect db (insertStatement m row)) := by
  unfold insertedKey
  cases hlookup : row.lookup m.keyField.name with
  | some key => exact hkeeps.verbatim hlookup
  | none =>
    have hauto : m.keyField.autoIncrement = true := by simpa [hlookup] using hkey
    exact hkeeps.numbered hauto hlookup

/-- The row that is found by the key of a new row is the new row. -/
theorem eq_of_key {key : Value} {new found : StoredRow} (hdistinct : E.KeyDistinct [m.keyField.name] (db m.table))
    (hnew : new ∈ db m.table) (hkey : new m.keyField.name = key)
    (hfound : found ∈ E.matching db m.table (.all [m.keyCondition key])) : found = new := by
  have hequal : E.Equal (found m.keyField.name) key := Engine.eval_keyCondition_iff.mp (Engine.mem_matching.mp hfound).2
  -- the key of the new row equals itself, since the row that was found has it
  have hself : E.Equal (new m.keyField.name) key := hkey ▸ hequal.symm.trans hequal
  rw [matching_key_of_mem hdistinct hnew hself] at hfound
  exact List.mem_singleton.mp hfound

/-- Whoever inserts a row is given the row that is stored, which stands behind those that were there. The row is read
back by its key, so this must be the key that the row has. -/
theorem inserted_of_history_of_key {b : Backend} {log : List Exchange} {r : Record}
    (hdistinct : E.Enforces fun db => E.KeyDistinct [m.keyField.name] (db m.table))
    (hkey : E.complete db m.table row m.keyField.name = insertedKey m row (E.effect db (insertStatement m row)))
    (h : Says (insert b m row).run log (.ok r)) (hhistory : E.History db log db') :
    r = m.recordOf (E.complete db m.table row) ∧
      db' = db.set m.table (db m.table ++ [E.complete db m.table row]) ∧ E.refusal? db' = none := by
  cases hb : b.returnsRows with
  | true =>
    obtain ⟨rows, rfl, hr⟩ := (says_insert_iff_of_returnsRows hb).mp h
    obtain ⟨mid, hanswers, rfl⟩ := hhistory
    cases hanswers with
    | noRows e => cases hr
    | rows permitted =>
      cases hr
      exact ⟨rfl, rfl, permitted rfl⟩
  | false =>
    rcases (says_insert_iff_of_not_returnsRows hb).mp h with ⟨e, -, hr⟩ | ⟨effect, rows, rfl, hr⟩
    · cases hr
    · obtain ⟨mid, hanswers, db'', hread, rfl⟩ := hhistory
      cases hanswers with
      | effect permitted =>
        have hdb' := hread.eq_of_not_isWrite rfl
        cases rows with
        | error e => cases hr
        | ok rows =>
          cases rows with
          | nil => cases hr
          | cons cells more =>
            cases hr
            obtain ⟨found, hfound, hrecord⟩ := exists_mem_of_rows hread.rows_eq.symm
            have hnew : E.complete db m.table row ∈ E.next db (insertStatement m row) m.table := by
              rw [insertStatement, Engine.next, Database.set_self]
              exact List.mem_append_right _ (List.mem_singleton_self _)
            -- Keys are distinct, so the row that was read back by its key is the new one.
            rw [eq_of_key (hdistinct _ (permitted rfl)) hnew hkey hfound] at hrecord
            exact ⟨hrecord, hdb', hdb' ▸ permitted rfl⟩

/-- A database that keeps what is inserted gives back what it has stored. -/
theorem inserted_of_history {b : Backend} {log : List Exchange} {r : Record} (hkeeps : E.Keeps m)
    (hkey : m.keyField.autoIncrement = true ∨ (row.lookup m.keyField.name).isSome)
    (h : Says (insert b m row).run log (.ok r)) (hhistory : E.History db log db') :
    r = m.recordOf (E.complete db m.table row) ∧
      db' = db.set m.table (db m.table ++ [E.complete db m.table row]) :=
  let ⟨hrecord, hdb', _⟩ :=
    inserted_of_history_of_key hkeeps.distinct (complete_keyField hkeeps hkey) h hhistory
  ⟨hrecord, hdb'⟩

end Rows

end RestTables
