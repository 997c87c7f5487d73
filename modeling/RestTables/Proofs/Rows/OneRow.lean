import RestTables.Proofs.Rows.Statements

/-
Module: RestTables.Proofs.Rows.OneRow
Purpose: Rows are found and changed by the value of one column. Where that column tells the rows of the table
  apart, no more than one row is changed, and it is the row that is found.
Main exports: Rows.KeyWrite, Rows.OnlyFoundRow, Rows.matching_of_answers, Rows.onlyFoundRow_of_update,
  Rows.onlyFoundRow_of_delete
-/

namespace RestTables.Rows

open Sql Dialogue

/-- A statement that changes or removes the row with a key. -/
inductive KeyWrite (m : Model) (key : Value) : Statement → Prop
  | update (changes : List (String × Value)) :
    KeyWrite m key (.update m.table changes (.all [m.keyCondition key]))
  | delete : KeyWrite m key (.delete m.table (.all [m.keyCondition key]))

variable {E : Engine} {db db' : Database} {m : Model} {key : Value} {names : List String}

/-- The rows that have a key, where the key column tells rows apart. -/
theorem matching_key (hnames : ∀ n ∈ names, n = m.keyField.name)
    (distinct : E.KeyDistinct names (db m.table)) :
    E.matching db m.table (.all [m.keyCondition key]) = [] ∨
      ∃ row, E.matching db m.table (.all [m.keyCondition key]) = [row] :=
  Engine.matching_of_keyDistinct hnames distinct

/-- A row that has a key is the only one that has it. -/
theorem matching_key_of_mem {row : StoredRow} (distinct : E.KeyDistinct [m.keyField.name] (db m.table))
    (hrow : row ∈ db m.table) (hequal : E.Equal (row m.keyField.name) key) :
    E.matching db m.table (.all [m.keyCondition key]) = [row] := by
  have hmem : row ∈ E.matching db m.table (.all [m.keyCondition key]) :=
    Engine.mem_matching.mpr ⟨hrow, Engine.eval_keyCondition_iff.mpr hequal⟩
  rcases matching_key (fun n hn => List.mem_singleton.mp hn) distinct with hnone | ⟨one, hone⟩
  · rw [hnone] at hmem
    cases hmem
  · rw [hone] at hmem ⊢
    rw [List.mem_singleton.mp hmem]

/-- What is sent when the row with a key is looked for. -/
theorem rows_keyStatement_of_matching_singleton {row : StoredRow}
    (h : E.matching db m.table (.all [m.keyCondition key]) = [row]) :
    E.rows db (keyStatement m key) = [row.cells (m.columns.map (·.name))] := by
  have hselected : E.selected db (oneStatement m (.all [m.keyCondition key])) = [row] :=
    Engine.selected_of_matching_singleton h rfl rfl
  simp only [keyStatement, Engine.rows, hselected]
  rfl

/-- The row that is sent for a key is the only one that has it. -/
theorem matching_of_answers {cells : Cells} {more : List Cells} (hnames : ∀ n ∈ names, n = m.keyField.name)
    (distinct : E.KeyDistinct names (db m.table))
    (h : E.Answers db (.query (keyStatement m key) (.ok (cells :: more))) db') :
    db' = db ∧ ∃ row, E.matching db m.table (.all [m.keyCondition key]) = [row] ∧
      ofCells m.columns cells = m.recordOf row := by
  refine ⟨h.eq_of_not_isWrite rfl, ?_⟩
  have hrows := h.rows_eq
  rcases matching_key hnames distinct with hnone | ⟨row, hone⟩
  · have hselected : E.selected db (oneStatement m (.all [m.keyCondition key])) = [] :=
      Engine.selected_of_matching_nil hnone
    simp [keyStatement, Engine.rows, hselected] at hrows
  · rw [rows_keyStatement_of_matching_singleton hone] at hrows
    obtain ⟨rfl, -⟩ := List.cons.inj hrows
    exact ⟨row, hone, rfl⟩

/-- Of the rows of a model's table no more than one has been changed, and whoever looked for the row with an id
before has found that row. -/
def OnlyFoundRow (E : Engine) (m : Model) (id : String) (db db' : Database) : Prop :=
  db' = db ∨ ∃ row, OneRowChanged db db' m.table row ∧
    ∀ log found after, Says (findByKey m id).run log (.ok found) → E.History db log after →
      found = some (m.recordOf row)

/-- Whoever looks for the only row with a key finds it. -/
theorem found_of_matching_singleton {id : String} {row : StoredRow} {log : List Exchange}
    {found : Option Record} (hkey : m.keyValue? id = some key)
    (h : E.matching db m.table (.all [m.keyCondition key]) = [row])
    (hfind : Says (findByKey m id).run log (.ok found)) (hhistory : E.History db log db') :
    found = some (m.recordOf row) := by
  obtain ⟨r, rfl, hr⟩ := (says_findByKey_iff hkey).mp hfind
  obtain ⟨mid, hanswers, -⟩ := hhistory
  cases r with
  | error e => cases hr
  | ok rows =>
    have hrows := hanswers.rows_eq
    rw [rows_keyStatement_of_matching_singleton h] at hrows
    subst hrows
    cases hr
    rfl

/-- A write of the only row with a key changes that row and no other. -/
theorem KeyWrite.oneRowChanged {row : StoredRow} {s : Statement} (hs : KeyWrite m key s)
    (h : E.matching db m.table (.all [m.keyCondition key]) = [row]) :
    OneRowChanged db (E.next db s) m.table row := by
  cases hs with
  | update changes => exact (Engine.oneRowChanged_of_matching h changes).1
  | delete => exact (Engine.oneRowChanged_of_matching h []).2

/-- A write of the row with a key changes the row that is found, or nothing. -/
theorem KeyWrite.onlyFoundRow {id : String} {s : Statement} (hs : KeyWrite m key s)
    (hkey : m.keyValue? id = some key) (hnames : ∀ n ∈ names, n = m.keyField.name)
    (distinct : E.KeyDistinct names (db m.table)) : OnlyFoundRow E m id db (E.next db s) := by
  rcases matching_key hnames distinct with hnone | ⟨row, hone⟩
  · refine .inl ?_
    cases hs with
    | update changes => exact (Engine.next_eq_of_matching_nil hnone changes).1
    | delete => exact (Engine.next_eq_of_matching_nil hnone []).2
  · exact .inr ⟨row, hs.oneRowChanged hone, fun log found after => found_of_matching_singleton hkey hone⟩

/-- What one exchange makes of a database, where its statement writes the row with a key. -/
theorem KeyWrite.onlyFoundRow_of_answers {id : String} {s : Statement} {x : Exchange} (hs : KeyWrite m key s)
    (hx : x.statement? = some s) (h : E.Answers db x db') (hkey : m.keyValue? id = some key)
    (hnames : ∀ n ∈ names, n = m.keyField.name) (distinct : E.KeyDistinct names (db m.table)) :
    OnlyFoundRow E m id db db' := by
  rcases h.next_or_same with ⟨s', hs', -, -, rfl⟩ | ⟨-, rfl⟩
  · obtain rfl : s = s' := Option.some.inj (hx.symm.trans hs')
    exact hs.onlyFoundRow hkey hnames distinct
  · exact .inl rfl

/-- An update changes the row that is found, or nothing. -/
theorem onlyFoundRow_of_update {id : String} {changes : List (String × Value)} {log : List Exchange}
    {a : Except StorageError Unit} (hkey : m.keyValue? id = some key)
    (hnames : ∀ n ∈ names, n = m.keyField.name) (distinct : E.KeyDistinct names (db m.table))
    (h : Says (update m key changes).run log a) (hhistory : E.History db log db') :
    OnlyFoundRow E m id db db' := by
  rcases says_update_iff.mp h with ⟨-, rfl, -⟩ | ⟨-, r, rfl, -⟩
  · exact .inl hhistory
  · obtain ⟨mid, hanswers, rfl⟩ := hhistory
    exact (KeyWrite.update changes).onlyFoundRow_of_answers rfl hanswers hkey hnames distinct

/-- A deletion removes the row that is found, or nothing. -/
theorem onlyFoundRow_of_delete {id : String} {log : List Exchange} {a : Except StorageError Nat}
    (hkey : m.keyValue? id = some key) (hnames : ∀ n ∈ names, n = m.keyField.name)
    (distinct : E.KeyDistinct names (db m.table)) (h : Says (delete m key).run log a)
    (hhistory : E.History db log db') : OnlyFoundRow E m id db db' := by
  obtain ⟨r, rfl, -⟩ := says_delete_iff.mp h
  obtain ⟨mid, hanswers, rfl⟩ := hhistory
  exact KeyWrite.delete.onlyFoundRow_of_answers rfl hanswers hkey hnames distinct

end RestTables.Rows
