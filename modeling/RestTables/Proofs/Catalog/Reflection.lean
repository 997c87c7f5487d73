import Mathlib.Data.List.Forall2
import RestTables.Proofs.Catalog.Groups
import RestTables.Proofs.Sql.Like
import RestTables.Proofs.Storage.Answers

/-
Module: RestTables.Proofs.Catalog.Reflection
Purpose: What is read from the catalog of a SQLite database. Tables, columns and indexes may be any; the database tells
  of them in rows whose cells are known. Everything is read as it is told, except that an index over one part that is
  no column stops the reading, and that a name need not be reserved to be passed over.
Main exports: Lite.Entry, Lite.Entry.table, Lite.Tells, Lite.resultOf_tables, Lite.tables_are_read_iff,
  Lite.reading_stops
-/

namespace RestTables.Catalog.Lite

open Dialogue

/-! ## What a database holds -/

/-- An index. A part of it that is no column, but an expression or the number of the row, has no name. -/
structure Index where
  name : String
  isUnique : Bool
  /-- How it came about: `pk` for that of the key. -/
  origin : String
  parts : List (Option String)

/-- A column as it was declared. -/
structure Column where
  name : String
  type : String
  notNull : Bool
  /-- Its place in the key, from one on; zero outside. -/
  keyPlace : Nat
  default? : Option String

/-- A column of a foreign key. All columns of one key have its number. -/
structure KeyPart where
  number : Int
  column : String
  target : String
  targetColumn : Option String

/-- A table. -/
structure Entry where
  name : String
  indexes : List Index
  columns : List Column
  keyParts : List KeyPart

namespace Index

/-- Rows are kept apart by this index, and not because they have different keys. -/
def keepsApart (i : Index) : Bool := i.isUnique && i.origin != "pk"

/-- The index keeps rows apart by one column. -/
def isOn (i : Index) (column : String) : Bool := i.keepsApart && i.parts == [some column]

/-- The index keeps rows apart by one part that is no column. -/
def isNameless (i : Index) : Bool := i.keepsApart && i.parts == [none]

/-- The one column of the index. -/
def column? (i : Index) : Option String :=
  if i.keepsApart then
    match i.parts with
    | [part] => part
    | _ => none
  else none

theorem column?_eq_some_iff {i : Index} {column : String} : i.column? = some column ↔ i.isOn column = true := by
  unfold column? isOn
  split
  · next hapart =>
    match hparts : i.parts with
    | [] => simp
    | [part] => simp [hapart]
    | _ :: _ :: _ => simp
  · next hnot => simp [hnot]

end Index

/-- A column as a field of a table whose key has some number of columns. -/
def Column.field (c : Column) (keys : Nat) (isUnique : Bool) : Field where
  name := c.name
  kind := Kind.ofSqlType c.type
  sqlType := c.type
  isPrimary := decide (0 < c.keyPlace)
  autoIncrement := decide (0 < c.keyPlace) && keys == 1 && Text.sameFold c.type "INTEGER"
  nullable := !(c.notNull || decide (0 < c.keyPlace))
  isUnique
  hasDefault := c.default?.isSome
  comment := none

namespace Entry

/-- The table as it is to be read. A field has no equal values when some index keeps rows apart by that one column, and
of the foreign keys those of one column are kept. -/
def table (e : Entry) : Table where
  name := e.name
  comment := none
  columns := e.columns.map fun c =>
    c.field (e.columns.filter fun c => decide (0 < c.keyPlace)).length (e.indexes.any (·.isOn c.name))
  foreignKeys := lone (e.keyParts.map fun k => (k.number, ⟨k.column, k.target, k.targetColumn⟩))

/-- An index of the table keeps rows apart by one part that is no column. -/
def isBlocked (e : Entry) : Bool := e.indexes.any (·.isNameless)

/-- The table is one of the database's own: its name is reserved, whatever the case. -/
def isInternal (e : Entry) : Bool := "sqlite_".toList.isPrefixOf (e.name.toList.map Char.toLower)

/-- The table is one of the user's, and not the one in which migrations are recorded. -/
def isUsers (e : Entry) : Bool := !e.isInternal && e.name != migrationsTable

/-- The table is among those that are asked for. The pattern compares letters whatever their case; no character in it
is escaped. -/
def isListed (e : Entry) : Bool :=
  !Sql.likeHolds (Sql.sameUpper Char.toLower) '\\' "sqlite_%".toList e.name.toList

end Entry

/-! ## What it tells -/

/-- A row tells of an index. -/
structure Index.IsToldBy (i : Index) (row : Cells) : Prop where
  unique : row.int? "unique" = some (if i.isUnique then 1 else 0)
  origin : row.text? "origin" = some i.origin
  name : row.text? "name" = some i.name

/-- A row tells of a column. -/
structure Column.IsToldBy (c : Column) (row : Cells) : Prop where
  name : row.text? "name" = some c.name
  type : row.text? "type" = some c.type
  notNull : row.int? "notnull" = some (if c.notNull then 1 else 0)
  keyPlace : row.int? "pk" = some c.keyPlace
  default : row.text? "dflt_value" = c.default?

/-- A row tells of a column of a foreign key. -/
structure KeyPart.IsToldBy (k : KeyPart) (row : Cells) : Prop where
  number : row.int? "id" = some k.number
  column : row.text? "from" = some k.column
  target : row.text? "table" = some k.target
  targetColumn : row.text? "to" = k.targetColumn

/-- A question is answered with rows that tell of some things, in order. -/
def IsAnswered (answers : Answers) (q : Sql.CatalogQuery) (tells : α → Cells → Prop) (things : List α) : Prop :=
  ∃ rows, answers (.catalog q) = .ok rows ∧ List.Forall₂ tells things rows

/-- A database with some tables, in the order of their names, answers all questions about them. A part of an index that
is no column is told of in a row without a name. -/
structure Tells (answers : Answers) (entries : List Entry) : Prop where
  tables : IsAnswered answers .liteTables (fun e row => row.text? "name" = some e.name) (entries.filter (·.isListed))
  indexes : ∀ e ∈ entries, IsAnswered answers (.liteIndexes e.name) Index.IsToldBy e.indexes
  parts : ∀ e ∈ entries, ∀ i ∈ e.indexes,
    IsAnswered answers (.liteIndexColumns i.name) (fun part row => row.text? "name" = part) i.parts
  columns : ∀ e ∈ entries, IsAnswered answers (.liteColumns e.name) Column.IsToldBy e.columns
  keyParts : ∀ e ∈ entries, IsAnswered answers (.liteForeignKeys e.name) KeyPart.IsToldBy e.keyParts

/-! ## Reading -/

section Reading

variable {answers : Answers}

/-- Of a list whose members are read one by one, the first that cannot be read decides. -/
theorem resultOf_mapM {tells : α → Cells → Prop} {f : Cells → Session β} {g : α → Except StorageError β} {as : List α}
    {rows : List Cells} (h : List.Forall₂ tells as rows)
    (hf : ∀ a ∈ as, ∀ row, tells a row → resultOf answers (f row).run = g a) :
    resultOf answers (rows.mapM f).run = as.mapM g := by
  induction h with
  | nil => rfl
  | cons hrow _ ih =>
    obtain ⟨hfirst, hrest⟩ := List.forall_mem_cons.mp hf
    rw [List.mapM_cons, List.mapM_cons, resultOf_run_bind, hfirst _ hrow]
    congr 1
    funext b
    rw [resultOf_run_bind, ih hrest]
    rfl

/-- Where there is one reason not to be read, a list is read if none of its members has it. -/
theorem mapM_eq_ite {ε : Type} {blocked : α → Bool} {g : α → β} {e : ε} {f : α → Except ε β} {l : List α}
    (h : ∀ a ∈ l, f a = if blocked a then .error e else .ok (g a)) :
    l.mapM f = if l.any blocked then .error e else .ok (l.map g) := by
  induction l with
  | nil => rfl
  | cons a l ih =>
    obtain ⟨hfirst, hrest⟩ := List.forall_mem_cons.mp h
    rw [List.mapM_cons, hfirst, ih hrest, List.any_cons]
    cases blocked a with
    | true => rfl
    | false =>
      cases l.any blocked with
      | true => rfl
      | false => rfl

theorem int_eq_ok {cells : Cells} {name : String} {n : Int} (h : cells.int? name = some n) :
    cells.int name = .ok n := by
  rw [Cells.int, h]

theorem text_eq_ok {cells : Cells} {name text : String} (h : cells.text? name = some text) :
    cells.text name = .ok text := by
  rw [Cells.text, h]

theorem text_eq_error {cells : Cells} {name : String} (h : cells.text? name = none) :
    cells.text name = .error (.nullCell name) := by
  rw [Cells.text, h]

/-- The name of the one part is wanted of an index that keeps rows apart, and there may be none. -/
theorem resultOf_uniqueColumn {i : Index} {row : Cells} (h : i.IsToldBy row)
    (hparts : IsAnswered answers (.liteIndexColumns i.name) (fun part row => row.text? "name" = part) i.parts) :
    resultOf answers (uniqueColumn row).run =
      if i.isNameless then .error (.nullCell "name") else .ok i.column? := by
  obtain ⟨rows, hanswer, hrows⟩ := hparts
  have hask : resultOf answers (ask (.liteIndexColumns i.name)).run = .ok rows := hanswer
  rw [uniqueColumn, resultOf_lift_bind (int_eq_ok h.unique), resultOf_lift_bind (text_eq_ok h.origin)]
  have hskips : ((if i.isUnique then (1 : Int) else 0) = 0 ∨ i.origin = "pk") ↔ i.keepsApart = false := by
    cases hunique : i.isUnique <;> simp [Index.keepsApart, hunique]
  by_cases hapart : i.keepsApart = true
  · rw [if_neg (mt hskips.mp (by simp [hapart])), resultOf_lift_bind (text_eq_ok h.name),
      resultOf_except_bind hask]
    unfold Index.isNameless Index.column?
    rw [hapart, if_pos rfl]
    -- only an index of one part is looked at
    match i.parts, rows, hrows with
    | [], [], _ => rfl
    | [part], [row], .cons hpart _ =>
      cases part with
      | none =>
        simp only [resultOf_run_bind, text_eq_error hpart]
        rfl
      | some column =>
        simp only [resultOf_run_bind, text_eq_ok hpart]
        rfl
    | _ :: _ :: _, _ :: _ :: _, _ => simp; rfl
  · rw [Bool.not_eq_true] at hapart
    rw [if_pos (hskips.mpr hapart)]
    simp only [Index.isNameless, Index.column?, hapart, Bool.false_and, Bool.false_eq_true, if_false]
    rfl

section Marks

variable {p : Prop} [Decidable p] (f : Field)

theorem ite_primaryKey : (if p then f.primaryKey else f) =
    { f with isPrimary := f.isPrimary || decide p, nullable := f.nullable && !decide p } := by
  by_cases h : p <;> simp [h, Field.primaryKey]

theorem ite_autoIncremented :
    (if p then f.autoIncremented else f) = { f with autoIncrement := f.autoIncrement || decide p } := by
  by_cases h : p <;> simp [h, Field.autoIncremented]

theorem ite_notNull : (if p then f else f.notNull) = { f with nullable := f.nullable && decide p } := by
  by_cases h : p <;> simp [h, Field.notNull]

theorem ite_withDefault : (if p then f.withDefault else f) = { f with hasDefault := f.hasDefault || decide p } := by
  by_cases h : p <;> simp [h, Field.withDefault]

theorem ite_unique : (if p then f.unique else f) = { f with isUnique := f.isUnique || decide p } := by
  by_cases h : p <;> simp [h, Field.unique]

end Marks

/-- A column is read as it is told. -/
theorem field_eq_ok {c : Column} {row : Cells} (h : c.IsToldBy row) (keys : Nat) (unique : List String) :
    field keys unique row = .ok (c.field keys (unique.contains c.name)) := by
  have hnull : ((if c.notNull then (1 : Int) else 0) = 0) ↔ c.notNull = false := by cases c.notNull <;> simp
  have hplace : ((c.keyPlace : Int) > 0) ↔ 0 < c.keyPlace := Int.natCast_pos
  rw [field, text_eq_ok h.name, text_eq_ok h.type, int_eq_ok h.notNull, int_eq_ok h.keyPlace, h.default]
  refine congrArg Except.ok ?_
  simp only [ite_primaryKey, ite_autoIncremented, ite_notNull, ite_withDefault, ite_unique, Field.new, Column.field,
    hnull, hplace]
  simp [Bool.and_comm, beq_eq_decide]

/-- A column of a foreign key is read as it is told. -/
theorem foreignKey_eq_ok {k : KeyPart} {row : Cells} (h : k.IsToldBy row) :
    foreignKey row = .ok (k.number, ⟨k.column, k.target, k.targetColumn⟩) := by
  rw [foreignKey, int_eq_ok h.number, text_eq_ok h.column, text_eq_ok h.target, h.targetColumn]
  rfl

/-- The columns of the key are counted as they are told. -/
theorem length_filter_isKey {columns : List Column} {rows : List Cells}
    (h : List.Forall₂ Column.IsToldBy columns rows) :
    (rows.filter isKey).length = (columns.filter fun c => decide (0 < c.keyPlace)).length := by
  induction h with
  | nil => rfl
  | @cons c row _ _ hrow _ ih =>
    have hkey : isKey row = decide (0 < c.keyPlace) := by simp [isKey, hrow.keyPlace]
    rw [List.filter_cons, List.filter_cons, hkey]
    split
    · rw [List.length_cons, List.length_cons, ih]
    · exact ih

/-- What is read of a list is read of all its members. -/
theorem mapM_eq_ok {f : Cells → Except StorageError β} {tells : α → Cells → Prop} {g : α → β} {as : List α}
    {rows : List Cells} (h : List.Forall₂ tells as rows) (hf : ∀ a row, tells a row → f row = .ok (g a)) :
    rows.mapM f = .ok (as.map g) := by
  induction h with
  | nil => rfl
  | cons hrow _ ih =>
    rw [List.mapM_cons, hf _ _ hrow, ih]
    rfl

/-- Of the foreign keys of a table those of one column are read. -/
theorem resultOf_loneKeys [BEq κ] [LawfulBEq κ] {q : Sql.CatalogQuery} {tells : α → Cells → Prop} {parts : List α}
    {entry : Cells → Except StorageError (κ × ForeignKey)} {f : α → κ × ForeignKey}
    (h : IsAnswered answers q tells parts) (hentry : ∀ part row, tells part row → entry row = .ok (f part)) :
    resultOf answers (loneKeys q entry).run = .ok (lone (parts.map f)) := by
  obtain ⟨rows, hanswer, hrows⟩ := h
  have hask : resultOf answers (ask q).run = .ok rows := hanswer
  rw [loneKeys, resultOf_except_bind hask, resultOf_lift_bind (mapM_eq_ok hrows hentry), ← Groups.singles_ofEntries]
  rfl

variable {entries : List Entry} (h : Tells answers entries)

include h

theorem resultOf_uniqueColumns {e : Entry} (he : e ∈ entries) :
    resultOf answers (uniqueColumns e.name).run =
      if e.isBlocked then .error (.nullCell "name") else .ok (e.indexes.filterMap Index.column?) := by
  obtain ⟨rows, hanswer, hrows⟩ := h.indexes e he
  have hask : resultOf answers (ask (.liteIndexes e.name)).run = .ok rows := hanswer
  rw [uniqueColumns, resultOf_except_bind hask, resultOf_run_bind,
    resultOf_mapM (g := fun i => if i.isNameless then .error (.nullCell "name") else .ok i.column?) hrows
      fun i hi row hrow => resultOf_uniqueColumn hrow (h.parts e he i hi),
    mapM_eq_ite fun i _ => rfl]
  unfold Entry.isBlocked
  split
  · rfl
  · exact congrArg Except.ok (List.filterMap_map ..)

omit h in
theorem contains_uniqueColumns (indexes : List Index) (column : String) :
    (indexes.filterMap Index.column?).contains column = indexes.any (·.isOn column) := by
  rw [Bool.eq_iff_iff, List.contains_iff_mem, List.mem_filterMap, List.any_eq_true]
  simp only [Index.column?_eq_some_iff]

/-- A table is read as it is told, unless one of its indexes keeps that from happening. -/
theorem resultOf_table {e : Entry} (he : e ∈ entries) :
    resultOf answers (table e.name).run = if e.isBlocked then .error (.nullCell "name") else .ok e.table := by
  obtain ⟨info, hcolumns, hinfo⟩ := h.columns e he
  have hcolumns : resultOf answers (ask (.liteColumns e.name)).run = .ok info := hcolumns
  rw [table, resultOf_run_bind, resultOf_uniqueColumns h he]
  split
  · rfl
  · have hfields := mapM_eq_ok hinfo fun c row hrow =>
      field_eq_ok hrow (info.filter isKey).length (e.indexes.filterMap Index.column?)
    show resultOf answers (ExceptT.run (ask (.liteColumns e.name) >>= _)) = _
    have hkeys := resultOf_loneKeys (h.keyParts e he) fun k row hrow => foreignKey_eq_ok hrow
    rw [resultOf_except_bind hcolumns, resultOf_lift_bind hfields, foreignKeys, resultOf_except_bind hkeys]
    simp only [contains_uniqueColumns, length_filter_isKey hinfo]
    rfl

/-- All tables that are asked for are read one after the other, without that of the migrations. -/
theorem resultOf_tablesOf {listed : List Entry} {rows : List Cells}
    (hrows : List.Forall₂ (fun e row => row.text? "name" = some e.name) listed rows) (hsub : listed ⊆ entries) :
    resultOf answers (tablesOf rows).run =
      if (listed.filter (·.name != migrationsTable)).any (·.isBlocked) then .error (.nullCell "name")
      else .ok ((listed.filter (·.name != migrationsTable)).map (·.table)) := by
  induction hrows with
  | nil => rfl
  | @cons e row listed rows hrow _ ih =>
    obtain ⟨he, hsub⟩ := List.cons_subset.mp hsub
    rw [tablesOf, resultOf_lift_bind (text_eq_ok hrow)]
    by_cases hmigrations : e.name = migrationsTable
    · have hleft : (e :: listed).filter (·.name != migrationsTable) = listed.filter (·.name != migrationsTable) :=
        List.filter_cons_of_neg (by simp [hmigrations])
      rw [if_pos hmigrations, ih hsub, hleft]
    · have hkept :
          (e :: listed).filter (·.name != migrationsTable) = e :: listed.filter (·.name != migrationsTable) :=
        List.filter_cons_of_pos (by simp [hmigrations])
      rw [if_neg hmigrations, hkept, resultOf_run_bind, resultOf_table h he, List.any_cons]
      cases e.isBlocked with
      | true => rfl
      | false =>
        show resultOf answers (ExceptT.run (tablesOf rows >>= _)) = _
        rw [resultOf_run_bind, ih hsub, Bool.false_or]
        split <;> rfl

/-- The tables that are read: those that are asked for, without that of the migrations. -/
theorem resultOf_tables (schema : Option String) :
    let read := (entries.filter (·.isListed)).filter (·.name != migrationsTable)
    resultOf answers (Catalog.tables .sqlite schema).run =
      if read.any (·.isBlocked) then .error (.storage (.nullCell "name")) else .ok (read.map (·.table)) := by
  intro read
  obtain ⟨rows, hanswer, hrows⟩ := h.tables
  have hask : resultOf answers (ask .liteTables).run = .ok rows := hanswer
  have hread : resultOf answers tables.run =
      if read.any (·.isBlocked) then .error (.nullCell "name") else .ok (read.map (·.table)) := by
    rw [tables, resultOf_except_bind hask, resultOf_tablesOf h hrows (List.filter_subset_self _)]
  have hrun : (Catalog.tables .sqlite schema).run =
      Dialogue.bind tables.run fun r => .done (r.mapError ConfigError.storage) := rfl
  rw [hrun, resultOf_bind, hread]
  split <;> rfl

end Reading

/-! ## Tables of the user -/

/-- A reserved name is passed over. -/
theorem Entry.isListed_eq_false_of_isInternal {e : Entry} (h : e.isInternal = true) : e.isListed = false := by
  let parts := "sqlite".toList.map Sql.PatternPart.char ++ [.anyOne, .anything]
  have hparts : Sql.patternParts? '\\' "sqlite_%".toList = some parts := by decide
  have hsmall : parts.map (Sql.PatternPart.map Char.toLower) = parts := by decide
  obtain ⟨rest, hname⟩ := List.isPrefixOf_iff_prefix.mp h
  unfold isListed Sql.likeHolds
  rw [hparts]
  show (!Sql.partsMatch (Sql.sameUpper Char.toLower) parts e.name.toList) = false
  rw [← Sql.partsMatch_map_upper, hsmall, ← hname]
  simp [parts, Sql.partsMatch]

theorem Entry.isUsers_of_isListed {e : Entry} (hlisted : e.isListed = true)
    (hname : (e.name != migrationsTable) = true) : e.isUsers = true := by
  have hnot : e.isInternal = false := by
    by_contra hinternal
    rw [Bool.not_eq_false] at hinternal
    rw [Entry.isListed_eq_false_of_isInternal hinternal] at hlisted
    cases hlisted
  rw [Entry.isUsers, hnot, hname]
  rfl

/-- What is asked for are tables of the user, or else that of the migrations. -/
theorem filter_isListed_sublist (entries : List Entry) :
    ((entries.filter (·.isListed)).filter (·.name != migrationsTable)).Sublist (entries.filter (·.isUsers)) := by
  rw [List.filter_filter]
  refine List.monotone_filter_right _ fun e he => ?_
  obtain ⟨hname, hlisted⟩ := Bool.and_eq_true_iff.mp he
  exact Entry.isUsers_of_isListed hlisted hname

/-- They are all tables of the user where none of these is passed over. -/
theorem filter_isListed_eq_iff {entries : List Entry} :
    (entries.filter (·.isListed)).filter (·.name != migrationsTable) = entries.filter (·.isUsers) ↔
      ∀ e ∈ entries, e.isUsers = true → e.isListed = true := by
  constructor
  · intro heq e he husers
    have hmem : e ∈ (entries.filter (·.isListed)).filter (·.name != migrationsTable) := by
      rw [heq]
      exact List.mem_filter.mpr ⟨he, husers⟩
    exact (List.mem_filter.mp (List.mem_filter.mp hmem).1).2
  · intro h
    rw [List.filter_filter]
    refine List.filter_congr fun e he => Bool.eq_iff_iff.mpr ⟨fun hread => ?_, fun husers => ?_⟩
    · obtain ⟨hname, hlisted⟩ := Bool.and_eq_true_iff.mp hread
      exact Entry.isUsers_of_isListed hlisted hname
    · exact Bool.and_eq_true_iff.mpr ⟨(Bool.and_eq_true_iff.mp husers).2, h e he husers⟩

/-- A field has no equal values exactly when some index keeps rows apart, is not that of the key, and consists of that
one column. -/
theorem Entry.isUnique_iff {e : Entry} {f : Field} (hf : f ∈ e.table.columns) :
    f.isUnique = true ↔ ∃ i ∈ e.indexes, i.isUnique = true ∧ i.origin ≠ "pk" ∧ i.parts = [some f.name] := by
  obtain ⟨c, -, rfl⟩ := List.mem_map.mp hf
  simp [Column.field, Index.isOn, Index.keepsApart, and_assoc]

/-- All tables of the user are read, in their order and with all that is told of them, if and only if none of them is
passed over or has an index over one part that is no column. Such an index in a table that is asked for stops the
reading of the whole database. -/
theorem tables_are_read_iff {answers : Answers} {entries : List Entry} (h : Tells answers entries)
    (schema : Option String) :
    (resultOf answers (Catalog.tables .sqlite schema).run = .ok ((entries.filter (·.isUsers)).map (·.table)) ↔
        ∀ e ∈ entries, e.isUsers = true → e.isListed = true ∧ e.isBlocked = false) ∧
      ((∃ e ∈ entries, e.isListed = true ∧ e.name ≠ migrationsTable ∧ e.isBlocked = true) →
        resultOf answers (Catalog.tables .sqlite schema).run = .error (.storage (.nullCell "name"))) ∧
      ∀ e ∈ entries, e.table.name = e.name ∧ e.table.columns.map (·.name) = e.columns.map (·.name) ∧
        ∀ f ∈ e.table.columns, f.isUnique = true ↔
          ∃ i ∈ e.indexes, i.isUnique = true ∧ i.origin ≠ "pk" ∧ i.parts = [some f.name] := by
  have hresult := resultOf_tables h schema
  simp only at hresult
  refine ⟨⟨fun hread => ?_, fun hall => ?_⟩, ?_, ?_⟩
  · rw [hresult] at hread
    split at hread
    · cases hread
    · next hopen =>
      -- Listed entries are some of the user's. As many of them means all of them.
      have hsame := congrArg List.length (Except.ok.inj hread)
      rw [List.length_map, List.length_map] at hsame
      have heq := (filter_isListed_sublist entries).eq_of_length hsame
      rw [heq] at hopen
      intro e he husers
      refine ⟨filter_isListed_eq_iff.mp heq e he husers, ?_⟩
      by_contra hblocked
      exact hopen (List.any_eq_true.mpr ⟨e, List.mem_filter.mpr ⟨he, husers⟩, by simpa using hblocked⟩)
  · rw [hresult, filter_isListed_eq_iff.mpr fun e he husers => (hall e he husers).1, if_neg]
    intro hblocked
    obtain ⟨e, he, hblocked⟩ := List.any_eq_true.mp hblocked
    obtain ⟨he, husers⟩ := List.mem_filter.mp he
    rw [(hall e he husers).2] at hblocked
    cases hblocked
  · rintro ⟨e, he, hlisted, hname, hblocked⟩
    rw [hresult, if_pos]
    refine List.any_eq_true.mpr ⟨e, ?_, hblocked⟩
    exact List.mem_filter.mpr ⟨List.mem_filter.mpr ⟨he, hlisted⟩, by simpa using hname⟩
  · intro e _
    refine ⟨rfl, ?_, fun f hf => Entry.isUnique_iff hf⟩
    exact List.map_map ..

/-! ## Accounts -/

/-- A table of accounts that an index keeps apart. -/
def account (name : String) (parts : List (Option String)) : Entry where
  name
  indexes := [⟨"account_apart", true, "c", parts⟩]
  columns := [⟨"id", "INTEGER", true, 1, none⟩, ⟨"email", "TEXT", false, 0, none⟩]
  keyParts := []

/-- What is told of it. -/
def accountAnswers (name : String) (parts : List (Option String)) : Answers
  | .catalog .liteTables =>
    .ok (([account name parts].filter (·.isListed)).map fun e => [("name", .string (some e.name))])
  | .catalog (.liteIndexes _) =>
    .ok [[("name", .string (some "account_apart")), ("unique", .bigInt (some 1)), ("origin", .string (some "c"))]]
  | .catalog (.liteIndexColumns _) => .ok (parts.map fun part => [("name", .string part)])
  | .catalog (.liteColumns _) =>
    .ok [[("name", .string (some "id")), ("type", .string (some "INTEGER")), ("notnull", .bigInt (some 1)),
          ("pk", .bigInt (some 1))],
        [("name", .string (some "email")), ("type", .string (some "TEXT")), ("notnull", .bigInt (some 0)),
          ("pk", .bigInt (some 0))]]
  | _ => .ok []

theorem tells_accountAnswers (name : String) (parts : List (Option String)) :
    Tells (accountAnswers name parts) [account name parts] where
  tables := by
    refine ⟨_, rfl, List.forall₂_map_right_iff.mpr (List.forall₂_same.mpr fun e _ => rfl)⟩
  indexes := by
    rintro e he
    obtain rfl := List.mem_singleton.mp he
    exact ⟨_, rfl, .cons ⟨rfl, rfl, rfl⟩ .nil⟩
  parts := by
    rintro e he i hi
    obtain rfl := List.mem_singleton.mp he
    obtain rfl := List.mem_singleton.mp hi
    refine ⟨_, rfl, List.forall₂_map_right_iff.mpr (List.forall₂_same.mpr fun part _ => ?_)⟩
    cases part <;> rfl
  columns := by
    rintro e he
    obtain rfl := List.mem_singleton.mp he
    exact ⟨_, rfl, .cons ⟨rfl, rfl, rfl, rfl, rfl⟩ (.cons ⟨rfl, rfl, rfl, rfl, rfl⟩ .nil)⟩
  keyParts := by
    rintro e he
    obtain rfl := List.mem_singleton.mp he
    exact ⟨_, rfl, .nil⟩

/-- Accounts with different addresses are read as such. -/
theorem accounts_are_read :
    let e := account "account" [some "email"]
    Tells (accountAnswers "account" [some "email"]) [e] ∧
    resultOf (accountAnswers "account" [some "email"]) (Catalog.tables .sqlite none).run = .ok [e.table] ∧
    e.table.columns.map (fun f => (f.name, f.isUnique)) = [("id", false), ("email", true)] := by
  intro e
  have htells := tells_accountAnswers "account" [some "email"]
  refine ⟨htells, (tables_are_read_iff htells none).1.mpr ?_, by decide +kernel⟩
  intro e he _
  obtain rfl := List.mem_singleton.mp he
  decide +kernel

/-- An index over what an expression gives stops the reading of a table of the user, and one whose name only resembles a
reserved one is passed over. -/
theorem reading_stops :
    let e := account "account" [none]
    let e' := account "sqlites" [some "email"]
    (Tells (accountAnswers "account" [none]) [e] ∧ e.isUsers = true ∧
      resultOf (accountAnswers "account" [none]) (Catalog.tables .sqlite none).run =
        .error (.storage (.nullCell "name"))) ∧
    (Tells (accountAnswers "sqlites" [some "email"]) [e'] ∧ e'.isUsers = true ∧
      resultOf (accountAnswers "sqlites" [some "email"]) (Catalog.tables .sqlite none).run = .ok []) := by
  intro e e'
  have htells : Tells (accountAnswers "account" [none]) [e] := tells_accountAnswers _ _
  have htells' : Tells (accountAnswers "sqlites" [some "email"]) [e'] := tells_accountAnswers _ _
  -- The name is like that of a reserved table, since an underscore stands for any character.
  have hnone : [e'].filter (·.isListed) = [] :=
    List.filter_eq_nil_iff.mpr (List.forall_mem_singleton.mpr (by decide +kernel))
  refine ⟨⟨htells, by decide +kernel, ?_⟩, htells', by decide +kernel, ?_⟩
  · exact (resultOf_tables htells none).trans (if_pos (by decide +kernel))
  · rw [resultOf_tables htells' none, hnone]
    rfl

end RestTables.Catalog.Lite
