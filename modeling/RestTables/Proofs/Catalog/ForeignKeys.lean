import RestTables.Proofs.Catalog.Reflection
import RestTables.Proofs.Registry.Start
import RestTables.Router

/-
Module: RestTables.Proofs.Catalog.ForeignKeys
Purpose: Which foreign keys are read from a catalog. It tells of each column of a key in a row of its own, in any order,
  and of what distinguishes the keys: a number in SQLite, the name of a constraint in PostgreSQL. The keys of one column
  are read, and every relation of a registry that is read from a database follows one of them.
Main exports: Postgres.KeyPart, HasLoneKey, hasLoneKey_of_mem_tables, keys_of_one_column_are_read
-/

namespace RestTables.Catalog

open Dialogue
open Lite (IsAnswered)

/-! ## What a catalog tells -/

/-- A foreign key of this one column. -/
def Lite.KeyPart.key (p : Lite.KeyPart) : ForeignKey := ⟨p.column, p.target, p.targetColumn⟩

/-- A column of a foreign key. All columns of one key have the name of its constraint. -/
structure Postgres.KeyPart where
  constraint : String
  column : String
  target : String
  targetColumn : String

/-- A foreign key of this one column. -/
def Postgres.KeyPart.key (p : Postgres.KeyPart) : ForeignKey := ⟨p.column, p.target, some p.targetColumn⟩

/-- A row tells of a column of a foreign key. -/
structure Postgres.KeyPart.IsToldBy (p : Postgres.KeyPart) (row : Cells) : Prop where
  constraint : row.text? "constraint_name" = some p.constraint
  column : row.text? "column_name" = some p.column
  target : row.text? "target_table" = some p.target
  targetColumn : row.text? "target_column" = some p.targetColumn

/-- A database tells of a foreign key of a table, and of no second column of that key. -/
inductive HasLoneKey (answers : Answers) (table : String) : ForeignKey → Prop
  | lite {parts : List Lite.KeyPart} {p : Lite.KeyPart}
    (told : IsAnswered answers (.liteForeignKeys table) Lite.KeyPart.IsToldBy parts) (mem : p ∈ parts)
    (alone : parts.countP (·.number == p.number) = 1) : HasLoneKey answers table p.key
  | postgres {schema : String} {parts : List Postgres.KeyPart} {p : Postgres.KeyPart}
    (told : IsAnswered answers (.postgresForeignKeys schema table) Postgres.KeyPart.IsToldBy parts) (mem : p ∈ parts)
    (alone : parts.countP (·.constraint == p.constraint) = 1) : HasLoneKey answers table p.key

/-! ## Rows -/

section Rows

variable {answers : Answers} {row : Cells}

/-- The entries that have keys of their own, where entries are made of other things. -/
theorem lone_map [BEq κ] (key : α → κ) (value : α → β) (parts : List α) :
    lone (parts.map fun p => (key p, value p)) =
      (parts.filter fun p => parts.countP (key · == key p) == 1).map value := by
  simp only [lone, List.filter_map, List.map_map, List.length_map, List.countP_eq_length_filter, Function.comp_def]

theorem int?_of_int {name : String} {n : Int} (h : row.int name = .ok n) : row.int? name = some n := by
  unfold Cells.int at h
  split at h
  · next hcell =>
    cases h
    exact hcell
  · cases h

theorem text?_of_text {name text : String} (h : row.text name = .ok text) : row.text? name = some text := by
  unfold Cells.text at h
  split at h
  · next hcell =>
    cases h
    exact hcell
  · cases h

/-- What is read of a column of a foreign key was told. -/
theorem Lite.exists_isToldBy {entry : Int × ForeignKey} (h : Lite.foreignKey row = .ok entry) :
    ∃ p : Lite.KeyPart, p.IsToldBy row := by
  obtain ⟨number, hnumber, h⟩ := exists_of_bind_eq_ok h
  obtain ⟨column, hcolumn, h⟩ := exists_of_bind_eq_ok h
  obtain ⟨target, htarget, -⟩ := exists_of_bind_eq_ok h
  exact ⟨⟨number, column, target, row.text? "to"⟩, int?_of_int hnumber, text?_of_text hcolumn,
    text?_of_text htarget, rfl⟩

theorem Postgres.foreignKey_eq_ok {p : Postgres.KeyPart} (h : p.IsToldBy row) :
    Postgres.foreignKey row = .ok (p.constraint, p.key) := by
  rw [foreignKey, Lite.text_eq_ok h.constraint, Lite.text_eq_ok h.column, Lite.text_eq_ok h.target,
    Lite.text_eq_ok h.targetColumn]
  rfl

/-- What is read of a column of a foreign key was told. -/
theorem Postgres.exists_isToldBy {entry : String × ForeignKey} (h : Postgres.foreignKey row = .ok entry) :
    ∃ p : Postgres.KeyPart, p.IsToldBy row := by
  obtain ⟨constraint, hconstraint, h⟩ := exists_of_bind_eq_ok h
  obtain ⟨column, hcolumn, h⟩ := exists_of_bind_eq_ok h
  obtain ⟨target, htarget, h⟩ := exists_of_bind_eq_ok h
  obtain ⟨targetColumn, htargetColumn, -⟩ := exists_of_bind_eq_ok h
  exact ⟨⟨constraint, column, target, targetColumn⟩, text?_of_text hconstraint, text?_of_text hcolumn,
    text?_of_text htarget, text?_of_text htargetColumn⟩

/-- Rows that are read were told. -/
theorem exists_forall₂_of_mapM {β : Type} {tells : α → Cells → Prop} {f : Cells → Except StorageError β}
    (hf : ∀ row b, f row = .ok b → ∃ a, tells a row) {rows : List Cells} {bs : List β} (h : rows.mapM f = .ok bs) :
    ∃ as, List.Forall₂ tells as rows := by
  replace h := mapM_eq_ok_iff.mp h
  induction h with
  | nil => exact ⟨[], .nil⟩
  | cons hfirst _ ih =>
    obtain ⟨a, ha⟩ := hf _ _ hfirst
    obtain ⟨as, has⟩ := ih
    exact ⟨a :: as, .cons ha has⟩

/-- The keys of one column are read, as the rows tell of them. -/
theorem resultOf_loneKeys_eq {κ : Type} [BEq κ] [LawfulBEq κ] {q : Sql.CatalogQuery} {tells : α → Cells → Prop}
    {parts : List α} {entry : Cells → Except StorageError (κ × ForeignKey)} {name : α → κ} {key : α → ForeignKey}
    (htold : ∀ p row, tells p row → entry row = .ok (name p, key p)) (h : IsAnswered answers q tells parts) :
    resultOf answers (loneKeys q entry).run =
      .ok ((parts.filter fun p => parts.countP (name · == name p) == 1).map key) := by
  rw [← lone_map name key]
  exact Lite.resultOf_loneKeys h htold

/-- A key that is read was told of in one row. -/
theorem exists_of_mem_loneKeys {κ : Type} [BEq κ] [LawfulBEq κ] {q : Sql.CatalogQuery} {tells : α → Cells → Prop}
    {entry : Cells → Except StorageError (κ × ForeignKey)} {name : α → κ} (key : α → ForeignKey)
    (hread : ∀ row e, entry row = .ok e → ∃ p, tells p row)
    (htold : ∀ p row, tells p row → entry row = .ok (name p, key p)) {keys : List ForeignKey}
    (h : resultOf answers (loneKeys q entry).run = .ok keys) {k : ForeignKey} (hk : k ∈ keys) :
    ∃ parts p, IsAnswered answers q tells parts ∧ p ∈ parts ∧ parts.countP (name · == name p) = 1 ∧ key p = k := by
  obtain ⟨rows, hrows, hread'⟩ := exists_of_resultOf_bind h
  obtain ⟨entries, hentries, -⟩ := exists_of_resultOf_bind hread'
  obtain ⟨parts, hparts⟩ := exists_forall₂_of_mapM hread hentries
  have hanswered : IsAnswered answers q tells parts := ⟨rows, hrows, hparts⟩
  rw [resultOf_loneKeys_eq htold hanswered] at h
  cases h
  obtain ⟨p, hp, rfl⟩ := List.mem_map.mp hk
  obtain ⟨hmem, halone⟩ := List.mem_filter.mp hp
  exact ⟨parts, p, hanswered, hmem, beq_iff_eq.mp halone, rfl⟩

end Rows

/-! ## Tables -/

section Tables

variable {answers : Answers} {table : String}

theorem Lite.resultOf_foreignKeys {parts : List Lite.KeyPart}
    (h : IsAnswered answers (.liteForeignKeys table) Lite.KeyPart.IsToldBy parts) :
    resultOf answers (Lite.foreignKeys table).run =
      .ok ((parts.filter fun p => parts.countP (·.number == p.number) == 1).map (·.key)) :=
  resultOf_loneKeys_eq (fun _ _ => foreignKey_eq_ok) h

theorem Postgres.resultOf_foreignKeys {schema : String} {parts : List Postgres.KeyPart}
    (h : IsAnswered answers (.postgresForeignKeys schema table) Postgres.KeyPart.IsToldBy parts) :
    resultOf answers (Postgres.foreignKeys schema table).run =
      .ok ((parts.filter fun p => parts.countP (·.constraint == p.constraint) == 1).map (·.key)) :=
  resultOf_loneKeys_eq (fun _ _ => foreignKey_eq_ok) h

theorem Lite.hasLoneKey {keys : List ForeignKey} (h : resultOf answers (Lite.foreignKeys table).run = .ok keys)
    {key : ForeignKey} (hkey : key ∈ keys) : HasLoneKey answers table key := by
  obtain ⟨parts, p, htold, hmem, halone, rfl⟩ := exists_of_mem_loneKeys Lite.KeyPart.key
    (fun _ _ => exists_isToldBy) (fun _ _ => foreignKey_eq_ok) h hkey
  exact .lite htold hmem halone

theorem Postgres.hasLoneKey {schema : String} {keys : List ForeignKey}
    (h : resultOf answers (Postgres.foreignKeys schema table).run = .ok keys) {key : ForeignKey} (hkey : key ∈ keys) :
    HasLoneKey answers table key := by
  obtain ⟨parts, p, htold, hmem, halone, rfl⟩ := exists_of_mem_loneKeys Postgres.KeyPart.key
    (fun _ _ => exists_isToldBy) (fun _ _ => foreignKey_eq_ok) h hkey
  exact .postgres htold hmem halone

/-- A table has the name that was asked for and the foreign keys of one column. -/
theorem Lite.of_resultOf_table {t : Table} (h : resultOf answers (Lite.table table).run = .ok t) :
    t.name = table ∧ resultOf answers (Lite.foreignKeys table).run = .ok t.foreignKeys := by
  obtain ⟨unique, -, h⟩ := exists_of_resultOf_bind h
  obtain ⟨info, -, h⟩ := exists_of_resultOf_bind h
  obtain ⟨columns, -, h⟩ := exists_of_resultOf_bind h
  obtain ⟨keys, hkeys, h⟩ := exists_of_resultOf_bind h
  cases h
  exact ⟨rfl, hkeys⟩

theorem Postgres.of_resultOf_table {schema : String} {comment : Option String} {t : Table}
    (h : resultOf answers (Postgres.table schema table comment).run = .ok t) :
    t.name = table ∧ resultOf answers (Postgres.foreignKeys schema table).run = .ok t.foreignKeys := by
  obtain ⟨keys, -, h⟩ := exists_of_resultOf_bind h
  obtain ⟨unique, -, h⟩ := exists_of_resultOf_bind h
  obtain ⟨info, -, h⟩ := exists_of_resultOf_bind h
  obtain ⟨columns, -, h⟩ := exists_of_resultOf_bind h
  obtain ⟨keys, hkeys, h⟩ := exists_of_resultOf_bind h
  cases h
  exact ⟨rfl, hkeys⟩

/-- What holds of each table as it is read holds of all that are read in a pass over the rows that name them. -/
theorem forall_mem_of_pass (read : Cells → String → Session Table) {pass : List Cells → Session (List Table)}
    {column : String} {P : Table → Prop} (hnil : pass [] = pure [])
    (hcons : ∀ row rows, pass (row :: rows) = do
      let name ← (row.text column : Except StorageError _)
      if name = migrationsTable then pass rows
      else
        let t ← read row name
        return t :: (← pass rows))
    (hread : ∀ row name t, resultOf answers (read row name).run = .ok t → P t) {rows : List Cells}
    {tables : List Table} (h : resultOf answers (pass rows).run = .ok tables) : ∀ t ∈ tables, P t := by
  induction rows generalizing tables with
  | nil =>
    rw [hnil] at h
    cases h
    exact fun t ht => absurd ht List.not_mem_nil
  | cons row rows ih =>
    rw [hcons] at h
    obtain ⟨name, -, h⟩ := exists_of_resultOf_bind h
    split at h
    · exact ih h
    · obtain ⟨first, hfirst, h⟩ := exists_of_resultOf_bind h
      obtain ⟨rest, hrest, h⟩ := exists_of_resultOf_bind h
      cases h
      exact List.forall_mem_cons.mpr ⟨hread row name first hfirst, ih hrest⟩

/-- Every table that is read has only foreign keys of which the database tells one column alone. -/
theorem Lite.hasLoneKey_of_mem_tablesOf {rows : List Cells} {tables : List Table}
    (h : resultOf answers (Lite.tablesOf rows).run = .ok tables) :
    ∀ t ∈ tables, ∀ key ∈ t.foreignKeys, HasLoneKey answers t.name key := by
  refine forall_mem_of_pass (fun _ => Lite.table) rfl (fun _ _ => rfl) (fun _ _ t ht => ?_) h
  obtain ⟨rfl, hkeys⟩ := of_resultOf_table ht
  exact fun _ => hasLoneKey hkeys

theorem Postgres.hasLoneKey_of_mem_tablesOf {schema : String} {rows : List Cells} {tables : List Table}
    (h : resultOf answers (Postgres.tablesOf schema rows).run = .ok tables) :
    ∀ t ∈ tables, ∀ key ∈ t.foreignKeys, HasLoneKey answers t.name key := by
  refine forall_mem_of_pass (fun row name => Postgres.table schema name (row.text? "comment")) rfl (fun _ _ => rfl)
    (fun _ _ t ht => ?_) h
  obtain ⟨rfl, hkeys⟩ := of_resultOf_table ht
  exact fun _ => hasLoneKey hkeys

/-- What is read in a session is read without it. -/
theorem resultOf_of_ofSession {s : Session α} {a : α} (h : resultOf answers (ofSession s).run = .ok a) :
    resultOf answers s.run = .ok a := by
  have hrun : (ofSession s).run = Dialogue.bind s.run fun r => .done (r.mapError ConfigError.storage) := rfl
  rw [hrun, resultOf_bind] at h
  cases hs : resultOf answers s.run with
  | ok b =>
    rw [hs] at h
    cases h
    rfl
  | error e =>
    rw [hs] at h
    cases h

theorem hasLoneKey_of_mem_tables {b : Backend} {schema : Option String} {tables : List Table}
    (h : resultOf answers (Catalog.tables b schema).run = .ok tables) :
    ∀ t ∈ tables, ∀ key ∈ t.foreignKeys, HasLoneKey answers t.name key := by
  cases b with
  | sqlite =>
    obtain ⟨rows, -, h⟩ := exists_of_resultOf_bind (resultOf_of_ofSession h)
    exact Lite.hasLoneKey_of_mem_tablesOf h
  | postgres =>
    obtain ⟨rows, -, h⟩ := exists_of_resultOf_bind (resultOf_of_ofSession h)
    exact Postgres.hasLoneKey_of_mem_tablesOf h
  | mysql => cases h

end Tables

/-! ## Relations -/

open Registry

/-- The relations of a registry of tables are given by foreign keys of these tables. -/
theorem exists_key_of_build {tables : List Table} {config : Config} {g : Registry}
    (h : Registry.build [] tables config = .ok g) {i : Nat} {m : Model} (hm : g.models[i]? = some m) {r : Relation}
    (hr : r ∈ m.relations) :
    ∃ t ∈ tables, ∃ ref : Reference, ref.key ∈ t.foreignKeys ∧ indexOfTable? g.models t.name = some ref.owner ∧
      ref.Gives g.models i r := by
  obtain ⟨base, hlinked⟩ := exists_isLinked_of_build h
  obtain ⟨ref, href, hgives⟩ := hlinked.exists_gives hm hr
  obtain ⟨t, ht, hkey, howner, -⟩ := mem_references_iff.mp href
  have hsame : g.models.map (fun m => (m.name, m.keyField)) = base.map fun m => (m.name, m.keyField) := by
    rw [hlinked.models_eq]
    exact map_settled_foldl_link (fun _ _ => rfl) _ fun m _ => by rw [name_settled, keyField_settled]
  exact ⟨t, ht, ref, hkey, howner, hgives.congr hsame.symm⟩

/-- Of the foreign keys of a table those of one column are read, each once and in the order in which the database tells
of them, however the columns of different keys are mixed. Every relation of a registry that is read from a database is
one of the two that such a key gives. -/
theorem keys_of_one_column_are_read (answers : Answers) :
    (∀ (table : String) (parts : List Lite.KeyPart),
      IsAnswered answers (.liteForeignKeys table) Lite.KeyPart.IsToldBy parts →
        resultOf answers (Lite.foreignKeys table).run =
          .ok ((parts.filter fun p => parts.countP (·.number == p.number) == 1).map (·.key))) ∧
    (∀ (schema table : String) (parts : List Postgres.KeyPart),
      IsAnswered answers (.postgresForeignKeys schema table) Postgres.KeyPart.IsToldBy parts →
        resultOf answers (Postgres.foreignKeys schema table).run =
          .ok ((parts.filter fun p => parts.countP (·.constraint == p.constraint) == 1).map (·.key))) ∧
    ∀ (b : Backend) (config : Config) (app : App), resultOf answers (App.ofDatabase b config).run = .ok app →
      ∀ (i : Nat) (m : Model), app.registry.models[i]? = some m → ∀ r ∈ m.relations,
        ∃ (table : String) (ref : Reference), HasLoneKey answers table ref.key ∧
          indexOfTable? app.registry.models table = some ref.owner ∧ ref.Gives app.registry.models i r := by
  refine ⟨fun table parts => Lite.resultOf_foreignKeys, fun schema table parts => Postgres.resultOf_foreignKeys, ?_⟩
  intro b config app h i m hm r hr
  obtain ⟨exposed, hexposed, h⟩ := exists_of_resultOf_bind h
  obtain ⟨g, hbuild, h⟩ := exists_of_resultOf_bind h
  cases h
  obtain ⟨tables, htables, hexposed⟩ := exists_of_resultOf_bind hexposed
  cases hexposed
  obtain ⟨t, ht, ref, hkey, howner, hgives⟩ := exists_key_of_build hbuild hm hr
  have hmem : t ∈ tables := (List.mem_filter.mp ht).1
  exact ⟨t.name, ref, hasLoneKey_of_mem_tables htables t hmem ref.key hkey, howner, hgives⟩

/-! ## Loans -/

/-- The columns of three foreign keys: the place of what is lent, which takes two, the reader and the clerk. -/
def loanParts : List Lite.KeyPart :=
  [⟨0, "shelf", "copy", some "shelf"⟩, ⟨1, "reader_id", "person", none⟩, ⟨0, "place", "copy", some "place"⟩,
    ⟨2, "clerk_id", "person", some "id"⟩]

/-- What a SQLite database tells of one of them. -/
def partRow (p : Lite.KeyPart) : Cells :=
  [("id", .bigInt (some (.ofInt p.number))), ("from", .string (some p.column)), ("table", .string (some p.target)),
    ("to", .string p.targetColumn)]

/-- The same columns under the names of constraints. -/
def loanConstraints : List Postgres.KeyPart :=
  [⟨"loan_copy", "shelf", "copy", "shelf"⟩, ⟨"loan_reader", "reader_id", "person", "id"⟩,
    ⟨"loan_copy", "place", "copy", "place"⟩, ⟨"loan_clerk", "clerk_id", "person", "id"⟩]

/-- What a PostgreSQL database tells of one of them. -/
def constraintRow (p : Postgres.KeyPart) : Cells :=
  [("constraint_name", .string (some p.constraint)), ("column_name", .string (some p.column)),
    ("target_table", .string (some p.target)), ("target_column", .string (some p.targetColumn))]

/-- What a SQLite database tells of a column. -/
def columnRow (name type : String) (place : Int64) : Cells :=
  [("name", .string (some name)), ("type", .string (some type)), ("notnull", .bigInt (some 1)),
    ("pk", .bigInt (some place))]

/-- What a database with loans and persons tells. -/
def loanAnswers : Answers
  | .catalog .liteTables => .ok [[("name", .string (some "loan"))], [("name", .string (some "person"))]]
  | .catalog (.liteColumns "loan") =>
    .ok [columnRow "id" "INTEGER" 1, columnRow "shelf" "TEXT" 0, columnRow "reader_id" "INTEGER" 0,
      columnRow "place" "INTEGER" 0, columnRow "clerk_id" "INTEGER" 0]
  | .catalog (.liteColumns _) => .ok [columnRow "id" "INTEGER" 1]
  | .catalog (.liteForeignKeys "loan") => .ok (loanParts.map partRow)
  | .catalog (.postgresForeignKeys _ "loan") => .ok (loanConstraints.map constraintRow)
  | _ => .ok []

/-- The key of both tables. -/
def idField : Field := { Field.new "id" .integer with sqlType := "INTEGER" }.primaryKey.autoIncremented

/-- A column that must have a value. -/
def neededField (name type : String) : Field :=
  { Field.new name (Kind.ofSqlType type) with sqlType := type }.notNull

/-- Loans as they are read. -/
def loanTable : Table where
  name := "loan"
  comment := none
  columns := [idField, neededField "shelf" "TEXT", neededField "reader_id" "INTEGER", neededField "place" "INTEGER",
    neededField "clerk_id" "INTEGER"]
  foreignKeys := [⟨"reader_id", "person", none⟩, ⟨"clerk_id", "person", some "id"⟩]

/-- Persons as they are read. -/
def personTable : Table := ⟨"person", none, [idField], []⟩

/-- Loans as a resource. -/
def loanModel : Model :=
  { tableModel "Loan" loanTable
      [.scalar "Person" "Person" "reader_id" "id", .scalar "Person_clerk_id" "Person" "clerk_id" "id"] with
    keyField := idField }

/-- Persons as a resource. -/
def personModel : Model :=
  { tableModel "Person" personTable
      [.collection "Loan" "Loan" "id" "reader_id", .collection "Loan_clerk_id" "Loan" "id" "clerk_id"] with
    keyField := idField }

/-- The service for both. -/
def loanApp : App := ⟨⟨[loanModel, personModel]⟩, {}, .sqlite⟩

theorem resultOf_loanApp : resultOf loanAnswers (App.ofDatabase .sqlite {}).run = .ok loanApp := by
  have hread : resultOf loanAnswers (exposedTables .sqlite {}).run = .ok [loanTable, personTable] := by decide +kernel
  have hbuild : Registry.build [] [loanTable, personTable] {} = .ok loanApp.registry := by decide +kernel
  rw [App.ofDatabase, resultOf_except_bind hread, resultOf_lift_bind hbuild]
  rfl

theorem isAnswered_loanParts :
    IsAnswered loanAnswers (.liteForeignKeys "loan") Lite.KeyPart.IsToldBy loanParts := by
  refine ⟨_, rfl, List.forall₂_map_right_iff.mpr (List.forall₂_same.mpr fun p hp => ?_)⟩
  have hnumbers : ∀ p ∈ loanParts, (Int64.ofInt p.number).toInt = p.number := by decide
  exact ⟨congrArg some (hnumbers p hp), rfl, rfl, rfl⟩

theorem isAnswered_loanConstraints (schema : String) :
    IsAnswered loanAnswers (.postgresForeignKeys schema "loan") Postgres.KeyPart.IsToldBy loanConstraints :=
  ⟨_, rfl, List.forall₂_map_right_iff.mpr (List.forall₂_same.mpr fun _ _ => ⟨rfl, rfl, rfl, rfl⟩)⟩

/-- What the columns of the place tell is left out, and the other two keys are read from between them. A person leads to
the loans that a clerk has made by the second of them. -/
theorem keys_of_loans_are_read :
    (IsAnswered loanAnswers (.liteForeignKeys "loan") Lite.KeyPart.IsToldBy loanParts ∧
      resultOf loanAnswers (Lite.foreignKeys "loan").run =
        .ok [⟨"reader_id", "person", none⟩, ⟨"clerk_id", "person", some "id"⟩]) ∧
    (IsAnswered loanAnswers (.postgresForeignKeys "public" "loan") Postgres.KeyPart.IsToldBy loanConstraints ∧
      resultOf loanAnswers (Postgres.foreignKeys "public" "loan").run =
        .ok [⟨"reader_id", "person", some "id"⟩, ⟨"clerk_id", "person", some "id"⟩]) ∧
    resultOf loanAnswers (App.ofDatabase .sqlite {}).run = .ok loanApp ∧
    loanApp.registry.models[1]? = some personModel ∧
    (.collection "Loan_clerk_id" "Loan" "id" "clerk_id") ∈ personModel.relations ∧
    ∃ (table : String) (ref : Reference), HasLoneKey loanAnswers table ref.key ∧
      indexOfTable? loanApp.registry.models table = some ref.owner ∧
      ref.Gives loanApp.registry.models 1 (.collection "Loan_clerk_id" "Loan" "id" "clerk_id") := by
  obtain ⟨hlite, hpostgres, hrelations⟩ := keys_of_one_column_are_read loanAnswers
  have hmem : (.collection "Loan_clerk_id" "Loan" "id" "clerk_id") ∈ personModel.relations :=
    List.mem_cons_of_mem _ List.mem_cons_self
  exact ⟨⟨isAnswered_loanParts, hlite _ _ isAnswered_loanParts⟩,
    ⟨isAnswered_loanConstraints _, hpostgres _ _ _ (isAnswered_loanConstraints _)⟩, resultOf_loanApp, rfl, hmem,
    hrelations .sqlite {} loanApp resultOf_loanApp 1 personModel rfl _ hmem⟩

end RestTables.Catalog
