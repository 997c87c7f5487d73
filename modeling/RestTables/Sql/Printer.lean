import RestTables.Sql.Statement
import RestTables.Sql.Backend
import RestTables.Text.Split

/-
Module: RestTables.Sql.Printer
Purpose: The text of a statement and the values bound to it, in the dialect of a database.
Main exports: Piece, Statement.pieces, Statement.text, Statement.values
-/

namespace RestTables.Sql

/-- A part of a statement's text, or a place for a value. -/
inductive Piece where
  | text (s : String)
  | value (v : Value)
deriving Repr, DecidableEq

namespace Piece

/-- The text of pieces, the values numbered from `number` on. -/
def render (b : Backend) : (number : Nat) → List Piece → String
  | _, [] => ""
  | n, .text s :: rest => s ++ render b n rest
  | n, .value _ :: rest => b.placeholder n ++ render b (n + 1) rest

/-- The values of pieces in order. -/
def values (pieces : List Piece) : List Value :=
  pieces.filterMap fun
    | .text _ => none
    | .value v => some v

end Piece

/-- Pieces with a text between any two lists of them. -/
def joinPieces (separator : String) : List (List Piece) → List Piece
  | [] => []
  | [p] => p
  | p :: rest => p ++ .text separator :: joinPieces separator rest

/-- A name between quotes, a quote inside doubled. -/
def quoteName (quote : Char) (name : String) : String :=
  String.ofList (quote :: name.toList.flatMap (fun c => if c = quote then [c, c] else [c]) ++ [quote])

/-- A name in a statement. -/
def nameText (b : Backend) (name : String) : String := quoteName b.nameQuote name

/-- Names with commas between them. -/
def nameList (b : Backend) (names : List String) : String := Text.join ", " (names.map (nameText b))

/-- A column with the name of its table. -/
def columnText (b : Backend) (c : Column) : String := nameText b c.table ++ "." ++ nameText b c.name

/-- Values with commas between them. -/
def valueList (values : List Value) : List Piece := joinPieces ", " (values.map fun v => [.value v])

/-- The sign of a comparison. -/
def Comparison.sign : Comparison → String
  | eq => "="
  | ne => "<>"
  | gt => ">"
  | ge => ">="
  | lt => "<"
  | le => "<="

/-! ## Conditions -/

/-- What binds the parts of a condition's text together at the top. -/
inductive Binding where
  /-- Nothing that a neighbour could tear apart. -/
  | tight
  /-- The word AND of a range. -/
  | range
  | and
  | or
deriving Repr, DecidableEq

mutual

/-- The binding of a condition; a list of one part is that part. -/
def binding : Condition → Binding
  | .between .. => .range
  | .all parts => bindingOf .and parts
  | .any parts => bindingOf .or parts
  | _ => .tight

/-- The binding of a list of parts. -/
def bindingOf (joined : Binding) : List Condition → Binding
  | [] => .tight
  | [c] => binding c
  | _ :: _ :: _ => joined

end

/-- Pieces between parentheses. -/
def parenthesized (pieces : List Piece) : List Piece := .text "(" :: pieces ++ [.text ")"]

/-- The first part of a list: only a range, or parts bound by the other word, need parentheses. -/
def asFirst (joined inner : Binding) (pieces : List Piece) : List Piece :=
  if inner = .tight || inner = joined then pieces else parenthesized pieces

/-- A later part of a list: whatever is not tight needs parentheses. -/
def asNext (inner : Binding) (pieces : List Piece) : List Piece :=
  if inner = .tight then pieces else parenthesized pieces

/-- The comparison of two numbers that stands for membership in an empty list. -/
def emptyMembership (negated : Bool) : List Piece :=
  [.value (.int (some 1)), .text " = ", .value (.int (some (if negated then 1 else 2)))]

/-- A word that may be negated. -/
def negatable (negated : Bool) (word : String) : String := if negated then " NOT " ++ word else " " ++ word

mutual

/-- The pieces of a condition. -/
def conditionPieces (b : Backend) : Condition → List Piece
  | .compare column op value => [.text (columnText b column ++ " " ++ op.sign ++ " "), .value value]
  | .like column pattern escape negated =>
    [.text ("UPPER(CAST(" ++ columnText b column ++ " AS TEXT))" ++ negatable negated "LIKE" ++ " UPPER("),
     .value (.string (some pattern)), .text (") ESCAPE " ++ b.escapeLiteral escape)]
  | .isIn column values negated =>
    if values.isEmpty then emptyMembership negated
    else .text (columnText b column ++ negatable negated "IN" ++ " (") :: valueList values ++ [.text ")"]
  | .isNull column negated => [.text (columnText b column ++ (if negated then " IS NOT NULL" else " IS NULL"))]
  | .between column low high =>
    [.text (columnText b column ++ " BETWEEN "), .value low, .text " AND ", .value high]
  | .isInTable column sub =>
    .text (columnText b column ++ " IN (") :: subqueryPieces b sub ++ [.text ")"]
  | .all parts => if parts.isEmpty then [.text "TRUE"] else firstPieces b .and parts
  | .any parts => if parts.isEmpty then [.text "FALSE"] else firstPieces b .or parts

/-- The pieces of the parts of a list. -/
def firstPieces (b : Backend) (joined : Binding) : List Condition → List Piece
  | [] => []
  | [c] => conditionPieces b c
  | c :: d :: rest => asFirst joined (binding c) (conditionPieces b c) ++ nextPieces b joined (d :: rest)

/-- The pieces of the later parts of a list, each behind the word that binds it. -/
def nextPieces (b : Backend) (joined : Binding) : List Condition → List Piece
  | [] => []
  | c :: rest =>
    .text (if joined = .and then " AND " else " OR ") :: asNext (binding c) (conditionPieces b c) ++
      nextPieces b joined rest

/-- The pieces of a subquery. -/
def subqueryPieces (b : Backend) : Subquery → List Piece
  | .mk column table condition =>
    .text ("SELECT " ++ columnText b ⟨relatedAlias, column⟩ ++ " FROM " ++ nameText b table ++ " AS " ++
      nameText b relatedAlias) ::
      (match condition with
        | none => []
        | some c => .text " WHERE " :: conditionPieces b c)

end

/-! ## Statements -/

/-- The condition of a statement. -/
def wherePieces (b : Backend) (c : Condition) : List Piece := .text " WHERE " :: conditionPieces b c

/-- A part of an order. -/
def sortText (b : Backend) (item : SortItem) : String :=
  let direction := if item.descending then " DESC" else " ASC"
  match item.key with
  | .column c => columnText b c ++ direction
  | .related field remoteKey table localKey =>
    "(SELECT " ++ (if item.descending then "MAX" else "MIN") ++ "(" ++ columnText b ⟨relatedAlias, field⟩ ++
      ") FROM " ++ nameText b table ++ " AS " ++ nameText b relatedAlias ++ " WHERE " ++
      columnText b ⟨relatedAlias, remoteKey⟩ ++ " = " ++ columnText b localKey ++ ")" ++ direction

/-- The order of a result. -/
def orderPieces (b : Backend) (order : List SortItem) : List Piece :=
  if order.isEmpty then [] else [.text (" ORDER BY " ++ Text.join ", " (order.map (sortText b)))]

/-- A number as an unsigned value of 64 bits. -/
def unsigned64 (n : Nat) : Value := .bigUnsigned (some (UInt64.ofNat n))

/-- A bound of a result behind its word. -/
def boundPieces (word : String) (bound : Option Nat) : List Piece :=
  match bound with
  | none => []
  | some n => [.text word, .value (unsigned64 n)]

/-- The pieces of a query for rows. -/
def Select.pieces (b : Backend) (s : Select) : List Piece :=
  .text ("SELECT " ++ Text.join ", " (s.columns.map fun c => columnText b ⟨s.table, c⟩) ++ " FROM " ++
    nameText b s.table) ::
    wherePieces b s.condition ++ orderPieces b s.order ++ boundPieces " LIMIT " s.limit ++
    boundPieces " OFFSET " s.offset

/-- The pieces of an insert. -/
def insertPieces (b : Backend) (table : String) (row : List (String × Value)) (returning : List String) :
    List Piece :=
  .text ("INSERT INTO " ++ nameText b table ++ " ") ::
    (if row.isEmpty then [.text b.defaultRow]
     else .text ("(" ++ nameList b (row.map (·.1)) ++ ") VALUES (") :: valueList (row.map (·.2)) ++ [.text ")"]) ++
    (if b.returnsRows then [.text (" RETURNING " ++ nameList b returning)] else [])

/-- The pieces of an update. -/
def updatePieces (b : Backend) (table : String) (changes : List (String × Value)) (c : Condition) :
    List Piece :=
  .text ("UPDATE " ++ nameText b table ++ " SET ") ::
    joinPieces ", " (changes.map fun (name, v) => [.text (nameText b name ++ " = "), .value v]) ++
    wherePieces b c

/-- A string as a value. -/
def textValue (s : String) : Piece := .value (.string (some s))

/-- A name in a question about the schema. -/
def catalogName (name : String) : String := quoteName '"' name

/-- The text of a question about the schema, with the values bound to it. -/
def CatalogQuery.parts : CatalogQuery → String × List Value
  | .liteTables =>
    ("SELECT name FROM sqlite_master WHERE type = 'table' AND name NOT LIKE 'sqlite_%' ORDER BY name", [])
  | .liteIndexes table => ("PRAGMA index_list(" ++ catalogName table ++ ")", [])
  | .liteIndexColumns index => ("PRAGMA index_info(" ++ catalogName index ++ ")", [])
  | .liteColumns table => ("PRAGMA table_info(" ++ catalogName table ++ ")", [])
  | .liteForeignKeys table => ("PRAGMA foreign_key_list(" ++ catalogName table ++ ")", [])
  | .postgresTables schema =>
    ("SELECT table_name::text AS table_name, " ++
      "obj_description(format('%I.%I', table_schema, table_name)::regclass, 'pg_class') AS comment " ++
      "FROM information_schema.tables " ++
      "WHERE table_schema = $1 AND table_type = 'BASE TABLE' ORDER BY table_name",
     [.string (some schema)])
  | .postgresConstraints kind schema table =>
    ("SELECT tc.constraint_name::text AS constraint_name, kcu.column_name::text AS column_name " ++
      "FROM information_schema.table_constraints tc " ++
      "JOIN information_schema.key_column_usage kcu " ++
      "ON tc.constraint_name = kcu.constraint_name AND tc.table_schema = kcu.table_schema " ++
      "WHERE tc.constraint_type = $1 AND tc.table_schema = $2 AND tc.table_name = $3 " ++
      "ORDER BY kcu.ordinal_position",
     [.string (some kind), .string (some schema), .string (some table)])
  | .postgresForeignKeys schema table =>
    ("SELECT tc.constraint_name::text AS constraint_name, " ++
      "kcu.column_name::text AS column_name, " ++
      "ccu.table_name::text AS target_table, " ++
      "ccu.column_name::text AS target_column " ++
      "FROM information_schema.table_constraints tc " ++
      "JOIN information_schema.key_column_usage kcu " ++
      "ON tc.constraint_name = kcu.constraint_name AND tc.table_schema = kcu.table_schema " ++
      "JOIN information_schema.constraint_column_usage ccu " ++
      "ON ccu.constraint_name = tc.constraint_name AND ccu.table_schema = tc.table_schema " ++
      "WHERE tc.constraint_type = 'FOREIGN KEY' AND tc.table_schema = $1 AND tc.table_name = $2",
     [.string (some schema), .string (some table)])
  | .postgresColumns schema table =>
    ("SELECT c.column_name::text AS column_name, c.data_type::text AS data_type, " ++
      "c.is_nullable::text AS is_nullable, c.column_default::text AS column_default, " ++
      "c.is_identity::text AS is_identity, " ++
      "col_description(format('%I.%I', c.table_schema, c.table_name)::regclass, " ++
      "c.ordinal_position::int) AS comment " ++
      "FROM information_schema.columns c " ++
      "WHERE c.table_schema = $1 AND c.table_name = $2 ORDER BY c.ordinal_position",
     [.string (some schema), .string (some table)])

/-- The pieces of a statement; a question about the schema has its own text. -/
def Statement.pieces (b : Backend) : Statement → List Piece
  | .select s => s.pieces b
  | .count table c =>
    .text ("SELECT COUNT(*) AS " ++ nameText b countColumn ++ " FROM " ++ nameText b table) :: wherePieces b c
  | .insert table row returning => insertPieces b table row returning
  | .update table changes c => updatePieces b table changes c
  | .delete table c => .text ("DELETE FROM " ++ nameText b table) :: wherePieces b c
  | .catalog q => [.text q.parts.1]

/-- The text of a statement. -/
def Statement.text (b : Backend) (s : Statement) : String := Piece.render b 1 (s.pieces b)

/-- The values bound to a statement. -/
def Statement.values (b : Backend) : Statement → List Value
  | .catalog q => q.parts.2
  | s => Piece.values (s.pieces b)

example : quoteName '"' "we\"ird" = "\"we\"\"ird\"" := by decide +kernel
example : Piece.render .postgres 1 (conditionPieces .postgres
    (.any [.between ⟨"t", "a"⟩ (.int none) (.int none), .compare ⟨"t", "a"⟩ .eq (.int none)])) =
    "(\"t\".\"a\" BETWEEN $1 AND $2) OR \"t\".\"a\" = $3" := by decide +kernel

end RestTables.Sql
