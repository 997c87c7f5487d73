import RestTables.Text.Letter
import RestTables.Text.Split

/-
Module: RestTables.Value.Kind
Purpose: The families of column types, and the family that a declared SQL type belongs to.
Main exports: Kind, Kind.ofSqlType, Kind.name
-/

namespace RestTables

/-- The family of a column's type. -/
inductive Kind where
  | integer
  | float
  | decimal
  | boolean
  | string
  | date
  | time
  | datetime
  | datetimeTz
  | uuid
  | json
  | binary
deriving Repr, DecidableEq, Inhabited

namespace Kind

/-- All families. -/
def all : List Kind :=
  [integer, float, decimal, boolean, string, date, time, datetime, datetimeTz, uuid, json, binary]

/-- The name of a family in descriptions. -/
def name : Kind → String
  | integer => "integer"
  | float => "float"
  | decimal => "decimal"
  | boolean => "boolean"
  | string => "string"
  | date => "date"
  | time => "time"
  | datetime => "datetime"
  | datetimeTz => "datetime_tz"
  | uuid => "uuid"
  | json => "json"
  | binary => "binary"

/-- The family of that name. -/
def ofName? (name : String) : Option Kind := all.find? fun k => k.name == name

theorem ofName?_name (k : Kind) : ofName? k.name = some k := by cases k <;> decide

/-- Only text can be searched. -/
def isTextual (k : Kind) : Bool := k == string

/-- The families that parts of a declared type's name stand for, in the order in which they are looked
for. -/
def markers : List (Kind × List String) :=
  [(integer, ["INT", "SERIAL"]), (boolean, ["BOOL"]), (uuid, ["UUID"]), (json, ["JSON"]),
   (string, ["CHAR", "CLOB", "TEXT"]), (binary, ["BLOB", "BYTEA", "BINARY"]),
   (float, ["REAL", "FLOA", "DOUB"]), (decimal, ["NUMERIC", "DECIMAL", "MONEY"]),
   (datetimeTz, ["TIMESTAMPTZ", "WITH TIME ZONE"]), (datetime, ["TIMESTAMP", "DATETIME"]),
   (date, ["DATE"]), (time, ["TIME"])]

/-- `part` occurs in `s`. -/
def occursIn (part : List Char) : List Char → Bool
  | [] => part.isEmpty
  | c :: s => part.isPrefixOf (c :: s) || occursIn part s

/-- The family of a declared type, ignoring the case of ASCII letters; text when nothing is known
about it. -/
def ofSqlType (type : String) : Kind :=
  let upper := type.toList.map Text.upperAscii
  match markers.find? fun (_, parts) => parts.any fun part => occursIn part.toList upper with
  | some (kind, _) => kind
  | none => string

example : ofSqlType "bigint" = integer ∧ ofSqlType "VARCHAR(10)" = string := by decide
example : ofSqlType "timestamp with time zone" = datetimeTz ∧ ofSqlType "POINT" = integer := by decide

end Kind

end RestTables
