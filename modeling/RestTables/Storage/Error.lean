/-
Module: RestTables.Storage.Error
Purpose: Why a statement failed. Violations of constraints are told apart by their codes.
Main exports: Constraint, StorageError, StorageError.message
-/

namespace RestTables

/-- The constraints that a write can violate. -/
inductive Constraint where
  | unique
  | primaryKey
  | foreignKey
  | notNull
deriving Repr, DecidableEq

namespace Constraint

/-- The code by which an engine reports a violation. -/
def code : Constraint → Nat
  | unique => 2067
  | primaryKey => 1555
  | foreignKey => 787
  | notNull => 1299

/-- The violation means that an equal row exists. -/
def isDuplicate : Constraint → Bool
  | unique | primaryKey => true
  | _ => false

end Constraint

/-- The failure of a statement. -/
inductive StorageError where
  | custom (text : String)
  | query (text : String)
  | exec (text : String)
  | type (text : String)
  | recordNotFound (text : String)
  | recordNotInserted
  /-- A constraint is violated; the detail is the engine's. -/
  | violation (constraint : Constraint) (detail : String)
deriving Repr, DecidableEq

namespace StorageError

/-- The failure in words. -/
def message : StorageError → String
  | custom text => "Custom Error: " ++ text
  | query text => "Query Error: " ++ text
  | exec text => "Execution Error: " ++ text
  | type text => "Type Error: " ++ text
  | recordNotFound text => "RecordNotFound Error: " ++ text
  | recordNotInserted => "None of the records are inserted"
  | violation constraint detail =>
    s!"Execution Error: error returned from database: (code: {constraint.code}) {detail}"

/-- A cell that must hold a value holds none. -/
def nullCell (column : String) : StorageError :=
  type ("A null value was encountered while decoding " ++ "\"" ++ column ++ "\"")

end StorageError

end RestTables
