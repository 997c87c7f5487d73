import RestTables.Value.Kind

/-
Module: RestTables.Model.Field
Purpose: The columns of a resource.
Main exports: Field, Field.new, Field.isWritable, Field.isRequired
-/

namespace RestTables

/-- A column. -/
structure Field where
  name : String
  kind : Kind
  /-- The type as it was declared. -/
  sqlType : String
  isPrimary : Bool
  autoIncrement : Bool
  nullable : Bool
  isUnique : Bool
  hasDefault : Bool
  comment : Option String
deriving Repr, DecidableEq, Inhabited

namespace Field

/-- A column that may be NULL and is no key. -/
def new (name : String) (kind : Kind) : Field :=
  { name, kind
    sqlType := Text.upperText kind.name
    isPrimary := false
    autoIncrement := false
    nullable := true
    isUnique := false
    hasDefault := false
    comment := none }

/-- A key column, which is never NULL. -/
def primaryKey (f : Field) : Field := { f with isPrimary := true, nullable := false }

/-- A column that the database numbers. -/
def autoIncremented (f : Field) : Field := { f with autoIncrement := true }

/-- A column that is never NULL. -/
def notNull (f : Field) : Field := { f with nullable := false }

/-- A column without equal values. -/
def unique (f : Field) : Field := { f with isUnique := true }

/-- A column that the database fills. -/
def withDefault (f : Field) : Field := { f with hasDefault := true }

/-- Clients may give a value. -/
def isWritable (f : Field) : Bool := !(f.isPrimary && f.autoIncrement)

/-- Clients must give a value for a new row. -/
def isRequired (f : Field) : Bool := f.isWritable && !f.nullable && !f.hasDefault

end Field

end RestTables
