import RestTables.Text.Case

/-
Module: RestTables.Model.Relation
Purpose: Named links from one resource to another, along a column of each.
Main exports: Relation, Relation.scalar, Relation.collection
-/

namespace RestTables

/-- Whether a relation leads to one row or to many. -/
inductive Cardinality where
  /-- The row that a key of this row refers to. -/
  | scalar
  /-- The rows whose keys refer to this row. -/
  | collection
deriving Repr, DecidableEq, Inhabited

/-- A link to the rows of a target whose remote key equals the local key. -/
structure Relation where
  name : String
  cardinality : Cardinality
  /-- The name of the target. -/
  target : String
  localKey : String
  remoteKey : String
  /-- The part of a path that follows the relation. -/
  segment : String
deriving Repr, DecidableEq, Inhabited

namespace Relation

/-- A relation whose path is its name in small letters. -/
def new (cardinality : Cardinality) (name target localKey remoteKey : String) : Relation :=
  ⟨name, cardinality, target, localKey, remoteKey, Text.lower name⟩

/-- This row's key refers to the target. -/
def scalar (name target localKey remoteKey : String) : Relation := new .scalar name target localKey remoteKey

/-- The target's keys refer to this row. -/
def collection (name target localKey remoteKey : String) : Relation :=
  new .collection name target localKey remoteKey

/-- The relation leads to many rows. -/
def isMany (r : Relation) : Bool := r.cardinality == .collection

/-- The relation has this name, ignoring case. -/
def isNamed (r : Relation) (name : String) : Bool := Text.sameFold r.name name

/-- The relation or its target has this name, ignoring case. -/
def answersTo (r : Relation) (name : String) : Bool := r.isNamed name || Text.sameFold r.target name

end Relation

end RestTables
