import RestTables.Model.Basic

/-
Module: RestTables.Model.Description
Purpose: What clients are told about a resource: its path, methods, columns and relations.
Main exports: Model.describe
-/

namespace RestTables

/-- A member that is left out where there is nothing to say. -/
def Json.optionalMember (key : String) (text : Option String) : List (String × Json) :=
  match text with
  | some s => [(key, .str s)]
  | none => []

/-- What is told about a column. -/
def Field.describe (f : Field) : Json :=
  .obj ([("name", .str f.name), ("type", .str f.kind.name), ("primary", .bool f.isPrimary),
    ("autoincrement", .bool f.autoIncrement), ("nullable", .bool f.nullable), ("unique", .bool f.isUnique)] ++
    Json.optionalMember "comment" f.comment)

/-- What is told about a relation. -/
def Relation.describe (r : Relation) : Json :=
  .obj [("name", .str r.name), ("target", .str r.target), ("many", .bool r.isMany)]

/-- What is told about a resource. -/
def Model.describe (m : Model) : Json :=
  .obj ([("name", .str m.name), ("url", .str m.url), ("methods", Json.strings m.methodNames)] ++
    Json.optionalMember "description" m.description ++
    [("fields", .arr (m.columns.map Field.describe)), ("relations", .arr (m.relations.map Relation.describe))])

end RestTables
