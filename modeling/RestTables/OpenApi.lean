import RestTables.Json.Basic

/-
Module: RestTables.OpenApi
Purpose: The document that describes, in the terms of OpenAPI, what does not depend on the tables: the
  bodies of structured queries and the descriptions of resources.
Main exports: OpenApi.document
-/

namespace RestTables.OpenApi

open Json

/-- A value of a type. -/
def type (name : String) : Json := .obj [("type", .str name)]

/-- A type that admits null. -/
def nullable (name : String) : String × Json := ("type", Json.strings [name, "null"])

/-- A string. -/
def text : Json := type "string"

/-- A truth value. -/
def flag : Json := type "boolean"

/-- A string or null. -/
def optionalText : Json := .obj [nullable "string"]

/-- Another schema of this document. -/
def ref (name : String) : Json := .obj [("$ref", .str ("#/components/schemas/" ++ name))]

/-- The members of a list's schema. -/
def listMembers (item : Json) : List (String × Json) := [("type", .str "array"), ("items", item)]

/-- A list. -/
def list (item : Json) : Json := .obj (listMembers item)

/-- A number from zero on, or null. -/
def count : Json := .obj [nullable "integer", ("format", .str "int64"), ("minimum", .int 0)]

/-- One of several schemas. -/
def oneOf (choices : List Json) : List (String × Json) := [("oneOf", .arr choices)]

/-- An object: what it is, which members it needs, and whether it has no others. -/
def record (description : Option String) (required : List String) (properties : List (String × Json))
    (closed : Bool) : Json :=
  .obj ([("type", .str "object")] ++ (description.map fun d => ("description", Json.str d)).toList ++
    (if required.isEmpty then [] else [("required", Json.strings required)]) ++
    [("properties", .obj properties)] ++ (if closed then [("additionalProperties", .bool false)] else []))

/-- The schemas of the document. -/
def schemas : List (String × Json) :=
  [("Description",
    record "Machine-readable resource description served under the metadata suffix"
      ["name", "url", "methods", "fields", "relations"]
      [("description", optionalText), ("fields", list (ref "FieldDescription")), ("methods", list text),
       ("name", text), ("relations", list (ref "RelationDescription")), ("url", text)] false),
   ("FetchPayload",
    record "Body of a FETCH request" []
      [("fields",
        .obj (listMembers text ++ [("description", .str "Root columns to return"), ("default", .arr [])])),
       ("filters", .obj (listMembers (ref "FilterSpec") ++ [("default", .arr [])])),
       ("pagination", .obj (oneOf [type "null", ref "PaginationSpec"] ++ [("default", .null)])),
       ("related",
        .obj [("type", .str "object"),
          ("description", .str "Relation name to `\"*\"` or a list of target columns"), ("default", .obj []),
          ("additionalProperties", ref "RelatedColumns"), ("propertyNames", text)]),
       ("sorting", .obj (listMembers (ref "SortSpec") ++ [("default", .arr [])]))] true),
   ("FieldDescription",
    record none ["name", "type", "primary", "autoincrement", "nullable", "unique"]
      [("autoincrement", flag), ("comment", optionalText), ("name", text), ("nullable", flag),
       ("primary", flag), ("type", text), ("unique", flag)] false),
   ("FilterSpec",
    record none ["field", "op"]
      [("field", text),
       ("model",
        .obj [nullable "string",
          ("description", .str "Resource or relation name; the requested resource when absent")]),
       ("op", text), ("value", type "object")] true),
   ("PaginationSpec", record none [] [("limit", count), ("page", count)] true),
   ("RelatedColumns", .obj (oneOf [text, list text])),
   ("RelationDescription",
    record none ["name", "target", "many"] [("many", flag), ("name", text), ("target", text)] false),
   ("SortSpec",
    record none ["field"] [("direction", text), ("field", text), ("model", optionalText)] true)]

/-- What the document is about. -/
def info : Json :=
  .obj
    [("title", .str "autocrud"),
     ("description", .str "Filterable, paginated REST resources generated from a relational schema"),
     ("license", .obj [("name", .str "MIT"), ("identifier", .str "MIT")]), ("version", .str "0.1.0")]

/-- The whole document. -/
def document : Json :=
  .obj
    [("openapi", .str "3.1.0"), ("info", info), ("paths", .obj []),
     ("components", .obj [("schemas", .obj schemas)])]

end RestTables.OpenApi
