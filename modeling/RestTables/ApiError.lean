import RestTables.Http.Header
import RestTables.Json.Printer
import RestTables.Storage.Error
import RestTables.Text.Split

/-
Module: RestTables.ApiError
Purpose: Why a request is refused, and what the client is told about it. What a database says about its
  failures stays with the service, except about violated constraints.
Main exports: ApiError, ApiError.ofStorage, ApiError.status, ApiError.body, ApiError.headers
-/

namespace RestTables

/-- The refusal of a request. -/
inductive ApiError where
  | notFound (resource : String) (id : Option String)
  | badRequest (text : String) (invalid : List String)
  | methodNotAllowed (method : String) (allowed : List String)
  | conflict (text : String) (location : Option String)
  | preconditionFailed
  | preconditionRequired
  | validationFailed (missing unknown invalid : List String)
  | storage (cause : StorageError)
  | internal (text : String)
deriving Repr, DecidableEq

namespace ApiError

/-- Parts of a query that were not understood. -/
def invalidTokens (invalid : List String) : ApiError := badRequest "Invalid query arguments" invalid

/-- A row that is there already. -/
def alreadyExists (location : Option String) : ApiError := conflict "Resource already exists" location

/-- The refusal that a failed statement means: equal rows conflict, keys that refer to nothing make the
body invalid, and everything else is a failure of the service. -/
def ofStorage : StorageError → ApiError
  | .violation .unique _ => alreadyExists none
  | .violation .primaryKey _ => alreadyExists none
  | .violation .foreignKey detail => validationFailed [] [] [detail]
  | .recordNotFound resource => notFound resource none
  | cause => storage cause

/-- The status of the reply. -/
def status : ApiError → Nat
  | notFound .. => 404
  | badRequest .. => 400
  | methodNotAllowed .. => 405
  | conflict .. => 409
  | preconditionFailed => 412
  | preconditionRequired => 428
  | validationFailed .. => 422
  | storage _ => 500
  | internal _ => 500

/-- What the client is told. -/
def message : ApiError → String
  | notFound resource (some id) => s!"{resource} with ID '{id}' not found"
  | notFound resource none => s!"{resource} not found"
  | badRequest text _ => text
  | methodNotAllowed method _ => s!"Method {method} is not allowed on this resource"
  | conflict text _ => text
  | preconditionFailed => "Resource has been modified (ETag mismatch)"
  | preconditionRequired => "This request must be conditional (If-Match)"
  | validationFailed .. => "Validation failed"
  | storage _ => "A database error occurred"
  | internal text => text

/-- A list under a key, left out when it is empty. -/
def listMember (key : String) (names : List String) : List (String × Json) :=
  if names.isEmpty then [] else [(key, Json.strings names)]

/-- What the client can act on. -/
def details : ApiError → List (String × Json)
  | badRequest _ invalid =>
    if invalid.isEmpty then [] else [("details", .obj [("invalid", Json.strings invalid)])]
  | validationFailed missing unknown invalid =>
    [("details",
      .obj (listMember "invalid" invalid ++ listMember "missing" missing ++ listMember "unknown" unknown))]
  | _ => []

/-- The body of the reply. -/
def body (e : ApiError) : Json := .obj (("error", .str e.message) :: e.details)

/-- The headers of the reply besides its type. -/
def headers : ApiError → Headers
  | methodNotAllowed _ allowed => Headers.trySet [] "allow" (Text.join ", " allowed)
  | conflict _ (some location) => Headers.trySet [] "location" location
  | _ => []

end ApiError

end RestTables
