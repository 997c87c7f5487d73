import RestTables.ApiError
import RestTables.Export.Csv
import RestTables.Text.Utf8

/-
Module: RestTables.Http.Reply
Purpose: Replies as the service makes them, and as they are sent.
Main exports: Reply, Reply.json, Reply.empty, Response, Reply.send, ApiError.send, Reply.ofCsv
-/

namespace RestTables

/-- What a reply holds. -/
inductive Body where
  | empty
  | json (v : Json)
  | csv (bytes : List UInt8)
deriving Repr, DecidableEq

/-- The answer to a request. -/
structure Reply where
  status : Nat
  headers : Headers
  body : Body
deriving Repr, DecidableEq

/-- An answer as it is sent. -/
structure Response where
  status : Nat
  headers : Headers
  body : List UInt8
deriving Repr, DecidableEq

namespace Reply

/-- A reply that holds a value. -/
def json (status : Nat) (v : Json) : Reply := ⟨status, [], .json v⟩

/-- A reply that holds nothing. -/
def empty (status : Nat) : Reply := ⟨status, [], .empty⟩

/-- One value for a header; what cannot be sent is left out. -/
def header (r : Reply) (name value : String) : Reply := { r with headers := r.headers.trySet name value }

/-- Further headers. -/
def addHeaders (r : Reply) (more : Headers) : Reply := { r with headers := r.headers.extend more }

/-- The entity tag that the reply carries. -/
def etag? (r : Reply) : Option String := r.headers.text? "etag"

/-- The reply without what it holds. -/
def withoutBody (r : Reply) : Reply := { r with body := .empty }

/-- The header that names the type of a body. -/
def typeHeader (type : String) : Headers := [("content-type", type)]

/-- The reply as it is sent. -/
def send (r : Reply) : Response :=
  match r.body with
  | .empty => ⟨r.status, r.headers, []⟩
  | .json v => ⟨r.status, (typeHeader "application/json").extend r.headers, v.bytes⟩
  | .csv bytes => ⟨r.status, (typeHeader "text/csv; charset=utf-8").extend r.headers, bytes⟩

/-- Rows as a file to save. -/
def ofCsv (rows : List Json.Object) (filename : String) (delimiter : Char) : Except ApiError Reply :=
  match Csv.render? rows delimiter with
  | none => .error (.internal "Export failed")
  | some (bytes, columns) =>
    .ok ((((⟨200, [], .csv bytes⟩ : Reply).header "content-disposition"
      ("attachment; filename=" ++ filename ++ ".csv")).header "total-rows" (toString rows.length)).header
      "total-columns" (toString columns))

end Reply

/-- A refusal as it is sent. -/
def ApiError.send (e : ApiError) : Response :=
  ⟨e.status, (Reply.typeHeader "application/json").extend e.headers, e.body.bytes⟩

end RestTables
