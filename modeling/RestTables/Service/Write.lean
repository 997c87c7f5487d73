import RestTables.Rows.Write
import RestTables.Service.Read

/-
Module: RestTables.Service.Write
Purpose: The verbs that change rows. What can be refused beforehand is; the rest, the check of the entity tag
  included, is done in one transaction.
Main exports: Service.create, Service.replace, Service.modify, Service.delete
-/

namespace RestTables.Service

/-- A key that a path's part can be; otherwise there is no such row. -/
def requireKey (s : Service) (id : String) : Except ApiError Value :=
  match s.model.keyValue? id with
  | some key => .ok key
  | none => .error (s.notFound id)

/-- The values of a body in which nothing is missing, unknown or unfit. -/
def bindComplete (s : Service) (data : Json.Object) (mayLack : List String) :
    Except ApiError (List (String × Value)) :=
  let validation := s.model.validate data
  let missing := validation.missing.filter fun name => !mayLack.contains name
  let bound := s.model.bind data
  if missing.isEmpty && validation.unknown.isEmpty && bound.invalid.isEmpty then .ok bound.values
  else .error (.validationFailed missing validation.unknown bound.invalid)

/-- The values of a body in which nothing is unknown or unfit. -/
def bindPartial (s : Service) (data : Json.Object) : Except ApiError (List (String × Value)) :=
  let validation := s.model.validate data
  let bound := s.model.bind data
  if validation.unknown.isEmpty && bound.invalid.isEmpty then .ok bound.values
  else .error (.validationFailed [] validation.unknown bound.invalid)

/-- Inserts a row. -/
def insertRow (s : Service) (row : List (String × Value)) : Handler Record :=
  Handler.ofSession (Rows.insert s.backend s.model row)

/-- Changes the row with a key and reads it again. -/
def updateRow (s : Service) (id : String) (key : Value) (changes : List (String × Value)) : Handler Record := do
  Handler.ofSession (Rows.update s.model key changes)
  s.requireRow id

/-- A new row, unless there is one with the same values. -/
def create (s : Service) (body : List UInt8) : Handler Reply := do
  let data ← Handler.ofExcept (bodyObject body)
  let row ← Handler.ofExcept (s.bindComplete data [])
  let r ← Handler.transaction do
    match ← Handler.ofSession (Rows.findMatching s.model row) with
    | some existing => throw (.alreadyExists (s.model.recordUri existing.toRow))
    | none => s.insertRow row
  return s.itemReply r 201 true

/-- All values of a row, or a new row with that id. -/
def replace (s : Service) (id : String) (headers : Headers) (body : List UInt8) : Handler Reply := do
  let key ← Handler.ofExcept (s.requireKey id)
  let keyName := s.model.keyField.name
  let data ← Handler.ofExcept (bodyObject body)
  let row ← Handler.ofExcept (s.bindComplete (data.filter (·.1 != keyName)) [keyName])
  Handler.transaction do
    match ← Handler.ofSession (Rows.findByKey s.model id) with
    | none => return s.itemReply (← s.insertRow (row ++ [(keyName, key)])) 201 true
    | some existing =>
      Handler.ofExcept (s.checkPrecondition headers existing)
      return s.itemReply (← s.updateRow id key row) 200 false

/-- Some values of a row. -/
def modify (s : Service) (id : String) (headers : Headers) (body : List UInt8) : Handler Reply := do
  let key ← Handler.ofExcept (s.requireKey id)
  let data ← Handler.ofExcept (bodyObject body)
  let changes ← Handler.ofExcept (s.bindPartial (data.filter (·.1 != s.model.keyField.name)))
  Handler.transaction do
    let existing ← s.requireRow id
    Handler.ofExcept (s.checkPrecondition headers existing)
    return s.itemReply (← s.updateRow id key changes) 200 false

/-- The end of a row. -/
def delete (s : Service) (id : String) (headers : Headers) : Handler Reply := do
  let key ← Handler.ofExcept (s.requireKey id)
  Handler.transaction do
    let existing ← s.requireRow id
    Handler.ofExcept (s.checkPrecondition headers existing)
    discard (Handler.ofSession (Rows.delete s.model key))
    return Reply.empty 204

end RestTables.Service
