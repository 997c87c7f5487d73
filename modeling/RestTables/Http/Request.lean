import RestTables.Http.Header
import RestTables.Http.Target
import RestTables.Verb

/-
Module: RestTables.Http.Request
Purpose: Requests: which method, target and header fields make one, and the verb that it asks for.
Main exports: Request, Request.read, Headers.read, Verb.ofHeaders?
-/

namespace RestTables

/-- A request. -/
structure Request where
  method : String
  target : Target
  headers : Headers
  body : List UInt8
deriving Repr, DecidableEq

/-- Why something is no request. -/
inductive Request.Problem where
  | method
  | target (problem : Target.Problem)
  | headerName
  | headerValue
deriving Repr, DecidableEq

/-- The problem in words. -/
def Request.Problem.message : Request.Problem → String
  | method => "invalid HTTP method"
  | target problem => problem.message
  | headerName => "invalid HTTP header name"
  | headerValue => "failed to parse header value"

/-- One header field; the case of its name means nothing. -/
def Headers.readField (field : String × String) : Except Request.Problem (String × String) :=
  let (name, value) := field
  if !Verb.isMethod name then .error .headerName
  else if !isValue value then .error .headerValue
  else .ok (Text.lowerText name, value)

/-- Header fields with their names in small letters. -/
def Headers.read (fields : List (String × String)) : Except Request.Problem Headers := fields.mapM readField

/-- The request with these parts; what is wrong with the method is told before what is wrong with the
target, and that before what is wrong with a header. -/
def Request.read (method target : String) (fields : List (String × String)) (body : List UInt8) :
    Except Request.Problem Request := do
  if !Verb.isMethod method then throw .method
  let target ← (Target.read target).mapError .target
  return ⟨method, target, ← Headers.read fields, body⟩

/-- The verb of a request with a method, header fields and perhaps an argument that asks for another verb.
What a header asks for counts more than the argument. -/
def Verb.ofHeaders? (method : String) (headers : Headers) (argument : Option String) : Option Verb :=
  resolve? method ((headers.text? overrideHeader).orElse fun _ => argument)

example : (Headers.read [("If-Match", "*")]).toOption = some [("if-match", "*")] := by decide +kernel
example : (Request.read "GET" "/" [("", "x")] []).toOption = none := by decide +kernel

end RestTables
