import RestTables.Catalog.Reflect
import RestTables.Http.PathPattern
import RestTables.Http.Request
import RestTables.OpenApi
import RestTables.Registry.Build
import RestTables.Service.Write

/-
Module: RestTables.Router
Purpose: Which resource and which verb a request means, and the reply that is sent.
Main exports: App, Place, Route, App.find?, App.respond, App.ofDatabase
-/

namespace RestTables

/-- The resources of a service, its settings and its kind of database. -/
structure App where
  registry : Registry
  config : Config
  backend : Backend

/-! ## Paths -/

/-- What a path leads to. -/
inductive Place where
  | document
  | index
  | collection
  | item
  | subresource
deriving Repr, DecidableEq

/-- A place with the names that the path to it gives. -/
inductive Route where
  | document
  | index
  | collection (resource : String)
  | item (resource id : String)
  | subresource (resource id segment : String)
deriving Repr, DecidableEq

/-- Why the names in a path cannot be used. -/
inductive Route.Problem where
  | notText (name : String)
  | wrongCount (expected actual : Nat)
deriving Repr, DecidableEq

/-- The status of the reply to a path that cannot be used. -/
def Route.Problem.status : Route.Problem → Nat
  | notText _ => 400
  | wrongCount .. => 500

/-- The problem in words. -/
def Route.Problem.message : Route.Problem → String
  | notText name => s!"Invalid URL: Invalid UTF-8 in `{name}`"
  | wrongCount expected actual =>
    s!"Wrong number of path arguments for `Path`. Expected {expected} but got {actual}" ++
      if expected = 1 then
        ". Note that multiple parameters must be extracted with a tuple `Path<(_, _)>` or a struct " ++
          "`Path<YourParams>`"
      else ""

/-- The text that a part of a path encodes, if it is one. -/
def Route.decodePart (part : String × String) : Except Route.Problem String :=
  match Text.Utf8.decode? (Text.Form.percentDecode (Text.Utf8.encode part.2.toList)) with
  | some s => .ok (String.ofList s)
  | none => .error (.notText part.1)

namespace Place

/-- A place of the service itself, which can only be read. -/
def isFixed : Place → Bool
  | document | index => true
  | _ => false

/-- The place answers a method by itself. -/
def answers (p : Place) (method : String) : Bool := !p.isFixed || method == "GET" || method == "HEAD"

/-- The place of a resource with the names that the path to it gives. -/
def named : Place → List String → Except Route.Problem Route
  | document, _ => .ok .document
  | index, _ => .ok .index
  | collection, [resource] => .ok (.collection resource)
  | collection, names => .error (.wrongCount 1 names.length)
  | item, [resource, id] => .ok (.item resource id)
  | item, names => .error (.wrongCount 2 names.length)
  | subresource, [resource, id, segment] => .ok (.subresource resource id segment)
  | subresource, names => .error (.wrongCount 3 names.length)

/-- The route to a place. The service's own places take no names; what a path has in their stead is not
looked at. -/
def route (p : Place) (captures : Captures) : Except Route.Problem Route :=
  if p.isFixed then p.named [] else do p.named (← captures.mapM Route.decodePart)

end Place

/-- A way into a service. -/
structure Entrance where
  pattern : PathPattern
  place : Place
deriving Repr, DecidableEq

namespace App

open Text

/-- What stands in front of every path. -/
def base (a : App) : List Char := trimEndOf '/' a.config.baseUrl.toList

/-- A path of the service. A single slash below a base is the base itself. -/
def mounted (a : App) (path : String) : List Char :=
  if path = "/" ∧ a.base ≠ [] then a.base else a.base ++ path.toList

/-- The entrance at a path of the service, which is written as a pattern. -/
def entrance (a : App) (path : String) (place : Place) : Entrance :=
  ⟨PathPattern.ofText (String.ofList (a.mounted path)), place⟩

/-- The entrances of a service. -/
def entrances (a : App) : List Entrance :=
  (if a.config.resourcesUrlEnabled then [a.entrance a.config.resourcesUrl .index] else []) ++
    [a.entrance "/openapi.json" .document,
     a.entrance "/\x7bresource\x7d" .collection,
     a.entrance "/\x7bresource\x7d/\x7bid\x7d" .item,
     a.entrance "/\x7bresource\x7d/\x7bid\x7d/\x7bsegment\x7d" .subresource]

/-- The entrances that a path fits, with the parts of the path that their holes stand for. -/
def fitting (a : App) (path : String) : List (Entrance × Captures) :=
  a.entrances.filterMap fun e => (e.pattern.fit? path.toList).map fun captures => (e, captures)

/-- What a path leads to: the place of the most exact pattern. Where two places share it, the first one that
answers the method by itself is meant. -/
def find? (a : App) (method path : String) : Option (Place × Captures) :=
  let fitting := a.fitting path
  let exact := fitting.filter fun v => !fitting.any fun w => w.1.pattern.isMoreExact v.1.pattern
  ((exact.find? fun v => v.1.place.answers method) <|> exact.head?).map fun v => (v.1.place, v.2)

/-! ## Verbs -/

/-- The arguments of a request. -/
def arguments (r : Request) : Arguments := (r.target.query.map Form.parse).getD []

/-- The argument that asks for another verb. -/
def methodArgument : String := "_method"

/-- The verb that a request asks for. -/
def verb? (r : Request) : Option Verb :=
  Verb.ofHeaders? r.method r.headers ((arguments r).first? methodArgument)

/-- The verb is not one of the resource's. -/
def notAllowed (m : Model) (method : String) : ApiError := .methodNotAllowed method m.methodNames

/-- The verb of a request, which the resource must answer. -/
def requireVerb (m : Model) (r : Request) : Except ApiError Verb :=
  match verb? r with
  | none => .error (notAllowed m r.method)
  | some verb => if m.allows verb then .ok verb else .error (notAllowed m verb.name)

/-- The resource at a part of a path, and the verb asked of it. -/
def locate (a : App) (resource : String) (r : Request) : Except ApiError (Service × Verb) :=
  match a.registry.bySegment? resource with
  | none => .error (.notFound resource none)
  | some m => do
    let service : Service := { registry := a.registry, config := a.config, backend := a.backend, model := m }
    return (service, ← requireVerb m r)

/-- A reply to a verb; one to HEAD holds nothing. -/
def stripHead (verb : Verb) (reply : Reply) : Reply := if verb = .head then reply.withoutBody else reply

/-! ## Dispatch -/

/-- A request for a collection. -/
def collection (s : Service) (verb : Verb) (r : Request) : Handler Reply :=
  match verb with
  | .get | .head => s.list (arguments r) r.headers
  | .post => s.create r.body
  | .fetch => s.fetch (arguments r) r.headers r.body
  | .options => pure s.options
  | .put | .patch | .delete => throw (notAllowed s.model verb.name)

/-- A request for a row, or for the description where that stands in the place of an id. -/
def item (s : Service) (verb : Verb) (id : String) (r : Request) : Handler Reply :=
  match verb with
  | .get | .head =>
    if s.config.metadataEnabled ∧ id = s.config.metadataSegment then pure s.describe
    else s.get id (arguments r) r.headers
  | .put => s.replace id r.headers r.body
  | .patch => s.modify id r.headers r.body
  | .delete => s.delete id r.headers
  | .options => pure s.options
  | .post | .fetch => throw (notAllowed s.model verb.name)

/-- A request for what a row is related to. -/
def subresource (s : Service) (verb : Verb) (id segment : String) (r : Request) : Handler Reply :=
  match verb with
  | .get | .head => s.subresource id segment (arguments r) r.headers
  | .options => pure s.options
  | verb => throw (.methodNotAllowed verb.name ["GET"])

/-- A request for a resource. -/
def serve (a : App) (resource : String) (r : Request) (handle : Service → Verb → Handler Reply) :
    Handler Reply := do
  let (s, verb) ← Handler.ofExcept (a.locate resource r)
  return stripHead verb (← handle s verb)

/-- A request for what a route leads to. -/
def handle (a : App) (route : Route) (r : Request) : Handler Reply :=
  match route with
  | .document => pure (Reply.json 200 OpenApi.document)
  | .index => pure (Reply.json 200 (.obj a.registry.index))
  | .collection resource => a.serve resource r fun s verb => collection s verb r
  | .item resource id => a.serve resource r fun s verb => item s verb id r
  | .subresource resource id segment => a.serve resource r fun s verb => subresource s verb id segment r

/-- The reply of a handler, or its refusal, as it is sent. -/
def sendResult (h : Handler Reply) : Dialogue Response := do
  match ← h.run with
  | .ok reply => return reply.send
  | .error e => return e.send

/-- Nothing is found at a path. -/
def nothingThere : Response := ⟨404, [], []⟩

/-- A path that can only be read. -/
def readOnlyPath : Response := ⟨405, [("allow", "GET,HEAD")], []⟩

/-- A path whose names cannot be used. -/
def badPath (problem : Route.Problem) : Response :=
  ⟨problem.status, Reply.typeHeader "text/plain; charset=utf-8", Utf8.encode problem.message.toList⟩

/-- The reply to a request, its body included. -/
def answer (a : App) (r : Request) : Dialogue Response :=
  match a.find? r.method r.target.path with
  | none => pure nothingThere
  | some (place, captures) =>
    if !place.answers r.method then pure readOnlyPath
    else match place.route captures with
      | .error problem => pure (badPath problem)
      | .ok route => sendResult (a.handle route r)

/-- The reply to a request; one to the method HEAD has no body. -/
def respond (a : App) (r : Request) : Dialogue Response := do
  let response ← a.answer r
  return if r.method = "HEAD" then { response with body := [] } else response

/-- The service for all tables of a database. -/
def ofDatabase (backend : Backend) (config : Config) : Catalog.Reflection App := do
  let tables ← Catalog.exposedTables backend config
  let registry ← (Registry.build [] tables config : Except ConfigError _)
  return ⟨registry, config, backend⟩

end App

end RestTables
