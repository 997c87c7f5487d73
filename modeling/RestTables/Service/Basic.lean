import RestTables.Config.Basic
import RestTables.Http.EntityTag
import RestTables.Http.Link
import RestTables.Http.Reply
import RestTables.Query.Arguments
import RestTables.Registry.Basic
import RestTables.Sql.Backend
import RestTables.Storage.Dialogue

/-
Module: RestTables.Service.Basic
Purpose: One resource at work: the refusals and transactions of its dialogues with the database, the bodies
  it takes, the entity tags that make requests conditional, and how arguments become a query.
Main exports: Service, Handler, Handler.transaction, Service.bodyObject, Service.compileQuery,
  Service.checkPrecondition
-/

namespace RestTables

/-- A dialogue that ends in a refusal when something is wrong. -/
abbrev Handler := ExceptT ApiError Dialogue

namespace Handler

/-- A failed statement is a refusal. -/
def ofSession (s : Session α) : Handler α := ExceptT.adapt ApiError.ofStorage s

/-- A choice that has been made already. -/
def ofExcept (e : Except ApiError α) : Handler α := ExceptT.mk (.done e)

/-- What is done between a begin and a commit, or a rollback when it ends in a refusal. -/
def transaction (h : Handler α) : Handler α :=
  ExceptT.mk (.mark .begin (Dialogue.bind h.run fun
    | .ok a => .mark .commit (.done (.ok a))
    | .error e => .mark .rollback (.done (.error e))))

end Handler

/-- A resource, among the others and with the settings of the service. -/
structure Service where
  registry : Registry
  config : Config
  backend : Backend
  model : Model
  names : ArgumentNames := {}

namespace Service

/-- There is no row with that id. -/
def notFound (s : Service) (id : String) : ApiError := .notFound s.model.name (some id)

/-! ## Bodies -/

/-- A byte that is blank. -/
def isBlankByte (b : UInt8) : Bool := b == 32 || b == 9 || b == 10 || b == 12 || b == 13

/-- Nothing but blanks. -/
def isBlank (body : List UInt8) : Bool := body.all isBlankByte

/-- The object that a body holds; it must not be empty. -/
def bodyObject (body : List UInt8) : Except ApiError Json.Object :=
  if isBlank body then .error (.badRequest "Request body is empty" [])
  else match Json.parse body with
    | .ok (.obj []) => .error (.badRequest "Request body is empty" [])
    | .ok (.obj data) => .ok data
    | .ok _ => .error (.badRequest "Request body must be a JSON object" [])
    | .error e => .error (.badRequest ("Malformed JSON: " ++ e.message) [])

/-! ## Entity tags -/

/-- A row as it is shown when nothing else is asked for; its entity tag is that of this form. -/
def canonical (s : Service) (r : Record) : Json := .obj (s.registry.render s.model r false true)

/-- A reply with its entity tag, or the news that the client has it already. -/
def conditionalRead (s : Service) (headers : Headers) (reply : Reply) : Reply :=
  if !s.config.conditionalRequestEnabled then reply
  else match reply.body with
    | .json body =>
      let tag := EntityTag.of body
      let cached := ((headers.text? "if-none-match").map fun list => EntityTag.matchesWeak list tag).getD false
      if cached then (Reply.empty 304).header "etag" tag else reply.header "etag" tag
    | _ => reply

/-- A write must name the entity tag of the row as it is. -/
def checkPrecondition (s : Service) (headers : Headers) (current : Record) : Except ApiError Unit :=
  if !s.config.conditionalRequestEnabled then .ok ()
  else match headers.get? "if-match" with
    | none => .error .preconditionRequired
    | some _ =>
      if EntityTag.matchesStrong ((headers.text? "if-match").getD "") (EntityTag.of (s.canonical current)) then
        .ok ()
      else .error .preconditionFailed

/-- A row after a write. -/
def itemReply (s : Service) (r : Record) (status : Nat) (withLocation : Bool) : Reply :=
  let body := s.canonical r
  let reply := (Reply.json status body).header "link" (Link.ofResource (s.model.links r.toRow))
  let reply :=
    match s.model.recordUri r.toRow with
    | some uri => if withLocation then reply.header "location" uri else reply
    | none => reply
  if s.config.conditionalRequestEnabled then reply.header "etag" (EntityTag.of body) else reply

/-! ## Queries -/

/-- Refuses when some parts were not understood. -/
def rejectInvalid (invalid : List String) : Except ApiError Unit :=
  if invalid.isEmpty then .ok () else .error (.invalidTokens invalid)

/-- The arguments that queries are made of. -/
def queryArguments (s : Service) (args : Arguments) : Arguments :=
  if s.config.queryStringFiltersEnabled then args else args.filter fun (k, _) => s.names.isScalar k

/-- The query that arguments ask of a model, and the page. -/
def compileQuery (s : Service) (m : Model) (args : Arguments) : Except ApiError (Query × PageRequest) := do
  let request := PageRequest.ofArguments s.names s.config.maxLimit args
  let compiled := ({ registry := s.registry, model := m } : Compiler).ofArguments (s.queryArguments args)
  rejectInvalid (request.invalid ++ compiled.invalid)
  return (compiled.query, request)

/-- A query and a page as a plan. -/
def plan (s : Service) (q : Query) (request : PageRequest) : Plan :=
  ⟨q, request.page, request.limit, s.config.join⟩

/-- How a list is to be shown. -/
structure ListOptions where
  /-- The name of the file to save. -/
  exports : Option String
  asTable : Bool
  noLinks : Bool
deriving Repr, DecidableEq

/-- How arguments ask for a list to be shown. A file without a name is named after the resource. -/
def listOptions (s : Service) (args : Arguments) : ListOptions :=
  let filename := fun value : String =>
    let name := Text.trim value.toList
    if name.isEmpty then s.model.name else String.ofList name
  { exports :=
      if s.config.exportEnabled then
        ((args.filter fun (k, _) => k == s.names.exports).getLast?).map fun (_, v) => filename v
      else none
    asTable := args.any fun (k, _) => k == s.names.asTable
    noLinks := args.any fun (k, _) => k == s.names.noLinks }

end Service

end RestTables
