import RestTables.Export.Flatten
import RestTables.Query.Payload
import RestTables.Rows.Page
import RestTables.Service.Basic

/-
Module: RestTables.Service.Read
Purpose: The verbs that read: lists, structured queries, single rows, the rows of a relation, and what is told
  about the resource itself.
Main exports: Service.list, Service.fetch, Service.get, Service.subresource, Service.describe, Service.options
-/

namespace RestTables.Service

/-- The rows of a page as the file to save. -/
def renderFile (s : Service) (items : List Json.Object) (filename : String) (page : Page) :
    Except ApiError Reply := do
  let reply ← Reply.ofCsv (items.flatMap Export.flatten) filename s.config.csvDelimiter
  return reply.addHeaders page.headers

/-- The rows of a page under the name of the collection, with the addresses of the other pages. -/
def renderItems (s : Service) (m : Model) (items : List Json.Object) (path : String) (args : Arguments)
    (options : ListOptions) (page : Page) (limit : Option Nat) : Reply :=
  let rows := if options.asTable then items.flatMap Export.flatten else items
  let body := Json.Object.insert m.collectionKey (.arr (rows.map .obj)) []
  let navigation := Link.navigation path args s.names page limit
  let reply := (Reply.empty page.status.code).addHeaders page.headers
  if options.noLinks then { reply with body := .json (.obj body) }
  else
    { reply.header "link" (Link.ofNavigation navigation) with
      body := .json (.obj (body.insert "_meta" (.obj navigation))) }

/-- A page of rows of a model, as arguments ask for it. -/
def renderList (s : Service) (m : Model) (result : Rows.PageResult) (expand : Bool) (path : String)
    (args : Arguments) (limit : Option Nat) (headers : Headers) : Except ApiError Reply :=
  let options := s.listOptions args
  let withLinks := !options.noLinks && options.exports.isNone && !options.asTable
  let items := result.records.map fun r => s.registry.render m r expand withLinks
  match options.exports with
  | some filename => s.renderFile items filename result.page
  | none =>
    if result.page.status = .beyond then
      .ok ((Reply.empty result.page.status.code).addHeaders result.page.headers)
    else .ok (s.conditionalRead headers (s.renderItems m items path args options result.page limit))

/-- The rows that a query asks for. -/
def page (s : Service) (m : Model) (q : Query) (request : PageRequest) : Handler Rows.PageResult :=
  Handler.ofSession (Rows.selectPage s.registry m (s.plan q request))

/-- The collection, as arguments ask for it. -/
def list (s : Service) (args : Arguments) (headers : Headers) : Handler Reply := do
  let (q, request) ← Handler.ofExcept (s.compileQuery s.model args)
  let result ← s.page s.model q request
  Handler.ofExcept (s.renderList s.model result (!q.related.isEmpty) s.model.url args request.limit headers)

/-- The payload in a body; a blank body asks for everything. -/
def payloadOf (body : List UInt8) : Except ApiError Payload :=
  if isBlank body then .ok {}
  else match Payload.parse body with
    | .ok p => .ok p
    | .error e => .error (.validationFailed [] [] [e.message])

/-- The arguments that say which page a payload wants: its own, or else those of the address. -/
def pageArguments (s : Service) (p : Payload) (args : Arguments) : Arguments :=
  match p.pagination with
  | some spec => spec.toArguments s.names
  | none => args.filter fun (k, _) => s.names.isPagination k

/-- The query that a payload asks for, and the page. -/
def compilePayload (s : Service) (p : Payload) (args : Arguments) : Except ApiError (Query × PageRequest) := do
  let compiled := ({ registry := s.registry, model := s.model } : Compiler).ofPayload p
  let request := PageRequest.ofArguments s.names s.config.maxLimit (s.pageArguments p args)
  rejectInvalid (compiled.invalid ++ request.invalid)
  return (compiled.query, request)

/-- The collection, as a body asks for it. -/
def fetch (s : Service) (args : Arguments) (headers : Headers) (body : List UInt8) : Handler Reply := do
  let payload ← Handler.ofExcept (payloadOf body)
  let (q, request) ← Handler.ofExcept (s.compilePayload payload args)
  let result ← s.page s.model q request
  Handler.ofExcept (s.renderList s.model result (!q.related.isEmpty) s.model.url args request.limit headers)

/-- The row with an id; there must be one. -/
def requireRow (s : Service) (id : String) : Handler Record := do
  match ← Handler.ofSession (Rows.findByKey s.model id) with
  | some r => return r
  | none => throw (s.notFound id)

/-- A record with what some relations lead to. -/
def expandOne (s : Service) (r : Record) (loads : List Load) : Session Record := do
  return (← Rows.loadAll s.registry s.model [r] loads).head?.getD r

/-- One row, as arguments ask for it. -/
def get (s : Service) (id : String) (args : Arguments) (headers : Headers) : Handler Reply := do
  let (q, _) ← Handler.ofExcept (s.compileQuery s.model args)
  let row ← s.requireRow id
  let projected := if q.fields.isEmpty then row else { row with projection := some q.fields }
  let r ← Handler.ofSession (s.expandOne projected q.related)
  let body := s.registry.render s.model r (!q.related.isEmpty) (!(s.listOptions args).noLinks)
  let reply := (Reply.json 200 (.obj body)).header "link" (Link.ofResource (s.model.links r.toRow))
  return s.conditionalRead headers reply

/-- A relation of the resource by its part of a path, and its target. -/
def relationAt (s : Service) (segment : String) : Except ApiError (Relation × Model) :=
  match s.model.relationBySegment? segment with
  | none => .error (.notFound segment none)
  | some relation =>
    match s.registry.get? relation.target with
    | none => .error (.notFound relation.target none)
    | some target => .ok (relation, target)

/-- The value by which a row is related; NULL is related to nothing. -/
def relatedKey? (relation : Relation) (parent : Record) : Option Value :=
  (parent.get? relation.localKey).bind fun v => if v.isNull then none else some v

/-- The query with the rows restricted to one value of a column. -/
def restrictTo (q : Query) (column : String) (key : Value) : Query :=
  { q with filters := q.filters ++ [⟨none, column, [.compare .eq key]⟩] }

/-- The rows that a relation of one row leads to. -/
def subresource (s : Service) (id segment : String) (args : Arguments) (headers : Headers) : Handler Reply := do
  let (relation, target) ← Handler.ofExcept (s.relationAt segment)
  let parent ← s.requireRow id
  let (q, request) ← Handler.ofExcept (s.compileQuery target args)
  let result ←
    match relatedKey? relation parent with
    | none => pure ⟨[], Page.of request.page request.limit 0⟩
    | some key => s.page target (restrictTo q relation.remoteKey key) request
  let path := s.model.rowUri id ++ "/" ++ relation.segment
  Handler.ofExcept (s.renderList target result (!q.related.isEmpty) path args request.limit headers)

/-- What is told about the resource. -/
def describe (s : Service) : Reply := Reply.json 200 s.model.describe.sorted

/-- What can be asked of the resource. -/
def options (s : Service) : Reply := (Reply.empty 204).header "allow" (Text.join ", " s.model.methodNames)

end RestTables.Service
