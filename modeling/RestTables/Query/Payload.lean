import RestTables.Query.Compiler
import RestTables.Json.Document

/-
Module: RestTables.Query.Payload
Purpose: Queries from the bodies of FETCH requests: the form of a body, reading it from JSON, showing it
  again, and the query that it asks for.
Main exports: Payload, Payload.parse, Payload.toJson, Compiler.ofPayload
-/

namespace RestTables

namespace Payload

/-- The columns to read of a relation's target: a word, of which only the star means something, or a
list. -/
inductive Columns where
  | word (w : String)
  | list (names : List String)
deriving Repr, DecidableEq

/-- A test of a column. -/
structure FilterSpec where
  model : Option String
  field : String
  op : String
  value : Json
deriving Repr, DecidableEq

/-- A column to sort by. -/
structure SortSpec where
  model : Option String
  field : String
  direction : String
deriving Repr, DecidableEq

/-- The page that is wanted. -/
structure PageSpec where
  page : Option Nat
  limit : Option Nat
deriving Repr, DecidableEq

end Payload

/-- The body of a FETCH request. -/
structure Payload where
  fields : List String := []
  /-- By name of relation, in order. -/
  related : List (String × Payload.Columns) := []
  filters : List Payload.FilterSpec := []
  sorting : List Payload.SortSpec := []
  pagination : Option Payload.PageSpec := none
deriving Repr, DecidableEq, Inhabited

namespace Payload

open Json Json.Reader

/-! ## Reading -/

/-- What has been read of a test. -/
structure FilterDraft where
  model : Option String := none
  field : Option String := none
  op : Option String := none
  value : Json := .null

/-- A test; a value nested in it may nest `depth` deep. -/
def filterSpec (depth : Nat) : Reader FilterSpec :=
  let record : RecordReader FilterDraft :=
    { name := "struct FilterSpec"
      isClosed := true
      fields :=
        [.of "model" (optional (text "a string")) (fun v s => { s with model := v }) false,
         .of "field" (text "a string") (fun v s => { s with field := some v }) false,
         .of "op" (text "a string") (fun v s => { s with op := some v }) false,
         .of "value" (Reader.value depth) (fun v s => { s with value := v }) true] }
  record.read {} fun s => do
    return ⟨s.model, ← required "field" s.field, ← required "op" s.op, s.value⟩

/-- What has been read of a column to sort by. -/
structure SortDraft where
  model : Option String := none
  field : Option String := none
  direction : String := "asc"

/-- A column to sort by, upwards unless another direction is given. -/
def sortSpec : Reader SortSpec :=
  let record : RecordReader SortDraft :=
    { name := "struct SortSpec"
      isClosed := true
      fields :=
        [.of "model" (optional (text "a string")) (fun v s => { s with model := v }) false,
         .of "field" (text "a string") (fun v s => { s with field := some v }) false,
         .of "direction" (text "a string") (fun v s => { s with direction := v }) true] }
  record.read {} fun s => do return ⟨s.model, ← required "field" s.field, s.direction⟩

/-- A page. -/
def pageSpec : Reader PageSpec :=
  let record : RecordReader PageSpec :=
    { name := "struct PaginationSpec"
      isClosed := true
      fields :=
        [.of "page" (optional natural) (fun v s => { s with page := v }) false,
         .of "limit" (optional natural) (fun v s => { s with limit := v }) false] }
  record.read ⟨none, none⟩ .ok

/-- The columns of a relation's target that a value names. -/
def columnsOf? : Json → Option Columns
  | .str w => some (.word w)
  | .arr items => (items.mapM Json.text?).map .list
  | _ => none

/-- The columns of a relation's target. -/
def columns (depth : Nat) : Reader Columns := do
  match columnsOf? (← plainValue depth) with
  | some c => return c
  | none => failSomewhere (.noVariant "RelatedColumns")

/-- Members in the order of their names, the last of each. -/
def ordered (members : List (String × α)) : List (String × α) :=
  members.foldl (fun acc m => insert m.1 m.2 acc) []
where
  /-- Sets the value of a name, in the name's place. -/
  insert (key : String) (a : α) : List (String × α) → List (String × α)
    | [] => [(key, a)]
    | (k, b) :: rest =>
      if key < k then (key, a) :: (k, b) :: rest
      else if key = k then (key, a) :: rest
      else (k, b) :: insert key a rest

/-- How a body is read. -/
def record : RecordReader Payload :=
  { name := "struct FetchPayload"
    isClosed := true
    fields :=
      [.of "fields" (list (text "a string")) (fun v s => { s with fields := v }) true,
       .of "related" (map (columns (depthLimit - 2))) (fun v s => { s with related := ordered v }) true,
       .of "filters" (list (filterSpec (depthLimit - 3))) (fun v s => { s with filters := v }) true,
       .of "sorting" (list sortSpec) (fun v s => { s with sorting := v }) true,
       .of "pagination" (optional pageSpec) (fun v s => { s with pagination := v }) true] }

/-- A body from JSON text. -/
def parse (bytes : List UInt8) : Except Failure Payload := document (record.read {} .ok) bytes

/-! ## Showing -/

/-- The columns as JSON. -/
def Columns.toJson : Columns → Json
  | .word w => .str w
  | .list names => Json.strings names

/-- A test as JSON. -/
def FilterSpec.toJson (s : FilterSpec) : Json :=
  .obj [("model", Json.ofOption .str s.model), ("field", .str s.field), ("op", .str s.op), ("value", s.value)]

/-- A column to sort by as JSON. -/
def SortSpec.toJson (s : SortSpec) : Json :=
  .obj [("model", Json.ofOption .str s.model), ("field", .str s.field), ("direction", .str s.direction)]

/-- A page as JSON. -/
def PageSpec.toJson (s : PageSpec) : Json :=
  .obj [("page", Json.ofOption Json.nat s.page), ("limit", Json.ofOption Json.nat s.limit)]

/-- A body as JSON. -/
def toJson (p : Payload) : Json :=
  .obj
    [("fields", Json.strings p.fields),
     ("related", .obj (p.related.map fun (name, c) => (name, c.toJson))),
     ("filters", .arr (p.filters.map FilterSpec.toJson)),
     ("sorting", .arr (p.sorting.map SortSpec.toJson)),
     ("pagination", Json.ofOption PageSpec.toJson p.pagination)]

/-- The page as arguments of a query string. -/
def PageSpec.toArguments (s : PageSpec) (names : ArgumentNames) : Arguments :=
  (s.page.map fun n => (names.page, toString n)).toList ++
    (s.limit.map fun n => (names.limit, toString n)).toList

end Payload

namespace Compiler

/-- The resource itself, by name or by no name, or one of its relations. -/
def model? (c : Compiler) (name : Option String) : Option (Option String) :=
  match name with
  | none => some none
  | some name =>
    if Text.sameFold name c.model.name then some none
    else (c.model.related? name).map fun r => some r.name

/-- A column of the resource or of a relation's target. -/
def fieldOf? (c : Compiler) (relation : Option String) (field : String) : Option Field :=
  match relation with
  | none => c.model.column? field
  | some name => do (← c.target? (← c.model.related? name)).column? field

/-- The resource and the column that a part of a body names; otherwise what it names in vain. -/
def locate (c : Compiler) (model : Option String) (field : String) :
    Except String (Option String × Field) :=
  match c.model? model with
  | none => .error ("model=" ++ model.getD "")
  | some relation =>
    match c.fieldOf? relation field with
    | none => .error ("field=" ++ field)
    | some f => .ok (relation, f)

/-- The values of a list. -/
def operands? (kind : Kind) (v : Json) : Option (List Value) := do (← v.items?).mapM (Value.ofJson? kind)

/-- The test that an operator and a JSON value make; none when the value does not fit. -/
def test? (kind : Kind) (op : Operator) (v : Json) : Option Predicate :=
  let compare := (Value.ofJson? kind v).map (.compare op)
  let like := fun negated => v.text?.map fun pattern => Predicate.like pattern negated
  let isIn := fun negated => (operands? kind v).map fun vs => Predicate.isIn vs negated
  let range := fun negated => do
    match ← operands? kind v with
    | [low, high] => some (Predicate.range low high negated)
    | _ => none
  match op with
  | .eq => if v.isNull then some (.null false) else compare
  | .ne => if v.isNull then some (.null true) else compare
  | .gt | .ge | .lt | .le => compare
  | .like => like false
  | .notLike => like true
  | .isIn => isIn false
  | .notIn => isIn true
  | .isNull => some (.null false)
  | .isNotNull => some (.null true)
  | .between => range false
  | .notBetween => range true

/-- One column to show. -/
def payloadField (c : Compiler) (acc : Compiled) (name : String) : Compiled :=
  if (c.model.column? name).isSome then acc.addField name else acc.reject name

/-- One relation to read. -/
def payloadLoad (c : Compiler) (acc : Compiled) (entry : String × Payload.Columns) : Compiled :=
  let (name, columns) := entry
  match c.model.related? name with
  | none => acc.reject name
  | some relation =>
    match columns with
    | .word w => if w = "*" then acc.addLoad ⟨relation.name, none⟩ else acc.reject (name ++ "." ++ w)
    | .list names =>
      match c.target? relation with
      | none => acc.reject name
      | some target =>
        let unknown := names.filter fun column => (target.column? column).isNone
        if unknown.isEmpty then acc.addLoad ⟨relation.name, some names⟩
        else unknown.foldl (fun acc column => acc.reject (name ++ "." ++ column)) acc

/-- One test. -/
def payloadFilter (c : Compiler) (acc : Compiled) (spec : Payload.FilterSpec) : Compiled :=
  match c.locate spec.model spec.field with
  | .error part => acc.reject part
  | .ok (relation, field) =>
    match Operator.read? spec.op with
    | none => acc.reject ("op=" ++ spec.op)
    | some op =>
      match test? field.kind op spec.value with
      | none => acc.reject (spec.field ++ "=" ++ spec.value.text)
      | some test => acc.addFilter ⟨relation, field.name, [test]⟩

/-- One column to sort by. -/
def payloadOrder (c : Compiler) (acc : Compiled) (spec : Payload.SortSpec) : Compiled :=
  match c.locate spec.model spec.field with
  | .error part => acc.reject part
  | .ok (relation, field) =>
    let direction := Text.lowerText spec.direction
    if direction = "asc" then acc.addOrder ⟨relation, field.name, false⟩
    else if direction = "desc" then acc.addOrder ⟨relation, field.name, true⟩
    else acc.reject ("direction=" ++ spec.direction)

/-- The query that a body asks for. -/
def ofPayload (c : Compiler) (p : Payload) : Compiled :=
  let fields := p.fields.foldl c.payloadField {}
  let loads := p.related.foldl c.payloadLoad fields
  let filters := p.filters.foldl c.payloadFilter loads
  p.sorting.foldl c.payloadOrder filters

end Compiler

end RestTables
