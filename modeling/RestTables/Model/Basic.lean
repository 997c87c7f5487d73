import RestTables.Model.Field
import RestTables.Model.Relation
import RestTables.Config.Error
import RestTables.Verb
import RestTables.Json.Basic
import RestTables.Text.Affix

/-
Module: RestTables.Model.Basic
Purpose: Resources: tables as clients see them. A declaration is checked once; what it hides is gone from
  the model that is built from it.
Main exports: Model, Model.Declaration, Declaration.build, Model.validate, Model.related?
-/

namespace RestTables

/-- A resource. -/
structure Model where
  name : String
  table : String
  /-- The path of the collection. -/
  url : String
  description : Option String
  /-- What follows the name of a resource where its rows are listed. -/
  collectionSuffix : String
  columns : List Field
  /-- The first key column. -/
  keyField : Field
  relations : List Relation
  methods : List Verb
deriving Repr, DecidableEq, Inhabited

namespace Model

/-- A resource as it is declared. -/
structure Declaration where
  name : String
  table : String
  url : Option String := none
  description : Option String := none
  collectionSuffix : String := "List"
  fields : List Field := []
  hidden : List String := []
  relations : List Relation := []
  methods : Option (List Verb) := none
deriving Repr, DecidableEq

namespace Declaration

/-- A column that clients may know of: neither hidden nor named like a private one. -/
def exposes (d : Declaration) (f : Field) : Bool := f.name.toList.head? != some '_' && !d.hidden.contains f.name

/-- The columns that clients may know of. -/
def exposed (d : Declaration) : List Field := d.fields.filter d.exposes

/-- The first name that an earlier field has already. -/
def repeated? : (seen : List String) → List Field → Option String
  | _, [] => none
  | seen, f :: fields => if seen.contains f.name then some f.name else repeated? (f.name :: seen) fields

/-- The declared path, or the name in small letters, with a slash in front. -/
def path (d : Declaration) : String :=
  let url := d.url.getD ("/" ++ Text.lower d.name)
  if url.toList.head? = some '/' then url else "/" ++ url

/-- The model, if its columns have different names and one of them is a key. -/
def build (d : Declaration) : Except ConfigError Model :=
  match repeated? [] d.exposed with
  | some field => .error (.duplicateField d.name field)
  | none =>
    match d.exposed.find? (·.isPrimary) with
    | none => .error (.missingPrimaryKey d.name)
    | some keyField =>
      .ok
        { name := d.name
          table := d.table
          url := d.path
          description := d.description
          collectionSuffix := d.collectionSuffix
          columns := d.exposed
          keyField
          relations := d.relations
          methods := Verb.all.filter fun v => (d.methods.getD Verb.all).contains v }

end Declaration

/-- The part of a path behind its last slash. -/
def lastSegment (url : String) : String :=
  String.ofList ((url.toList.reverse.takeWhile (· != '/')).reverse)

/-- The part of a path by which the model is found. -/
def segment (m : Model) : String := lastSegment m.url

/-- The name of the model's rows where they are listed. -/
def collectionKey (m : Model) : String := m.name ++ m.collectionSuffix

/-- The column of that name. -/
def column? (m : Model) (name : String) : Option Field := m.columns.find? (·.name == name)

/-- The names of the columns that a new row needs. -/
def required (m : Model) : List String := (m.columns.filter (·.isRequired)).map (·.name)

/-- The names of the columns that clients may set but need not. -/
def optional (m : Model) : List String := (m.columns.filter fun f => f.isWritable && !f.isRequired).map (·.name)

/-- The names of the columns that a search term is looked for in. -/
def searchable (m : Model) : List String := (m.columns.filter (·.kind.isTextual)).map (·.name)

/-- The relation of that name, or else the first one to a target of that name, ignoring case. -/
def related? (m : Model) (name : String) : Option Relation :=
  m.relations.find? (·.isNamed name) <|> m.relations.find? (·.answersTo name)

/-- The relation that a part of a path follows, ignoring case. -/
def relationBySegment? (m : Model) (segment : String) : Option Relation :=
  m.relations.find? fun r => Text.sameFold r.segment segment

/-- The model answers the verb. -/
def allows (m : Model) (verb : Verb) : Bool := m.methods.contains verb

/-- The methods that the model answers. -/
def methodNames (m : Model) : List String := m.methods.map (·.name)

/-- What is wrong with the names in a body. -/
structure Validation where
  missing : List String
  unknown : List String
deriving Repr, DecidableEq

/-- Nothing is wrong. -/
def Validation.isValid (v : Validation) : Bool := v.missing.isEmpty && v.unknown.isEmpty

/-- Required columns that a body does not give, or gives as null, and names that are no columns a client
may set. -/
def validate (m : Model) (data : Json.Object) : Validation :=
  { missing := m.required.filter fun name => ((data.get? name).map Json.isNull).getD true
    unknown := data.keys.filter fun key => !m.required.contains key && !m.optional.contains key }

/-- The path of a row. -/
def rowUri (m : Model) (id : String) : String := m.url ++ "/" ++ id

/-- The model with its path below another. -/
def mount (m : Model) (baseUrl : String) : Model :=
  { m with url := String.ofList (Text.trimEndOf '/' baseUrl.toList) ++ m.url }

/-- A verb that stays when nothing may be changed. -/
def isReading : Verb → Bool
  | .get | .head | .fetch | .options => true
  | _ => false

/-- The model without the verbs that the settings take away. -/
def restrict (m : Model) (readOnly fetchEnabled : Bool) : Model :=
  { m with methods := m.methods.filter fun v => (!readOnly || isReading v) && (fetchEnabled || v != .fetch) }

/-- The model with one more relation. -/
def addRelation (m : Model) (r : Relation) : Model := { m with relations := m.relations ++ [r] }

theorem isReading_iff (v : Verb) : isReading v = true ↔ v.isMutating = false := by cases v <;> decide

theorem keyField_mem_of_build {d : Declaration} {m : Model} (h : d.build = .ok m) : m.keyField ∈ m.columns := by
  unfold Declaration.build at h
  split at h
  · cases h
  · split at h
    · cases h
    · next k hk =>
      cases h
      exact List.mem_of_find?_eq_some hk

end Model

end RestTables
