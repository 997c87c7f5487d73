import RestTables.Registry.Basic
import RestTables.Catalog.Table
import RestTables.Config.Basic
import RestTables.Text.Split

/-
Module: RestTables.Registry.Build
Purpose: Assembling a registry from declared models and from tables of a catalog. A declared model takes
  the place of its table; the foreign keys of the other tables become relations of both ends.
Main exports: Registry.build
-/

namespace RestTables.Registry

/-! ## Models of tables -/

/-- A word with a capital in front. -/
def capitalized : List Char → List Char
  | [] => []
  | c :: rest => Text.upperChar c ++ rest

/-- The name of a table's model: its words, each with a capital, run together. -/
def modelName (table : String) : String :=
  String.ofList ((Text.splitAny (fun c => c == '_' || c == ' ' || c == '-') table.toList).flatMap capitalized)

/-- A table as a declaration. -/
def declaration (t : Table) : Model.Declaration :=
  { name := modelName t.name, table := t.name, description := t.comment, fields := t.columns }

/-- The models with those of further tables. A table that has a model already is passed over, and so is
one without a key. -/
def addTables : List Model → List Table → Except ConfigError (List Model)
  | models, [] => .ok models
  | models, t :: tables =>
    if models.any fun m => Text.sameFold m.table t.name then addTables models tables
    else match (declaration t).build with
      | .ok m => addTables (models ++ [m]) tables
      | .error (.missingPrimaryKey _) => addTables models tables
      | .error e => .error e

/-! ## Relations of foreign keys -/

/-- The place of the last model of a table. -/
def indexOfTable? (models : List Model) (table : String) : Option Nat :=
  (models.zipIdx.reverse.find? fun (m, _) => Text.lower m.table == Text.lower table).map (·.2)

/-- The name is that of a relation, ignoring case, or of a column. -/
def isTaken (m : Model) (name : String) : Bool := m.relations.any (·.isNamed name) || (m.column? name).isSome

/-- A name for a relation: that of its target, or with the key's column behind it where that is taken. -/
def relationName (m : Model) (preferred column : String) : String :=
  if isTaken m preferred then preferred ++ "_" ++ column else preferred

/-- A part of a path for a relation: that of its target, or else the relation's name. -/
def relationSegment (m : Model) (preferred name : String) : String :=
  Text.lower (if (m.relationBySegment? preferred).isSome then name else preferred)

/-- The relations that a foreign key gives to the model that has it and to the model it refers to. -/
def relationsOf (owner target : Model) (key : ForeignKey) : Relation × Relation :=
  let remote := key.targetColumn.getD target.keyField.name
  let scalarName := relationName owner target.name key.column
  let collectionName := relationName target owner.name key.column
  ({ Relation.scalar scalarName target.name key.column remote with
      segment := relationSegment owner target.segment scalarName },
   { Relation.collection collectionName owner.name remote key.column with
      segment := relationSegment target owner.segment collectionName })

/-- The models with the relations of one foreign key of the model at `owner`; a key to a table without
a model adds none. -/
def linkKey (owner : Nat) (models : List Model) (key : ForeignKey) : List Model :=
  match indexOfTable? models key.targetTable with
  | none => models
  | some target =>
    match models[owner]?, models[target]? with
    | some o, some t =>
      let (scalar, collection) := relationsOf o t key
      (models.modify owner (·.addRelation scalar)).modify target (·.addRelation collection)
    | _, _ => models

/-- The models with the relations of a table's foreign keys; `declared` models keep to the relations
they declare. -/
def linkTable (declared : Nat) (models : List Model) (t : Table) : List Model :=
  match indexOfTable? models t.name with
  | none => models
  | some owner => if owner < declared then models else t.foreignKeys.foldl (linkKey owner) models

/-! ## Checks -/

/-- The first model whose key some earlier model has, and that model. -/
def clash? (key : Model → String) : (seen : List Model) → List Model → Option (Model × Model)
  | _, [] => none
  | seen, m :: models =>
    match seen.find? fun s => key s == key m with
    | some first => some (first, m)
    | none => clash? key (seen ++ [m]) models

/-- The name by which a model is found. -/
def nameKey (m : Model) : String := Text.lower m.name

/-- The part of a path by which a model is found. -/
def segmentKey (m : Model) : String := Text.lower m.segment

/-- What is wrong with a relation: its target, the column at this end, or the one at the other. -/
def checkRelation (g : Registry) (m : Model) (r : Relation) : Except ConfigError Unit :=
  match g.get? r.target with
  | none => .error (.unknownModel m.name r.name r.target)
  | some target =>
    if (m.column? r.localKey).isNone then .error (.unknownKey m.name r.name r.localKey)
    else if (target.column? r.remoteKey).isNone then .error (.unknownKey m.name r.name r.remoteKey)
    else .ok ()

/-- The registry of models that have different names and paths and whose relations lead somewhere. -/
def ofModels (models : List Model) : Except ConfigError Registry :=
  match clash? nameKey [] models, clash? segmentKey [] models with
  | some (_, m), _ => .error (.duplicateModel m.name)
  | none, some (first, m) => .error (.duplicateUrl m.url first.name m.name)
  | none, none => do
    let g : Registry := ⟨models⟩
    models.forM fun m => m.relations.forM (g.checkRelation m)
    return g

/-- The registry of declared models and tables. -/
def build (declared : List Model) (tables : List Table) (config : Config) : Except ConfigError Registry := do
  let models ← addTables declared tables
  let linked := tables.foldl (linkTable declared.length) models
  ofModels (linked.map fun m => (m.mount config.baseUrl).restrict config.readOnly config.fetchEnabled)

example : modelName "invoice_line" = "InvoiceLine" := by decide +kernel

end RestTables.Registry
