import RestTables.Model.Record
import RestTables.Model.Description

/-
Module: RestTables.Registry.Basic
Purpose: The resources of a service, found by name or by the end of their path, whatever the case; and how
  their rows are shown.
Main exports: Registry, Registry.get?, Registry.bySegment?, Registry.index, Registry.render
-/

namespace RestTables

/-- The resources of a service. -/
structure Registry where
  models : List Model
deriving Repr, DecidableEq, Inhabited

namespace Registry

/-- The model of that name, ignoring case. -/
def get? (g : Registry) (name : String) : Option Model :=
  g.models.find? fun m => Text.lower m.name == Text.lower name

/-- The model whose path ends with that part, ignoring case. -/
def bySegment? (g : Registry) (segment : String) : Option Model :=
  g.models.find? fun m => Text.lower m.segment == Text.lower segment

/-- The paths of all models, with the name of the key that names a row. -/
def index (g : Registry) : Json.Object :=
  Json.Object.ofMembers (g.models.map fun m => (m.name, .str (m.url ++ "\x7b/" ++ m.keyField.name ++ "\x7d")))

/-- The columns of a row that are shown, by name. -/
def shownValues (r : Row) : Json.Object :=
  Json.Object.ofMembers ((r.values.filter fun (name, _) => r.shows name).map fun (name, v) => (name, v.toJson))

/-- An object with the links of a row, if they are asked for. -/
def addLinks (m : Model) (r : Row) (withLinks : Bool) (shown : Json.Object) : Json.Object :=
  if withLinks then shown.insert "_links" (.obj (m.links r)) else shown

/-- A row without what its relations lead to. -/
def renderRow (m : Model) (r : Row) (withLinks : Bool) : Json := .obj (addLinks m r withLinks (shownValues r))

/-- The name and the rendering of what a relation leads to; none when the relation is unknown. -/
def renderRelated? (g : Registry) (m : Model) (withLinks : Bool) (name : String) (related : Related Record) :
    Option (String × Json) := do
  let relation ← m.relations.find? (·.name == name)
  let target ← g.get? relation.target
  match related with
  | .one row => some (relation.name, Json.ofOption (renderRow target ·.toRow withLinks) row)
  | .many rows =>
    some (relation.name ++ target.collectionSuffix, .arr (rows.map (renderRow target ·.toRow withLinks)))

/-- A record as an object: its columns, then what its relations lead to, if that is asked for, then its
links. A later member takes the place of an earlier one with the same name. -/
def render (g : Registry) (m : Model) (r : Record) (expand withLinks : Bool) : Json.Object :=
  let related := if expand then r.related.filterMap fun (name, x) => g.renderRelated? m withLinks name x else []
  addLinks m r.toRow withLinks (related.foldl (fun o (k, v) => o.insert k v) (shownValues r.toRow))

end Registry

end RestTables
