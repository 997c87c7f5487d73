/-
Module: RestTables.Catalog.Groups
Purpose: Values gathered by a key that several of them may have. A map does not say in which order its keys came, so
  they are noted beside it, and the groups are taken out of the map in that order.
Main exports: Catalog.Groups, Groups.ofEntries, Groups.singles
-/

namespace RestTables.Catalog

/-- Groups of values. -/
structure Groups (κ α : Type) where
  /-- The keys in the order in which they came first. -/
  order : List κ := []
  /-- The group of each key. -/
  byKey : List (κ × List α) := []
deriving Repr

namespace Groups

variable {κ α : Type} [BEq κ]

/-- The map without a key. -/
def without (key : κ) (byKey : List (κ × List α)) : List (κ × List α) := byKey.filter fun entry => !entry.1 == key

/-- The group of a key, if any value has come with it. -/
def find? (g : Groups κ α) (key : κ) : Option (List α) := g.byKey.lookup key

/-- A value comes last in the group of its key. -/
def add (g : Groups κ α) (key : κ) (value : α) : Groups κ α where
  order := if (g.find? key).isSome then g.order else g.order ++ [key]
  byKey := (key, (g.find? key).getD [] ++ [value]) :: without key g.byKey

/-- The groups of values that come one after the other. -/
def ofEntries (entries : List (κ × α)) : Groups κ α := entries.foldl (fun g entry => g.add entry.1 entry.2) {}

/-- The groups of some keys. Each is taken out of the map, so that none is taken twice. -/
def takeOut : (keys : List κ) → (byKey : List (κ × List α)) → List (List α)
  | [], _ => []
  | key :: keys, byKey =>
    match byKey.lookup key with
    | some group => group :: takeOut keys (without key byKey)
    | none => takeOut keys byKey

/-- The values that are alone in their groups. -/
def singles (g : Groups κ α) : List α := ((takeOut g.order g.byKey).filter (·.length == 1)).flatten

end Groups

end RestTables.Catalog
