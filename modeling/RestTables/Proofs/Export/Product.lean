import Mathlib.Algebra.BigOperators.Group.List.Basic
import Mathlib.Data.List.Forall2
import RestTables.Proofs.Export.Flatten

/-
Module: RestTables.Proofs.Export.Product
Purpose: The rows of an object as an ordered product. A choice is a list of places, one in each array that has items; the
  rows are those of all choices, the place in the first array varying slowest, and the row of a choice is made by
  setting, member by member, what is left of the object when each array is replaced by the item at its place.
Main exports: Export.arrays, Export.places, Export.withItems, Export.entries, Export.rowOf,
  Export.flatten_is_ordered_product
-/

namespace RestTables.Export

open Json

/-! ## Choices -/

/-- One number below each of some sizes, in all ways and in lexicographic order. -/
def places : (sizes : List Nat) → List (List Nat)
  | [] => [[]]
  | n :: sizes => (List.range n).flatMap fun i => (places sizes).map (i :: ·)

theorem mem_places_iff {sizes choice : List Nat} : choice ∈ places sizes ↔ List.Forall₂ (· < ·) choice sizes := by
  induction sizes generalizing choice with
  | nil => rw [places, List.mem_singleton, List.forall₂_nil_right_iff]
  | cons n sizes ih =>
    simp only [places, List.mem_flatMap, List.mem_range, List.mem_map, List.forall₂_cons_right_iff, ih]
    constructor
    · rintro ⟨i, hi, rest, hrest, rfl⟩
      exact ⟨i, rest, hi, hrest, rfl⟩
    · rintro ⟨i, rest, hi, hrest, rfl⟩
      exact ⟨i, hi, rest, hrest, rfl⟩

/-- Choices come in lexicographic order, and none comes twice. -/
theorem pairwise_lt_places (sizes : List Nat) : (places sizes).Pairwise (· < ·) := by
  induction sizes with
  | nil => exact List.pairwise_singleton _ _
  | cons n sizes ih =>
    rw [places, List.pairwise_flatMap]
    constructor
    · intro i _
      exact List.pairwise_map.mpr (ih.imp fun h => List.cons_lt_cons_iff.mpr (.inr ⟨rfl, h⟩))
    · refine List.pairwise_lt_range.imp fun hlt choice hchoice choice' hchoice' => ?_
      obtain ⟨_, -, rfl⟩ := List.mem_map.mp hchoice
      obtain ⟨_, -, rfl⟩ := List.mem_map.mp hchoice'
      exact List.cons_lt_cons_iff.mpr (.inl hlt)

theorem length_places (sizes : List Nat) : (places sizes).length = sizes.prod := by
  induction sizes with
  | nil => rfl
  | cons n sizes ih => simp [places, List.length_flatMap, ih]

/-! ## Arrays -/

/-- The items of a member that multiplies rows: an array with some that does not hold the links. -/
def items? : String × Json → Option (List Json)
  | (key, v) =>
    if key == linksKey then none
    else match v with
      | .arr (item :: items) => some (item :: items)
      | _ => none

/-- The arrays of an object that multiply its rows, in the order of their keys. -/
def arrays (item : Object) : List (List Json) := item.filterMap items?

/-- The member adds nothing to a row: it holds the links or an array without items. -/
def addsNothing (member : String × Json) : Bool := member.1 == linksKey || member.2 == .arr []

/-- What is left of an object when each of its arrays is replaced by one item and what adds nothing is left out. -/
def withItems : Object → List Json → Object
  | [], _ => []
  | member :: rest, items =>
    if (items? member).isSome then (member.1, items.headD .null) :: withItems rest items.tail
    else if addsNothing member then withItems rest items
    else member :: withItems rest items

/-- The items at some places, one of each array. -/
def itemsAt (arrays : List (List Json)) (choice : List Nat) : List Json :=
  List.zipWith (fun items i => items.getD i .null) arrays choice

theorem map_getD_range (items : List Json) : (List.range items.length).map (items.getD · .null) = items := by
  refine List.ext_getElem (by simp) fun i _ hi => ?_
  simp [hi]

/-- The options of a member, by what it does to the rows. -/
theorem options_eq (member : String × Json) :
    options member =
      match items? member with
      | some items => items.map fun item => [(member.1, item)]
      | none => if addsNothing member then [[]] else [[member]] := by
  obtain ⟨key, v⟩ := member
  by_cases hkey : key = linksKey
  · simp [options, items?, addsNothing, hkey]
  · cases v with
    | arr items => cases items <;> simp [options, items?, addsNothing, hkey]
    | null | bool _ | num _ | str _ | obj _ => simp [options, items?, addsNothing, hkey]

/-- What is chosen from an object are its members with the items at some places. -/
theorem choices_eq_map_places (item : Object) :
    choices item = (places ((arrays item).map List.length)).map fun choice =>
      withItems item (itemsAt (arrays item) choice) := by
  induction item with
  | nil => rfl
  | cons member rest ih =>
    rw [choices, options_eq, ih]
    cases hitems : items? member with
    | some items =>
      have harrays : arrays (member :: rest) = items :: arrays rest := List.filterMap_cons_some hitems
      rw [harrays]
      conv_lhs => rw [← map_getD_range items]
      simp only [List.map_cons, places, List.map_flatMap, List.flatMap_map, List.map_map, Function.comp_def, withItems,
        hitems, itemsAt, Option.isSome_some, if_true, List.zipWith_cons_cons, List.headD_cons, List.tail_cons,
        List.singleton_append]
    | none =>
      have harrays : arrays (member :: rest) = arrays rest := List.filterMap_cons_none hitems
      simp only [harrays, withItems, hitems, Option.isSome_none, Bool.false_eq_true, if_false]
      split <;> simp

/-! ## Rows -/

/-- What a value sets in a row under a key: a nested object its own members, each under both names, but no links and
nothing that holds others, and any other value itself. -/
def entries (key : String) : Json → List (String × Json)
  | .obj nested =>
    (nested.filter fun (field, v) => field != linksKey && !isContainer v).map fun (field, v) => (key ++ "." ++ field, v)
  | v => [(key, v)]

theorem addValue_eq_foldl (key : String) (row : Object) (v : Json) :
    addValue key row v = (entries key v).foldl (fun row m => row.insert m.1 m.2) row := by
  cases v with
  | obj nested =>
    simp only [addValue, addNested, entries, List.foldl_map, List.foldl_filter]
    congr 1
    funext row member
    cases hlinks : member.1 == linksKey <;> cases isContainer member.2 <;> simp [bne, hlinks]
  | null | bool _ | num _ | str _ | arr _ => rfl

/-- The row of a choice: what is set in it by the members of the object, one after the other. -/
def rowOf (item : Object) (choice : List Nat) : Object :=
  Object.ofMembers ((withItems item (itemsAt (arrays item) choice)).flatMap fun (key, v) => entries key v)

theorem addAll_eq_ofMembers (chosen : Object) :
    addAll [] chosen = Object.ofMembers (chosen.flatMap fun (key, v) => entries key v) := by
  simp only [addAll, Object.ofMembers, List.foldl_flatMap, addValue_eq_foldl]

theorem flatten_eq_map_rowOf (item : Object) :
    flatten item = (places ((arrays item).map List.length)).map (rowOf item) := by
  rw [flatten_eq_map_choices, choices_eq_map_places, List.map_map]
  exact List.map_congr_left fun choice _ => addAll_eq_ofMembers _

/-- The rows of an object are an ordered product. There is one for each way to choose an item of every array that has
some, the links left out; they come in the lexicographic order of the choices, so that the first array varies slowest,
and their number is the product of the lengths. The row of a choice is what results from setting, in the order of the
keys, what each member adds. -/
theorem flatten_is_ordered_product (item : Object) :
    (flatten item).length = ((arrays item).map List.length).prod ∧
      ∃ choices : List (List Nat),
        choices.Pairwise (· < ·) ∧
        (∀ choice, choice ∈ choices ↔ List.Forall₂ (fun i items => i < items.length) choice (arrays item)) ∧
        flatten item = choices.map (rowOf item) := by
  refine ⟨?_, places ((arrays item).map List.length), pairwise_lt_places _, fun choice => ?_,
    flatten_eq_map_rowOf item⟩
  · rw [flatten_eq_map_rowOf, List.length_map, length_places]
  · rw [mem_places_iff, List.forall₂_map_right_iff]

/-- A later member takes the place of a nested one that has its name. -/
example : flatten [("a", .arr [.obj [("b", .int 1)], .int 2]), ("a.b", .int 3)] =
    [[("a.b", .int 3)], [("a", .int 2), ("a.b", .int 3)]] := by decide +kernel

end RestTables.Export
