import Mathlib.Algebra.Order.BigOperators.GroupWithZero.List
import Mathlib.Algebra.Order.Ring.Nat
import RestTables.Export.Flatten
import RestTables.Proofs.Json.Members

/-
Module: RestTables.Proofs.Export.Flatten
Purpose: The rows of an object, one by one. Each member leaves some options, an array one for each of its items; a row
  is what one option of each member adds up to, and the rows are all such choices in order. A member that holds no
  others keeps its value in every row, whatever is nested elsewhere, and one that does keeps it in none.
Main exports: Export.options, Export.choices, Export.flatten_eq_map_choices, Export.width, Export.length_flatten,
  Export.shown_iff
-/

namespace RestTables.Export

open Json

/-! ## Choices -/

/-- What a member may add to a row: nothing if it holds the links or an array without items, one of the items of another
array, and else its value. -/
def options : String × Json → List Object
  | (key, v) =>
    if key == linksKey then [[]]
    else match v with
      | .arr [] => [[]]
      | .arr children => children.map fun child => [(key, child)]
      | v => [[(key, v)]]

/-- One option of each member in all ways, that of the last member varying fastest. -/
def choices : Object → List Object
  | [] => [[]]
  | member :: rest => (options member).flatMap fun option => (choices rest).map (option ++ ·)

/-- A row with all that was chosen. -/
def addAll (row chosen : Object) : Object := chosen.foldl (fun row (key, v) => addValue key row v) row

theorem addAll_append (row chosen more : Object) : addAll row (chosen ++ more) = addAll (addAll row chosen) more :=
  List.foldl_append

theorem addMember_eq_flatMap (rows : List Object) (member : String × Json) :
    addMember rows member = rows.flatMap fun row => (options member).map (addAll row) := by
  obtain ⟨key, v⟩ := member
  simp only [addMember, options]
  split
  · simp [addAll]
  · split
    · simp [addAll]
    · simp [addAll, Function.comp_def]
    · simp [addAll, List.map_eq_flatMap]

theorem foldl_addMember (item : Object) (rows : List Object) :
    item.foldl addMember rows = rows.flatMap fun row => (choices item).map (addAll row) := by
  induction item generalizing rows with
  | nil => simp [choices, addAll]
  | cons member rest ih =>
    rw [List.foldl_cons, ih, addMember_eq_flatMap, List.flatMap_assoc]
    refine List.flatMap_congr fun row _ => ?_
    simp only [choices, List.flatMap_map, List.map_flatMap, List.map_map, Function.comp_def, addAll_append]

/-- The rows of an object are its choices, each added up. -/
theorem flatten_eq_map_choices (item : Object) : flatten item = (choices item).map (addAll []) := by
  rw [flatten, foldl_addMember, List.flatMap_singleton]

/-! ## How many -/

/-- How many rows a member makes of one: as many as it has items, if it is an array with any. -/
def width : String × Json → Nat
  | (key, v) =>
    if key == linksKey then 1
    else match v with
      | .arr children => max 1 children.length
      | _ => 1

theorem length_options (member : String × Json) : (options member).length = width member := by
  obtain ⟨key, v⟩ := member
  simp only [options, width]
  split
  · rfl
  · cases v with
    | arr children =>
      cases children with
      | nil => rfl
      | cons child children => simp
    | null | bool _ | num _ | str _ | obj _ => rfl

theorem length_choices (item : Object) : (choices item).length = (item.map width).prod := by
  induction item with
  | nil => rfl
  | cons member rest ih =>
    rw [choices, List.length_flatMap, List.map_cons, List.prod_cons, ← length_options, ← ih]
    simp only [List.length_map, List.map_const', List.sum_replicate_nat]

/-- An object has as many rows as the numbers that its members make of one have as their product. -/
theorem length_flatten (item : Object) : (flatten item).length = (item.map width).prod := by
  rw [flatten_eq_map_choices, List.length_map, length_choices]

theorem width_pos (member : String × Json) : 0 < width member := by
  obtain ⟨key, v⟩ := member
  simp only [width]
  split
  · exact Nat.one_pos
  · split
    · omega
    · exact Nat.one_pos

/-- Every object makes at least one row. -/
theorem flatten_ne_nil (item : Object) : flatten item ≠ [] := by
  have hpos : ∀ n ∈ item.map width, 0 < n := by
    intro n hn
    obtain ⟨member, -, rfl⟩ := List.mem_map.mp hn
    exact width_pos member
  rw [← List.length_pos_iff, length_flatten]
  exact List.prod_pos hpos

theorem flatMap_flatten_eq_nil_iff {items : List Object} : items.flatMap flatten = [] ↔ items = [] := by
  cases items with
  | nil => simp
  | cons item items => simp [flatten_ne_nil]

/-! ## Rows -/

/-- A name that lies below another one comes after it. -/
theorem lt_below (key field : String) : key < key ++ "." ++ field := by
  have hprefix : ∀ k rest : List Char, k < k ++ '.' :: rest := by
    intro k rest
    induction k with
    | nil => exact List.nil_lt_cons _ _
    | cons c k ih => exact List.cons_lt_cons_iff.mpr (.inr ⟨rfl, ih⟩)
  rw [String.lt_iff_toList_lt, String.toList_append, String.toList_append, List.append_assoc]
  exact hprefix key.toList field.toList

section Rows

variable {row chosen nested item : Object} {key k : String} {v w : Json}

/-- A nested object sets only names below its own. -/
theorem get?_addNested_of_ne (hk : ∀ field, k ≠ key ++ "." ++ field) :
    (addNested key row nested).get? k = row.get? k := by
  unfold addNested
  induction nested generalizing row with
  | nil => rfl
  | cons member rest ih =>
    obtain ⟨field, w⟩ := member
    rw [List.foldl_cons, ih]
    dsimp only
    split
    · rfl
    · exact Object.get?_insert_of_ne (hk field) row

/-- And no value that holds others. -/
theorem get?_of_addNested (h : (addNested key row nested).get? k = some w) (hw : isContainer w = true) :
    row.get? k = some w := by
  unfold addNested at h
  induction nested generalizing row with
  | nil => exact h
  | cons member rest ih =>
    obtain ⟨field, u⟩ := member
    rw [List.foldl_cons] at h
    have hstep := ih h
    dsimp only at hstep
    split at hstep
    · exact hstep
    · next hkept =>
      -- Nested containers are not kept, so a member that is set here holds no others.
      by_cases hk : k = key ++ "." ++ field
      · rw [hk, Object.get?_insert_self, Option.some.injEq] at hstep
        simp [hstep, hw] at hkept
      · rwa [Object.get?_insert_of_ne hk] at hstep

theorem addValue_of_not_obj (hv : ∀ nested, v ≠ .obj nested) : addValue key row v = row.insert key v := by
  unfold addValue
  split
  · exact absurd rfl (hv _)
  · rfl

/-- A value sets no name that comes before its own. -/
theorem get?_addValue_of_lt (hk : k < key) : (addValue key row v).get? k = row.get? k := by
  unfold addValue
  split
  · refine get?_addNested_of_ne fun field heq => ?_
    exact lt_irrefl k (heq ▸ hk.trans (lt_below key field))
  · exact Object.get?_insert_of_ne hk.ne row

theorem get?_addAll_of_lt (hk : ∀ key ∈ chosen.keys, k < key) : (addAll row chosen).get? k = row.get? k := by
  induction chosen generalizing row with
  | nil => rfl
  | cons piece rest ih =>
    obtain ⟨hfirst, hrest⟩ := List.forall_mem_cons.mp hk
    rw [addAll, List.foldl_cons]
    exact (ih hrest).trans (get?_addValue_of_lt hfirst)

/-- What was chosen under a name is what the row holds there, unless it is an object: what is set below earlier names
comes before, and what is set later has later names. -/
theorem get?_addAll_of_mem (hsorted : chosen.Sorted) (hv : ∀ nested, v ≠ .obj nested) (hmem : (k, v) ∈ chosen) :
    (addAll row chosen).get? k = some v := by
  induction chosen generalizing row with
  | nil => cases hmem
  | cons piece rest ih =>
    obtain ⟨hfirst, hrest⟩ := Object.sorted_cons_iff.mp hsorted
    rcases List.mem_cons.mp hmem with rfl | hmem
    · have hlater : (addAll (addValue k row v) rest).get? k = (addValue k row v).get? k := get?_addAll_of_lt hfirst
      rw [addAll, List.foldl_cons]
      refine hlater.trans ?_
      rw [addValue_of_not_obj hv, Object.get?_insert_self]
    · exact ih hrest hmem

/-- A row holds a value that holds others only where it was chosen. -/
theorem mem_of_get?_addAll (hw : isContainer w = true) (h : (addAll row chosen).get? k = some w) :
    row.get? k = some w ∨ (k, w) ∈ chosen ∧ ∀ nested, w ≠ .obj nested := by
  induction chosen generalizing row with
  | nil => exact .inl h
  | cons piece rest ih =>
    obtain ⟨key, v⟩ := piece
    have hrest : (addAll (addValue key row v) rest).get? k = some w := h
    -- The last piece with the name counts. An object is taken apart, and what it leaves behind holds no others.
    rcases ih hrest with hrow | ⟨hmem, hobj⟩
    · cases v with
      | obj nested => exact .inl (get?_of_addNested hrow hw)
      | null | bool _ | num _ | str _ | arr _ =>
        rw [addValue_of_not_obj fun _ => Json.noConfusion] at hrow
        by_cases hk : k = key
        · rw [hk, Object.get?_insert_self, Option.some.injEq] at hrow
          subst hk hrow
          exact .inr ⟨List.mem_cons_self, fun _ => Json.noConfusion⟩
        · exact .inl (by rwa [Object.get?_insert_of_ne hk] at hrow)
    · exact .inr ⟨List.mem_cons_of_mem _ hmem, hobj⟩

/-! ## Choices and members -/

theorem keys_sublist_of_mem_options {member : String × Json} {option : Object} (h : option ∈ options member) :
    option.keys.Sublist [member.1] := by
  obtain ⟨key, v⟩ := member
  simp only [options] at h
  split at h
  · rw [List.mem_singleton.mp h]
    exact List.nil_sublist _
  · split at h
    · rw [List.mem_singleton.mp h]
      exact List.nil_sublist _
    · obtain ⟨child, -, rfl⟩ := List.mem_map.mp h
      exact List.Sublist.refl _
    · rw [List.mem_singleton.mp h]
      exact List.Sublist.refl _

/-- The names of what was chosen are some of those of the object, in order. -/
theorem keys_sublist_of_mem_choices (h : chosen ∈ choices item) : chosen.keys.Sublist item.keys := by
  induction item generalizing chosen with
  | nil =>
    rw [List.mem_singleton.mp h]
  | cons member rest ih =>
    obtain ⟨option, hoption, hjoined⟩ := List.mem_flatMap.mp h
    obtain ⟨more, hmore, rfl⟩ := List.mem_map.mp hjoined
    rw [Object.keys, List.map_append]
    exact (keys_sublist_of_mem_options hoption).append (ih hmore)

theorem sorted_of_mem_choices (hitem : item.Sorted) (h : chosen ∈ choices item) : chosen.Sorted :=
  List.pairwise_map.mp ((List.pairwise_map.mpr hitem).sublist (keys_sublist_of_mem_choices h))

/-- A value that holds no others is part of every choice. -/
theorem mem_of_mem_choices (hkey : key ≠ linksKey) (hv : isContainer v = false) (hmem : (key, v) ∈ item)
    (h : chosen ∈ choices item) : (key, v) ∈ chosen := by
  induction item generalizing chosen with
  | nil => cases hmem
  | cons member rest ih =>
    obtain ⟨option, hoption, hjoined⟩ := List.mem_flatMap.mp h
    obtain ⟨more, hmore, rfl⟩ := List.mem_map.mp hjoined
    rcases List.mem_cons.mp hmem with rfl | hmem
    · have hone : options (key, v) = [[(key, v)]] := by
        simp only [options, beq_eq_false_iff_ne.mpr hkey]
        cases v with
        | arr _ | obj _ => cases hv
        | null | bool _ | num _ | str _ => rfl
      rw [hone, List.mem_singleton] at hoption
      rw [hoption]
      exact List.mem_append_left _ List.mem_cons_self
    · exact List.mem_append_right _ (ih hmem hmore)

/-- What was chosen is a member that is no array, or one of the items of one that is. -/
theorem exists_member_of_chosen (h : chosen ∈ choices item) (hmem : (key, w) ∈ chosen) :
    ((key, w) ∈ item ∧ ∀ children, w ≠ .arr children) ∨ ∃ children, (key, .arr children) ∈ item ∧ w ∈ children := by
  induction item generalizing chosen with
  | nil =>
    rw [List.mem_singleton.mp h] at hmem
    cases hmem
  | cons member rest ih =>
    obtain ⟨option, hoption, hjoined⟩ := List.mem_flatMap.mp h
    obtain ⟨more, hmore, rfl⟩ := List.mem_map.mp hjoined
    rcases List.mem_append.mp hmem with hmem | hmem
    · obtain ⟨k, v⟩ := member
      simp only [options] at hoption
      -- Links are left out and an array without items gives nothing, an array gives one of its items, and all else
      -- itself.
      split at hoption
      · rw [List.mem_singleton.mp hoption] at hmem
        cases hmem
      · split at hoption
        · rw [List.mem_singleton.mp hoption] at hmem
          cases hmem
        · next children _ =>
          obtain ⟨child, hchild, rfl⟩ := List.mem_map.mp hoption
          cases List.mem_singleton.mp hmem
          exact .inr ⟨children, List.mem_cons_self, hchild⟩
        · next hitems =>
          rw [List.mem_singleton.mp hoption] at hmem
          cases List.mem_singleton.mp hmem
          exact .inl ⟨List.mem_cons_self, hitems⟩
    · exact (ih hmore hmem).imp (fun ⟨hm, hw⟩ => ⟨List.mem_cons_of_mem _ hm, hw⟩)
        fun ⟨children, hm, hw⟩ => ⟨children, List.mem_cons_of_mem _ hm, hw⟩

/-- A value that holds others does not stand in any row under its own name: of an object no row has more than what is in
it, and of an array none has more than one item. -/
theorem get?_ne_of_mem_flatten (hkeys : item.keys.Nodup) (hv : isContainer v = true) (hmem : (key, v) ∈ item)
    (hrow : row ∈ flatten item) : row.get? key ≠ some v := by
  intro hget
  rw [flatten_eq_map_choices] at hrow
  obtain ⟨chosen, hchosen, rfl⟩ := List.mem_map.mp hrow
  rcases mem_of_get?_addAll hv hget with hnone | ⟨hpiece, hobj⟩
  · cases hnone
  · rcases exists_member_of_chosen hchosen hpiece with ⟨-, harr⟩ | ⟨children, hmember, hchild⟩
    · cases v with
      | obj nested => exact hobj nested rfl
      | arr children => exact harr children rfl
      | null | bool _ | num _ | str _ => cases hv
    · -- the array would be one of its own items
      have hself : v = .arr children :=
        Option.some.inj ((lookup_eq_some_of_mem hkeys hmem).symm.trans (lookup_eq_some_of_mem hkeys hmember))
      have hsize := List.sizeOf_lt_of_mem hchild
      rw [hself, Json.arr.sizeOf_spec] at hsize
      omega

/-- A member of an object keeps its value in every row exactly where that holds no others. -/
theorem shown_iff (hitem : item.Sorted) (hkey : key ≠ linksKey) (hmem : (key, v) ∈ item) :
    (∀ row ∈ flatten item, row.get? key = some v) ↔ isContainer v = false := by
  constructor
  · intro hall
    by_contra hcontainer
    obtain ⟨row, hrow⟩ := List.exists_mem_of_ne_nil _ (flatten_ne_nil item)
    exact get?_ne_of_mem_flatten (Object.nodup_keys_of_sorted hitem) (Bool.of_not_eq_false hcontainer) hmem hrow
      (hall row hrow)
  · intro hv row hrow
    rw [flatten_eq_map_choices] at hrow
    obtain ⟨chosen, hchosen, rfl⟩ := List.mem_map.mp hrow
    refine get?_addAll_of_mem (sorted_of_mem_choices hitem hchosen) ?_ (mem_of_mem_choices hkey hv hmem hchosen)
    rintro nested rfl
    cases hv

end Rows

end RestTables.Export
