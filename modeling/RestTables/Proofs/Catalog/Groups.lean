import Mathlib.Data.List.Nodup
import RestTables.Catalog.Reflect

/-
Module: RestTables.Proofs.Catalog.Groups
Purpose: Gathering values by key and taking their groups out again one by one. However the values of different keys are
  mixed, what is alone in its group comes out in the order in which it was put in, and that is what has a key of its own.
Main exports: Groups.valuesOf, Groups.Gathers, Groups.gathers_ofEntries, Groups.singles_ofEntries
-/

namespace RestTables.Catalog.Groups

/-! ## Keys in the order in which they came first -/

section Firsts

variable {κ : Type} [BEq κ] [LawfulBEq κ]

theorem nodup_eraseDups (keys : List κ) : keys.eraseDups.Nodup := by
  match keys with
  | [] => exact List.nodup_nil
  | key :: keys =>
    rw [List.eraseDups_cons, List.nodup_cons]
    exact ⟨by simp [List.mem_eraseDups], nodup_eraseDups _⟩
termination_by keys.length
decreasing_by exact Nat.lt_succ_of_le (List.length_filter_le _ _)

/-- Of keys that come once, none is passed over, and they keep their order. -/
theorem filter_eraseDups {p : κ → Bool} (keys : List κ) (h : ∀ key, p key = true → keys.count key ≤ 1) :
    keys.eraseDups.filter p = keys.filter p := by
  match keys with
  | [] => rfl
  | key :: keys =>
    have hrest : ((keys.filter fun k => !k == key).eraseDups).filter p = (keys.filter fun k => !k == key).filter p := by
      refine filter_eraseDups _ fun k hk => ?_
      exact Nat.le_trans ((List.filter_sublist.trans (List.sublist_cons_self key keys)).count_le k) (h k hk)
    -- a key that counts is not met again, and one that does not is left out anyway
    have hsame : (keys.filter fun k => !k == key).filter p = keys.filter p := by
      rw [List.filter_filter]
      refine List.filter_congr fun k hmem => ?_
      cases hp : p k with
      | false => rfl
      | true =>
        have hne : k ≠ key := by
          rintro rfl
          have hcount := h k hp
          rw [List.count_cons_self] at hcount
          exact absurd (List.count_pos_iff.mpr hmem) (by omega)
        simp [hne]
    rw [List.eraseDups_cons, List.filter_cons, List.filter_cons, hrest, hsame]
termination_by keys.length
decreasing_by exact Nat.lt_succ_of_le (List.length_filter_le _ _)

end Firsts

/-! ## Gathering -/

variable {κ α : Type} [BEq κ]

/-- The values that come with a key. -/
def valuesOf (key : κ) (entries : List (κ × α)) : List α := (entries.filter (·.1 == key)).map (·.2)

theorem valuesOf_append (key : κ) (entries more : List (κ × α)) :
    valuesOf key (entries ++ more) = valuesOf key entries ++ valuesOf key more := by
  rw [valuesOf, List.filter_append, List.map_append]
  rfl

/-- As many values come with a key as the key comes. -/
theorem length_valuesOf (key : κ) (entries : List (κ × α)) :
    (valuesOf key entries).length = (entries.map (·.1)).count key := by
  rw [valuesOf, List.length_map, ← List.countP_eq_length_filter, List.count, List.countP_map]
  rfl

variable [LawfulBEq κ]

theorem lookup_without {key other : κ} (h : other ≠ key) (byKey : List (κ × List α)) :
    (without key byKey).lookup other = byKey.lookup other := by
  induction byKey with
  | nil => rfl
  | cons entry byKey ih =>
    obtain ⟨k, group⟩ := entry
    unfold without at ih ⊢
    by_cases hk : k = key
    · have hother : (other == k) = false := by simpa [hk] using h
      rw [List.filter_cons_of_neg (by simp [hk]), ih, List.lookup_cons, hother]
    · rw [List.filter_cons_of_pos (by simp [hk]), List.lookup_cons, List.lookup_cons, ih]

/-- The group of a key is another one after a value has joined it, and no other group is. -/
theorem find?_add (g : Groups κ α) (key other : κ) (value : α) :
    (g.add key value).find? other =
      if other == key then some ((g.find? key).getD [] ++ [value]) else g.find? other := by
  have hput : (g.add key value).find? other =
      ((key, (g.find? key).getD [] ++ [value]) :: without key g.byKey).lookup other := rfl
  rw [hput, List.lookup_cons]
  cases h : other == key with
  | true => rfl
  | false => exact lookup_without (beq_eq_false_iff_ne.mp h) g.byKey

/-- The groups hold some entries: each key is noted where it came first, and its group has all the values that came with
it, in their order. -/
structure Gathers (g : Groups κ α) (entries : List (κ × α)) : Prop where
  order : g.order = (entries.map (·.1)).eraseDups
  isSome_find?_iff : ∀ key, (g.find? key).isSome = true ↔ key ∈ entries.map (·.1)
  getD_find? : ∀ key, (g.find? key).getD [] = valuesOf key entries

variable {g : Groups κ α} {entries : List (κ × α)}

/-- One more value. -/
theorem Gathers.add (h : Gathers g entries) (entry : κ × α) :
    Gathers (g.add entry.1 entry.2) (entries ++ [entry]) where
  order := by
    have horder : (g.add entry.1 entry.2).order =
        if (g.find? entry.1).isSome then g.order else g.order ++ [entry.1] := rfl
    rw [horder, h.order, List.map_append, List.eraseDups_append, List.map_singleton]
    -- A key that was seen before keeps its place, and a new one comes last.
    by_cases hseen : entry.1 ∈ entries.map (·.1)
    · have hnone : [entry.1].removeAll (entries.map (·.1)) = [] := by
        rw [List.removeAll, List.filter_cons_of_neg (by simpa using hseen), List.filter_nil]
      rw [if_pos ((h.isSome_find?_iff _).mpr hseen), hnone, List.eraseDups_nil, List.append_nil]
    · have hnew : [entry.1].removeAll (entries.map (·.1)) = [entry.1] := by
        rw [List.removeAll, List.filter_cons_of_pos (by simpa using hseen), List.filter_nil]
      rw [if_neg (mt (h.isSome_find?_iff _).mp hseen), hnew]
      rfl
  isSome_find?_iff key := by
    rw [find?_add, List.map_append, List.mem_append, List.map_singleton, List.mem_singleton]
    cases hkey : key == entry.1 with
    | true => simp [eq_of_beq hkey]
    | false => simp [beq_eq_false_iff_ne.mp hkey, h.isSome_find?_iff]
  getD_find? key := by
    rw [find?_add, valuesOf_append, ← h.getD_find?]
    cases hkey : key == entry.1 with
    | true =>
      obtain rfl := eq_of_beq hkey
      simp [valuesOf]
    | false =>
      have hne : entry.1 ≠ key := (beq_eq_false_iff_ne.mp hkey).symm
      simp [valuesOf, hne]

omit [LawfulBEq κ] in
/-- Each key that came has a group. -/
theorem Gathers.find?_of_mem (h : Gathers g entries) {key : κ} (hkey : key ∈ entries.map (·.1)) :
    g.find? key = some (valuesOf key entries) := by
  obtain ⟨group, hgroup⟩ := Option.isSome_iff_exists.mp ((h.isSome_find?_iff key).mpr hkey)
  rw [← h.getD_find?, hgroup, Option.getD_some]

/-- More values, one after the other. -/
theorem Gathers.foldl_add (h : Gathers g entries) (more : List (κ × α)) :
    Gathers (more.foldl (fun g entry => g.add entry.1 entry.2) g) (entries ++ more) := by
  induction more generalizing g entries with
  | nil => rwa [List.append_nil]
  | cons entry more ih =>
    rw [List.append_cons]
    exact ih (h.add entry)

theorem gathers_ofEntries (entries : List (κ × α)) : Gathers (ofEntries entries) entries := by
  have hempty : Gathers ({} : Groups κ α) [] := ⟨rfl, fun key => by simp [find?], fun key => rfl⟩
  exact hempty.foldl_add entries

/-! ## Taking out -/

/-- Where no key is asked for twice, each gives its group. -/
theorem takeOut_eq {keys : List κ} (h : keys.Nodup) (byKey : List (κ × List α)) :
    takeOut keys byKey = keys.filterMap fun key => byKey.lookup key := by
  induction keys generalizing byKey with
  | nil => rfl
  | cons key keys ih =>
    obtain ⟨hkey, hkeys⟩ := List.nodup_cons.mp h
    rw [takeOut, List.filterMap_cons]
    cases byKey.lookup key with
    | none => exact ih hkeys byKey
    | some group =>
      have hrest : (keys.filterMap fun other => (without key byKey).lookup other) =
          keys.filterMap fun key => byKey.lookup key :=
        List.filterMap_congr fun other hother => lookup_without (ne_of_mem_of_not_mem hother hkey) byKey
      exact congrArg (group :: ·) ((ih hkeys _).trans hrest)

/-- The groups come out in the order of their keys. -/
theorem Gathers.takeOut_eq (h : Gathers g entries) :
    takeOut g.order g.byKey = g.order.map fun key => valuesOf key entries := by
  rw [Groups.takeOut_eq (h.order ▸ nodup_eraseDups _), ← List.filterMap_eq_map]
  refine List.filterMap_congr fun key hkey => h.find?_of_mem ?_
  rw [h.order] at hkey
  exact List.mem_eraseDups.mp hkey

/-- A value is alone in its group when no other one came with its key. -/
theorem singles_ofEntries (entries : List (κ × α)) : (ofEntries entries).singles = lone entries := by
  have hgathers := gathers_ofEntries entries
  let isAlone (key : κ) : Bool := (valuesOf key entries).length == 1
  have hkeys : (ofEntries entries).order.filter isAlone = (entries.filter fun e => isAlone e.1).map (·.1) := by
    rw [hgathers.order, filter_eraseDups, List.filter_map]
    · rfl
    · intro key hkey
      rw [← length_valuesOf]
      exact Nat.le_of_eq (beq_iff_eq.mp hkey)
  have halone : ∀ e ∈ entries.filter fun e => isAlone e.1, valuesOf e.1 entries = [e.2] := by
    intro e he
    obtain ⟨hmem, hone⟩ := List.mem_filter.mp he
    obtain ⟨value, hvalue⟩ := List.length_eq_one_iff.mp (beq_iff_eq.mp hone)
    have hown : e.2 ∈ valuesOf e.1 entries :=
      List.mem_map_of_mem (List.mem_filter.mpr ⟨hmem, beq_self_eq_true e.1⟩)
    rw [hvalue] at hown ⊢
    rw [List.mem_singleton.mp hown]
  calc (ofEntries entries).singles
      = ((ofEntries entries).order.filter isAlone).flatMap fun key => valuesOf key entries := by
        rw [singles, hgathers.takeOut_eq, List.filter_map, List.flatMap_def]
        rfl
    _ = (entries.filter fun e => isAlone e.1).flatMap fun e => [e.2] := by
        rw [hkeys, List.flatMap_map]
        exact List.flatMap_congr halone
    _ = (entries.filter fun e => isAlone e.1).map (·.2) := List.map_eq_flatMap.symm
    _ = lone entries := by simp only [lone, isAlone, valuesOf, List.length_map]

end RestTables.Catalog.Groups
