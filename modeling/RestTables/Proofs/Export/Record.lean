import Mathlib.Algebra.BigOperators.Group.List.Basic
import RestTables.Proofs.Export.Flatten
import RestTables.Proofs.Rows.Shown

/-
Module: RestTables.Proofs.Export.Record
Purpose: The rows of a record as it is shown. Collections that were loaded multiply them, each by the number of its rows
  but at least by one; so does a column that holds a JSON array. A record has as many rows as its collections ask for,
  with all its columns in each of them, exactly where none of its columns holds a JSON array or object.
Main exports: Row.IsPlain, Registry.loadedSizes, Registry.LoadsApart, Registry.length_flatten_render,
  Registry.length_flatMap_flatten_render, Registry.flatten_render_iff
-/

namespace RestTables

open Json

/-- Only a JSON array or object is shown as a value that holds others. -/
theorem Value.isContainer_toJson_iff {v : Value} :
    Export.isContainer v.toJson = true ↔ ∃ j, v = .json (some j) ∧ Export.isContainer j = true := by
  constructor
  · intro h
    cases v with
    | json v =>
      cases v with
      | none => cases h
      | some j => exact ⟨j, rfl, h⟩
    | float v | double v | decimal v =>
      cases v with
      | none => cases h
      | some x =>
        simp only [toJson, Json.ofOption, Json.float] at h
        split at h <;> cases h
    | bool v | tinyInt v | smallInt v | int v | bigInt v | tinyUnsigned v | smallUnsigned v | unsigned v | bigUnsigned v
    | string v | char v | bytes v | date v | time v | datetime v | instant v | zoned v | uuid v => cases v <;> cases h
  · rintro ⟨j, rfl, h⟩
    exact h

/-- The values of a row are those of columns of a model, one of each at most. -/
structure Row.Fits (m : Model) (r : Row) : Prop where
  nodup : (r.values.map (·.1)).Nodup
  column {entry : String × Value} (h : entry ∈ r.values) : ∃ f ∈ m.columns, f.name = entry.1

/-- No column that is shown of the row holds a JSON array or object. -/
def Row.IsPlain (r : Row) : Prop :=
  ∀ entry ∈ r.values, r.shows entry.1 = true → ∀ j, entry.2 = .json (some j) → Export.isContainer j = false

theorem Row.isPlain_iff {r : Row} :
    r.IsPlain ↔ ∀ entry ∈ r.values, r.shows entry.1 = true → Export.isContainer entry.2.toJson = false := by
  refine forall₃_congr fun entry _ _ => ?_
  rw [← Bool.not_eq_true, Value.isContainer_toJson_iff]
  simp

namespace Registry

/-- The columns of a row that are shown, each with what is shown of it. -/
def shownMembers (r : Row) : List (String × Json) :=
  (r.values.filter fun (name, _) => r.shows name).map fun (name, v) => (name, v.toJson)

section Members

variable (g : Registry) (m : Model) (r : Record) (expand withLinks : Bool)

/-- What is shown of the relations that were loaded, if they are asked for. -/
def loadedMembers : List (String × Json) :=
  if expand then r.related.filterMap fun (name, x) => g.renderRelated? m withLinks name x else []

/-- The links of a row, if they are asked for. -/
def linkMembers : List (String × Json) := if withLinks then [(Export.linksKey, .obj (m.links r.toRow))] else []

/-- The number of rows that a relation leads to, if it is a known one and leads to many. -/
def loadedSize? (name : String) (related : Related Record) : Option Nat := do
  let relation ← m.relations.find? (·.name == name)
  let _ ← g.get? relation.target
  match related with
  | .one _ => none
  | .many rows => some rows.length

/-- The numbers of rows of the collections that were loaded, if they are asked for. -/
def loadedSizes : List Nat := if expand then r.related.filterMap fun (name, x) => g.loadedSize? m name x else []

/-- What is shown of the relations has names of its own: no two have one, and none has that of a column that is shown or
of the links. -/
structure LoadsApart : Prop where
  nodup : ((g.loadedMembers m r expand withLinks).map (·.1)).Nodup
  apart {member : String × Json} (h : member ∈ g.loadedMembers m r expand withLinks) :
    member.1 ≠ Export.linksKey ∧ member.1 ∉ (shownMembers r.toRow).map (·.1)

/-- Where no relations are asked for, nothing is shown of them. -/
theorem loadsApart_false : g.LoadsApart m r false withLinks where
  nodup := List.nodup_nil
  apart h := absurd h List.not_mem_nil

/-- A record is shown as an object of its columns, its relations and its links. -/
theorem render_eq_ofMembers : g.render m r expand withLinks =
    Object.ofMembers (shownMembers r.toRow ++ g.loadedMembers m r expand withLinks ++ linkMembers m r withLinks) := by
  simp only [render, addLinks, shownValues, Object.ofMembers, List.foldl_append, shownMembers, loadedMembers,
    linkMembers]
  cases withLinks <;> rfl

end Members

section Rows

variable {g : Registry} {m : Model} {r : Record} {expand withLinks : Bool}

/-- No shown column has the name of the links. -/
theorem ne_linksKey_of_shown (hm : m.HasPublicColumns) (hr : r.Fits m) {member : String × Json}
    (h : member ∈ shownMembers r.toRow) : member.1 ≠ Export.linksKey := by
  obtain ⟨entry, hentry, rfl⟩ := List.mem_map.mp h
  obtain ⟨f, hf, hname⟩ := hr.column (List.mem_filter.mp hentry).1
  intro heq
  have hhead := hm.head hf
  rw [hname, show entry.1 = Export.linksKey from heq] at hhead
  exact hhead rfl

theorem nodup_keys_shownMembers (hr : r.Fits m) : ((shownMembers r.toRow).map (·.1)).Nodup := by
  have hnames : (shownMembers r.toRow).map (·.1) = (r.values.filter fun (name, _) => r.shows name).map (·.1) := by
    rw [shownMembers, List.map_map]
    rfl
  rw [hnames]
  exact hr.nodup.sublist (List.filter_sublist.map _)

/-- All that is shown of a record has different names. -/
theorem nodup_keys_members (hm : m.HasPublicColumns) (hr : r.Fits m) (h : g.LoadsApart m r expand withLinks) :
    ((shownMembers r.toRow ++ g.loadedMembers m r expand withLinks ++ linkMembers m r withLinks).map (·.1)).Nodup := by
  have hown : ((shownMembers r.toRow ++ g.loadedMembers m r expand withLinks).map (·.1)).Nodup := by
    rw [List.map_append]
    refine (nodup_keys_shownMembers hr).append h.nodup ?_
    intro name hshown hloaded
    obtain ⟨member, hmember, rfl⟩ := List.mem_map.mp hloaded
    exact (h.apart hmember).2 hshown
  have hlinks : Export.linksKey ∉ (shownMembers r.toRow ++ g.loadedMembers m r expand withLinks).map (·.1) := by
    intro hmem
    obtain ⟨member, hmember, hname⟩ := List.mem_map.mp hmem
    rcases List.mem_append.mp hmember with hshown | hloaded
    · exact ne_linksKey_of_shown hm hr hshown hname
    · exact (h.apart hloaded).1 hname
  unfold linkMembers
  split
  · rw [List.map_append]
    exact hown.append (List.nodup_singleton _) (List.disjoint_singleton.mpr hlinks)
  · rwa [List.append_nil]

/-- A relation makes as many rows as it leads to, if it is a collection, but at least one; any other makes one. -/
theorem width_of_renderRelated? {name : String} {related : Related Record} {member : String × Json}
    (h : g.renderRelated? m withLinks name related = some member) (hlinks : member.1 ≠ Export.linksKey) :
    Export.width member = ((g.loadedSize? m name related).map (max 1)).getD 1 := by
  obtain ⟨relation, hrelation, h⟩ := Option.bind_eq_some_iff.mp h
  obtain ⟨target, htarget, h⟩ := Option.bind_eq_some_iff.mp h
  cases related with
  | one row =>
    cases h
    cases row <;> simp [Export.width, hlinks, loadedSize?, hrelation, ofOption, renderRow]
  | many rows =>
    cases h
    simp [Export.width, hlinks, loadedSize?, hrelation, htarget]

theorem loadedSize?_eq_none {name : String} {related : Related Record}
    (h : g.renderRelated? m withLinks name related = none) : g.loadedSize? m name related = none := by
  unfold renderRelated? at h
  unfold loadedSize?
  cases hrelation : m.relations.find? (·.name == name) with
  | none => rfl
  | some relation =>
    cases htarget : g.get? relation.target with
    | none => simp [htarget]
    | some target =>
      rw [hrelation] at h
      simp only [Option.bind_eq_bind, Option.bind_some, htarget] at h
      cases related <;> cases h

/-- So all of them together make as many as their collections ask for. -/
theorem prod_width_loadedMembers (h : ∀ member ∈ g.loadedMembers m r expand withLinks, member.1 ≠ Export.linksKey) :
    ((g.loadedMembers m r expand withLinks).map Export.width).prod =
      ((g.loadedSizes m r expand).map (max 1)).prod := by
  cases expand with
  | false => rfl
  | true =>
    simp only [loadedMembers, loadedSizes, if_true] at h ⊢
    generalize r.related = related at h ⊢
    -- Relations that are not shown have no size either, and a single record has the width one.
    induction related with
    | nil => rfl
    | cons entry rest ih =>
      obtain ⟨name, x⟩ := entry
      cases hshown : g.renderRelated? m withLinks name x with
      | none =>
        have hsize := loadedSize?_eq_none hshown
        simp only [List.filterMap_cons, hshown, hsize] at h ⊢
        exact ih h
      | some member =>
        simp only [List.filterMap_cons, hshown, List.forall_mem_cons] at h
        have hwidth := width_of_renderRelated? hshown h.1
        simp only [List.filterMap_cons, hshown, List.map_cons, List.prod_cons, ih h.2, hwidth]
        cases g.loadedSize? m name x with
        | none => exact Nat.one_mul _
        | some n => rfl

theorem mem_shownMembers_iff {member : String × Json} :
    member ∈ shownMembers r.toRow ↔
      ∃ entry ∈ r.values, r.shows entry.1 = true ∧ (entry.1, entry.2.toJson) = member := by
  simp only [shownMembers, List.mem_map, List.mem_filter, and_assoc]

/-- A record has as many rows as its collections ask for, times as many as the JSON arrays in its columns do. -/
theorem length_flatten_render (hm : m.HasPublicColumns) (hr : r.Fits m) (h : g.LoadsApart m r expand withLinks) :
    (Export.flatten (g.render m r expand withLinks)).length =
      ((g.loadedSizes m r expand).map (max 1)).prod * ((shownMembers r.toRow).map Export.width).prod := by
  have hperm := Object.ofMembers_perm (nodup_keys_members hm hr h)
  have hlinks : ((linkMembers m r withLinks).map Export.width).prod = 1 := by cases withLinks <;> rfl
  rw [Export.length_flatten, render_eq_ofMembers, (hperm.map _).prod_eq, List.map_append, List.map_append,
    List.prod_append, List.prod_append, hlinks, prod_width_loadedMembers fun _ hmember => (h.apart hmember).1, mul_one,
    mul_comm]

/-- A shown column keeps its value in every row exactly where no JSON array or object is shown for it. -/
theorem shown_in_rows_iff (hm : m.HasPublicColumns) (hr : r.Fits m) (h : g.LoadsApart m r expand withLinks)
    {member : String × Json} (hmember : member ∈ shownMembers r.toRow) :
    (∀ row ∈ Export.flatten (g.render m r expand withLinks), row.get? member.1 = some member.2) ↔
      Export.isContainer member.2 = false := by
  rw [render_eq_ofMembers]
  exact Export.shown_iff (Object.sorted_ofMembers _) (ne_linksKey_of_shown hm hr hmember)
    (Object.mem_ofMembers (nodup_keys_members hm hr h) (List.mem_append_left _ (List.mem_append_left _ hmember)))

theorem width_of_not_container {member : String × Json} (h : Export.isContainer member.2 = false) :
    Export.width member = 1 := by
  obtain ⟨key, v⟩ := member
  simp only [Export.width]
  split
  · rfl
  · cases v with
    | arr _ => cases h
    | null | bool _ | num _ | str _ | obj _ => rfl

/-- A plain record has just the rows that its collections ask for. -/
theorem length_flatten_render_of_isPlain (hm : m.HasPublicColumns) (hr : r.Fits m)
    (h : g.LoadsApart m r expand withLinks) (hplain : r.IsPlain) :
    (Export.flatten (g.render m r expand withLinks)).length = ((g.loadedSizes m r expand).map (max 1)).prod := by
  have hone : ∀ n ∈ (shownMembers r.toRow).map Export.width, n = 1 := by
    intro n hn
    obtain ⟨member, hmember, rfl⟩ := List.mem_map.mp hn
    obtain ⟨entry, hentry, hshows, rfl⟩ := mem_shownMembers_iff.mp hmember
    exact width_of_not_container (Row.isPlain_iff.mp hplain entry hentry hshows)
  rw [length_flatten_render hm hr h, List.prod_eq_one hone, mul_one]

/-- So a file of plain records without relations has one row for each. -/
theorem length_flatMap_flatten_render {records : List Record} (hm : m.HasPublicColumns)
    (hr : ∀ r ∈ records, r.Fits m) (hplain : ∀ r ∈ records, r.IsPlain) :
    (records.flatMap fun r => Export.flatten (g.render m r false withLinks)).length = records.length := by
  have hone : ∀ r ∈ records, (Export.flatten (g.render m r false withLinks)).length = 1 := fun r hmem =>
    length_flatten_render_of_isPlain hm (hr r hmem) (g.loadsApart_false m r withLinks) (hplain r hmem)
  rw [List.length_flatMap, List.map_congr_left hone, List.map_const', List.sum_replicate_nat, Nat.mul_one]

/-- The rows of a record that is shown with its relations or without. There are as many as its collections ask for, one
for each way to take a row of each of them, times as many as the JSON arrays in its columns have items. They are those
that the collections ask for, with every shown column in each of them, exactly where no shown column holds a JSON array
or object. -/
theorem flatten_render_iff (hm : m.HasPublicColumns) (hr : r.Fits m) (h : g.LoadsApart m r expand withLinks) :
    let rows := Export.flatten (g.render m r expand withLinks)
    let asked := ((g.loadedSizes m r expand).map (max 1)).prod
    rows.length = asked * ((shownMembers r.toRow).map Export.width).prod ∧
      ((rows.length = asked ∧ ∀ entry ∈ r.values, r.shows entry.1 = true →
          ∀ row ∈ rows, row.get? entry.1 = some entry.2.toJson) ↔ r.IsPlain) := by
  intro rows asked
  have hshown : ∀ entry ∈ r.values, r.shows entry.1 = true →
      ((∀ row ∈ rows, row.get? entry.1 = some entry.2.toJson) ↔ Export.isContainer entry.2.toJson = false) :=
    fun entry hentry hshows => shown_in_rows_iff hm hr h (mem_shownMembers_iff.mpr ⟨entry, hentry, hshows, rfl⟩)
  have hall : (∀ entry ∈ r.values, r.shows entry.1 = true → ∀ row ∈ rows, row.get? entry.1 = some entry.2.toJson) ↔
      r.IsPlain := by
    rw [Row.isPlain_iff]
    exact forall₃_congr hshown
  refine ⟨length_flatten_render hm hr h, fun hrows => hall.mp hrows.2, fun hplain => ?_⟩
  exact ⟨length_flatten_render_of_isPlain hm hr h hplain, hall.mpr hplain⟩

end Rows

/-! ## A comment -/

/-- Comments, which may answer other ones and may have marks. -/
def commentModel : Model :=
  { (default : Model) with
    name := "Comment"
    table := "comment"
    url := "/comment"
    collectionSuffix := "List"
    columns := [(Field.new "id" .integer).primaryKey, .new "asked" .integer, .new "marks" .json]
    keyField := (Field.new "id" .integer).primaryKey
    relations := [.collection "answer" "Comment" "id" "asked"] }

/-- A comment with some marks and two answers that have none. -/
def comment (marks : Option Json) : Record :=
  let values (id : Int64) (asked : Option Int64) (marks : Option Json) : List (String × Value) :=
    [("id", .bigInt (some id)), ("asked", .bigInt asked), ("marks", .json marks)]
  let answer (id : Int64) : Record := ⟨⟨values id (some 1) none, none⟩, []⟩
  ⟨⟨values 1 none marks, none⟩, [("answer", .many [answer 2, answer 3])]⟩

theorem commentModel_hasPublicColumns : commentModel.HasPublicColumns where
  nodup := by decide
  head {f} hf := by
    have hall : ∀ f ∈ commentModel.columns, f.name.toList.head? ≠ some '_' := by decide
    exact hall f hf

theorem comment_fits (marks : Option Json) : (comment marks).Fits commentModel where
  nodup := by simp [comment]
  column {entry} hentry := by
    simp only [comment, List.mem_cons, List.not_mem_nil, or_false] at hentry
    rcases hentry with rfl | rfl | rfl
    · exact ⟨_, List.mem_cons_self, rfl⟩
    · exact ⟨_, List.mem_cons_of_mem _ List.mem_cons_self, rfl⟩
    · exact ⟨_, List.mem_cons_of_mem _ (List.mem_cons_of_mem _ List.mem_cons_self), rfl⟩

theorem comment_loadsApart : LoadsApart ⟨[commentModel]⟩ commentModel (comment none) true false where
  nodup := by decide +kernel
  apart {member} hmember := by
    have hall : ∀ member ∈ loadedMembers ⟨[commentModel]⟩ commentModel (comment none) true false,
        member.1 ≠ Export.linksKey ∧ member.1 ∉ (shownMembers (comment none).toRow).map (·.1) := by decide +kernel
    exact hall member hmember

/-- A comment without marks has a row for each of its two answers, each with its own number. -/
theorem rows_of_answered_comment :
    let rows := Export.flatten (render ⟨[commentModel]⟩ commentModel (comment none) true false)
    rows.length = 2 ∧ ∀ row ∈ rows, row.get? "id" = some (.int 1) := by
  have hrows := flatten_render_iff commentModel_hasPublicColumns (comment_fits none) comment_loadsApart
  have hplain : (comment none).IsPlain := by
    intro entry hentry _ j hj
    simp only [comment, List.mem_cons, List.not_mem_nil, or_false] at hentry
    rcases hentry with rfl | rfl | rfl <;> cases hj
  obtain ⟨hlength, hshown⟩ := hrows.2.mpr hplain
  refine ⟨hlength.trans (by decide +kernel), fun row hrow => ?_⟩
  exact hshown ("id", .bigInt (some 1)) (by simp [comment]) rfl row hrow

/-- A comment with two marks has two rows although no relation is shown of it, and one mark in each of them instead of
what the column holds; one with named marks has a single row, without the column. -/
theorem marks_multiply_or_vanish :
    let marked := comment (some (.arr [.str "a", .str "b"]))
    let named := comment (some (.obj [("a", .bool true)]))
    marked.Fits commentModel ∧ named.Fits commentModel ∧
      Export.flatten (render ⟨[commentModel]⟩ commentModel marked false false) =
        [[("asked", .null), ("id", .int 1), ("marks", .str "a")],
         [("asked", .null), ("id", .int 1), ("marks", .str "b")]] ∧
      Export.flatten (render ⟨[commentModel]⟩ commentModel named false false) =
        [[("asked", .null), ("id", .int 1), ("marks.a", .bool true)]] :=
  ⟨comment_fits _, comment_fits _, by decide +kernel, by decide +kernel⟩

end Registry

end RestTables
