import RestTables.Proofs.Json.Members
import RestTables.Proofs.Registry.Origin

/-
Module: RestTables.Proofs.Rows.Shown
Purpose: What is shown of a row that was read in full. It has one member for each column, which is how the column's
  value is shown; its links cannot stand in the place of one, since no column is named like a private one.
Main exports: Model.HasPublicColumns, Rows.IsFull, Rows.exists_mem_values, Rows.mem_render_iff, Rows.mem_render_iff_eq
-/

namespace RestTables

/-- The columns of a model have different names, none of which is that of a private one. -/
structure Model.HasPublicColumns (m : Model) : Prop where
  nodup : (m.columns.map (·.name)).Nodup
  head {f : Field} (hf : f ∈ m.columns) : f.name.toList.head? ≠ some '_'

/-- So have the columns of every registered model. -/
theorem Registry.hasPublicColumns {declared : List Model} {tables : List Table} {config : Config} {g : Registry}
    {m : Model} (h : Registry.build declared tables config = .ok g)
    (hdeclared : ∀ o ∈ declared, ∃ d : Model.Declaration, d.build = .ok o) (hm : m ∈ g.models) :
    m.HasPublicColumns where
  nodup := nodup_columns h hdeclared hm
  head {_} hf := head?_name_ne h hdeclared hm hf

namespace Rows

variable {g : Registry} {m : Model} {r : Record} {withLinks : Bool}

/-- A record has a value of the right type for each column of a model, and shows them all. -/
structure IsFull (m : Model) (r : Record) : Prop where
  names : r.values.map (·.1) = m.columns.map (·.name)
  kinds {f : Field} {v : Value} (hf : f ∈ m.columns) (hv : (f.name, v) ∈ r.values) : v.hasKind f.kind = true
  shown : r.projection = none

/-- Each column has its value. -/
theorem exists_mem_values (hr : IsFull m r) {f : Field} (hf : f ∈ m.columns) :
    ∃ v, (f.name, v) ∈ r.values ∧ v.hasKind f.kind = true := by
  have hname : f.name ∈ r.values.map (·.1) := hr.names ▸ List.mem_map_of_mem hf
  obtain ⟨⟨name, v⟩, hentry, rfl⟩ := List.mem_map.mp hname
  exact ⟨v, hentry, hr.kinds hf hentry⟩

/-- And it is the value that is found by the column's name. -/
theorem get?_eq_some_iff (hm : m.HasPublicColumns) (hr : IsFull m r) {name : String} {v : Value} :
    r.get? name = some v ↔ (name, v) ∈ r.values := by
  have hnodup : (r.values.map (·.1)).Nodup := hr.names ▸ hm.nodup
  constructor
  · exact mem_of_lookup
  · exact lookup_eq_some_of_mem hnodup

/-- All of a full record is shown. -/
theorem shownValues_of_isFull (hr : IsFull m r) :
    Registry.shownValues r.toRow = Json.Object.ofMembers (r.values.map fun entry => (entry.1, entry.2.toJson)) := by
  have hshows : ∀ entry ∈ r.values, r.shows entry.1 = true := by
    intro entry _
    rw [Row.shows, hr.shown]
  rw [Registry.shownValues, List.filter_eq_self.mpr hshows]

/-- The members of what is shown, but for the links, are the columns, each with its value as that is shown. -/
theorem mem_render_iff (hm : m.HasPublicColumns) (hr : IsFull m r) {f : Field} (hf : f ∈ m.columns) {j : Json} :
    (f.name, j) ∈ g.render m r false withLinks ↔ ∃ v, (f.name, v) ∈ r.values ∧ v.toJson = j := by
  have hnodup : ((r.values.map fun entry => (entry.1, entry.2.toJson)).map (·.1)).Nodup := by
    have hnames : (r.values.map fun entry => (entry.1, entry.2.toJson)).map (·.1) = r.values.map (·.1) := by
      rw [List.map_map]
      rfl
    rw [hnames, hr.names]
    exact hm.nodup
  have hvalues : (f.name, j) ∈ Registry.shownValues r.toRow ↔ ∃ v, (f.name, v) ∈ r.values ∧ v.toJson = j := by
    rw [shownValues_of_isFull hr]
    constructor
    · intro hmember
      obtain ⟨⟨name, v⟩, hentry, heq⟩ := List.mem_map.mp (Json.Object.mem_of_mem_ofMembers hmember)
      cases heq
      exact ⟨v, hentry, rfl⟩
    · rintro ⟨v, hentry, rfl⟩
      exact Json.Object.mem_ofMembers hnodup (List.mem_map.mpr ⟨_, hentry, rfl⟩)
  -- Columns that start with an underscore are not shown.
  have hlinks : f.name ≠ "_links" := by
    intro heq
    have hhead := hm.head hf
    rw [heq] at hhead
    exact hhead rfl
  rw [← hvalues]
  unfold Registry.render Registry.addLinks
  simp only [Bool.false_eq_true, ↓reduceIte, List.foldl_nil]
  split
  · constructor
    · intro hmember
      rcases Json.Object.mem_insert hmember with heq | hmember
      · exact absurd (congrArg Prod.fst heq) hlinks
      · exact hmember
    · exact fun hmember => Json.Object.mem_insert_of_ne hmember hlinks _
  · rfl

/-- So what is shown for a column is how its value is shown. -/
theorem mem_render_iff_eq (hm : m.HasPublicColumns) (hr : IsFull m r) {f : Field} {v : Value} (hf : f ∈ m.columns)
    (hv : (f.name, v) ∈ r.values) {j : Json} : (f.name, j) ∈ g.render m r false withLinks ↔ j = v.toJson := by
  rw [mem_render_iff hm hr hf]
  constructor
  · rintro ⟨w, hw, rfl⟩
    have hsame : some w = some v := ((get?_eq_some_iff hm hr).mpr hw).symm.trans ((get?_eq_some_iff hm hr).mpr hv)
    rw [Option.some.inj hsame]
  · rintro rfl
    exact ⟨v, hv, rfl⟩

end Rows

end RestTables
