import Mathlib.Data.List.Nodup
import RestTables.Model.Basic

/-
Module: RestTables.Proofs.Model.Build
Purpose: What is known of a model that was built: its columns have different names, and its key is one of them.
Main exports: Declaration.keyNames, Declaration.repeated?_eq_none_iff, exists_of_build, mem_columns_iff_of_build,
  nodup_columns_of_build, column?_eq_some_of_mem
-/

namespace RestTables.Model

namespace Declaration

/-- The names of all columns that belong to the key, hidden ones too. -/
def keyNames (d : Declaration) : List String := (d.fields.filter (·.isPrimary)).map (·.name)

/-- No name is repeated exactly when the names differ from each other and from those seen before. -/
theorem repeated?_eq_none_iff {seen : List String} {fields : List Field} :
    repeated? seen fields = none ↔
      (fields.map (·.name)).Nodup ∧ ∀ f ∈ fields, f.name ∉ seen := by
  induction fields generalizing seen with
  | nil => simp [repeated?]
  | cons f fields ih =>
    simp only [repeated?, List.contains_eq_mem, decide_eq_true_eq]
    split
    · next h => simp [h]
    · next h =>
      rw [ih]
      simp only [List.map_cons, List.nodup_cons, List.mem_map, not_exists, not_and, List.mem_cons, not_or,
        forall_eq_or_imp]
      constructor
      · rintro ⟨hnodup, hseen⟩
        exact ⟨⟨fun g hg => (hseen g hg).1, hnodup⟩, h, fun g hg => (hseen g hg).2⟩
      · rintro ⟨⟨hf, hnodup⟩, -, hseen⟩
        exact ⟨hnodup, fun g hg => ⟨hf g hg, hseen g hg⟩⟩

end Declaration

variable {d : Declaration} {m : Model}

/-- A declaration that names no column twice builds a model of what it tells, with its first primary column for a
key. -/
theorem exists_of_build (h : d.build = .ok m) :
    Declaration.repeated? [] d.exposed = none ∧ ∃ keyField, d.exposed.find? (·.isPrimary) = some keyField ∧
      m = { name := d.name, table := d.table, url := d.path, description := d.description,
            collectionSuffix := d.collectionSuffix, columns := d.exposed, keyField, relations := d.relations,
            methods := Verb.all.filter fun v => (d.methods.getD Verb.all).contains v } := by
  unfold Declaration.build at h
  split at h
  · cases h
  · next hr =>
    split at h
    · cases h
    · next k hk =>
      cases h
      exact ⟨hr, k, hk, rfl⟩

/-- What a declaration builds, field by field. -/
theorem eq_of_build (h : d.build = .ok m) :
    m.table = d.table ∧ m.columns = d.exposed ∧ m.relations = d.relations ∧
      d.exposed.find? (·.isPrimary) = some m.keyField ∧ Declaration.repeated? [] d.exposed = none := by
  obtain ⟨hr, k, hk, rfl⟩ := exists_of_build h
  exact ⟨rfl, rfl, rfl, hk, hr⟩

namespace Declaration

theorem exposes_iff {f : Field} : d.exposes f = true ↔ f.name.toList.head? ≠ some '_' ∧ f.name ∉ d.hidden := by
  rw [exposes, Bool.and_eq_true, bne_iff_ne, Bool.not_eq_true', List.contains_eq_mem, decide_eq_false_iff_not]

end Declaration

/-- The columns of a model are the fields that are exposed. -/
theorem mem_columns_iff_of_build (h : d.build = .ok m) {f : Field} :
    f ∈ m.columns ↔ f ∈ d.fields ∧ f.name.toList.head? ≠ some '_' ∧ f.name ∉ d.hidden := by
  rw [(eq_of_build h).2.1, Declaration.exposed, List.mem_filter, Declaration.exposes_iff]

/-- The columns of a model have different names. -/
theorem nodup_columns_of_build (h : d.build = .ok m) : (m.columns.map (·.name)).Nodup := by
  obtain ⟨-, hcolumns, -, -, hr⟩ := eq_of_build h
  rw [hcolumns]
  exact (Declaration.repeated?_eq_none_iff.mp hr).1

/-- A column is found by its name. -/
theorem column?_eq_some_of_mem {f : Field} (hnodup : (m.columns.map (·.name)).Nodup) (hf : f ∈ m.columns) :
    m.column? f.name = some f := by
  unfold column?
  cases h : m.columns.find? (·.name == f.name) with
  | none =>
    rw [List.find?_eq_none] at h
    simpa using h f hf
  | some g =>
    have hname : g.name = f.name := by simpa using List.find?_some h
    rw [List.inj_on_of_nodup_map hnodup (List.mem_of_find?_eq_some h) hf hname]

end RestTables.Model
