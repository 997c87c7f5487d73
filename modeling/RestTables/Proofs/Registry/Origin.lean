import RestTables.Proofs.Model.Build
import RestTables.Proofs.Registry.Relations

/-
Module: RestTables.Proofs.Registry.Origin
Purpose: Where the models of a registry come from. Each was declared or built from a table, and the registry adds
  relations to it, puts its path below the base and takes verbs away; its columns stay what they were.
Main exports: Model.StemsFrom, Registry.models_eq_of_build, Registry.exists_origin, Registry.nodup_columns,
  Registry.IsClosed, Registry.isClosed_of_build, Registry.isMutating_of_allows
-/

namespace RestTables

open Registry

/-- The model has the table, the columns and the key of another one. -/
structure Model.StemsFrom (m origin : Model) : Prop where
  table_eq : m.table = origin.table
  columns_eq : m.columns = origin.columns
  keyField_eq : m.keyField = origin.keyField

theorem Model.StemsFrom.refl (m : Model) : m.StemsFrom m := ⟨rfl, rfl, rfl⟩

theorem Model.StemsFrom.trans {m m' origin : Model} (h : m.StemsFrom m') (h' : m'.StemsFrom origin) :
    m.StemsFrom origin :=
  ⟨h.table_eq.trans h'.table_eq, h.columns_eq.trans h'.columns_eq, h.keyField_eq.trans h'.keyField_eq⟩

namespace Registry

variable {models : List Model} {m : Model}

/-- Every model of a list stems from one of another list. -/
def AllStemFrom (models origins : List Model) : Prop := ∀ m ∈ models, ∃ o ∈ origins, m.StemsFrom o

theorem AllStemFrom.refl (models : List Model) : AllStemFrom models models := fun m hm => ⟨m, hm, .refl m⟩

theorem AllStemFrom.trans {models middle origins : List Model} (h : AllStemFrom models middle)
    (h' : AllStemFrom middle origins) : AllStemFrom models origins := by
  intro m hm
  obtain ⟨o, ho, hmo⟩ := h m hm
  obtain ⟨o', ho', hoo⟩ := h' o ho
  exact ⟨o', ho', hmo.trans hoo⟩

/-! ## Relations are added -/

theorem allStemFrom_modify (models : List Model) (i : Nat) (r : Relation) :
    AllStemFrom (models.modify i (·.addRelation r)) models := by
  intro m hm
  obtain ⟨j, hj⟩ := List.mem_iff_getElem?.mp hm
  rw [List.getElem?_modify] at hj
  obtain ⟨o, ho, rfl⟩ := Option.map_eq_some_iff.mp hj
  refine ⟨o, List.mem_of_getElem? ho, ?_⟩
  split
  · exact ⟨rfl, rfl, rfl⟩
  · exact .refl o

theorem allStemFrom_linkKey (owner : Nat) (models : List Model) (key : ForeignKey) :
    AllStemFrom (linkKey owner models key) models := by
  unfold linkKey
  split
  · exact .refl models
  · split
    · exact (allStemFrom_modify _ _ _).trans (allStemFrom_modify _ _ _)
    · exact .refl models

theorem allStemFrom_linkTable (declared : Nat) (models : List Model) (t : Table) :
    AllStemFrom (linkTable declared models t) models := by
  have hkeys : ∀ owner (keys : List ForeignKey) (models : List Model),
      AllStemFrom (keys.foldl (linkKey owner) models) models := by
    intro owner keys
    induction keys with
    | nil => exact AllStemFrom.refl
    | cons key keys ih => exact fun models => (ih _).trans (allStemFrom_linkKey owner models key)
  unfold linkTable
  split
  · exact .refl models
  · split
    · exact .refl models
    · exact hkeys _ _ _

theorem allStemFrom_linkTables (declared : Nat) (tables : List Table) (models : List Model) :
    AllStemFrom (tables.foldl (linkTable declared) models) models := by
  induction tables generalizing models with
  | nil => exact .refl models
  | cons t tables ih => exact (ih _).trans (allStemFrom_linkTable declared models t)

/-! ## The models of a registry -/

/-- A table is passed over, or its name is new and it makes one more model. -/
theorem cases_of_addTables_cons {t : Table} {tables : List Table} {before : List Model}
    (h : addTables before (t :: tables) = .ok models) :
    addTables before tables = .ok models ∨
      ∃ m, (declaration t).build = .ok m ∧ (∀ a ∈ before, Text.sameFold a.table t.name = false) ∧
        addTables (before ++ [m]) tables = .ok models := by
  unfold addTables at h
  split at h
  · exact .inl h
  · next hnew =>
    split at h
    · next m hm => exact .inr ⟨m, hm, by simpa using hnew, h⟩
    · exact .inl h
    · cases h

/-- A model that was added was there before, or its table makes it. -/
theorem mem_of_addTables {tables : List Table} {declared : List Model} (h : addTables declared tables = .ok models)
    (hm : m ∈ models) : m ∈ declared ∨ ∃ t ∈ tables, (declaration t).build = .ok m := by
  induction tables generalizing declared with
  | nil =>
    cases h
    exact .inl hm
  | cons t tables ih =>
    rcases cases_of_addTables_cons h with hskipped | ⟨built, hbuilt, -, hmade⟩
    · exact (ih hskipped).imp_right fun ⟨t', ht', hbuild⟩ => ⟨t', List.mem_cons_of_mem _ ht', hbuild⟩
    · rcases ih hmade with hdeclared | ⟨t', ht', hbuild⟩
      · rcases List.mem_append.mp hdeclared with hdeclared | hnew
        · exact .inl hdeclared
        · rw [List.mem_singleton.mp hnew]
          exact .inr ⟨t, List.mem_cons_self, hbuilt⟩
      · exact .inr ⟨t', List.mem_cons_of_mem _ ht', hbuild⟩

variable {declared : List Model} {tables : List Table} {config : Config} {g : Registry}

/-- The models of a registry, before their paths and verbs are settled. -/
theorem models_eq_of_build (h : Registry.build declared tables config = .ok g) :
    ∃ models, addTables declared tables = .ok models ∧
      g.models = (tables.foldl (linkTable declared.length) models).map fun m =>
        (m.mount config.baseUrl).restrict config.readOnly config.fetchEnabled := by
  obtain ⟨models, hadded, hmodels⟩ := exists_of_bind_eq_ok h
  obtain ⟨rfl, -⟩ := eq_of_ofModels hmodels
  exact ⟨models, hadded, rfl⟩

/-- A registered model has the table, the columns and the key of one that was declared or that a table makes. -/
theorem exists_origin (h : Registry.build declared tables config = .ok g) (hm : m ∈ g.models) :
    ∃ origin, (origin ∈ declared ∨ ∃ t ∈ tables, (declaration t).build = .ok origin) ∧ m.StemsFrom origin := by
  obtain ⟨models, hadded, hmodels⟩ := models_eq_of_build h
  rw [hmodels] at hm
  obtain ⟨linked, hlinked, rfl⟩ := List.mem_map.mp hm
  obtain ⟨origin, horigin, hstems⟩ := allStemFrom_linkTables declared.length tables models linked hlinked
  exact ⟨origin, mem_of_addTables hadded horigin, ⟨hstems.table_eq, hstems.columns_eq, hstems.keyField_eq⟩⟩

/-- A registered model stems from one that was built. -/
theorem exists_built_origin (h : Registry.build declared tables config = .ok g)
    (hdeclared : ∀ o ∈ declared, ∃ d : Model.Declaration, d.build = .ok o) (hm : m ∈ g.models) :
    ∃ (d : Model.Declaration) (origin : Model), d.build = .ok origin ∧ m.StemsFrom origin := by
  obtain ⟨origin, horigin, hstems⟩ := exists_origin h hm
  rcases horigin with horigin | ⟨t, -, hbuild⟩
  · obtain ⟨d, hbuild⟩ := hdeclared origin horigin
    exact ⟨d, origin, hbuild, hstems⟩
  · exact ⟨declaration t, origin, hbuild, hstems⟩

/-- Its columns have different names. -/
theorem nodup_columns (h : Registry.build declared tables config = .ok g)
    (hdeclared : ∀ o ∈ declared, ∃ d : Model.Declaration, d.build = .ok o) (hm : m ∈ g.models) :
    (m.columns.map (·.name)).Nodup := by
  obtain ⟨d, origin, hbuild, hstems⟩ := exists_built_origin h hdeclared hm
  rw [hstems.columns_eq]
  exact Model.nodup_columns_of_build hbuild

/-- None of these names is that of a private one. -/
theorem head?_name_ne (h : Registry.build declared tables config = .ok g)
    (hdeclared : ∀ o ∈ declared, ∃ d : Model.Declaration, d.build = .ok o) (hm : m ∈ g.models) {f : Field}
    (hf : f ∈ m.columns) : f.name.toList.head? ≠ some '_' := by
  obtain ⟨d, origin, hbuild, hstems⟩ := exists_built_origin h hdeclared hm
  rw [hstems.columns_eq] at hf
  exact ((Model.mem_columns_iff_of_build hbuild).mp hf).2.1

/-- Every column that a model needs by its name is there: its key, and both ends of each relation. -/
structure IsClosed (g : Registry) : Prop where
  key : ∀ m ∈ g.models, (m.column? m.keyField.name).isSome
  relation : ∀ m ∈ g.models, ∀ r ∈ m.relations,
    ∃ t, g.get? r.target = some t ∧ (m.column? r.localKey).isSome ∧ (t.column? r.remoteKey).isSome

theorem column?_isSome_of_mem {f : Field} (h : f ∈ m.columns) : (m.column? f.name).isSome := by
  simp only [Model.column?, List.find?_isSome, beq_iff_eq]
  exact ⟨f, h, rfl⟩

/-- The key of a registered model is found by its name. -/
theorem column?_keyField (h : Registry.build declared tables config = .ok g)
    (hdeclared : ∀ o ∈ declared, ∃ d : Model.Declaration, d.build = .ok o) (hm : m ∈ g.models) :
    m.column? m.keyField.name = some m.keyField := by
  obtain ⟨d, origin, hbuild, hstems⟩ := exists_built_origin h hdeclared hm
  apply Model.column?_eq_some_of_mem (nodup_columns h hdeclared hm)
  rw [hstems.keyField_eq, hstems.columns_eq]
  exact Model.keyField_mem_of_build hbuild

theorem mem_models_of_get? {name : String} (h : g.get? name = some m) : m ∈ g.models := List.mem_of_find?_eq_some h

theorem isClosed_of_build (h : Registry.build declared tables config = .ok g)
    (hdeclared : ∀ o ∈ declared, ∃ d : Model.Declaration, d.build = .ok o) : g.IsClosed where
  key m hm := by
    obtain ⟨d, origin, hbuild, hstems⟩ := exists_built_origin h hdeclared hm
    apply column?_isSome_of_mem
    rw [hstems.keyField_eq, hstems.columns_eq]
    exact Model.keyField_mem_of_build hbuild
  relation _ hm _ hr := exists_target_of_build h hm hr

/-- Where nothing may be changed, no model allows a verb that changes rows. -/
theorem isMutating_of_allows (h : Registry.build declared tables config = .ok g)
    (hread : config.readOnly = true) (hm : m ∈ g.models) {verb : Verb} (hallows : m.allows verb = true) :
    verb.isMutating = false := by
  obtain ⟨models, -, hmodels⟩ := models_eq_of_build h
  rw [hmodels] at hm
  obtain ⟨linked, -, rfl⟩ := List.mem_map.mp hm
  have hmem : verb ∈ ((linked.mount config.baseUrl).restrict config.readOnly config.fetchEnabled).methods := by
    simpa [Model.allows] using hallows
  simp only [Model.restrict, List.mem_filter, hread, Bool.not_true, Bool.false_or, Bool.and_eq_true] at hmem
  exact (Model.isReading_iff verb).mp hmem.2.1

end Registry

end RestTables
