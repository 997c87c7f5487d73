import RestTables.Proofs.Registry.Reach

/-
Module: RestTables.Proofs.Registry.Closure
Purpose: What can be relied on in a registry. A model is found by its name and by the end of its path, whatever the
  case, and nothing else is; every relation leads from a column to a column of a model that is found; and the models are
  the declared ones and, behind them, one for each further table that has a key.
Main exports: Registry.get?_eq_some_iff, Registry.bySegment?_eq_some_iff, Registry.index_perm,
  Registry.exists_append_of_addTables, Registry.IsExact, Registry.isExact_of_build
-/

namespace RestTables

open Registry

/-- A model has the name of another one, its table, its columns and its key. -/
structure Model.Represents (m origin : Model) : Prop extends m.StemsFrom origin where
  name_eq : m.name = origin.name

namespace Registry

/-! ## Finding models -/

section Find

variable {models : List Model} {m : Model} {key : Model → String} {k : String}

/-- Where no two models have one key, a model is found by its own. -/
theorem find?_key_eq_some_iff (h : models.Pairwise fun a b => key a ≠ key b) :
    models.find? (fun m => key m == k) = some m ↔ m ∈ models ∧ key m = k := by
  constructor
  · intro hfind
    exact ⟨List.mem_of_find?_eq_some hfind, by simpa using List.find?_some hfind⟩
  · rintro ⟨hm, rfl⟩
    induction models with
    | nil => cases hm
    | cons first models ih =>
      obtain ⟨hfirst, hrest⟩ := List.pairwise_cons.mp h
      rcases List.mem_cons.mp hm with rfl | hm
      · exact List.find?_cons_of_pos (beq_self_eq_true _)
      · rw [List.find?_cons_of_neg (by simpa using hfirst m hm)]
        exact ih hrest hm

theorem find?_key_eq_none_iff (key : Model → String) :
    models.find? (fun m => key m == k) = none ↔ ∀ m ∈ models, key m ≠ k := by
  simp [List.find?_eq_none]

end Find

variable {g : Registry} {m : Model}

theorem get?_eq_some_iff (h : HaveApartNames g.models) {name : String} :
    g.get? name = some m ↔ m ∈ g.models ∧ Text.lower m.name = Text.lower name :=
  find?_key_eq_some_iff h.names

theorem get?_eq_none_iff {name : String} :
    g.get? name = none ↔ ∀ m ∈ g.models, Text.lower m.name ≠ Text.lower name :=
  find?_key_eq_none_iff nameKey

theorem bySegment?_eq_some_iff (h : HaveApartNames g.models) {segment : String} :
    g.bySegment? segment = some m ↔ m ∈ g.models ∧ Text.lower m.segment = Text.lower segment :=
  find?_key_eq_some_iff h.segments

theorem bySegment?_eq_none_iff {segment : String} :
    g.bySegment? segment = none ↔ ∀ m ∈ g.models, Text.lower m.segment ≠ Text.lower segment :=
  find?_key_eq_none_iff segmentKey

/-- The index has one entry for each model. -/
theorem index_perm (h : HaveApartNames g.models) :
    g.index.Perm (g.models.map fun m => (m.name, .str (m.url ++ "\x7b/" ++ m.keyField.name ++ "\x7d"))) := by
  refine Json.Object.ofMembers_perm ?_
  rw [List.map_map]
  exact List.pairwise_map.mpr (h.names.imp fun {a b} hne hname => hne (congrArg Text.lower hname))

/-! ## Where models come from -/

/-- What follows a list is apart from all that stands in front of it, wherever it stands. -/
theorem rel_of_append_eq {α : Type} {R : α → α → Prop} {first second front back : List α} {b : α}
    (hcross : ∀ a ∈ first, ∀ c ∈ second, R a c) (hpair : second.Pairwise R) (h : first ++ second = front ++ b :: back)
    (hle : first.length ≤ front.length) : ∀ a ∈ front, R a b := by
  rcases List.append_eq_append_iff.mp h with ⟨between, rfl, hsecond⟩ | ⟨between, hfirst, hrest⟩
  · rw [hsecond, List.pairwise_append] at hpair
    have hb : b ∈ second := by simp [hsecond]
    exact List.forall_mem_append.mpr
      ⟨fun a ha => hcross a ha b hb, fun a ha => hpair.2.2 a ha b List.mem_cons_self⟩
  · -- the first list ends where the front does
    obtain rfl : between = [] := by
      have hlength := congrArg List.length hfirst
      rw [List.length_append] at hlength
      exact List.eq_nil_of_length_eq_zero (by omega)
    rw [List.append_nil] at hfirst
    subst hfirst
    have hb : b ∈ second := by
      rw [List.nil_append] at hrest
      exact hrest ▸ List.mem_cons_self
    exact fun a ha => hcross a ha b hb

theorem forall₂_eq_iff_map_eq {α β γ : Type} {f : α → γ} {g : β → γ} {as : List α} {bs : List β} :
    List.Forall₂ (fun a b => f a = g b) as bs ↔ as.map f = bs.map g := by
  rw [← List.forall₂_eq_eq_eq, List.forall₂_map_left_iff, List.forall₂_map_right_iff]

theorem table_of_build {t : Table} (h : (declaration t).build = .ok m) : m.table = t.name := (Model.eq_of_build h).1

/-- Behind the models that are there come models that tables make, in the order of the tables; none has the table of
another one. -/
theorem exists_append_of_addTables {models all : List Model} {tables : List Table}
    (h : addTables models tables = .ok all) :
    ∃ made, all = models ++ made ∧ made.SublistForall₂ (fun m t => (declaration t).build = .ok m) tables ∧
      (made.Pairwise fun a b => Text.sameFold a.table b.table = false) ∧
      ∀ a ∈ models, ∀ b ∈ made, Text.sameFold a.table b.table = false := by
  induction tables generalizing models with
  | nil =>
    cases h
    exact ⟨[], (List.append_nil _).symm, .nil, List.Pairwise.nil, by simp⟩
  | cons t tables ih =>
    rcases cases_of_addTables_cons h with hskipped | ⟨m, hm, hnew, hmade⟩
    · obtain ⟨made, rfl, hmade, hapart⟩ := ih hskipped
      exact ⟨made, rfl, .cons_right hmade, hapart⟩
    · obtain ⟨made, rfl, hmade, hpair, hcross⟩ := ih hmade
      refine ⟨m :: made, List.append_assoc .., .cons hm hmade, ?_, ?_⟩
      · exact List.pairwise_cons.mpr
          ⟨fun b hb => hcross m (List.mem_append_right _ (List.mem_singleton_self m)) b hb, hpair⟩
      · intro a ha
        have hfresh : Text.sameFold a.table m.table = false := by
          rw [table_of_build hm]
          exact hnew a ha
        exact List.forall_mem_cons.mpr ⟨hfresh, fun b hb => hcross a (List.mem_append_left _ ha) b hb⟩

/-- Linking, paths and verbs change neither the order of models nor what they are models of. -/
theorem forall₂_represents {declared all : List Model} {tables : List Table} {config : Config}
    (h : Registry.build declared tables config = .ok g) (hadded : addTables declared tables = .ok all) :
    List.Forall₂ Model.Represents g.models all := by
  obtain ⟨models, hmodels, hg⟩ := models_eq_of_build h
  obtain rfl : models = all := Except.ok.inj (hmodels.symm.trans hadded)
  have hmap : g.models.map (fun m => (m.name, m.table, m.columns, m.keyField)) =
      models.map (fun m => (m.name, m.table, m.columns, m.keyField)) := by
    rw [hg, List.map_map, ← map_foldl_linkTable (fun _ _ => rfl) declared.length tables models]
    rfl
  refine (forall₂_eq_iff_map_eq.mpr hmap).imp fun a b hab => ?_
  simp only [Prod.mk.injEq] at hab
  exact ⟨⟨hab.2.1, hab.2.2.1, hab.2.2.2⟩, hab.1⟩

/-! ## What a registry holds -/

/-- What can be relied on in a registry of declared models and tables: names and the ends of paths are apart, whatever
the case, and models are found by them and by nothing else; the index has one entry for each model; relations lead from
a column to a column; and the models are the declared ones with models of tables behind them, both in order, and none of
the latter has the table of a model in front of it. -/
structure IsExact (g : Registry) (declared : List Model) (tables : List Table) : Prop where
  names : g.models.Pairwise fun a b => Text.lower a.name ≠ Text.lower b.name
  segments : g.models.Pairwise fun a b => Text.lower a.segment ≠ Text.lower b.segment
  get?_eq_some (name : String) (m : Model) :
    g.get? name = some m ↔ m ∈ g.models ∧ Text.lower m.name = Text.lower name
  get?_eq_none (name : String) : g.get? name = none ↔ ∀ m ∈ g.models, Text.lower m.name ≠ Text.lower name
  bySegment?_eq_some (segment : String) (m : Model) :
    g.bySegment? segment = some m ↔ m ∈ g.models ∧ Text.lower m.segment = Text.lower segment
  bySegment?_eq_none (segment : String) :
    g.bySegment? segment = none ↔ ∀ m ∈ g.models, Text.lower m.segment ≠ Text.lower segment
  index : g.index.Perm (g.models.map fun m => (m.name, .str (m.url ++ "\x7b/" ++ m.keyField.name ++ "\x7d")))
  relations : ∀ m ∈ g.models, ∀ r ∈ m.relations, ∃ t, g.get? r.target = some t ∧
    (∃ f ∈ m.columns, f.name = r.localKey) ∧ ∃ f ∈ t.columns, f.name = r.remoteKey
  ofDeclared : List.Forall₂ Model.Represents (g.models.take declared.length) declared
  ofTables : ∃ made, List.Forall₂ Model.Represents (g.models.drop declared.length) made ∧
    made.SublistForall₂ (fun m t => (declaration t).build = .ok m) tables
  fresh : ∀ front m back, g.models = front ++ m :: back → declared.length ≤ front.length →
    ∀ a ∈ front, Text.sameFold a.table m.table = false

theorem haveApartNames_of_build {declared : List Model} {tables : List Table} {config : Config}
    (h : Registry.build declared tables config = .ok g) : HaveApartNames g.models := by
  obtain ⟨models, -, hmodels⟩ := exists_of_bind_eq_ok h
  obtain ⟨rfl, -⟩ := eq_of_ofModels hmodels
  exact haveApartNames_of_ofModels hmodels

/-- A registered model is found by the end of its path. -/
theorem bySegment?_segment {declared : List Model} {tables : List Table} {config : Config}
    (h : Registry.build declared tables config = .ok g) (hm : m ∈ g.models) : g.bySegment? m.segment = some m :=
  (bySegment?_eq_some_iff (haveApartNames_of_build h)).mpr ⟨hm, rfl⟩

theorem exists_mem_of_column? {name : String} (h : (m.column? name).isSome) : ∃ f ∈ m.columns, f.name = name := by
  simpa [Model.column?] using h

/-- All of this can be relied on in every registry that is built. -/
theorem isExact_of_build {declared : List Model} {tables : List Table} {config : Config}
    (h : Registry.build declared tables config = .ok g) : g.IsExact declared tables := by
  have hapart := haveApartNames_of_build h
  obtain ⟨all, hadded, -⟩ := models_eq_of_build h
  have hrepresents := forall₂_represents h hadded
  obtain ⟨made, rfl, hmade, hpair, hcross⟩ := exists_append_of_addTables hadded
  -- Linking and settling keep the tables, so where the made models start can be read off the table names.
  have htables : g.models.map (·.table) = declared.map (·.table) ++ made.map (·.table) := by
    rw [← List.map_append]
    exact forall₂_eq_iff_map_eq.mp (hrepresents.imp fun a b hab => hab.table_eq)
  exact
    { names := hapart.names
      segments := hapart.segments
      get?_eq_some := fun name m => get?_eq_some_iff hapart
      get?_eq_none := fun name => get?_eq_none_iff
      bySegment?_eq_some := fun segment m => bySegment?_eq_some_iff hapart
      bySegment?_eq_none := fun segment => bySegment?_eq_none_iff
      index := index_perm hapart
      relations := fun m hm r hr =>
        (exists_target_of_build h hm hr).imp fun t ⟨ht, hlocal, hremote⟩ =>
          ⟨ht, exists_mem_of_column? hlocal, exists_mem_of_column? hremote⟩
      ofDeclared := List.forall₂_take_append _ _ _ hrepresents
      ofTables := ⟨made, List.forall₂_drop_append _ _ _ hrepresents, hmade⟩
      fresh := fun front m back hsplit hle a ha => by
        have hsplit' : declared.map (·.table) ++ made.map (·.table) =
            front.map (·.table) ++ m.table :: back.map (·.table) := by
          rw [← htables, hsplit, List.map_append, List.map_cons]
        refine rel_of_append_eq (R := fun a b => Text.sameFold a b = false) ?_ (List.pairwise_map.mpr hpair) hsplit'
          (by simpa using hle) a.table (List.mem_map_of_mem ha)
        exact List.forall_mem_map.mpr fun a ha => List.forall_mem_map.mpr fun b hb => hcross a ha b hb }

/-- The games under another name and path, each with its host. -/
def matchModel : Model :=
  { tableModel "Match" gameTable [.scalar "Host" "Player" "host_id" "id"] with url := "/matches" }

/-- The games as they are declared, and the players of their table. -/
def matchRegistry : Registry :=
  ⟨[matchModel.addRelation (.collection "Player" "Player" "id" "game_id"),
    tableModel "Player" playerTable
      [⟨"Match", .scalar, "Match", "game_id", "id", "matches"⟩]]⟩

/-- The table of the games makes no second model. -/
theorem isExact_matches : matchRegistry.IsExact [matchModel] [gameTable, playerTable] := by
  have hbuild : Registry.build [matchModel] [gameTable, playerTable] {} = .ok matchRegistry := by decide +kernel
  exact isExact_of_build hbuild

end Registry

end RestTables
