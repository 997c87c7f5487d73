import RestTables.Proofs.Registry.Origin

/-
Module: RestTables.Proofs.Registry.References
Purpose: The foreign keys between models. Linking tables is linking their keys one after another, each of which adds a
  relation at both of its ends and leaves all else as it was.
Main exports: Registry.Reference, Registry.references, Registry.link, Registry.foldl_linkTable, Registry.getElem?_link,
  Registry.exists_stage
-/

namespace RestTables.Registry

/-- A foreign key from one model to another; the models are given by their places. -/
structure Reference where
  owner : Nat
  target : Nat
  key : ForeignKey
deriving Repr, DecidableEq

/-- The foreign keys of a model that lead to models. -/
def keyReferences (models : List Model) (owner : Nat) (keys : List ForeignKey) : List Reference :=
  keys.filterMap fun key => (indexOfTable? models key.targetTable).map fun target => ⟨owner, target, key⟩

/-- The foreign keys between the models of tables, in order. -/
def references (models : List Model) (tables : List Table) : List Reference :=
  tables.flatMap fun t =>
    match indexOfTable? models t.name with
    | none => []
    | some owner => keyReferences models owner t.foreignKeys

/-- The models with both relations of a key. -/
def link (models : List Model) (ref : Reference) : List Model :=
  match models[ref.owner]?, models[ref.target]? with
  | some o, some t =>
    (models.modify ref.owner (·.addRelation (relationsOf o t ref.key).1)).modify ref.target
      (·.addRelation (relationsOf o t ref.key).2)
  | _, _ => models

/-! ## Places of tables -/

section Places

variable {models models' : List Model}

theorem indexOfTable?_eq (models : List Model) (table : String) :
    indexOfTable? models table =
      ((models.map (·.table)).zipIdx.reverse.find? fun (t, _) => Text.lower t == Text.lower table).map (·.2) := by
  rw [indexOfTable?, List.zipIdx_map, ← List.map_reverse, List.find?_map, Option.map_map]
  rfl

/-- Only the tables of models matter to their places. -/
theorem indexOfTable?_congr (h : models.map (·.table) = models'.map (·.table)) (table : String) :
    indexOfTable? models table = indexOfTable? models' table := by
  rw [indexOfTable?_eq, indexOfTable?_eq, h]

theorem references_congr (h : models.map (·.table) = models'.map (·.table)) (tables : List Table) :
    references models tables = references models' tables := by
  simp only [references, keyReferences, indexOfTable?_congr h]

theorem lt_length_of_indexOfTable? {table : String} {i : Nat} (h : indexOfTable? models table = some i) :
    i < models.length := by
  obtain ⟨⟨m, k⟩, hfind, rfl⟩ := Option.map_eq_some_iff.mp h
  have hmem := List.mem_reverse.mp (List.mem_of_find?_eq_some hfind)
  exact (List.mem_zipIdx' hmem).1

/-- Both ends of a key are models. -/
theorem lt_length_of_mem_references {tables : List Table} {ref : Reference} (h : ref ∈ references models tables) :
    ref.owner < models.length ∧ ref.target < models.length := by
  obtain ⟨t, -, href⟩ := List.mem_flatMap.mp h
  split at href
  · cases href
  · next owner howner =>
    obtain ⟨key, -, hkey⟩ := List.mem_filterMap.mp href
    obtain ⟨target, htarget, rfl⟩ := Option.map_eq_some_iff.mp hkey
    exact ⟨lt_length_of_indexOfTable? howner, lt_length_of_indexOfTable? htarget⟩

end Places

/-! ## Linking -/

section Linking

variable {models : List Model} {ref : Reference}

/-- What does not depend on relations stays as it is. -/
theorem map_modify_addRelation {f : Model → β} (hf : ∀ m r, f (Model.addRelation m r) = f m) (models : List Model)
    (i : Nat) (r : Relation) : (models.modify i (·.addRelation r)).map f = models.map f := by
  apply List.ext_getElem?
  intro k
  rw [List.getElem?_map, List.getElem?_map, List.getElem?_modify]
  cases models[k]? with
  | none => rfl
  | some m =>
    by_cases hk : i = k
    · simp [hk, hf]
    · simp [hk]

theorem map_link {f : Model → β} (hf : ∀ m r, f (Model.addRelation m r) = f m) (models : List Model)
    (ref : Reference) : (link models ref).map f = models.map f := by
  unfold link
  split
  · rw [map_modify_addRelation hf, map_modify_addRelation hf]
  · rfl

theorem map_foldl_link {f : Model → β} (hf : ∀ m r, f (Model.addRelation m r) = f m) (refs : List Reference)
    (models : List Model) : (refs.foldl link models).map f = models.map f := by
  induction refs generalizing models with
  | nil => rfl
  | cons ref refs ih => rw [List.foldl_cons, ih, map_link hf]

theorem length_foldl_link (refs : List Reference) (models : List Model) :
    (refs.foldl link models).length = models.length := by
  have hmap := congrArg List.length (map_foldl_link (f := fun _ => ()) (fun _ _ => rfl) refs models)
  rwa [List.length_map, List.length_map] at hmap

theorem linkKey_eq (owner : Nat) (models : List Model) (key : ForeignKey) :
    linkKey owner models key = (keyReferences models owner [key]).foldl link models := by
  unfold linkKey
  cases htarget : indexOfTable? models key.targetTable with
  | none =>
    have hreferences : keyReferences models owner [key] = [] := by simp [keyReferences, htarget]
    rw [hreferences]
    rfl
  | some target =>
    have hreferences : keyReferences models owner [key] = [⟨owner, target, key⟩] := by simp [keyReferences, htarget]
    rw [hreferences]
    rfl

theorem foldl_linkKey (owner : Nat) (keys : List ForeignKey) (models : List Model) :
    keys.foldl (linkKey owner) models = (keyReferences models owner keys).foldl link models := by
  induction keys generalizing models with
  | nil => rfl
  | cons key keys ih =>
    have hsplit : keyReferences models owner (key :: keys) =
        keyReferences models owner [key] ++ keyReferences models owner keys :=
      List.filterMap_append (l := [key])
    have hlater : keyReferences (linkKey owner models key) owner keys = keyReferences models owner keys := by
      rw [linkKey_eq]
      simp only [keyReferences, indexOfTable?_congr (map_foldl_link (fun _ _ => rfl) _ models)]
    rw [List.foldl_cons, ih, hlater, hsplit, List.foldl_append, linkKey_eq]

/-- Linking tables is linking the keys between their models. -/
theorem foldl_linkTable (tables : List Table) (models : List Model) :
    tables.foldl (linkTable 0) models = (references models tables).foldl link models := by
  induction tables generalizing models with
  | nil => rfl
  | cons t tables ih =>
    have hfirst : linkTable 0 models t = (references models [t]).foldl link models := by
      unfold linkTable
      cases howner : indexOfTable? models t.name with
      | none =>
        have hreferences : references models [t] = [] := by simp [references, howner]
        rw [hreferences]
        rfl
      | some owner =>
        have hreferences : references models [t] = keyReferences models owner t.foreignKeys := by
          simp [references, howner]
        rw [hreferences]
        exact foldl_linkKey owner t.foreignKeys models
    -- Linking keeps the tables of models, so later keys have the same ends.
    have hlater : references (linkTable 0 models t) tables = references models tables := by
      rw [hfirst]
      exact references_congr (map_foldl_link (fun _ _ => rfl) _ models) tables
    have hsplit : references models (t :: tables) = references models [t] ++ references models tables := by
      rw [← List.singleton_append]
      exact List.flatMap_append
    rw [List.foldl_cons, ih, hlater, hsplit, List.foldl_append, hfirst]

/-- Linking changes nothing but relations. -/
theorem map_foldl_linkTable {f : Model → β} (hf : ∀ m r, f (Model.addRelation m r) = f m) (n : Nat)
    (tables : List Table) (models : List Model) : (tables.foldl (linkTable n) models).map f = models.map f := by
  have htable : ∀ models t, (linkTable n models t).map f = models.map f := by
    intro models t
    unfold linkTable
    split
    · rfl
    · split
      · rfl
      · rw [foldl_linkKey, map_foldl_link hf]
  induction tables generalizing models with
  | nil => rfl
  | cons t tables ih => rw [List.foldl_cons, ih, htable]

/-- The relations that a key adds at a place: one at each of its ends, two where they are the same. -/
def Reference.added (ref : Reference) (relations : Relation × Relation) (i : Nat) : List Relation :=
  (if ref.owner = i then [relations.1] else []) ++ if ref.target = i then [relations.2] else []

theorem getElem?_link {o t : Model} (ho : models[ref.owner]? = some o) (ht : models[ref.target]? = some t) (i : Nat) :
    (link models ref)[i]? = models[i]?.map fun m =>
      { m with relations := m.relations ++ ref.added (relationsOf o t ref.key) i } := by
  simp only [link, ho, ht, List.getElem?_modify]
  cases models[i]? with
  | none => rfl
  | some m =>
    by_cases howner : ref.owner = i <;> by_cases htarget : ref.target = i <;>
      simp [Reference.added, Model.addRelation, howner, htarget]

/-- A key between models that are there is linked, and any other changes nothing. -/
theorem link_cases (models : List Model) (ref : Reference) :
    link models ref = models ∨ ∃ o t, models[ref.owner]? = some o ∧ models[ref.target]? = some t := by
  cases ho : models[ref.owner]? with
  | none => exact .inl (by simp only [link, ho])
  | some o =>
    cases ht : models[ref.target]? with
    | none => exact .inl (by simp only [link, ho, ht])
    | some t => exact .inr ⟨o, t, rfl, rfl⟩

theorem Reference.mem_added_iff {relations : Relation × Relation} {i : Nat} {r : Relation} :
    r ∈ ref.added relations i ↔ ref.owner = i ∧ r = relations.1 ∨ ref.target = i ∧ r = relations.2 := by
  rw [Reference.added, List.mem_append, List.mem_ite_nil_right, List.mem_ite_nil_right, List.mem_singleton,
    List.mem_singleton]

/-- Every relation once a key is linked was there before, or it is one of the two that the key adds to the models at its
ends. -/
theorem exists_of_getElem?_link {i : Nat} {m : Model} {r : Relation} (hm : (link models ref)[i]? = some m)
    (hr : r ∈ m.relations) :
    ∃ origin more, models[i]? = some origin ∧ m = { origin with relations := origin.relations ++ more } ∧
      (r ∈ origin.relations ∨ ∃ o t, models[ref.owner]? = some o ∧ models[ref.target]? = some t ∧
        (ref.owner = i ∧ r = (relationsOf o t ref.key).1 ∨ ref.target = i ∧ r = (relationsOf o t ref.key).2)) := by
  rcases link_cases models ref with hsame | ⟨o, t, ho, ht⟩
  · rw [hsame] at hm
    exact ⟨m, [], hm, by rw [List.append_nil], .inl hr⟩
  · rw [getElem?_link ho ht] at hm
    obtain ⟨origin, horigin, rfl⟩ := Option.map_eq_some_iff.mp hm
    refine ⟨origin, _, horigin, rfl, ?_⟩
    exact (List.mem_append.mp hr).imp_right fun hadded => ⟨o, t, ho, ht, Reference.mem_added_iff.mp hadded⟩

/-- The models of one list are those of another, with more relations behind. -/
def Grows (before after : List Model) : Prop :=
  ∀ (i : Nat) (m : Model), before[i]? = some m → ∃ more, after[i]? = some { m with relations := m.relations ++ more }

theorem Grows.refl (models : List Model) : Grows models models := fun i m h => ⟨[], by rw [List.append_nil, h]⟩

theorem Grows.trans {before middle after : List Model} (h : Grows before middle) (h' : Grows middle after) :
    Grows before after := by
  intro i m hm
  obtain ⟨more, hmiddle⟩ := h i m hm
  obtain ⟨more', hafter⟩ := h' i _ hmiddle
  exact ⟨more ++ more', by rw [hafter, List.append_assoc]⟩

theorem grows_link (models : List Model) (ref : Reference) : Grows models (link models ref) := by
  rcases link_cases models ref with hsame | ⟨o, t, ho, ht⟩
  · rw [hsame]
    exact .refl models
  · intro i m hm
    exact ⟨_, by rw [getElem?_link ho ht, hm]; rfl⟩

theorem grows_foldl_link (refs : List Reference) (models : List Model) : Grows models (refs.foldl link models) := by
  induction refs generalizing models with
  | nil => exact .refl models
  | cons ref refs ih => exact (grows_link models ref).trans (ih _)

/-- Every model once keys are linked is one of those before, with more relations. -/
theorem exists_of_getElem?_foldl_link {refs : List Reference} {i : Nat} {m : Model}
    (hm : (refs.foldl link models)[i]? = some m) :
    ∃ origin more, models[i]? = some origin ∧ m = { origin with relations := origin.relations ++ more } := by
  have hlt : i < models.length := by
    rw [← length_foldl_link refs models]
    exact (List.getElem?_eq_some_iff.mp hm).1
  have horigin := List.getElem?_eq_getElem hlt
  obtain ⟨more, hmore⟩ := grows_foldl_link refs models i _ horigin
  exact ⟨_, more, horigin, Option.some.inj (hm.symm.trans hmore)⟩

/-- Each key is linked at some stage, and what it adds stays. -/
theorem exists_stage {refs : List Reference} (href : ref ∈ refs) (models : List Model) :
    ∃ stage, Grows models stage ∧ Grows (link stage ref) (refs.foldl link models) := by
  induction refs generalizing models with
  | nil => cases href
  | cons k refs ih =>
    rcases List.mem_cons.mp href with rfl | href
    · exact ⟨models, .refl models, grows_foldl_link refs _⟩
    · obtain ⟨stage, hbefore, hafter⟩ := ih href (link models k)
      exact ⟨stage, (grows_link models k).trans hbefore, hafter⟩

/-- What a key adds at both ends is there in the end. -/
theorem exists_added {refs : List Reference} (href : ref ∈ refs) (howner : ref.owner < models.length)
    (htarget : ref.target < models.length) :
    ∃ (o t : Model) (more more' : List Relation), (ref.owner = ref.target → o = t) ∧
      (refs.foldl link models)[ref.owner]? = some { o with
        relations := o.relations ++ ref.added (relationsOf o t ref.key) ref.owner ++ more } ∧
      (refs.foldl link models)[ref.target]? = some { t with
        relations := t.relations ++ ref.added (relationsOf o t ref.key) ref.target ++ more' } := by
  obtain ⟨stage, hbefore, hafter⟩ := exists_stage href models
  have hpresent : ∀ i, i < models.length → ∃ m, stage[i]? = some m := by
    intro i hi
    obtain ⟨more, hm⟩ := hbefore i _ (List.getElem?_eq_getElem hi)
    exact ⟨_, hm⟩
  obtain ⟨o, ho⟩ := hpresent _ howner
  obtain ⟨t, ht⟩ := hpresent _ htarget
  -- At its stage the key adds its two relations, and what later keys add stands behind them.
  have hlinked := getElem?_link ho ht
  obtain ⟨more, hmore⟩ := hafter ref.owner _ (by rw [hlinked, ho]; rfl)
  obtain ⟨more', hmore'⟩ := hafter ref.target _ (by rw [hlinked, ht]; rfl)
  refine ⟨o, t, more, more', fun hloop => ?_, hmore, hmore'⟩
  rw [hloop, ht] at ho
  exact (Option.some.inj ho).symm

end Linking

end RestTables.Registry
