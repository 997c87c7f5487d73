import RestTables.Proofs.Registry.Closure

/-
Module: RestTables.Proofs.Registry.Start
Purpose: When tables alone make a registry. Where their names and their columns are apart nothing but a foreign key can
  stop it: every key between two tables with models becomes a relation of both, and each of these is refused where one
  of the two columns is not shown.
Main exports: Table.IsExposed, Registry.AreApart, Reference.IsShown, Registry.forall_checkRelation_iff,
  Registry.keys_stop_where_hidden
-/

namespace RestTables

open Registry

/-! ## Tables -/

/-- The columns that the key names do not begin with an underscore. -/
def ForeignKey.IsPlain (key : ForeignKey) : Prop :=
  key.column.toList.head? ≠ some '_' ∧ ∀ column ∈ key.targetColumn, column.toList.head? ≠ some '_'

instance (key : ForeignKey) : Decidable key.IsPlain :=
  inferInstanceAs (Decidable (_ ∧ ∀ column ∈ key.targetColumn, column.toList.head? ≠ some '_'))

namespace Table

/-- Clients may know of the column. -/
def Shows (t : Table) (name : String) : Prop := ∃ f ∈ (declaration t).exposed, f.name = name

/-- Clients may know of a key of the table, so that it makes a model. -/
def IsExposed (t : Table) : Prop := ∃ f ∈ (declaration t).exposed, f.isPrimary = true

instance (t : Table) : Decidable t.IsExposed :=
  inferInstanceAs (Decidable (∃ f ∈ (declaration t).exposed, f.isPrimary = true))

variable {t : Table}

theorem mem_exposed_iff {f : Field} :
    f ∈ (declaration t).exposed ↔ f ∈ t.columns ∧ f.name.toList.head? ≠ some '_' := by
  simp [Model.Declaration.exposed, Model.Declaration.exposes, declaration]

/-- Of the columns that are there only those are hidden that begin with an underscore. -/
theorem shows_iff {name : String} (h : name ∈ t.columns.map (·.name)) :
    t.Shows name ↔ name.toList.head? ≠ some '_' := by
  obtain ⟨f, hf, rfl⟩ := List.mem_map.mp h
  constructor
  · rintro ⟨f', hf', hname⟩
    rw [← hname]
    exact (mem_exposed_iff.mp hf').2
  · exact fun hplain => ⟨f, mem_exposed_iff.mpr ⟨hf, hplain⟩, rfl⟩

/-- A table with different columns makes a model, unless its key is missing. -/
theorem build_cases (h : (t.columns.map (·.name)).Nodup) :
    (t.IsExposed ∧ ∃ m, (declaration t).build = .ok m) ∨
      ¬t.IsExposed ∧ (declaration t).build = .error (.missingPrimaryKey (modelName t.name)) := by
  have hapart : Model.Declaration.repeated? [] (declaration t).exposed = none :=
    Model.Declaration.repeated?_eq_none_iff.mpr ⟨h.sublist (List.filter_sublist.map _), by simp⟩
  unfold Model.Declaration.build
  rw [hapart]
  cases hkey : (declaration t).exposed.find? (·.isPrimary) with
  | none =>
    refine .inr ⟨fun ⟨f, hf, hprimary⟩ => ?_, rfl⟩
    exact absurd hprimary (List.find?_eq_none.mp hkey f hf)
  | some f => exact .inl ⟨⟨f, List.mem_of_find?_eq_some hkey, by simpa using List.find?_some hkey⟩, _, rfl⟩

theorem isExposed_iff (h : (t.columns.map (·.name)).Nodup) : t.IsExposed ↔ ∃ m, (declaration t).build = .ok m := by
  rcases build_cases h with ⟨hexposed, hbuild⟩ | ⟨hnot, hbuild⟩
  · exact iff_of_true hexposed hbuild
  · refine iff_of_false hnot fun ⟨m, hm⟩ => ?_
    rw [hbuild] at hm
    cases hm

/-- A model shows the columns of its table that clients may know of. -/
theorem column?_isSome_iff {m : Model} (h : (declaration t).build = .ok m) {name : String} :
    (m.column? name).isSome ↔ t.Shows name := by
  rw [Model.column?, (Model.eq_of_build h).2.1]
  simp [Shows]

end Table

namespace Registry

/-- The paths of the tables' models end differently, and so their names differ too; and no table has two columns of one
name. -/
structure AreApart (tables : List Table) : Prop where
  segments : tables.Pairwise fun t u => Model.lastSegment (declaration t).path ≠ Model.lastSegment (declaration u).path
  columns : ∀ t ∈ tables, (t.columns.map (·.name)).Nodup

/-- Every foreign key names a column of its own table and, if the table that it refers to is there, a column of that. -/
def KeysAreNamed (tables : List Table) : Prop :=
  ∀ t ∈ tables, ∀ key ∈ t.foreignKeys, key.column ∈ t.columns.map (·.name) ∧
    ∃ column ∈ key.targetColumn,
      ∀ u ∈ tables, Text.lower u.name = Text.lower key.targetTable → column ∈ u.columns.map (·.name)

instance (tables : List Table) : Decidable (KeysAreNamed tables) :=
  inferInstanceAs (Decidable (∀ t ∈ tables, ∀ key ∈ t.foreignKeys, _ ∧ ∃ _ ∈ key.targetColumn, _))

/-! ## Models of tables -/

variable {tables : List Table} {models : List Model}

/-- Tables with different columns can be added. -/
theorem exists_addTables (h : ∀ t ∈ tables, (t.columns.map (·.name)).Nodup) (models : List Model) :
    ∃ all, addTables models tables = .ok all := by
  induction tables generalizing models with
  | nil => exact ⟨models, rfl⟩
  | cons t tables ih =>
    obtain ⟨hfirst, hrest⟩ := List.forall_mem_cons.mp h
    unfold addTables
    split
    · exact ih hrest models
    · rcases Table.build_cases hfirst with ⟨-, m, hm⟩ | ⟨-, hm⟩
      · rw [hm]
        exact ih hrest _
      · rw [hm]
        exact ih hrest _

/-- Where the names of tables are apart, whatever the case, each makes its own model if it makes one. -/
theorem addTables_eq (h : ∀ t ∈ tables, (t.columns.map (·.name)).Nodup)
    (hnames : tables.Pairwise fun t u => Text.lower t.name ≠ Text.lower u.name)
    (hnew : ∀ m ∈ models, ∀ t ∈ tables, Text.lower m.table ≠ Text.lower t.name) :
    addTables models tables = .ok (models ++ tables.filterMap fun t => (declaration t).build.toOption) := by
  induction tables generalizing models with
  | nil => exact congrArg Except.ok (List.append_nil models).symm
  | cons t tables ih =>
    obtain ⟨hfirst, hrest⟩ := List.forall_mem_cons.mp h
    obtain ⟨hapart, hnames⟩ := List.pairwise_cons.mp hnames
    have hlater : ∀ m ∈ models, ∀ u ∈ tables, Text.lower m.table ≠ Text.lower u.name :=
      fun m hm u hu => hnew m hm u (List.mem_cons_of_mem t hu)
    have hunknown : (models.any fun m => Text.sameFold m.table t.name) = false := by
      simp only [List.any_eq_false]
      exact fun m hm hsame => hnew m hm t List.mem_cons_self (Text.lower_eq_of_sameFold hsame)
    rw [addTables, hunknown, if_neg Bool.false_ne_true]
    rcases Table.build_cases hfirst with ⟨-, m, hm⟩ | ⟨-, hm⟩
    · -- The model of this table is one more that the later tables differ from.
      have hmade : ∀ n ∈ models ++ [m], ∀ u ∈ tables, Text.lower n.table ≠ Text.lower u.name := by
        refine List.forall_mem_append.mpr ⟨hlater, List.forall_mem_singleton.mpr ?_⟩
        rw [table_of_build hm]
        exact hapart
      rw [List.filterMap_cons]
      simp only [hm, ih hrest hnames hmade, List.append_assoc, Except.toOption]
      rfl
    · rw [List.filterMap_cons]
      simp only [hm, ih hrest hnames hlater, Except.toOption]

/-- What is different for all tables is different for the models that they make. -/
theorem pairwise_of_addTables {key : Model → String} {name : Table → String}
    (hkey : ∀ t m, (declaration t).build = .ok m → key m = name t) (hadded : addTables [] tables = .ok models)
    (h : tables.Pairwise fun t u => name t ≠ name u) : models.Pairwise fun a b => key a ≠ key b := by
  obtain ⟨_, rfl, hmade, -⟩ := exists_append_of_addTables hadded
  obtain ⟨chosen, hbuilt, hchosen⟩ := List.sublistForall₂_iff.mp hmade
  have hsame : models.map key = chosen.map name := forall₂_eq_iff_map_eq.mp (hbuilt.imp fun m t hm => hkey t m hm)
  have hkeys := List.pairwise_map.mpr (h.sublist hchosen)
  rw [← hsame] at hkeys
  exact List.pairwise_map.mp hkeys

/-- The models of tables whose paths end differently have different names. -/
theorem areNamed_of_addTables (h : AreApart tables) (hadded : addTables [] tables = .ok models) : AreNamed models := by
  have htabular : ∀ m ∈ models, IsTabular m := fun m hm => isTabular_of_addTables hadded hm
  have hsegments : models.Pairwise fun a b => a.segment ≠ b.segment :=
    pairwise_of_addTables (fun _ _ hm => congrArg Model.lastSegment (name_and_url_of_build hm).2) hadded h.segments
  refine ⟨htabular, List.Pairwise.imp_of_mem ?_ hsegments, List.Pairwise.imp_of_mem ?_ hsegments⟩
  · intro a b ha hb hne hname
    have hurl : a.url = b.url := by
      rw [(htabular a ha).url_eq, (htabular b hb).url_eq]
      exact congrArg ("/" ++ ·) hname
    exact hne (congrArg Model.lastSegment hurl)
  · intro a b ha hb hne hkey
    rw [segmentKey, segmentKey, (htabular a ha).lower_segment, (htabular b hb).lower_segment] at hkey
    exact hne hkey

/-! ## Relations and their keys -/

variable {refs : List Reference} {ref : Reference} {base base' : List Model} {config : Config}

/-- The relation is one of those that a key gives: at its owner, to the row that it refers to, or at its target, to the
rows whose keys refer to it. -/
inductive Reference.Gives (ref : Reference) (base : List Model) : Nat → Relation → Prop
  | scalar {o t : Model} {name segment : String} (owner : base[ref.owner]? = some o)
    (target : base[ref.target]? = some t) : Gives ref base ref.owner
      ⟨name, .scalar, t.name, ref.key.column, ref.key.targetColumn.getD t.keyField.name, segment⟩
  | collection {o t : Model} {name segment : String} (owner : base[ref.owner]? = some o)
    (target : base[ref.target]? = some t) : Gives ref base ref.target
      ⟨name, .collection, o.name, ref.key.targetColumn.getD t.keyField.name, ref.key.column, segment⟩

theorem exists_getElem?_of_map_eq {f : Model → β} (h : base.map f = base'.map f) {i : Nat} {m : Model}
    (hm : base[i]? = some m) : ∃ m', base'[i]? = some m' ∧ f m' = f m := by
  have hmapped := congrArg (·[i]?) h
  simp only [List.getElem?_map, hm, Option.map_some] at hmapped
  exact Option.map_eq_some_iff.mp hmapped.symm

/-- Only the names and the keys of models matter to that. -/
theorem Reference.Gives.congr {i : Nat} {r : Relation}
    (h : base.map (fun m => (m.name, m.keyField)) = base'.map fun m => (m.name, m.keyField))
    (hgives : ref.Gives base i r) : ref.Gives base' i r := by
  cases hgives with
  | scalar owner target =>
    obtain ⟨o', howner, -⟩ := exists_getElem?_of_map_eq h owner
    obtain ⟨t', htarget, hsame⟩ := exists_getElem?_of_map_eq h target
    rw [Prod.mk.injEq] at hsame
    rw [← hsame.1, ← hsame.2]
    exact .scalar howner htarget
  | collection owner target =>
    obtain ⟨o', howner, hname⟩ := exists_getElem?_of_map_eq h owner
    obtain ⟨t', htarget, hkey⟩ := exists_getElem?_of_map_eq h target
    rw [Prod.mk.injEq] at hname hkey
    rw [← hname.1, ← hkey.2]
    exact .collection howner htarget

/-- What one key adds. -/
theorem gives_of_mem_link {i : Nat} {m : Model} {r : Relation} (hm : (link base ref)[i]? = some m)
    (hr : r ∈ m.relations) : (∃ origin, base[i]? = some origin ∧ r ∈ origin.relations) ∨ ref.Gives base i r := by
  obtain ⟨origin, -, horigin, -, hold | ⟨o, t, ho, ht, hadded⟩⟩ := exists_of_getElem?_link hm hr
  · exact .inl ⟨origin, horigin, hold⟩
  · right
    rcases hadded with ⟨rfl, rfl⟩ | ⟨rfl, rfl⟩
    · exact .scalar ho ht
    · exact .collection ho ht

/-- Every relation was there before or is given by a key. -/
theorem exists_gives_of_mem {i : Nat} {m : Model} {r : Relation} (hm : (refs.foldl link base)[i]? = some m)
    (hr : r ∈ m.relations) :
    (∃ origin, base[i]? = some origin ∧ r ∈ origin.relations) ∨ ∃ ref ∈ refs, ref.Gives base i r := by
  induction refs generalizing base with
  | nil => exact .inl ⟨m, hm, hr⟩
  | cons ref refs ih =>
    rcases ih hm with ⟨stage, hstage, hr⟩ | ⟨later, hlater, hgives⟩
    · exact (gives_of_mem_link hstage hr).imp_right fun hgives => ⟨ref, List.mem_cons_self, hgives⟩
    · exact .inr ⟨later, List.mem_cons_of_mem _ hlater, hgives.congr (map_link (fun _ _ => rfl) base ref)⟩

/-- The models at the two ends of a key show its columns. -/
def Reference.IsShown (ref : Reference) (base : List Model) : Prop :=
  ∃ o t, base[ref.owner]? = some o ∧ base[ref.target]? = some t ∧ (o.column? ref.key.column).isSome ∧
    (t.column? (ref.key.targetColumn.getD t.keyField.name)).isSome

/-! ## Checks -/

variable {g : Registry}

/-- A relation with a target is only refused for one of its columns. -/
theorem exists_of_checkRelation_eq_error {m : Model} {r : Relation} {e : ConfigError}
    (htarget : (g.get? r.target).isSome) (h : g.checkRelation m r = .error e) :
    ∃ model relation column, e = .unknownKey model relation column := by
  unfold checkRelation at h
  split at h
  · next hnone =>
    rw [hnone] at htarget
    cases htarget
  · split at h
    · cases h
      exact ⟨_, _, _, rfl⟩
    · split at h
      · cases h
        exact ⟨_, _, _, rfl⟩
      · cases h

/-- All relations of all models are checked. -/
def checkAll (g : Registry) : Except ConfigError Unit := g.models.forM fun m => m.relations.forM (g.checkRelation m)

theorem checkAll_eq_ok_iff : g.checkAll = .ok () ↔ ∀ m ∈ g.models, ∀ r ∈ m.relations, g.checkRelation m r = .ok () :=
  forM_eq_ok_iff.trans (forall₂_congr fun _ _ => forM_eq_ok_iff)

theorem exists_of_checkAll_eq_error {e : ConfigError} (h : g.checkAll = .error e) :
    ∃ m ∈ g.models, ∃ r ∈ m.relations, g.checkRelation m r = .error e := by
  obtain ⟨m, hm, hfails⟩ := exists_of_forM_eq_error h
  obtain ⟨r, hr, hfails⟩ := exists_of_forM_eq_error hfails
  exact ⟨m, hm, r, hr, hfails⟩

/-- Models with different names make a registry where all their relations pass the check. -/
theorem ofModels_eq (h : HaveApartNames models) : ofModels models = (checkAll ⟨models⟩).map fun _ => ⟨models⟩ := by
  unfold ofModels
  rw [clash?_eq_none_iff.mpr ⟨by simp, h.names⟩, clash?_eq_none_iff.mpr ⟨by simp, h.segments⟩]
  show (checkAll ⟨models⟩ >>= fun _ => Except.ok (⟨models⟩ : Registry)) = _
  cases checkAll ⟨models⟩ <;> rfl

namespace IsLinked

variable (h : IsLinked g config base refs)

include h

theorem haveApartNames : HaveApartNames g.models := by
  rw [h.models_eq]
  exact (haveApartNames_settled_iff refs h.named.tabular).mpr h.named.apart

/-- A model of a table is found by its name. -/
theorem exists_get? {i : Nat} {n : Model} (hn : base[i]? = some n) :
    ∃ m, g.get? n.name = some m ∧ g.models[i]? = some m ∧ m.columns = n.columns ∧ m.keyField = n.keyField := by
  obtain ⟨more, hmore⟩ := grows_foldl_link refs base i n hn
  have hm : g.models[i]? = some (settled config { n with relations := n.relations ++ more }) := by
    rw [h.getElem?, hmore, Option.map_some]
  refine ⟨_, (get?_eq_some_iff h.haveApartNames).mpr ⟨List.mem_of_getElem? hm, ?_⟩, hm, columns_settled _ _,
    keyField_settled _ _⟩
  rw [name_settled]

/-- Every relation of a registry of tables is given by a key. -/
theorem exists_gives {i : Nat} {m : Model} {r : Relation} (hm : g.models[i]? = some m) (hr : r ∈ m.relations) :
    ∃ ref ∈ refs, ref.Gives base i r := by
  rw [h.getElem?] at hm
  obtain ⟨linked, hlinked, rfl⟩ := Option.map_eq_some_iff.mp hm
  rw [relations_settled] at hr
  rcases exists_gives_of_mem hlinked hr with ⟨origin, horigin, hr⟩ | hgives
  · rw [(h.named.isTabular horigin).relations_eq] at hr
    cases hr
  · exact hgives

theorem get?_target_isSome {m : Model} {r : Relation} (hm : m ∈ g.models) (hr : r ∈ m.relations) :
    (g.get? r.target).isSome := by
  obtain ⟨i, hi⟩ := List.mem_iff_getElem?.mp hm
  obtain ⟨ref, -, hgives⟩ := h.exists_gives hi hr
  cases hgives with
  | scalar owner target =>
    obtain ⟨t, ht, -⟩ := h.exists_get? target
    exact Option.isSome_of_eq_some ht
  | collection owner target =>
    obtain ⟨o, ho, -⟩ := h.exists_get? owner
    exact Option.isSome_of_eq_some ho

/-- All relations pass the check exactly where the models at the two ends of every key show its columns. -/
theorem forall_checkRelation_iff :
    (∀ m ∈ g.models, ∀ r ∈ m.relations, g.checkRelation m r = .ok ()) ↔ ∀ ref ∈ refs, ref.IsShown base := by
  constructor
  · intro hpass ref href
    obtain ⟨o, t, name, segment, -, -, ho, ht, hscalar, -⟩ :=
      exists_mem_of_reference href (h.bounds ref href).1 (h.bounds ref href).2
    have hmem : settled config o ∈ g.models := by
      refine List.mem_of_getElem? (i := ref.owner) ?_
      rw [h.getElem?, ho, Option.map_some]
    obtain ⟨t', htarget, hlocal, hremote⟩ :=
      checkRelation_eq_ok_iff.mp (hpass _ hmem _ ((relations_settled config o).symm ▸ hscalar))
    obtain ⟨owner, _, howner, rfl⟩ := exists_of_getElem?_foldl_link ho
    obtain ⟨target, _, htarget', rfl⟩ := exists_of_getElem?_foldl_link ht
    obtain ⟨found, hfound, -, hcolumns, -⟩ := h.exists_get? htarget'
    obtain rfl : found = t' := Option.some.inj (hfound.symm.trans htarget)
    refine ⟨owner, target, howner, htarget', ?_, ?_⟩
    · rwa [Model.column?, columns_settled] at hlocal
    · rwa [Model.column?, hcolumns] at hremote
  · intro hshown m hm r hr
    obtain ⟨i, hi⟩ := List.mem_iff_getElem?.mp hm
    obtain ⟨ref, href, hgives⟩ := h.exists_gives hi hr
    obtain ⟨o, t, ho, ht, howner, htarget⟩ := hshown ref href
    obtain ⟨o', hfoundOwner, hatOwner, hcolumnsOwner, -⟩ := h.exists_get? ho
    obtain ⟨t', hfoundTarget, hatTarget, hcolumnsTarget, -⟩ := h.exists_get? ht
    have hownerShown : (o'.column? ref.key.column).isSome := by rwa [Model.column?, hcolumnsOwner]
    have htargetShown : (t'.column? (ref.key.targetColumn.getD t.keyField.name)).isSome := by
      rwa [Model.column?, hcolumnsTarget]
    -- The collection is checked at the other end of the key, with the two columns exchanged.
    cases hgives with
    | scalar owner target =>
      obtain rfl := Option.some.inj (ht.symm.trans target)
      obtain rfl := Option.some.inj (hatOwner.symm.trans hi)
      exact checkRelation_eq_ok_iff.mpr ⟨t', hfoundTarget, hownerShown, htargetShown⟩
    | collection owner target =>
      obtain rfl := Option.some.inj (ho.symm.trans owner)
      obtain rfl := Option.some.inj (ht.symm.trans target)
      obtain rfl := Option.some.inj (hatTarget.symm.trans hi)
      exact checkRelation_eq_ok_iff.mpr ⟨o', hfoundOwner, htargetShown, hownerShown⟩

end IsLinked

/-! ## Registries of tables -/

theorem build_eq_of_addTables (hadded : addTables [] tables = .ok base) :
    Registry.build [] tables config = ofModels (((references base tables).foldl link base).map (settled config)) := by
  unfold Registry.build
  rw [hadded, List.length_nil]
  exact congrArg (fun linked => ofModels (linked.map (settled config))) (foldl_linkTable tables base)

section Build

variable (h : AreApart tables) (hadded : addTables [] tables = .ok base) (config : Config)

include h hadded

/-- The models of such tables are linked by the keys between them. -/
theorem isLinked_of_addTables :
    IsLinked ⟨((references base tables).foldl link base).map (settled config)⟩ config base
      (references base tables) where
  named := areNamed_of_addTables h hadded
  models_eq := rfl
  bounds _ href := lt_length_of_mem_references href

/-- Such tables make a registry exactly where the columns of every key between models are shown. -/
theorem exists_build_iff :
    (∃ g, Registry.build [] tables config = .ok g) ↔ ∀ ref ∈ references base tables, ref.IsShown base := by
  have hlinked := isLinked_of_addTables h hadded config
  rw [build_eq_of_addTables hadded, ofModels_eq hlinked.haveApartNames, ← hlinked.forall_checkRelation_iff,
    ← checkAll_eq_ok_iff]
  cases checkAll _ with
  | error e => simp [Except.map]
  | ok u => simp [Except.map]

/-- Nothing but a column that is not shown can stop them. -/
theorem exists_unknownKey_of_not_build (hnot : ¬∃ g, Registry.build [] tables config = .ok g) :
    ∃ model relation column, Registry.build [] tables config = .error (.unknownKey model relation column) := by
  have hlinked := isLinked_of_addTables h hadded config
  rw [build_eq_of_addTables hadded, ofModels_eq hlinked.haveApartNames] at hnot ⊢
  cases hchecked : checkAll _ with
  | ok u =>
    rw [hchecked] at hnot
    exact absurd ⟨_, rfl⟩ hnot
  | error e =>
    obtain ⟨m, hm, r, hr, hfails⟩ := exists_of_checkAll_eq_error hchecked
    obtain ⟨model, relation, column, rfl⟩ :=
      exists_of_checkRelation_eq_error (hlinked.get?_target_isSome hm hr) hfails
    exact ⟨model, relation, column, rfl⟩

end Build

/-! ### Tables whose names are apart -/

/-- Where no two models have tables of one name, a table's name leads to its model. -/
theorem indexOfTable?_eq_some_iff (hnames : base.Pairwise fun a b => Text.lower a.table ≠ Text.lower b.table)
    {table : String} {i : Nat} :
    indexOfTable? base table = some i ↔ ∃ m, base[i]? = some m ∧ Text.lower m.table = Text.lower table := by
  -- What is found has the name, and no second model has it.
  have hfound : ∀ k, indexOfTable? base table = some k →
      ∃ m, base[k]? = some m ∧ Text.lower m.table = Text.lower table := by
    intro k hk
    obtain ⟨⟨m, k⟩, hfind, rfl⟩ := Option.map_eq_some_iff.mp hk
    have hmem := List.mem_reverse.mp (List.mem_of_find?_eq_some hfind)
    exact ⟨m, List.mk_mem_zipIdx_iff_getElem?.mp hmem, by simpa using List.find?_some hfind⟩
  refine ⟨hfound i, fun ⟨m, hm, hname⟩ => ?_⟩
  cases hindex : indexOfTable? base table with
  | none =>
    rw [indexOfTable?, Option.map_eq_none_iff, List.find?_eq_none] at hindex
    have hmem := List.mem_reverse.mpr (List.mk_mem_zipIdx_iff_getElem?.mpr hm)
    simpa [hname] using hindex _ hmem
  | some k =>
    obtain ⟨m', hm', hname'⟩ := hfound k hindex
    by_contra hne
    have hik : i ≠ k := fun heq => hne (congrArg some heq.symm)
    exact key_ne_of_pairwise hnames hm hm' hik (hname.trans hname'.symm)

theorem mem_references_iff {ref : Reference} :
    ref ∈ references base tables ↔ ∃ t ∈ tables, ref.key ∈ t.foreignKeys ∧
      indexOfTable? base t.name = some ref.owner ∧ indexOfTable? base ref.key.targetTable = some ref.target := by
  rw [references, List.mem_flatMap]
  refine exists_congr fun t => and_congr_right fun _ => ?_
  obtain ⟨owner, target, key⟩ := ref
  cases howner : indexOfTable? base t.name with
  | none => simp
  | some i =>
    simp only [keyReferences, List.mem_filterMap, Option.map_eq_some_iff, Reference.mk.injEq]
    constructor
    · rintro ⟨k, hk, j, hj, rfl, rfl, rfl⟩
      exact ⟨hk, rfl, hj⟩
    · rintro ⟨hkey, hsame, htarget⟩
      exact ⟨key, hkey, target, htarget, Option.some.inj hsame, rfl, rfl⟩

/-- The models that tables make where their names are apart. -/
theorem mem_filterMap_build_iff {m : Model} :
    m ∈ tables.filterMap (fun t => (declaration t).build.toOption) ↔ ∃ t ∈ tables, (declaration t).build = .ok m := by
  rw [List.mem_filterMap]
  refine exists_congr fun t => and_congr_right fun _ => ?_
  cases (declaration t).build <;> simp [Except.toOption]

section Names

variable (h : AreApart tables) (hnames : tables.Pairwise fun t u => Text.lower t.name ≠ Text.lower u.name)
  (hadded : addTables [] tables = .ok base)

include h hnames hadded

theorem mem_base_iff {m : Model} : m ∈ base ↔ ∃ t ∈ tables, (declaration t).build = .ok m := by
  have hbase : addTables [] tables = .ok ([] ++ _) := addTables_eq h.columns hnames (by simp)
  rw [hadded] at hbase
  rw [Except.ok.inj hbase]
  exact mem_filterMap_build_iff

/-- The model at the place of a table's name is made by the only table of that name. -/
theorem indexOfTable?_eq_some_iff_of_apart {table : String} {i : Nat} {m : Model} (hm : base[i]? = some m) :
    indexOfTable? base table = some i ↔
      ∃ t ∈ tables, (declaration t).build = .ok m ∧ Text.lower t.name = Text.lower table := by
  have htables : base.Pairwise fun a b => Text.lower a.table ≠ Text.lower b.table :=
    pairwise_of_addTables (fun _ _ hm => congrArg Text.lower (table_of_build hm)) hadded hnames
  rw [indexOfTable?_eq_some_iff htables]
  constructor
  · rintro ⟨m', hm', hname⟩
    obtain rfl : m = m' := Option.some.inj (hm.symm.trans hm')
    obtain ⟨t, ht, hbuild⟩ := (mem_base_iff h hnames hadded).mp (List.mem_of_getElem? hm)
    exact ⟨t, ht, hbuild, table_of_build hbuild ▸ hname⟩
  · rintro ⟨t, ht, hbuild, hname⟩
    exact ⟨m, hm, (table_of_build hbuild).symm ▸ hname⟩

/-- The keys between models are those between tables that make models. -/
theorem forall_isShown_iff :
    (∀ ref ∈ references base tables, ref.IsShown base) ↔
      ∀ t ∈ tables, ∀ o, (declaration t).build = .ok o → ∀ key ∈ t.foreignKeys,
        ∀ u ∈ tables, ∀ n, (declaration u).build = .ok n → Text.lower u.name = Text.lower key.targetTable →
          t.Shows key.column ∧ u.Shows (key.targetColumn.getD n.keyField.name) := by
  constructor
  · intro hshown t ht o ho key hkey u hu n hn hname
    obtain ⟨i, hi⟩ := List.mem_iff_getElem?.mp ((mem_base_iff h hnames hadded).mpr ⟨t, ht, ho⟩)
    obtain ⟨j, hj⟩ := List.mem_iff_getElem?.mp ((mem_base_iff h hnames hadded).mpr ⟨u, hu, hn⟩)
    have href : (⟨i, j, key⟩ : Reference) ∈ references base tables :=
      mem_references_iff.mpr ⟨t, ht, hkey,
        (indexOfTable?_eq_some_iff_of_apart h hnames hadded hi).mpr ⟨t, ht, ho, rfl⟩,
        (indexOfTable?_eq_some_iff_of_apart h hnames hadded hj).mpr ⟨u, hu, hn, hname⟩⟩
    obtain ⟨o', n', ho', hn', howner, htarget⟩ := hshown _ href
    obtain rfl : o = o' := Option.some.inj (hi.symm.trans ho')
    obtain rfl : n = n' := Option.some.inj (hj.symm.trans hn')
    exact ⟨(Table.column?_isSome_iff ho).mp howner, (Table.column?_isSome_iff hn).mp htarget⟩
  · intro hshows ref href
    obtain ⟨howner, htarget⟩ := lt_length_of_mem_references href
    obtain ⟨t, ht, hkey, hi, hj⟩ := mem_references_iff.mp href
    have ho := List.getElem?_eq_getElem howner
    have hn := List.getElem?_eq_getElem htarget
    obtain ⟨t', ht', hbuild, hname⟩ := (indexOfTable?_eq_some_iff_of_apart h hnames hadded ho).mp hi
    obtain ⟨u, hu, hbuild', hname'⟩ := (indexOfTable?_eq_some_iff_of_apart h hnames hadded hn).mp hj
    -- Tables that make models differ in their names, so the table of the key is the one found.
    obtain rfl : t' = t := by
      have hsymm : Std.Symm fun t u : Table => Text.lower t.name ≠ Text.lower u.name := ⟨fun _ _ hne => hne.symm⟩
      by_contra hne
      exact List.Pairwise.forall hnames ht' ht hne hname
    obtain ⟨hcolumn, hremote⟩ := hshows t' ht' _ hbuild ref.key hkey u hu _ hbuild' hname'
    exact ⟨_, _, ho, hn, (Table.column?_isSome_iff hbuild).mpr hcolumn,
      (Table.column?_isSome_iff hbuild').mpr hremote⟩

end Names

/-- What a foreign key can do to a start from tables alone. Every key between two models must be on and to columns that
are shown; otherwise the start is refused for an unknown key, and it is refused for nothing else. Where keys name
columns that are there and the names of tables are apart, whatever the case, a start is refused exactly for the keys
between exposed tables of which a column begins with an underscore. -/
theorem keys_stop_where_hidden {tables : List Table} (h : AreApart tables) (config : Config) :
    (∃ models, addTables [] tables = .ok models ∧
      ((∃ g, Registry.build [] tables config = .ok g) ↔ ∀ ref ∈ references models tables, ref.IsShown models)) ∧
    ((∃ g, Registry.build [] tables config = .ok g) ∨
      ∃ model relation column, Registry.build [] tables config = .error (.unknownKey model relation column)) ∧
    (KeysAreNamed tables → (tables.Pairwise fun t u => Text.lower t.name ≠ Text.lower u.name) →
      ((∃ g, Registry.build [] tables config = .ok g) ↔
        ∀ t ∈ tables, t.IsExposed → ∀ key ∈ t.foreignKeys, ∀ u ∈ tables, u.IsExposed →
          Text.lower u.name = Text.lower key.targetTable → key.IsPlain)) := by
  obtain ⟨models, hadded⟩ := exists_addTables h.columns []
  have hbuild := exists_build_iff h hadded config
  refine ⟨⟨models, hadded, hbuild⟩, ?_, fun hnamed hnames => ?_⟩
  · by_cases hstarts : ∃ g, Registry.build [] tables config = .ok g
    · exact .inl hstarts
    · exact .inr (exists_unknownKey_of_not_build h hadded config hstarts)
  · -- Where a column is there, it is shown if it does not begin with an underscore.
    rw [hbuild, forall_isShown_iff h hnames hadded]
    constructor
    · intro hshows t ht hexposed key hkey u hu hexposed' hname
      obtain ⟨o, ho⟩ := (Table.isExposed_iff (h.columns t ht)).mp hexposed
      obtain ⟨n, hn⟩ := (Table.isExposed_iff (h.columns u hu)).mp hexposed'
      obtain ⟨hown, column, hcolumn, htheirs⟩ := hnamed t ht key hkey
      obtain ⟨hfirst, hsecond⟩ := hshows t ht o ho key hkey u hu n hn hname
      rw [Option.mem_def.mp hcolumn, Option.getD_some] at hsecond
      refine ⟨(Table.shows_iff hown).mp hfirst, fun column' hcolumn' => ?_⟩
      obtain rfl := Option.mem_unique hcolumn hcolumn'
      exact (Table.shows_iff (htheirs u hu hname)).mp hsecond
    · intro hplain t ht o ho key hkey u hu n hn hname
      obtain ⟨hown, column, hcolumn, htheirs⟩ := hnamed t ht key hkey
      have hexposed := (Table.isExposed_iff (h.columns t ht)).mpr ⟨o, ho⟩
      have hexposed' := (Table.isExposed_iff (h.columns u hu)).mpr ⟨n, hn⟩
      obtain ⟨hfirst, hsecond⟩ := hplain t ht hexposed key hkey u hu hexposed' hname
      rw [Option.mem_def.mp hcolumn, Option.getD_some]
      exact ⟨(Table.shows_iff hown).mpr hfirst, (Table.shows_iff (htheirs u hu hname)).mpr (hsecond column hcolumn)⟩

/-! ### Authors and books -/

/-- A table with a number for a key, another column and the foreign keys of that. -/
def plainTable (name column : String) (foreignKeys : List ForeignKey) : Table :=
  { name
    comment := none
    columns := [(Field.new "id" .integer).primaryKey, .new column .integer]
    foreignKeys }

/-- Authors, and books that refer to them by a column of some name. -/
def bookTables (column : String) : List Table :=
  [plainTable "author" "born" [], plainTable "book" column [⟨column, "author", some "id"⟩]]

/-- Both become models. -/
theorem books_start : ∃ g, Registry.build [] (bookTables "author_id") {} = .ok g := by
  have hapart : AreApart (bookTables "author_id") := ⟨by decide +kernel, by decide +kernel⟩
  have hnamed : KeysAreNamed (bookTables "author_id") := by decide +kernel
  exact ((keys_stop_where_hidden hapart {}).2.2 hnamed (by decide +kernel)).mpr (by decide +kernel)

/-- Streets in a city, and a table whose name is that of the streets in small letters alone. -/
def streetTables : List Table :=
  [plainTable "city" "founded" [], plainTable "ß" "city_id" [⟨"city_id", "city", some "id"⟩], plainTable "ẞ" "width" []]

/-- A key on a column that is not shown stops the start, and so does a key that is taken for one of another table: the
names of these two tables differ, but not in small letters, while the names and paths of their models do. -/
theorem hidden_key_stops_books :
    (AreApart (bookTables "_author_id") ∧ KeysAreNamed (bookTables "_author_id") ∧
      Registry.build [] (bookTables "_author_id") {} = .error (.unknownKey "Author" "Book" "_author_id")) ∧
    AreApart streetTables ∧ KeysAreNamed streetTables ∧
      Registry.build [] streetTables {} = .error (.unknownKey "City" "ẞ" "city_id") := by
  refine ⟨⟨⟨?_, ?_⟩, ?_, ?_⟩, ⟨?_, ?_⟩, ?_, ?_⟩ <;> decide +kernel

end Registry

end RestTables
