import RestTables.Proofs.Json.Members
import RestTables.Proofs.Registry.Labels

/-
Module: RestTables.Proofs.Registry.Reach
Purpose: When every foreign key can be followed from both of its ends. Relations are given names and parts of paths as
  their keys come, and what is given to a second or later relation between two models is not looked up again.
Main exports: Model.Finds, Registry.Navigable, Registry.Unambiguous, Registry.navigable_iff_unambiguous
-/

namespace RestTables

/-! ## Finding relations -/

namespace Model

/-- The parts of a path that follow the relations are different, whatever the case. -/
def DistinctSegments (m : Model) : Prop :=
  m.relations.Pairwise fun r s => Text.sameFold r.segment s.segment = false

/-- The relation is one of the model's and is found by its name and by its part of a path. -/
structure Finds (m : Model) (r : Relation) : Prop where
  mem : r ∈ m.relations
  named : m.related? r.name = some r
  follows : m.relationBySegment? r.segment = some r

variable {m : Model} {r : Relation}

theorem relationBySegment?_of_mem (h : m.DistinctSegments) (hr : r ∈ m.relations) :
    m.relationBySegment? r.segment = some r := by
  unfold DistinctSegments at h
  unfold relationBySegment?
  generalize m.relations = relations at h hr
  induction relations with
  | nil => cases hr
  | cons s relations ih =>
    obtain ⟨hfirst, hrest⟩ := List.pairwise_cons.mp h
    rcases List.mem_cons.mp hr with rfl | hr
    · exact List.find?_cons_of_pos (Text.equalFold_refl _)
    · rw [List.find?_cons_of_neg (by simp [hfirst r hr])]
      exact ih hrest hr

theorem finds_of_mem (hnames : m.DistinctRelations) (hsegments : m.DistinctSegments) (hr : r ∈ m.relations) :
    m.Finds r := ⟨hr, related?_of_mem hnames hr, relationBySegment?_of_mem hsegments hr⟩

/-- Every link of a row is that to itself or has the name of a relation and follows it. -/
theorem finds_of_mem_links (hnames : m.DistinctRelations) (hsegments : m.DistinctSegments) {row : Row} {uri : String}
    (huri : m.recordUri row = some uri) {entry : String × Json} (h : entry ∈ m.links row) :
    entry = ("self", .str uri) ∨ ∃ r, m.Finds r ∧ entry = (r.name, .str (uri ++ "/" ++ r.segment)) := by
  rw [links, huri] at h
  rcases Json.Object.mem_insert h with heq | h
  · exact .inl heq
  · obtain ⟨r, hr, heq⟩ := List.mem_map.mp (Json.Object.mem_of_mem_ofMembers h)
    exact .inr ⟨r, finds_of_mem hnames hsegments hr, heq.symm⟩

/-- Every relation has its link. -/
theorem mem_links (hnames : m.DistinctRelations) (hself : ∀ r ∈ m.relations, r.name ≠ "self") {row : Row}
    {uri : String} (huri : m.recordUri row = some uri) (hr : r ∈ m.relations) :
    (r.name, .str (uri ++ "/" ++ r.segment)) ∈ m.links row := by
  rw [links, huri]
  apply Json.Object.mem_insert_of_ne _ (hself r hr)
  apply Json.Object.mem_ofMembers
  · rw [List.map_map]
    refine List.pairwise_map.mpr (hnames.imp fun {a b} hab hname => ?_)
    have hname : a.name = b.name := hname
    have hsame : Text.sameFold a.name b.name = true := by
      rw [hname]
      exact Text.equalFold_refl _
    exact Bool.false_ne_true (hab.symm.trans hsame)
  · exact List.mem_map_of_mem hr

end Model

namespace Registry

/-- Both ends of a foreign key can be reached: its owner finds a relation to the row that the key refers to, and its
target finds one to the rows whose keys refer to it. -/
def Reaches (g : Registry) (ref : Reference) : Prop :=
  ∃ (o t : Model) (name segment back backSegment : String),
    g.models[ref.owner]? = some o ∧ g.models[ref.target]? = some t ∧
      o.Finds ⟨name, .scalar, t.name, ref.key.column, ref.key.targetColumn.getD t.keyField.name, segment⟩ ∧
        t.Finds ⟨back, .collection, o.name, ref.key.targetColumn.getD t.keyField.name, ref.key.column, backSegment⟩

/-- Every foreign key between the models of tables can be followed from both ends, as every relation has a name and a
part of a path of its own, and so can every link of a row. -/
structure Navigable (g : Registry) (tables : List Table) : Prop where
  names : ∀ m ∈ g.models, m.DistinctRelations
  segments : ∀ m ∈ g.models, m.DistinctSegments
  keys : ∀ ref ∈ references g.models tables, g.Reaches ref
  links : ∀ m ∈ g.models, ∀ row uri, m.recordUri row = some uri → ∀ entry ∈ m.links row,
    entry = ("self", .str uri) ∨ ∃ r, m.Finds r ∧ entry = (r.name, .str (uri ++ "/" ++ r.segment))
  linked : ∀ m ∈ g.models, ∀ row uri, m.recordUri row = some uri → ∀ r ∈ m.relations,
    (r.name, .str (uri ++ "/" ++ r.segment)) ∈ m.links row

/-- The names that foreign keys give do not meet. No key leads from a model to itself. Of the keys between two models,
whichever has them, those behind the first have columns that differ in more than their case; and where a model has a
column with the name of the other one, the first key's column differs from theirs too. -/
structure Unambiguous (g : Registry) (refs : List Reference) : Prop where
  ne : ∀ ref ∈ refs, ref.owner ≠ ref.target
  columns : ∀ (i p : Nat) (m n : Model), g.models[i]? = some m → g.models[p]? = some n →
    (columnsBetween refs i p).tail.Pairwise (fun c d => Text.lower c ≠ Text.lower d) ∧
      (Shadows m n → (columnsBetween refs i p).Pairwise fun c d => Text.sameFold c d = false)

/-! ## Registries of tables -/

/-- A key from a model to itself gives it two relations of one name. -/
theorem not_distinctRelations_of_loop {models : List Model} {refs : List Reference} {ref : Reference}
    (href : ref ∈ refs) (hlt : ref.owner < models.length) (hloop : ref.owner = ref.target) :
    ∃ m, (refs.foldl link models)[ref.owner]? = some m ∧ ¬ m.DistinctRelations := by
  obtain ⟨o, t, more, -, hsame, hfinal, -⟩ := exists_added href hlt (hloop ▸ hlt)
  obtain rfl := hsame hloop
  refine ⟨_, hfinal, fun hdistinct => ?_⟩
  rw [Reference.added, if_pos rfl, if_pos hloop.symm] at hdistinct
  have hpair := ((List.pairwise_append.mp hdistinct).1 |> List.pairwise_append.mp).2.1
  have hapart := List.rel_of_pairwise_cons hpair (List.mem_singleton_self _)
  exact Bool.false_ne_true (hapart.symm.trans (Text.equalFold_refl _))

/-- A key gives a relation to both of its ends. -/
theorem exists_mem_of_reference {models : List Model} {refs : List Reference} {ref : Reference} (href : ref ∈ refs)
    (howner : ref.owner < models.length) (htarget : ref.target < models.length) :
    ∃ (o t : Model) (name segment back backSegment : String),
      (refs.foldl link models)[ref.owner]? = some o ∧ (refs.foldl link models)[ref.target]? = some t ∧
        ⟨name, .scalar, t.name, ref.key.column, ref.key.targetColumn.getD t.keyField.name, segment⟩ ∈ o.relations ∧
        ⟨back, .collection, o.name, ref.key.targetColumn.getD t.keyField.name, ref.key.column, backSegment⟩ ∈
          t.relations := by
  obtain ⟨o, t, more, more', -, howner, htarget⟩ := exists_added href howner htarget
  have hscalar : (relationsOf o t ref.key).1 ∈ ref.added (relationsOf o t ref.key) ref.owner := by
    simp [Reference.added]
  have hcollection : (relationsOf o t ref.key).2 ∈ ref.added (relationsOf o t ref.key) ref.target := by
    simp [Reference.added]
  exact ⟨_, _, (relationsOf o t ref.key).1.name, (relationsOf o t ref.key).1.segment,
    (relationsOf o t ref.key).2.name, (relationsOf o t ref.key).2.segment, howner, htarget,
    List.mem_append_left _ (List.mem_append_right _ hscalar),
    List.mem_append_left _ (List.mem_append_right _ hcollection)⟩

/-- A model with its path and its verbs settled. -/
def settled (config : Config) (m : Model) : Model :=
  (m.mount config.baseUrl).restrict config.readOnly config.fetchEnabled

section Settled

variable (config : Config) (m : Model)

@[simp] theorem name_settled : (settled config m).name = m.name := by simp only [settled, Model.mount, Model.restrict]

@[simp] theorem table_settled : (settled config m).table = m.table := by
  simp only [settled, Model.mount, Model.restrict]

@[simp] theorem columns_settled : (settled config m).columns = m.columns := by
  simp only [settled, Model.mount, Model.restrict]

@[simp] theorem keyField_settled : (settled config m).keyField = m.keyField := by
  simp only [settled, Model.mount, Model.restrict]

@[simp] theorem relations_settled : (settled config m).relations = m.relations := by
  simp only [settled, Model.mount, Model.restrict]

theorem segment_settled {m : Model} (h : '/' ∈ m.url.toList) : (settled config m).segment = m.segment := by
  have hurl : (settled config m).segment = (m.mount config.baseUrl).segment := by
    simp only [settled, Model.restrict, Model.segment]
  rw [hurl, segment_mount h]

theorem distinctRelations_settled : (settled config m).DistinctRelations ↔ m.DistinctRelations := by
  rw [Model.DistinctRelations, Model.DistinctRelations, relations_settled]

theorem isLabelled_settled {base : List Model} {columns : Nat → List String} {m : Model}
    (h : IsLabelled base m columns) : IsLabelled base (settled config m) columns := by
  obtain ⟨htargets, hlabels⟩ := h
  have hcolumn : ∀ name, (settled config m).column? name = m.column? name := fun name => by
    rw [Model.column?, Model.column?, columns_settled]
  have hshadows : ∀ n, Shadows (settled config m) n = Shadows m n := fun n => by rw [Shadows, Shadows, hcolumn]
  have hsame : ∀ n cs, labels (settled config m) n cs = labels m n cs := by
    intro n cs
    cases cs with
    | nil => rfl
    | cons c cs => simp only [labels, hshadows]
  constructor
  · rw [relations_settled]
    exact htargets
  · intro p n hn
    rw [relations_settled, hsame]
    exact hlabels p n hn

end Settled

/-- The models of a registry are some that tables make, linked by keys between them. -/
structure IsLinked (g : Registry) (config : Config) (base : List Model) (refs : List Reference) : Prop where
  named : AreNamed base
  models_eq : g.models = (refs.foldl link base).map (settled config)
  bounds : ∀ ref ∈ refs, ref.owner < base.length ∧ ref.target < base.length

/-- What is settled in the end and does not depend on relations is as the tables make it. -/
theorem map_settled_foldl_link {config : Config} {f : Model → β} (hadd : ∀ m r, f (Model.addRelation m r) = f m)
    (refs : List Reference) {base : List Model}
    (hsettled : ∀ m ∈ refs.foldl link base, f (settled config m) = f m) :
    ((refs.foldl link base).map (settled config)).map f = base.map f := by
  have hsame : (refs.foldl link base).map (f ∘ settled config) = (refs.foldl link base).map f :=
    List.map_congr_left hsettled
  rw [List.map_map, hsame, map_foldl_link hadd]

theorem pairwise_ne_of_map_eq {f : α → β} {l l' : List α} (hsame : l.map f = l'.map f)
    (h : l.Pairwise fun a b => f a ≠ f b) : l'.Pairwise fun a b => f a ≠ f b := by
  have hkeys : (l.map f).Pairwise (· ≠ ·) := List.pairwise_map.mpr h
  rw [hsame] at hkeys
  exact List.pairwise_map.mp hkeys

/-- Linking and settling leave the names of models as far apart as they were. -/
theorem haveApartNames_settled_iff {config : Config} (refs : List Reference) {base : List Model}
    (htabular : ∀ n ∈ base, IsTabular n) :
    HaveApartNames ((refs.foldl link base).map (settled config)) ↔ HaveApartNames base := by
  have hslash : ∀ m ∈ refs.foldl link base, '/' ∈ m.url.toList := by
    intro m hm
    obtain ⟨i, hi⟩ := List.mem_iff_getElem?.mp hm
    obtain ⟨origin, more, horigin, rfl⟩ := exists_of_getElem?_foldl_link hi
    exact (htabular origin (List.mem_of_getElem? horigin)).slash_mem_url
  have hnames : ((refs.foldl link base).map (settled config)).map nameKey = base.map nameKey :=
    map_settled_foldl_link (fun _ _ => rfl) refs fun m _ => by rw [nameKey, nameKey, name_settled]
  have hsegments : ((refs.foldl link base).map (settled config)).map segmentKey = base.map segmentKey :=
    map_settled_foldl_link (fun _ _ => rfl) refs fun m hm => by
      rw [segmentKey, segmentKey, segment_settled config (hslash m hm)]
  exact ⟨fun h => ⟨pairwise_ne_of_map_eq hnames h.names, pairwise_ne_of_map_eq hsegments h.segments⟩,
    fun h => ⟨pairwise_ne_of_map_eq hnames.symm h.names, pairwise_ne_of_map_eq hsegments.symm h.segments⟩⟩

/-- Linking and settling leave the places of tables as they were. -/
theorem references_settled (config : Config) (refs : List Reference) (base : List Model) (tables : List Table) :
    references ((refs.foldl link base).map (settled config)) tables = references base tables :=
  references_congr (map_settled_foldl_link (fun _ _ => rfl) refs fun m _ => table_settled config m) tables

theorem exists_isLinked_of_build {tables : List Table} {config : Config} {g : Registry}
    (h : Registry.build [] tables config = .ok g) : ∃ base, IsLinked g config base (references g.models tables) := by
  obtain ⟨base, hadded, hmodels⟩ := exists_of_bind_eq_ok h
  rw [List.length_nil, foldl_linkTable tables base] at hmodels
  obtain ⟨rfl, -⟩ := eq_of_ofModels hmodels
  have htabular : ∀ n ∈ base, IsTabular n := fun n hn => isTabular_of_addTables hadded hn
  have hapart := (haveApartNames_settled_iff _ htabular).mp (haveApartNames_of_ofModels hmodels)
  have hreferences := references_settled config (references base tables) base tables
  refine ⟨base, ⟨htabular, hapart⟩, ?_, ?_⟩
  · exact congrArg (fun refs => (refs.foldl link base).map (settled config)) hreferences.symm
  · exact fun ref href => lt_length_of_mem_references (hreferences ▸ href)

namespace IsLinked

variable {g : Registry} {config : Config} {base : List Model} {refs : List Reference} {i : Nat} {m n : Model}
  (h : IsLinked g config base refs)

include h

theorem getElem? (i : Nat) : g.models[i]? = (refs.foldl link base)[i]?.map (settled config) := by
  rw [h.models_eq, List.getElem?_map]

/-- The models stand where those of the tables do, under the same names. -/
theorem exists_base_iff (i : Nat) (name : String) :
    (∃ n, base[i]? = some n ∧ n.name = name) ↔ ∃ m, g.models[i]? = some m ∧ m.name = name := by
  constructor
  · rintro ⟨n, hn, rfl⟩
    obtain ⟨more, hm⟩ := grows_foldl_link refs base i n hn
    refine ⟨settled config { n with relations := n.relations ++ more }, ?_, name_settled config _⟩
    rw [h.getElem?, hm, Option.map_some]
  · rintro ⟨m, hm, rfl⟩
    rw [h.getElem?] at hm
    obtain ⟨m', hm', rfl⟩ := Option.map_eq_some_iff.mp hm
    obtain ⟨origin, more, horigin, rfl⟩ := exists_of_getElem?_foldl_link hm'
    exact ⟨origin, horigin, (name_settled config _).symm⟩

variable (hne : ∀ ref ∈ refs, ref.owner ≠ ref.target)

include hne

theorem isBetween : ∀ ref ∈ refs, IsBetween base.length ref :=
  fun ref href => ⟨(h.bounds ref href).1, (h.bounds ref href).2, hne ref href⟩

/-- A model's relations have the labels for the keys between it and its partners. -/
theorem isLabelled (hm : g.models[i]? = some m) : IsLabelled base m (columnsBetween refs i) := by
  rw [h.getElem?] at hm
  obtain ⟨m', hm', rfl⟩ := Option.map_eq_some_iff.mp hm
  exact isLabelled_settled config (isLabelled_foldl_link h.named (h.isBetween hne) hm')

theorem distinct_iff (hm : g.models[i]? = some m) :
    m.DistinctRelations ∧ m.DistinctSegments ↔ ∀ (p : Nat) (n : Model), g.models[p]? = some n →
      (columnsBetween refs i p).tail.Pairwise (fun c d => Text.lower c ≠ Text.lower d) ∧
        (Shadows m n → (columnsBetween refs i p).Pairwise fun c d => Text.sameFold c d = false) := by
  refine ((h.isLabelled hne hm).distinct_iff h.named).trans ⟨fun hall p n hn => ?_, fun hall p n hn => ?_⟩
  · obtain ⟨n', hn', hname⟩ := (h.exists_base_iff p n.name).mpr ⟨n, hn, rfl⟩
    have hcolumns := hall p n' hn'
    rw [Shadows, hname] at hcolumns
    exact hcolumns
  · obtain ⟨n', hn', hname⟩ := (h.exists_base_iff p n.name).mp ⟨n, hn, rfl⟩
    have hcolumns := hall p n' hn'
    rw [Shadows, hname] at hcolumns
    exact hcolumns

omit hne in
/-- All relations are apart exactly where the names that keys give do not meet. -/
theorem forall_distinct_iff :
    (∀ m ∈ g.models, m.DistinctRelations ∧ m.DistinctSegments) ↔ g.Unambiguous refs := by
  constructor
  · intro hdistinct
    have hne : ∀ ref ∈ refs, ref.owner ≠ ref.target := by
      intro ref href hloop
      obtain ⟨m, hm, hnot⟩ := not_distinctRelations_of_loop href (h.bounds ref href).1 hloop
      have hmem : settled config m ∈ g.models := by
        rw [h.models_eq]
        exact List.mem_map_of_mem (List.mem_of_getElem? hm)
      exact hnot ((distinctRelations_settled config m).mp (hdistinct _ hmem).1)
    exact ⟨hne, fun i p m n hm hn => (h.distinct_iff hne hm).mp (hdistinct m (List.mem_of_getElem? hm)) p n hn⟩
  · rintro ⟨hne, hcolumns⟩ m hm
    obtain ⟨i, hi⟩ := List.mem_iff_getElem?.mp hm
    exact (h.distinct_iff hne hi).mpr fun p n hn => hcolumns i p m n hi hn

end IsLinked

/-- No relation has the name of a row's link to itself. -/
theorem IsLabelled.name_ne_self {base : List Model} {m : Model} {columns : Nat → List String}
    (h : IsLabelled base m columns) (hbase : AreNamed base) {r : Relation} (hr : r ∈ m.relations) :
    r.name ≠ "self" := by
  obtain ⟨p, n, hn, htarget⟩ := h.targets r hr
  have hlabel := isLabel_of_mem_labels (h.label_mem hn hr htarget)
  intro hself
  rcases hlabel.name with hname | ⟨c, hname⟩
  · have hhead : n.name = "self" := hname.symm.trans hself
    exact (hbase.isTabular hn).head?_ne (by rw [hhead]; decide)
  · have htext : "self" = n.name ++ "_" ++ c := hself.symm.trans hname
    have hunder : '_' ∈ "self".toList := by
      rw [htext, Text.toList_append_underscore]
      simp
    exact absurd hunder (by decide)

/-- Every foreign key between tables can be followed from both ends exactly where the names that keys give do not
meet. -/
theorem navigable_iff_unambiguous {tables : List Table} {config : Config} {g : Registry}
    (h : Registry.build [] tables config = .ok g) :
    g.Navigable tables ↔ g.Unambiguous (references g.models tables) := by
  obtain ⟨base, hlinked⟩ := exists_isLinked_of_build h
  rw [← hlinked.forall_distinct_iff]
  -- Paths that can be followed have names of their own; that these are enough is what is left.
  refine ⟨fun hnavigable m hm => ⟨hnavigable.names m hm, hnavigable.segments m hm⟩, fun hdistinct => ?_⟩
  have hunambiguous := hlinked.forall_distinct_iff.mp hdistinct
  refine
    { names := fun m hm => (hdistinct m hm).1
      segments := fun m hm => (hdistinct m hm).2
      keys := fun ref href => ?_
      links := fun m hm row uri huri entry hentry =>
        Model.finds_of_mem_links (hdistinct m hm).1 (hdistinct m hm).2 huri hentry
      linked := fun m hm row uri huri r hr => ?_ }
  · obtain ⟨o, t, name, segment, back, backSegment, ho, ht, hscalar, hcollection⟩ :=
      exists_mem_of_reference href (hlinked.bounds ref href).1 (hlinked.bounds ref href).2
    have ho' : g.models[ref.owner]? = some (settled config o) := by rw [hlinked.getElem?, ho, Option.map_some]
    have ht' : g.models[ref.target]? = some (settled config t) := by rw [hlinked.getElem?, ht, Option.map_some]
    obtain ⟨honames, hosegments⟩ := hdistinct _ (List.mem_of_getElem? ho')
    obtain ⟨htnames, htsegments⟩ := hdistinct _ (List.mem_of_getElem? ht')
    refine ⟨_, _, name, segment, back, backSegment, ho', ht', Model.finds_of_mem honames hosegments ?_,
      Model.finds_of_mem htnames htsegments ?_⟩
    · rw [relations_settled, name_settled, keyField_settled]
      exact hscalar
    · rw [relations_settled, name_settled, keyField_settled]
      exact hcollection
  · obtain ⟨i, hi⟩ := List.mem_iff_getElem?.mp hm
    -- The link to the record itself was put first, and is lost where a relation has its name.
    have hself : ∀ r ∈ m.relations, r.name ≠ "self" := fun r hr =>
      (hlinked.isLabelled hunambiguous.ne hi).name_ne_self hlinked.named hr
    exact Model.mem_links (hdistinct m hm).1 hself huri hr

/-! ## Games and nodes -/

/-- Games, each with the player who hosts it. -/
def gameTable : Table :=
  { name := "game"
    comment := none
    columns := [(Field.new "id" .integer).primaryKey, .new "host_id" .integer]
    foreignKeys := [⟨"host_id", "player", none⟩] }

/-- Players, each with the game that they play. -/
def playerTable : Table :=
  { name := "player"
    comment := none
    columns := [(Field.new "id" .integer).primaryKey, .new "game_id" .integer]
    foreignKeys := [⟨"game_id", "game", none⟩] }

/-- A model as its table makes it, with relations. -/
def tableModel (name : String) (t : Table) (relations : List Relation) : Model :=
  { (default : Model) with
    name
    table := t.name
    url := "/" ++ t.name
    collectionSuffix := "List"
    columns := t.columns
    keyField := (Field.new "id" .integer).primaryKey
    relations
    methods := Verb.all }

/-- Both tables, linked. -/
def gameRegistry : Registry :=
  ⟨[tableModel "Game" gameTable
      [.scalar "Player" "Player" "host_id" "id", .collection "Player_game_id" "Player" "id" "game_id"],
    tableModel "Player" playerTable
      [.collection "Game" "Game" "id" "host_id", .scalar "Game_game_id" "Game" "game_id" "id"]]⟩

/-- From a game one gets to its host and to its players, and back. -/
theorem navigable_games : gameRegistry.Navigable [gameTable, playerTable] := by
  have hbuild : Registry.build [] [gameTable, playerTable] {} = .ok gameRegistry := by decide +kernel
  have hreferences : references gameRegistry.models [gameTable, playerTable] =
      [⟨0, 1, ⟨"host_id", "player", none⟩⟩, ⟨1, 0, ⟨"game_id", "game", none⟩⟩] := by decide +kernel
  refine (navigable_iff_unambiguous hbuild).mpr ⟨?_, ?_⟩
  · rw [hreferences]
    decide
  · rw [hreferences]
    intro i p m n hm hn
    have hcolumns : ∀ i < 2, ∀ p < 2, (columnsBetween [⟨0, 1, ⟨"host_id", "player", none⟩⟩,
        ⟨1, 0, ⟨"game_id", "game", none⟩⟩] i p).tail.Pairwise fun c d => Text.lower c ≠ Text.lower d := by
      decide +kernel
    have hshadows : ∀ m ∈ gameRegistry.models, ∀ n ∈ gameRegistry.models, ¬ Shadows m n := by decide +kernel
    refine ⟨hcolumns i (List.getElem?_eq_some_iff.mp hm).1 p (List.getElem?_eq_some_iff.mp hn).1, fun hsame => ?_⟩
    exact absurd hsame (hshadows m (List.mem_of_getElem? hm) n (List.mem_of_getElem? hn))

/-- Nodes of a tree, each with its parent. -/
def nodeTable : Table :=
  { name := "node"
    comment := none
    columns := [(Field.new "id" .integer).primaryKey, .new "parent_id" .integer]
    foreignKeys := [⟨"parent_id", "node", none⟩] }

/-- The registry of nodes. -/
def nodeRegistry : Registry :=
  ⟨[tableModel "Node" nodeTable
      [.scalar "Node" "Node" "parent_id" "id", .collection "Node" "Node" "id" "parent_id"]]⟩

/-- The relation to the parent of a node and the one to its children have the same name, so the latter is not found. -/
theorem not_navigable_nodes :
    Registry.build [] [nodeTable] {} = .ok nodeRegistry ∧ ¬ nodeRegistry.Navigable [nodeTable] := by
  refine ⟨by decide +kernel, fun h => ?_⟩
  have hnames := h.names _ (List.mem_singleton_self _)
  have hpair := List.rel_of_pairwise_cons hnames (List.mem_singleton_self _)
  exact absurd hpair (by decide)

end Registry

end RestTables
