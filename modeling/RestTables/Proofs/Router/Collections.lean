import RestTables.Proofs.Router.SelfLinks

/-
Module: RestTables.Proofs.Router.Collections
Purpose: Where the path that a model tells leads to. It leads to the collection of the model where it is one part below
  a base without holes, the part is neither empty nor the name of the document and means itself when it is read, and
  the index is not there instead; and then the requests that read it are answered by the service of the model. It leads
  elsewhere in all other cases.
Main exports: App.LeadsToCollection, App.IsOpen, App.indexHides_iff_of_isPlain, App.find?_segment_iff,
  App.respond_of_leadsToCollection, App.collection_found_iff
-/

namespace RestTables

/-! ## Paths of models -/

namespace Registry

variable {declared : List Model} {tables : List Table} {config : Config} {g : Registry} {m : Model}

theorem exists_path_eq (d : Model.Declaration) : ∃ rest, d.path.toList = '/' :: rest := by
  simp only [Model.Declaration.path]
  split
  · next hhead => exact ⟨_, List.eq_cons_of_mem_head? hhead⟩
  · exact ⟨_, String.toList_append⟩

/-- The path of a registered model begins below the base. -/
theorem exists_url_eq (h : Registry.build declared tables config = .ok g)
    (hdeclared : ∀ o ∈ declared, ∃ d : Model.Declaration, d.build = .ok o) (hm : m ∈ g.models) :
    ∃ rest, m.url.toList = Text.trimEndOf '/' config.baseUrl.toList ++ '/' :: rest := by
  obtain ⟨origin, horigin, hurl⟩ := exists_origin_url h hm
  obtain ⟨d, hd⟩ : ∃ d : Model.Declaration, d.build = .ok origin := by
    rcases horigin with ho | ⟨t, -, ht⟩
    · exact hdeclared origin ho
    · exact ⟨_, ht⟩
  obtain ⟨rest, hrest⟩ := exists_path_eq d
  rw [(name_and_url_of_build hd).2, hrest] at hurl
  exact ⟨rest, hurl⟩

end Registry

/-- A part of a path that holds a slash as it is written holds one when it is read. -/
theorem Route.slash_mem_of_decodePart {part : String × String} {s : String} (h : decodePart part = .ok s)
    (hslash : '/' ∈ part.2.toList) : '/' ∈ s.toList := by
  unfold decodePart at h
  split at h
  · next decoded hdecoded =>
    cases h
    have hbyte : 47 ∈ Text.Utf8.encode part.2.toList := List.mem_flatMap.mpr ⟨'/', hslash, by decide⟩
    rw [String.toList_ofList]
    exact Text.Utf8.slash_mem_of_decode? hdecoded (Text.Form.slash_mem_percentDecode hbyte)
  · cases h

/-- The place of collections takes one name. -/
theorem Place.route_collection_eq_ok_iff {captures : Captures} {resource : String} :
    Place.collection.route captures = .ok (.collection resource) ↔
      ∃ part, captures = [part] ∧ Route.decodePart part = .ok resource := by
  have hroute : Place.collection.route captures = captures.mapM Route.decodePart >>= Place.collection.named := rfl
  rw [hroute]
  constructor
  · intro h
    obtain ⟨names, hnames, hnamed⟩ := exists_of_bind_eq_ok h
    rw [mapM_eq_ok_iff] at hnames
    -- as many names are read as there are captures, and the place takes one
    cases hnames with
    | nil => cases hnamed
    | @cons part _ _ _ hpart hrest =>
      cases hrest with
      | nil =>
        cases hnamed
        exact ⟨part, rfl, hpart⟩
      | cons _ _ => cases hnamed
  · rintro ⟨part, rfl, hpart⟩
    rw [List.mapM_cons, hpart]
    rfl

namespace App

variable {a : App} {path : String} {captures : Captures}

/-! ## What is found -/

/-- The entrances that no other one is more exact than. -/
def mostExact (fitting : List (Entrance × Captures)) : List (Entrance × Captures) :=
  fitting.filter fun v => !fitting.any fun w => w.1.pattern.isMoreExact v.1.pattern

/-- A GET request is for the first of them. -/
theorem find?_get (a : App) (path : String) :
    a.find? "GET" path = (mostExact (a.fitting path)).head?.map fun v => (v.1.place, v.2) := by
  have hfirst : ∀ exact : List (Entrance × Captures),
      ((exact.find? fun v => v.1.place.answers "GET") <|> exact.head?) = exact.head? := by
    intro exact
    cases exact with
    | nil => rfl
    | cons v exact =>
      simp only [List.find?_cons, Place.answers_get]
      rfl
  exact congrArg (Option.map _) (hfirst _)

/-- What is found is at an entrance that the path fits, and that no other such entrance is more exact than. -/
theorem exists_of_find?_get {place : Place} (h : a.find? "GET" path = some (place, captures)) :
    ∃ e ∈ a.entrances, e.place = place ∧ e.pattern.fit? path.toList = some captures ∧
      ∀ w ∈ a.entrances, (w.pattern.fit? path.toList).isSome → w.pattern.isMoreExact e.pattern = false := by
  rw [find?_get, Option.map_eq_some_iff] at h
  obtain ⟨v, hv, hplace⟩ := h
  cases hplace
  obtain ⟨hfits, hexact⟩ := List.mem_filter.mp (List.mem_of_head? hv)
  obtain ⟨e, he, hmap⟩ := List.mem_filterMap.mp hfits
  obtain ⟨captures, hcaptures, rfl⟩ := Option.map_eq_some_iff.mp hmap
  refine ⟨e, he, rfl, hcaptures, fun w hw hfit => ?_⟩
  obtain ⟨others, hothers⟩ := Option.isSome_iff_exists.mp hfit
  have hmem : (w, others) ∈ a.fitting path :=
    List.mem_filterMap.mpr ⟨w, hw, Option.map_eq_some_iff.mpr ⟨others, hothers, rfl⟩⟩
  simp only [Bool.not_eq_true', List.any_eq_false, Bool.not_eq_true] at hexact
  exact hexact _ hmem

/-- The way to the index. -/
def indexEntrance (a : App) : Entrance := a.entrance a.config.resourcesUrl .index

/-- The way to collections. -/
def collectionEntrance (a : App) : Entrance := a.entrance "/\x7bresource\x7d" .collection

/-- The way to the document. -/
def documentEntrance (a : App) : Entrance := a.entrance "/openapi.json" .document

theorem documentEntrance_mem (a : App) : a.documentEntrance ∈ a.entrances := List.mem_append_right _ List.mem_cons_self

theorem eq_collectionEntrance {e : Entrance} (he : e ∈ a.entrances) (hplace : e.place = .collection) :
    e = a.collectionEntrance := by
  rcases List.mem_append.mp he with he | he
  · split at he
    · rw [List.mem_singleton.mp he] at hplace
      cases hplace
    · cases he
  · simp only [List.mem_cons, List.not_mem_nil, or_false] at he
    rcases he with rfl | rfl | rfl | rfl
    · cases hplace
    · rfl
    · cases hplace
    · cases hplace

/-- The index is found at a path in place of a collection: the path fits the way to the index, and the way to
collections is not more exact. -/
def IndexHides (a : App) (path : String) : Prop :=
  a.config.resourcesUrlEnabled = true ∧ (a.indexEntrance.pattern.fit? path.toList).isSome = true ∧
    a.collectionEntrance.pattern.isMoreExact a.indexEntrance.pattern = false

instance (a : App) (path : String) : Decidable (a.IndexHides path) := inferInstanceAs (Decidable (_ ∧ _ ∧ _))

theorem pattern_collectionEntrance (hbase : PathPattern.IsPlain a.base) :
    a.collectionEntrance.pattern = a.base.map .char ++ [.char '/', .segment "resource"] :=
  pattern_entrance_of_isPlain hbase (by decide) _

/-- Below a base with holes a collection has more than one name, or its name holds a slash. -/
theorem isPlain_of_fit? {rest : List Char} {part : String × String} (hpath : path.toList = a.base ++ '/' :: rest)
    (hfit : a.collectionEntrance.pattern.fit? path.toList = some [part]) (hslash : '/' ∉ part.2.toList) :
    PathPattern.IsPlain a.base := by
  by_contra hbase
  rw [hpath, collectionEntrance, pattern_entrance a (by decide)] at hfit
  exact hslash (PathPattern.slash_mem_of_fit? hbase hfit)

section Part

variable (hbase : PathPattern.IsPlain a.base) {part : String} (hne : part ≠ "") (hslash : '/' ∉ part.toList)
  (hpath : path.toList = a.base ++ '/' :: part.toList)

include hbase hpath

theorem fit?_documentEntrance :
    a.documentEntrance.pattern.fit? path.toList = if part = "openapi.json" then some [] else none := by
  have hpattern : a.documentEntrance.pattern = (a.base ++ "/openapi.json".toList).map .char := by
    rw [List.map_append]
    exact pattern_entrance_of_isPlain hbase (by decide) _
  have hiff : a.base ++ '/' :: part.toList = a.base ++ "/openapi.json".toList ↔ part = "openapi.json" := by
    rw [List.append_cancel_left_eq, ← String.toList_inj]
    exact ⟨fun heq => (List.cons.inj heq).2, fun heq => congrArg ('/' :: ·) heq⟩
  rw [hpattern, hpath, PathPattern.fit?_chars, if_congr hiff rfl rfl]

theorem fit?_collectionEntrance_iff :
    a.collectionEntrance.pattern.fit? path.toList = some captures ↔
      part ≠ "" ∧ '/' ∉ part.toList ∧ captures = [("resource", part)] := by
  have hne : part.toList ≠ [] ↔ part ≠ "" := by simp
  rw [pattern_collectionEntrance hbase, hpath, PathPattern.fit?_chars_append, PathPattern.fit?, if_pos rfl,
    PathPattern.fit?_last_segment_iff, String.ofList_toList, hne]

include hne

/-- An index at a path without holes is found in place of the collection with that path. -/
theorem indexHides_iff_of_isPlain (hindex : PathPattern.IsPlain a.config.resourcesUrl.toList) :
    a.IndexHides path ↔ a.config.resourcesUrlEnabled = true ∧ a.config.resourcesUrl.toList = '/' :: part.toList := by
  obtain ⟨c, rest, hpart⟩ := List.exists_cons_of_ne_nil (show part.toList ≠ [] by simpa using hne)
  have hmounted : path.toList = a.mounted a.config.resourcesUrl ↔
      a.config.resourcesUrl.toList = '/' :: part.toList := by
    rw [hpath]
    unfold mounted
    split
    · next hroot =>
      -- a slash alone is the base itself, which is shorter than all paths of collections
      rw [hroot.1, hpart]
      simp
    · rw [List.append_cancel_left_eq, eq_comm]
  have hplain : PathPattern.IsPlain (a.mounted a.config.resourcesUrl) := by
    unfold mounted
    split
    · exact hbase
    · exact List.forall_mem_append.mpr ⟨hbase, hindex⟩
  have hpattern : a.indexEntrance.pattern = (a.mounted a.config.resourcesUrl).map .char := by
    have hread := PathPattern.ofMarks_append hplain []
    rw [List.append_nil] at hread
    rw [indexEntrance, entrance, PathPattern.ofText, String.toList_ofList, hread]
    exact List.append_nil _
  rw [IndexHides, hpattern, PathPattern.fit?_chars, ← hmounted]
  refine and_congr_right fun _ => ⟨fun h => ?_, fun h => ?_⟩
  · by_contra hne
    simp [hne] at h
  · rw [if_pos h, ← h, hpath, pattern_collectionEntrance hbase, List.map_append,
      PathPattern.isMoreExact_chars_append, hpart]
    exact ⟨rfl, rfl⟩

include hslash

/-- The places of rows are deeper. -/
theorem fit?_deeper {place : Place} {rest : PathPattern} {pattern : String} (hne' : pattern ≠ "/")
    (hpattern : PathPattern.ofText pattern = .char '/' :: .segment "resource" :: .char '/' :: rest) :
    (a.entrance pattern place).pattern.fit? path.toList = none := by
  have hpart : part.toList ≠ [] := by simpa using hne
  have hend : part.toList = part.toList ++ [] := (List.append_nil _).symm
  rw [pattern_entrance_of_isPlain hbase hne', hpattern, hpath, PathPattern.fit?_chars_append, PathPattern.fit?,
    if_pos rfl, hend, PathPattern.fit?_segment hpart hslash (by simp)]
  rfl

/-- One part below the base fits the way to collections and, perhaps, the way to the index. -/
theorem fitting_segment (hdocument : part ≠ "openapi.json") :
    a.fitting path =
      (if a.config.resourcesUrlEnabled then [a.indexEntrance] else []).filterMap
        (fun e => (e.pattern.fit? path.toList).map fun captures => (e, captures)) ++
      [(a.collectionEntrance, [("resource", part)])] := by
  have hnot : a.documentEntrance.pattern.fit? path.toList = none := by
    rw [fit?_documentEntrance hbase hpath, if_neg hdocument]
  have hitem : (a.entrance "/\x7bresource\x7d/\x7bid\x7d" .item).pattern.fit? path.toList = none :=
    fit?_deeper hbase hne hslash hpath (by decide) rfl
  have hsubresource : (a.entrance "/\x7bresource\x7d/\x7bid\x7d/\x7bsegment\x7d" .subresource).pattern.fit?
      path.toList = none := fit?_deeper hbase hne hslash hpath (by decide) rfl
  have hentrances : a.entrances = (if a.config.resourcesUrlEnabled then [a.indexEntrance] else []) ++
      [a.documentEntrance, a.collectionEntrance, a.entrance "/\x7bresource\x7d/\x7bid\x7d" .item,
        a.entrance "/\x7bresource\x7d/\x7bid\x7d/\x7bsegment\x7d" .subresource] := rfl
  rw [fitting, hentrances, List.filterMap_append]
  simp only [List.filterMap_cons, List.filterMap_nil, hnot, hitem, hsubresource,
    (fit?_collectionEntrance_iff hbase hpath).mpr ⟨hne, hslash, rfl⟩, Option.map_none, Option.map_some]

omit hne hslash in
/-- The name of the document is written out where there is a hole for names. -/
theorem find?_document_ne (hdocument : part = "openapi.json") :
    a.find? "GET" path ≠ some (.collection, captures) := by
  intro hfind
  obtain ⟨e, he, hplace, -, hexact⟩ := exists_of_find?_get hfind
  rw [eq_collectionEntrance he hplace] at hexact
  have hmore : a.documentEntrance.pattern.isMoreExact a.collectionEntrance.pattern = true := by
    have hpattern : a.documentEntrance.pattern = a.base.map .char ++ PathPattern.ofText "/openapi.json" :=
      pattern_entrance_of_isPlain hbase (by decide) _
    rw [hpattern, pattern_collectionEntrance hbase, PathPattern.isMoreExact_chars_append]
    rfl
  have hfits : (a.documentEntrance.pattern.fit? path.toList).isSome := by
    rw [fit?_documentEntrance hbase hpath, if_pos hdocument]
    rfl
  rw [hexact _ a.documentEntrance_mem hfits] at hmore
  cases hmore

/-- Where it is not the name of the document, only the index can be there instead of a collection. -/
theorem find?_segment_iff_of_ne (hdocument : part ≠ "openapi.json") :
    a.find? "GET" path = some (.collection, captures) ↔ captures = [("resource", part)] ∧ ¬ a.IndexHides path := by
  have honly : mostExact [(a.collectionEntrance, [("resource", part)])] =
      [(a.collectionEntrance, [("resource", part)])] := by
    simp [mostExact]
  have hcollection : (some (a.collectionEntrance.place, [("resource", part)]) = some (.collection, captures)) ↔
      captures = [("resource", part)] := by
    simp [collectionEntrance, entrance, eq_comm]
  rw [find?_get, fitting_segment hbase hne hslash hpath hdocument]
  unfold IndexHides
  cases a.config.resourcesUrlEnabled with
  | false => simpa [honly] using hcollection
  | true =>
    cases hfit : a.indexEntrance.pattern.fit? path.toList with
    | none => simpa [hfit, honly] using hcollection
    | some others =>
      -- The index comes first where no pattern is more exact than the other, as it was registered first.
      cases hmore : a.collectionEntrance.pattern.isMoreExact a.indexEntrance.pattern with
      | false =>
        have hplace : a.indexEntrance.place = .index := rfl
        simp [hfit, hmore, mostExact, hplace]
      | true =>
        have hless := PathPattern.isMoreExact_asymm hmore
        simpa [hfit, hmore, hless, mostExact] using hcollection

/-- One part below the base leads to a collection, unless it is the name of the document or the index is there. -/
theorem find?_segment_iff :
    a.find? "GET" path = some (.collection, captures) ↔
      captures = [("resource", part)] ∧ part ≠ "openapi.json" ∧ ¬ a.IndexHides path := by
  by_cases hdocument : part = "openapi.json"
  · exact iff_of_false (find?_document_ne hbase hpath hdocument) fun h => h.2.1 hdocument
  · rw [find?_segment_iff_of_ne hbase hne hslash hpath hdocument, and_congr_right_iff]
    exact fun _ => (and_iff_right hdocument).symm

end Part

/-! ## Collections that are found -/

/-- A GET request for the path is given to the collection of the model. -/
def LeadsToCollection (a : App) (path : String) (m : Model) : Prop :=
  ∃ captures resource, a.find? "GET" path = some (.collection, captures) ∧
    Place.collection.route captures = .ok (.collection resource) ∧ a.registry.bySegment? resource = some m

/-- What the collection of a model answers. -/
def collectionOf (a : App) (m : Model) (r : Request) : Handler Reply := do
  let verb ← Handler.ofExcept (requireVerb m r)
  return stripHead verb (← collection (a.serviceOf m) verb r)

/-- The path of the model is one part below a base without holes. The part is neither empty nor the name of the
document, it means the model when it is read, and the index is not there. -/
structure IsOpen (a : App) (m : Model) : Prop where
  isPlain : PathPattern.IsPlain a.base
  url_eq : m.url.toList = a.base ++ '/' :: m.segment.toList
  ne_empty : m.segment ≠ ""
  ne_document : m.segment ≠ "openapi.json"
  decoded : ∃ resource, Route.decodePart ("resource", m.segment) = .ok resource ∧
    Text.lower resource = Text.lower m.segment
  not_hidden : ¬ a.IndexHides m.url

section Found

variable {m : Model} {r : Request}

theorem not_leadsToCollection {place : Place} (h : a.find? "GET" path = some (place, captures))
    (hplace : place ≠ .collection) : ¬ a.LeadsToCollection path m := by
  rintro ⟨_, _, hfind, -⟩
  rw [h] at hfind
  cases hfind
  exact hplace rfl

theorem respond_of_leadsToCollection (hmethod : r.method = "GET") (h : a.LeadsToCollection r.target.path m) :
    a.respond r = sendResult (a.collectionOf m r) := by
  obtain ⟨captures, resource, hfind, hroute, hmodel⟩ := h
  have hserve : a.handle (.collection resource) r = a.collectionOf m r := by
    simp only [handle, serve, locate, hmodel]
    cases hverb : requireVerb m r with
    | error e | ok verb =>
      simp only [collectionOf, hverb]
      rfl
  rw [respond_of_find? hmethod hfind hroute, hserve]

/-- A request without arguments lists the rows. -/
theorem collectionOf_getRequest (hget : m.allows .get = true) :
    a.collectionOf m (getRequest path) = (a.serviceOf m).list [] [] := by
  simp only [collectionOf, requireVerb_getRequest hget]
  change ((a.serviceOf m).list [] [] >>= fun reply => pure reply) = _
  rw [bind_pure]

end Found

variable {declared : List Model} {tables : List Table} {config : Config} {g : Registry} {m : Model} {b : Backend}

theorem leadsToCollection_iff_isOpen (hbuild : Registry.build declared tables config = .ok g)
    (hdeclared : ∀ o ∈ declared, ∃ d : Model.Declaration, d.build = .ok o) (hm : m ∈ g.models) :
    (⟨g, config, b⟩ : App).LeadsToCollection m.url m ↔ (⟨g, config, b⟩ : App).IsOpen m := by
  have hapart := Registry.haveApartNames_of_build hbuild
  have hplain : '/' ∉ m.segment.toList := fun hslash => (Registry.mem_of_mem_lastSegment hslash).2 rfl
  constructor
  · rintro ⟨captures, resource, hfind, hroute, hmodel⟩
    obtain ⟨part, rfl, hpart⟩ := Place.route_collection_eq_ok_iff.mp hroute
    obtain ⟨-, hlower⟩ := (Registry.bySegment?_eq_some_iff hapart).mp hmodel
    obtain ⟨rest, hurl⟩ : ∃ rest, m.url.toList = (⟨g, config, b⟩ : App).base ++ '/' :: rest :=
      Registry.exists_url_eq hbuild hdeclared hm
    obtain ⟨e, he, hplace, hfit, -⟩ := exists_of_find?_get hfind
    rw [eq_collectionEntrance he hplace] at hfit
    have hname : '/' ∉ part.2.toList := by
      -- it would be read, and so be in the small form of the end of a path
      intro hslash
      have hread := Route.slash_mem_of_decodePart hpart hslash
      rw [← Text.mem_lower_iff (by decide), ← hlower, Text.mem_lower_iff (by decide)] at hread
      exact hplain hread
    have hbase : PathPattern.IsPlain (⟨g, config, b⟩ : App).base := isPlain_of_fit? hurl hfit hname
    rw [← String.toList_ofList (l := rest)] at hurl
    obtain ⟨hne, hslash, hcaptures⟩ := (fit?_collectionEntrance_iff hbase hurl).mp hfit
    obtain ⟨-, hdocument, hhidden⟩ := (find?_segment_iff hbase hne hslash hurl).mp hfind
    have hsegment : m.segment = String.ofList rest := Registry.lastSegment_eq hslash hurl
    rw [List.singleton_inj] at hcaptures
    subst hcaptures
    rw [← hsegment] at hurl hne hdocument hpart
    exact
      { isPlain := hbase
        url_eq := hurl
        ne_empty := hne
        ne_document := hdocument
        decoded := ⟨resource, hpart, hlower.symm⟩
        not_hidden := hhidden }
  · intro h
    obtain ⟨resource, hdecode, hlower⟩ := h.decoded
    have hfind := (find?_segment_iff h.isPlain h.ne_empty hplain h.url_eq).mpr
      ⟨rfl, h.ne_document, h.not_hidden⟩
    exact ⟨_, resource, hfind, Place.route_collection_eq_ok_iff.mpr ⟨_, rfl, hdecode⟩,
      (Registry.bySegment?_eq_some_iff hapart).mpr ⟨hm, hlower.symm⟩⟩

/-- The path that a model tells, which is declared or made of its table, leads to its collection exactly where it is
open. Then all requests to read it are answered by the collection of that model, and one without arguments lists its
rows where the model answers GET. -/
theorem collection_found_iff (hbuild : Registry.build declared tables config = .ok g)
    (hdeclared : ∀ o ∈ declared, ∃ d : Model.Declaration, d.build = .ok o) (hm : m ∈ g.models) :
    ((⟨g, config, b⟩ : App).LeadsToCollection m.url m ↔ (⟨g, config, b⟩ : App).IsOpen m) ∧
    ((⟨g, config, b⟩ : App).IsOpen m →
      (∀ r : Request, r.method = "GET" → r.target.path = m.url →
        (⟨g, config, b⟩ : App).respond r = sendResult ((⟨g, config, b⟩ : App).collectionOf m r)) ∧
      (m.allows .get = true →
        (⟨g, config, b⟩ : App).respond (getRequest m.url) =
          sendResult (((⟨g, config, b⟩ : App).serviceOf m).list [] []))) := by
  have hiff := leadsToCollection_iff_isOpen (b := b) hbuild hdeclared hm
  refine ⟨hiff, fun hopen => ?_⟩
  have hresponds : ∀ r : Request, r.method = "GET" → r.target.path = m.url →
      (⟨g, config, b⟩ : App).respond r = sendResult ((⟨g, config, b⟩ : App).collectionOf m r) := by
    intro r hmethod hpath
    apply respond_of_leadsToCollection hmethod
    rw [hpath]
    exact hiff.mpr hopen
  refine ⟨hresponds, fun hget => ?_⟩
  rw [hresponds (getRequest m.url) rfl rfl, collectionOf_getRequest hget]

/-! ### Artists -/

/-- Artists. -/
def artistTable : Table :=
  { name := "artist"
    comment := none
    columns := [(Field.new "id" .integer).primaryKey, .new "name" .string]
    foreignKeys := [] }

/-- Artists at a path of their own. -/
def artistDeclaration (url : String) : Model.Declaration := { Registry.declaration artistTable with url := some url }

/-- The model of them. -/
def artistModel (url : String) : Model := { Registry.tableModel "Artist" artistTable [] with url }

/-- The service of artists, below a base. -/
def artistApp (base url : String) : App := ⟨⟨[(artistModel url).mount base]⟩, { baseUrl := base }, .sqlite⟩

/-- Artists are listed at their path below a base. -/
theorem collection_found_of_artists :
    (artistApp "/api" "/artists").respond (getRequest "/api/artists") =
      sendResult (((artistApp "/api" "/artists").serviceOf ((artistModel "/artists").mount "/api")).list [] []) := by
  have hbuild : Registry.build [artistModel "/artists"] [] { baseUrl := "/api" } =
      .ok (artistApp "/api" "/artists").registry := by decide +kernel
  have hdeclared : ∀ o ∈ [artistModel "/artists"], ∃ d : Model.Declaration, d.build = .ok o :=
    List.forall_mem_singleton.mpr ⟨artistDeclaration "/artists", by decide +kernel⟩
  have hplain : PathPattern.IsPlain (artistApp "/api" "/artists").base ∧
      PathPattern.IsPlain (artistApp "/api" "/artists").config.resourcesUrl.toList := by decide +kernel
  have hsegment : ((artistModel "/artists").mount "/api").segment = "artists" := by decide +kernel
  have hurl : ((artistModel "/artists").mount "/api").url.toList =
      (artistApp "/api" "/artists").base ++ '/' :: "artists".toList := by decide +kernel
  -- No index and no document is in the way of this path.
  have hopen : (artistApp "/api" "/artists").IsOpen ((artistModel "/artists").mount "/api") :=
    { isPlain := hplain.1
      url_eq := hsegment ▸ hurl
      ne_empty := hsegment ▸ by decide
      ne_document := hsegment ▸ by decide
      decoded := hsegment ▸ ⟨"artists", by decide +kernel, rfl⟩
      not_hidden := by
        rw [indexHides_iff_of_isPlain hplain.1 (by decide) hurl hplain.2]
        decide +kernel }
  exact ((collection_found_iff (b := .sqlite) hbuild hdeclared List.mem_cons_self).2 hopen).2 (by decide)

/-- A table that is named like the index. -/
def resourceTable : Table :=
  { name := "resources", comment := none, columns := [(Field.new "id" .integer).primaryKey], foreignKeys := [] }

/-- The service of its rows. -/
def resourceApp : App := ⟨⟨[Registry.tableModel "Resources" resourceTable []]⟩, {}, .sqlite⟩

/-- A path of two parts leads to the rows of another resource, and none is there; and the path of a table that is named
like the index leads to the index. -/
theorem collection_goes_astray :
    ((artistDeclaration "/v1/artist").build = .ok (artistModel "/v1/artist") ∧
      Registry.build [artistModel "/v1/artist"] [] {} = .ok (artistApp "" "/v1/artist").registry ∧
      artistModel "/v1/artist" ∈ (artistApp "" "/v1/artist").registry.models ∧
      (artistModel "/v1/artist").allows .get = true ∧
      ¬ (artistApp "" "/v1/artist").LeadsToCollection (artistModel "/v1/artist").url (artistModel "/v1/artist") ∧
      Script.run .sqlite [] ((artistApp "" "/v1/artist").respond (getRequest "/v1/artist")) =
        ((ApiError.notFound "v1" none).send, [])) ∧
    (Registry.build [] [resourceTable] {} = .ok resourceApp.registry ∧
      Registry.tableModel "Resources" resourceTable [] ∈ resourceApp.registry.models ∧
      (Registry.tableModel "Resources" resourceTable []).allows .get = true ∧
      ¬ resourceApp.LeadsToCollection (Registry.tableModel "Resources" resourceTable []).url
        (Registry.tableModel "Resources" resourceTable []) ∧
      Script.run .sqlite [] (resourceApp.respond (getRequest "/resources")) =
        ((Reply.json 200 (.obj [("Resources", .str "/resources\x7b/id\x7d")])).send, [])) := by
  have hitem : (artistApp "" "/v1/artist").find? "GET" (artistModel "/v1/artist").url =
      some (.item, [("resource", "v1"), ("id", "artist")]) := by decide +kernel
  have hindex : resourceApp.find? "GET" (Registry.tableModel "Resources" resourceTable []).url = some (.index, []) := by
    decide +kernel
  exact ⟨⟨by decide +kernel, by decide +kernel, by decide +kernel, by decide,
      not_leadsToCollection hitem (by decide), by decide +kernel⟩,
    by decide +kernel, by decide +kernel, by decide, not_leadsToCollection hindex (by decide), by decide +kernel⟩

end App

end RestTables
