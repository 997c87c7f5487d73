import RestTables.Proofs.Http.Link
import RestTables.Proofs.Http.PathPart
import RestTables.Proofs.Http.PathPattern
import RestTables.Proofs.Registry.Closure
import RestTables.Proofs.Router.Statements
import RestTables.Proofs.Service.List
import RestTables.Proofs.Service.Tags
import RestTables.Proofs.Value.RoundTrip

/-
Module: RestTables.Proofs.Router.SelfLinks
Purpose: The address that a row tells of itself. It is made of the path of the resource and the text of the key, and a
  request for it comes back to the row: to the service of its model, with an id that stands for the key. Keys that
  cannot be written into a path as they are, and the one key that means the description, have no such address.
Main exports: Registry.exists_origin_url, Config.HasPlainBase, App.find?_item, App.respond_item,
  App.self_link_resolves
-/

namespace RestTables

open Dialogue (Says says_except_bind_iff)

/-! ## Resources by their paths -/

namespace Registry

variable {declared : List Model} {tables : List Table} {config : Config} {g : Registry} {m : Model}

/-- The path of a registered model is that of one that was declared or that a table makes, below the base. -/
theorem exists_origin_url (h : Registry.build declared tables config = .ok g) (hm : m ∈ g.models) :
    ∃ origin, (origin ∈ declared ∨ ∃ t ∈ tables, (declaration t).build = .ok origin) ∧
      m.url.toList = Text.trimEndOf '/' config.baseUrl.toList ++ origin.url.toList := by
  obtain ⟨models, hadded, hmodels⟩ := models_eq_of_build h
  rw [hmodels] at hm
  obtain ⟨linked, hlinked, rfl⟩ := List.mem_map.mp hm
  have hurl : linked.url ∈ models.map (·.url) := by
    rw [← map_foldl_linkTable (fun _ _ => rfl) declared.length tables models]
    exact List.mem_map_of_mem hlinked
  obtain ⟨origin, horigin, heq⟩ := List.mem_map.mp hurl
  refine ⟨origin, mem_of_addTables hadded horigin, ?_⟩
  rw [heq]
  exact (String.toList_append).trans (congrArg (· ++ _) String.toList_ofList)

/-- The end of a path behind a slash. -/
theorem lastSegment_eq {url : String} {front : List Char} {segment : String} (hslash : '/' ∉ segment.toList)
    (h : url.toList = front ++ '/' :: segment.toList) : Model.lastSegment url = segment := by
  have hplain : ∀ c ∈ segment.toList.reverse, (c != '/') = true := by
    intro c hc
    rw [bne_iff_ne]
    rintro rfl
    exact hslash (List.mem_reverse.mp hc)
  have hreverse : url.toList.reverse = segment.toList.reverse ++ '/' :: front.reverse := by
    rw [h, List.reverse_append, List.reverse_cons, List.append_assoc]
    rfl
  rw [Model.lastSegment, hreverse, List.takeWhile_append_of_pos hplain]
  simp

end Registry

/-! ## Patterns -/

/-- A hole stands for a part of a path that is followed by a slash or the end. -/
theorem PathPattern.fit?_part {name : String} {ps : PathPattern} {part : String} (hpart : Target.IsPart part)
    {rest : List Char} (hrest : ∀ c ∈ rest.head?, c = '/') :
    fit? (.segment name :: ps) (part.toList ++ rest) = (fit? ps rest).map ((name, part) :: ·) := by
  rw [fit?_segment hpart.ne_nil (fun hslash => hpart.ne_slash hslash rfl) hrest, String.ofList_toList]

/-! ## Addresses -/

/-- A GET request is answered at every place. -/
theorem Place.answers_get (p : Place) : p.answers "GET" = true := by
  simp [answers]

/-- What stands in front of every path is nothing, or a path without holes. -/
structure Config.HasPlainBase (c : Config) : Prop where
  head : ∀ ch ∈ (Text.trimEndOf '/' c.baseUrl.toList).head?, ch = '/'
  isPathChar : ∀ ch ∈ Text.trimEndOf '/' c.baseUrl.toList, Target.isPathChar ch = true
  ne_brace : ∀ ch ∈ Text.trimEndOf '/' c.baseUrl.toList, ch ≠ '\x7b' ∧ ch ≠ '\x7d'

namespace App

variable {a : App} {resource id : String}

/-- The address of a row. -/
def itemPath (a : App) (resource id : String) : List Char := a.base ++ '/' :: resource.toList ++ '/' :: id.toList

theorem pattern_entrance (a : App) {path : String} (hpath : path ≠ "/") (place : Place) :
    (a.entrance path place).pattern = PathPattern.ofMarks none (PathPattern.marks (a.base ++ path.toList)) := by
  have hmounted : a.mounted path = a.base ++ path.toList := if_neg fun h => hpath h.1
  rw [entrance, hmounted, PathPattern.ofText, String.toList_ofList]

theorem pattern_entrance_of_isPlain (hbase : PathPattern.IsPlain a.base) {path : String} (hpath : path ≠ "/")
    (place : Place) : (a.entrance path place).pattern = a.base.map .char ++ PathPattern.ofText path := by
  rw [pattern_entrance a hpath, PathPattern.ofMarks_append hbase]
  rfl

theorem fit?_entrance (hbase : a.config.HasPlainBase) {path : String} (hpath : path ≠ "/") (place : Place) :
    (a.entrance path place).pattern.fit? (a.itemPath resource id) =
      (PathPattern.ofText path).fit? ('/' :: resource.toList ++ '/' :: id.toList) := by
  rw [pattern_entrance_of_isPlain hbase.ne_brace hpath, itemPath, List.append_assoc, PathPattern.fit?_chars_append]

section Parts

variable (hresource : Target.IsPart resource) (hid : Target.IsPart id)

include hresource hid

/-- Two parts fit two holes. -/
theorem fit?_item : (PathPattern.ofText "/\x7bresource\x7d/\x7bid\x7d").fit?
    ('/' :: resource.toList ++ '/' :: id.toList) = some [("resource", resource), ("id", id)] := by
  have hpattern : PathPattern.ofText "/\x7bresource\x7d/\x7bid\x7d" =
      [.char '/', .segment "resource", .char '/', .segment "id"] := rfl
  have hend : id.toList = id.toList ++ [] := (List.append_nil _).symm
  rw [hpattern, List.cons_append, PathPattern.fit?, if_pos rfl,
    PathPattern.fit?_part hresource (by simp), PathPattern.fit?, if_pos rfl, hend,
    PathPattern.fit?_part hid (by simp)]
  rfl

/-- They do not fit one hole, or three. -/
theorem fit?_others :
    (PathPattern.ofText "/\x7bresource\x7d").fit? ('/' :: resource.toList ++ '/' :: id.toList) = none ∧
    (PathPattern.ofText "/\x7bresource\x7d/\x7bid\x7d/\x7bsegment\x7d").fit?
      ('/' :: resource.toList ++ '/' :: id.toList) = none := by
  have hone : PathPattern.ofText "/\x7bresource\x7d" = [.char '/', .segment "resource"] := rfl
  have hthree : PathPattern.ofText "/\x7bresource\x7d/\x7bid\x7d/\x7bsegment\x7d" =
      [.char '/', .segment "resource", .char '/', .segment "id", .char '/', .segment "segment"] := rfl
  have hslash : ∀ c ∈ ('/' :: id.toList).head?, c = '/' := by simp
  have hend : id.toList = id.toList ++ [] := (List.append_nil _).symm
  constructor
  · rw [hone, List.cons_append, PathPattern.fit?, if_pos rfl, PathPattern.fit?_part hresource hslash]
    rfl
  · rw [hthree, List.cons_append, PathPattern.fit?, if_pos rfl, PathPattern.fit?_part hresource hslash,
      PathPattern.fit?, if_pos rfl, hend, PathPattern.fit?_part hid (by simp)]
    rfl

omit hresource hid in
/-- The document is not that deep. -/
theorem fit?_document :
    (PathPattern.ofText "/openapi.json").fit? ('/' :: resource.toList ++ '/' :: id.toList) = none := by
  have hpattern : PathPattern.ofText "/openapi.json" = "/openapi.json".toList.map .char := rfl
  rw [hpattern, PathPattern.fit?_chars, if_neg]
  intro heq
  have hmem : '/' ∈ "openapi.json".toList := by
    have htail : resource.toList ++ '/' :: id.toList = "openapi.json".toList := (List.cons.inj heq).2
    rw [← htail]
    exact List.mem_append_right _ List.mem_cons_self
  exact absurd hmem (by decide)

/-- The address of a row leads to the place of rows, where the index of the service is not there instead. -/
theorem find?_item (hbase : a.config.HasPlainBase) (method : String)
    (hindex : a.config.resourcesUrlEnabled = true →
      (a.entrance a.config.resourcesUrl .index).pattern.fit? (a.itemPath resource id) = none) :
    a.find? method (String.ofList (a.itemPath resource id)) =
      some (.item, [("resource", resource), ("id", id)]) := by
  -- Of all entrances only the one of rows has as many parts, and it is no less exact than itself.
  have hfitting : a.fitting (String.ofList (a.itemPath resource id)) =
      [(a.entrance "/\x7bresource\x7d/\x7bid\x7d" .item, [("resource", resource), ("id", id)])] := by
    obtain ⟨hcollection, hsubresource⟩ := fit?_others hresource hid
    have hfirst : (if a.config.resourcesUrlEnabled then [a.entrance a.config.resourcesUrl .index] else []).filterMap
        (fun e => (e.pattern.fit? (a.itemPath resource id)).map fun captures => (e, captures)) = [] := by
      split
      · next henabled => simp [hindex henabled]
      · rfl
    unfold fitting entrances
    rw [String.toList_ofList, List.filterMap_append, hfirst]
    simp only [List.filterMap_cons, List.filterMap_nil, fit?_entrance hbase (show "/openapi.json" ≠ "/" by decide),
      fit?_entrance hbase (show "/\x7bresource\x7d" ≠ "/" by decide),
      fit?_entrance hbase (show "/\x7bresource\x7d/\x7bid\x7d" ≠ "/" by decide),
      fit?_entrance hbase (show "/\x7bresource\x7d/\x7bid\x7d/\x7bsegment\x7d" ≠ "/" by decide),
      fit?_document, hcollection, fit?_item hresource hid, hsubresource, Option.map_none, Option.map_some,
      List.nil_append]
  have hself : ∀ entrance : Entrance, entrance.pattern.isMoreExact entrance.pattern = false :=
    fun entrance => PathPattern.isMoreExact_self _
  unfold find?
  simp only [hfitting, List.any_cons, List.any_nil, hself, Bool.or_false, Bool.not_false, List.filter_cons,
    List.filter_nil, ↓reduceIte]
  rfl

/-- The names in it are read as they are. -/
theorem route_item : Place.item.route [("resource", resource), ("id", id)] = .ok (.item resource id) := by
  have hdecode : ∀ name part, Target.IsPart part → Route.decodePart (name, part) = .ok part := by
    intro name part hpart
    obtain ⟨s, hs, hpart'⟩ := Option.map_eq_some_iff.mp hpart.decode
    rw [Route.decodePart, hs]
    exact congrArg Except.ok hpart'
  unfold Place.route
  rw [if_neg (by decide)]
  simp only [List.mapM_cons, List.mapM_nil, hdecode _ _ hresource, hdecode _ _ hid]
  rfl

end Parts

/-- The request for an address, with nothing beside it. -/
def getRequest (path : String) : Request := ⟨"GET", ⟨path, none⟩, [], []⟩

theorem requireVerb_getRequest {m : Model} (hget : m.allows .get = true) (path : String) :
    requireVerb m (getRequest path) = .ok .get := by
  have hasked : verb? (getRequest path) = some .get := by
    have hmethod : Verb.read? "GET" = some .get := Verb.read?_name .get
    simp only [verb?, Verb.ofHeaders?, Verb.resolve?, getRequest, hmethod]
  simp only [requireVerb, hasked, hget, ↓reduceIte]

/-- What is found at the path of a GET request answers it. -/
theorem respond_of_find? {r : Request} {place : Place} {captures : Captures} {route : Route}
    (hmethod : r.method = "GET")
    (hfind : a.find? "GET" r.target.path = some (place, captures)) (hroute : place.route captures = .ok route) :
    a.respond r = sendResult (a.handle route r) := by
  have hanswer : a.answer r = sendResult (a.handle route r) := by
    simp only [answer, hmethod, hfind, place.answers_get, hroute]
    rfl
  have hhead : r.method ≠ "HEAD" := by
    rw [hmethod]
    decide
  simp only [respond, hanswer, if_neg hhead, bind_pure]

/-- A request for the address of a row is answered by the service of the resource, unless the id is the word for the
description. -/
theorem respond_item {m : Model} (hbase : a.config.HasPlainBase) (hresource : Target.IsPart resource)
    (hid : Target.IsPart id)
    (hindex : a.config.resourcesUrlEnabled = true →
      (a.entrance a.config.resourcesUrl .index).pattern.fit? (a.itemPath resource id) = none)
    (hmodel : a.registry.bySegment? resource = some m) (hget : m.allows .get = true)
    (hmeta : a.config.metadataEnabled = true → id ≠ a.config.metadataSegment) :
    a.respond (getRequest (String.ofList (a.itemPath resource id))) = sendResult ((a.serviceOf m).get id [] []) := by
  have hlocate : a.locate resource (getRequest (String.ofList (a.itemPath resource id))) =
      .ok (a.serviceOf m, .get) := by
    simp only [locate, hmodel, requireVerb_getRequest hget]
    rfl
  have hitem : item (a.serviceOf m) .get id (getRequest (String.ofList (a.itemPath resource id))) =
      (a.serviceOf m).get id [] [] := if_neg fun h => hmeta h.1 h.2
  have hserve : a.handle (.item resource id) (getRequest (String.ofList (a.itemPath resource id))) =
      (a.serviceOf m).get id [] [] := by
    simp only [handle, serve, hlocate]
    change (item (a.serviceOf m) .get id _ >>= fun reply => pure reply) = _
    rw [bind_pure, hitem]
  have hfind : a.find? "GET" (getRequest (String.ofList (a.itemPath resource id))).target.path =
      some (.item, [("resource", resource), ("id", id)]) := find?_item hresource hid hbase "GET" hindex
  rw [respond_of_find? rfl hfind (route_item hresource hid), hserve]

end App

/-! ## Rows that are looked up -/

namespace Service

variable {s : Service}

/-- A request without arguments asks for all columns and for nothing else. -/
theorem compileQuery_nil (s : Service) : ∃ page, s.compileQuery s.model [] = .ok ({}, page) := by
  have hnone : s.queryArguments [] = [] := by
    unfold queryArguments
    split <;> rfl
  exact ⟨_, compileQuery_eq_ok_iff.mpr ⟨rfl, rfl, by rw [hnone]; rfl⟩⟩

/-- The first thing that is said for a row is the question for its key. -/
theorem says_get_key {id : String} {key : Value} {log : List Exchange} {response : Response}
    (hkey : s.model.keyValue? id = some key) (h : Says (App.sendResult (s.get id [] [])) log response) :
    ∃ answer rest, log = .query (Rows.keyStatement s.model key) answer :: rest := by
  obtain ⟨page, hcompiled⟩ := s.compileQuery_nil
  obtain ⟨a, ha⟩ : ∃ a, Says (s.get id [] []).run log a := by
    rcases App.says_sendResult_iff.mp h with ⟨reply, hreply, -⟩ | ⟨e, he, -⟩
    · exact ⟨_, hreply⟩
    · exact ⟨_, he⟩
  rcases Handler.says_ofExcept_bind_iff.mp ha with ⟨e, he, -⟩ | ⟨_, -, hrest⟩
  · rw [hcompiled] at he
    cases he
  · rcases says_except_bind_iff.mp hrest with ⟨first, r, second, rfl, hfirst, -⟩ | ⟨e, -, hfirst⟩
    · obtain ⟨answer, rfl, -⟩ := (says_requireRow_iff hkey).mp hfirst
      exact ⟨answer, second, rfl⟩
    · obtain ⟨answer, rfl, -⟩ := (says_requireRow_iff hkey).mp hfirst
      exact ⟨answer, [], rfl⟩

end Service

/-! ## Addresses that rows tell -/

/-- A model whose path is one part, which stands for itself. -/
def Model.HasPlainPath (m : Model) : Prop := ∃ segment, Target.IsPart segment ∧ m.url.toList = '/' :: segment.toList

namespace App

variable {declared : List Model} {tables : List Table} {config : Config} {g : Registry} {m : Model} {b : Backend}
  {row : Row} {key : Value} {id : String}

/-- The address of a row, as it is told. -/
theorem toList_rowUri (a : App) (hurl : m.url.toList = a.base ++ '/' :: m.segment.toList) (id : String) :
    m.rowUri id = String.ofList (a.itemPath m.segment id) := by
  apply String.toList_injective
  rw [Model.rowUri, String.toList_append, String.toList_append, hurl, String.toList_ofList, itemPath]
  simp

/-- Below its base a path of one part is that part. -/
theorem exists_segment (hbuild : Registry.build declared tables config = .ok g) (hm : m ∈ g.models)
    (hurls : ∀ o ∈ declared, o.HasPlainPath)
    (htables : ∀ t ∈ tables, ∀ o, (Registry.declaration t).build = .ok o → o.HasPlainPath) :
    Target.IsPart m.segment ∧ m.url.toList = (⟨g, config, b⟩ : App).base ++ '/' :: m.segment.toList := by
  obtain ⟨origin, horigin, hurl⟩ := Registry.exists_origin_url hbuild hm
  have hplain : origin.HasPlainPath := by
    rcases horigin with ho | ⟨t, ht, hbuilt⟩
    · exact hurls origin ho
    · exact htables t ht origin hbuilt
  obtain ⟨segment, hpart, hpath⟩ := hplain
  rw [hpath] at hurl
  have hsegment : m.segment = segment := Registry.lastSegment_eq (fun hslash => hpart.ne_slash hslash rfl) hurl
  rw [hsegment]
  exact ⟨hpart, hurl⟩

theorem isPathChar_itemPath {a : App} {resource : String} (hbase : a.config.HasPlainBase)
    (hresource : Target.IsPart resource) (hid : Target.IsPart id) :
    ∀ c ∈ a.itemPath resource id, Target.isPathChar c = true := by
  have hslash : Target.isPathChar '/' = true := by decide
  unfold itemPath
  simp only [List.forall_mem_append, List.forall_mem_cons]
  exact ⟨⟨hbase.isPathChar, hslash, fun _ => hresource.isPathChar⟩, hslash, fun _ => hid.isPathChar⟩

theorem head?_itemPath {a : App} {resource : String} (hbase : a.config.HasPlainBase) :
    (a.itemPath resource id).head? = some '/' := by
  unfold itemPath
  cases hlist : a.base with
  | nil => rfl
  | cons c rest =>
    have hslash : c = '/' := hbase.head c (by
      change c ∈ a.base.head?
      rw [hlist]
      rfl)
    rw [hslash]
    rfl

/-- The address of a row is the path of a target. -/
theorem read_itemPath {a : App} {resource : String} (hbase : a.config.HasPlainBase) (hresource : Target.IsPart resource)
    (hid : Target.IsPart id) (hlength : (String.ofList (a.itemPath resource id)).utf8ByteSize ≤ Target.maxLength) :
    Target.read (String.ofList (a.itemPath resource id)) = .ok ⟨String.ofList (a.itemPath resource id), none⟩ := by
  refine Target.read_path ?_ ?_ hlength
  · rw [String.toList_ofList]
    exact head?_itemPath hbase
  · rw [String.toList_ofList]
    exact isPathChar_itemPath hbase hresource hid

/-- A key whose text can be written into a path has such a text, from which it is read. -/
theorem exists_id (hkind : m.keyField.kind ∈ [Kind.integer, .string, .uuid, .date, .boolean])
    (hknown : key.IsKnown m.keyField.kind) (hpart : ∀ s, key = .string (some s) → Target.IsPart s) :
    ∃ id, key.keyText = some id ∧ Target.IsPart id ∧ m.keyValue? id = some key := by
  have hkinds : ∀ k ∈ [Kind.integer, .string, .uuid, .date, .boolean], k.isExact = true ∧ k.isReadBack = true := by
    decide
  obtain ⟨hexact, hreadBack⟩ := hkinds _ hkind
  obtain ⟨id, hid⟩ := (Value.exists_keyText_iff hexact hknown.1).mpr hknown.2
  exact ⟨id, hid, Value.isPart_keyText hkind hknown.1 hid fun hstring => hpart id hstring,
    Value.ofText?_keyText hreadBack hknown.1 hid⟩

/-- The address that a row tells of itself comes back to the row. The registry is built from models whose paths are one
part each, and the model answers GET. The text of the key can be written into a path as it is, which is so for all
keys but strings, and it is not the word for the description where there are descriptions; the address is not that of
the index, nor longer than a target can be. Then a request for it is one, it is answered by what the service of the
model answers for an id that stands for the key, and the first statement that is sent asks for the row with the key. -/
theorem self_link_resolves (hbuild : Registry.build declared tables config = .ok g) (hm : m ∈ g.models)
    (hurls : ∀ o ∈ declared, o.HasPlainPath)
    (htables : ∀ t ∈ tables, ∀ o, (Registry.declaration t).build = .ok o → o.HasPlainPath)
    (hbase : config.HasPlainBase) (hget : m.allows .get = true)
    (hkind : m.keyField.kind ∈ [Kind.integer, .string, .uuid, .date, .boolean])
    (hkey : row.get? m.keyField.name = some key) (hknown : key.IsKnown m.keyField.kind)
    (hpart : ∀ s, key = .string (some s) → Target.IsPart s)
    (hmeta : config.metadataEnabled = true → key.keyText ≠ some config.metadataSegment)
    (hindex : config.resourcesUrlEnabled = true → ∀ uri, m.recordUri row = some uri →
      ((⟨g, config, b⟩ : App).entrance config.resourcesUrl .index).pattern.fit? uri.toList = none)
    (hlength : ∀ uri, m.recordUri row = some uri → uri.utf8ByteSize ≤ Target.maxLength) :
    ∃ uri request id, m.recordUri row = some uri ∧ (m.links row).get? "self" = some (.str uri) ∧
      Request.read "GET" uri [] [] = .ok request ∧ m.keyValue? id = some key ∧
      (⟨g, config, b⟩ : App).respond request =
        sendResult (((⟨g, config, b⟩ : App).serviceOf m).get id [] []) ∧
      ∀ log response, Says ((⟨g, config, b⟩ : App).respond request) log response →
        ∃ answer rest, log = .query (Rows.keyStatement m key) answer :: rest := by
  obtain ⟨id, hid, hidPart, hvalue⟩ := exists_id hkind hknown hpart
  obtain ⟨hsegment, hurl⟩ := exists_segment (b := b) hbuild hm hurls htables
  have huri : m.recordUri row = some (m.rowUri id) := by
    rw [Model.recordUri, Row.keyText, hkey, Option.bind_some, hid, Option.map_some]
  have hpath := toList_rowUri _ hurl id
  -- The link is its own request target: nothing in it is escaped, and it is not too long.
  have hread : Target.read (m.rowUri id) = .ok ⟨m.rowUri id, none⟩ := by
    have hshort := hlength _ huri
    rw [hpath] at hshort ⊢
    exact read_itemPath hbase hsegment hidPart hshort
  have hrespond : (⟨g, config, b⟩ : App).respond (getRequest (m.rowUri id)) =
      sendResult (((⟨g, config, b⟩ : App).serviceOf m).get id [] []) := by
    rw [hpath]
    refine respond_item hbase hsegment hidPart ?_ (Registry.bySegment?_segment hbuild hm) hget ?_
    · intro henabled
      have hnone := hindex henabled _ huri
      rwa [hpath, String.toList_ofList] at hnone
    · rintro henabled rfl
      exact hmeta henabled hid
  refine ⟨m.rowUri id, getRequest (m.rowUri id), id, huri, ?_, ?_, hvalue, hrespond, ?_⟩
  · rw [Model.links, huri]
    exact Json.Object.get?_insert_self _
  · have hmethod : Verb.isMethod "GET" = true := rfl
    simp only [Request.read, hmethod, hread]
    rfl
  · intro log response hsaid
    rw [hrespond] at hsaid
    exact Service.says_get_key hvalue hsaid

/-! ### Tags -/

/-- Tags, whose names are their keys. -/
def tagModel : Model :=
  { (default : Model) with
    name := "Tag"
    table := "tag"
    url := "/tag"
    columns := [(Field.new "name" .string).primaryKey]
    keyField := (Field.new "name" .string).primaryKey
    methods := [.get] }

/-- A tag. -/
def tagRow (name : String) : Row := ⟨[("name", .string (some name))], none⟩

/-- The service of tags, below a base. -/
def tagApp : App := ⟨⟨[tagModel.mount "/api/"]⟩, { baseUrl := "/api/" }, .sqlite⟩

theorem hasPlainPath_tagModel : tagModel.HasPlainPath :=
  ⟨"tag", Target.isPart_of_all (by decide) (by decide), rfl⟩

theorem hasPlainBase_tagApp : tagApp.config.HasPlainBase := by
  have hbase : Text.trimEndOf '/' tagApp.config.baseUrl.toList = ['/', 'a', 'p', 'i'] := rfl
  refine ⟨?_, ?_, ?_⟩ <;> rw [hbase]
  · rintro c ⟨⟩
    rfl
  · simp only [List.forall_mem_cons]
    exact ⟨by decide, by decide, by decide, by decide, nofun⟩
  · simp only [List.forall_mem_cons]
    exact ⟨by decide, by decide, by decide, by decide, nofun⟩

/-- The tag of a language is found at its own address. -/
theorem self_link_resolves_of_tag :
    ∃ request id, Request.read "GET" "/api/tag/c++" [] [] = .ok request ∧
      tagModel.keyValue? id = some (.string (some "c++")) ∧
      tagApp.respond request = sendResult ((tagApp.serviceOf (tagModel.mount "/api/")).get id [] []) := by
  have hbuild : Registry.build [tagModel] [] tagApp.config = .ok tagApp.registry := rfl
  have hplain : Target.IsPart "c++" := Target.isPart_of_all (by decide) (by decide)
  have huri : (tagModel.mount "/api/").recordUri (tagRow "c++") = some "/api/tag/c++" := rfl
  have hname : (tagRow "c++").get? (tagModel.mount "/api/").keyField.name = some (.string (some "c++")) := rfl
  obtain ⟨uri, request, id, hself, -, hrequest, hkey, hrespond, -⟩ :=
    self_link_resolves (b := .sqlite) hbuild List.mem_cons_self
      (List.forall_mem_singleton.mpr hasPlainPath_tagModel) nofun hasPlainBase_tagApp (by decide) (by decide)
      hname ⟨rfl, rfl⟩ (by rintro s hs; cases hs; exact hplain) (by decide)
      (by rw [huri]; rintro - uri hs; cases hs; rfl)
      (by rw [huri]; rintro uri hs; cases hs; decide)
  obtain rfl : uri = "/api/tag/c++" := Option.some.inj (hself.symm.trans huri)
  exact ⟨request, id, hrequest, hkey, hrespond⟩

/-- The tag that is named like the description is not found at its address, and neither is one with a slash in its name:
a request for the one is answered with the description, and a request for the other asks for what a tag with another
name is related to. -/
theorem self_link_goes_astray :
    Registry.build [tagModel] [] tagApp.config = .ok tagApp.registry ∧
    (tagModel.mount "/api/").recordUri (tagRow "meta") = some "/api/tag/meta" ∧
    Script.run .sqlite [] (tagApp.respond (getRequest "/api/tag/meta")) =
      ((tagApp.serviceOf (tagModel.mount "/api/")).describe.send, []) ∧
    (tagModel.mount "/api/").recordUri (tagRow "a/b") = some "/api/tag/a/b" ∧
    tagApp.find? "GET" "/api/tag/a/b" =
      some (.subresource, [("resource", "tag"), ("id", "a"), ("segment", "b")]) := by
  decide +kernel

end App

end RestTables
