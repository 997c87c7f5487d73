import RestTables.Proofs.Export.Record
import RestTables.Proofs.Registry.Start

/-
Module: RestTables.Proofs.Registry.Overlay
Purpose: What is shown of relations along with the columns of a row, under names in the same object. A relation of
  tables has the name of its target where no column has it, or else that name and the column of its key; the rows of a
  collection are shown under its name and `List`. Neither of the latter is compared with the columns, and a column that
  has such a name is lost.
Main exports: Relation.memberName, Relation.IsNamedIn, Record.LoadsFrom, Registry.Keeps, Registry.keeps_iff
-/

namespace RestTables

open Json

/-! ## Names -/

namespace Relation

/-- The column of the key that the relation follows, whichever end has it. -/
def keyColumn (r : Relation) : String :=
  match r.cardinality with
  | .scalar => r.localKey
  | .collection => r.remoteKey

/-- The name under which a row shows what the relation of a table leads to. -/
def memberName (r : Relation) : String :=
  match r.cardinality with
  | .scalar => r.name
  | .collection => r.name ++ "List"

/-- The relation has the name that is left where that of its target is taken. -/
def HasFallbackName (r : Relation) : Prop := r.name = r.target ++ "_" ++ r.keyColumn

/-- The relation has its target's name, which no column has, or the column of its key behind that. -/
def IsNamedIn (m : Model) (r : Relation) : Prop :=
  r.name = r.target ∧ m.column? r.target = none ∨ r.HasFallbackName

end Relation

namespace Registry

section Names

variable {models : List Model} {m : Model} {r : Relation}

theorem relationName_cases (m : Model) (preferred column : String) :
    relationName m preferred column = preferred ∧ m.column? preferred = none ∨
      relationName m preferred column = preferred ++ "_" ++ column := by
  unfold relationName
  split
  · exact .inr rfl
  · next hfree =>
    refine .inl ⟨rfl, ?_⟩
    rw [isTaken, Bool.or_eq_true, not_or] at hfree
    simpa using hfree.2

/-- One more key gives two more relations, each with a name of that form, and leaves the columns as they were. -/
theorem isNamedIn_link (ref : Reference) (h : ∀ m ∈ models, ∀ r ∈ m.relations, r.IsNamedIn m) :
    ∀ m ∈ link models ref, ∀ r ∈ m.relations, r.IsNamedIn m := by
  intro m hm r hr
  obtain ⟨i, hi⟩ := List.mem_iff_getElem?.mp hm
  obtain ⟨before, more, hbefore, rfl, hold | ⟨o, t, ho, ht, hadded⟩⟩ := exists_of_getElem?_link hi hr
  · exact h before (List.mem_of_getElem? hbefore) r hold
  · rcases hadded with ⟨rfl, rfl⟩ | ⟨rfl, rfl⟩
    · obtain rfl : o = before := Option.some.inj (ho.symm.trans hbefore)
      exact relationName_cases o t.name ref.key.column
    · obtain rfl : t = before := Option.some.inj (ht.symm.trans hbefore)
      exact relationName_cases t o.name ref.key.column

theorem isNamedIn_foldl_link (refs : List Reference) (h : ∀ m ∈ models, ∀ r ∈ m.relations, r.IsNamedIn m) :
    ∀ m ∈ refs.foldl link models, ∀ r ∈ m.relations, r.IsNamedIn m := by
  induction refs generalizing models with
  | nil => exact h
  | cons ref refs ih => exact ih (isNamedIn_link ref h)

variable {tables : List Table} {config : Config} {g : Registry}

/-- Every relation of tables has a name of that form. -/
theorem isNamedIn_of_build (h : Registry.build [] tables config = .ok g) (hm : m ∈ g.models) (hr : r ∈ m.relations) :
    r.IsNamedIn m := by
  obtain ⟨base, hlinked⟩ := exists_isLinked_of_build h
  rw [hlinked.models_eq] at hm
  obtain ⟨before, hbefore, rfl⟩ := List.mem_map.mp hm
  have hbase : ∀ m ∈ base, ∀ r ∈ m.relations, r.IsNamedIn m := by
    intro m hm r hr
    rw [(hlinked.named.tabular m hm).relations_eq] at hr
    cases hr
  rw [relations_settled] at hr
  rw [Relation.IsNamedIn, Model.column?, columns_settled]
  exact isNamedIn_foldl_link _ hbase before hbefore r hr

theorem collectionSuffix_of_build {d : Model.Declaration} (h : d.build = .ok m) :
    m.collectionSuffix = d.collectionSuffix := by
  obtain ⟨-, _, -, rfl⟩ := Model.exists_of_build h
  rfl

/-- All models of tables have one suffix. -/
theorem collectionSuffix_of_mem (h : Registry.build [] tables config = .ok g) (hm : m ∈ g.models) :
    m.collectionSuffix = "List" := by
  obtain ⟨models, hadded, hmodels⟩ := models_eq_of_build h
  have hsame : g.models.map (·.collectionSuffix) = models.map (·.collectionSuffix) := by
    rw [hmodels, List.map_map, ← map_foldl_linkTable (fun _ _ => rfl) 0 tables models]
    rfl
  obtain ⟨origin, horigin, heq⟩ := List.mem_map.mp (hsame ▸ List.mem_map_of_mem hm)
  rw [← heq]
  rcases mem_of_addTables hadded horigin with hdeclared | ⟨t, -, hbuild⟩
  · cases hdeclared
  · exact collectionSuffix_of_build hbuild

end Names

end Registry

/-! ## Members -/

/-- There may be many rows. -/
def Related.isMany : Related α → Bool
  | .one _ => false
  | .many _ => true

/-- What was loaded for a record is what relations of the model lead to. -/
def Record.LoadsFrom (m : Model) (r : Record) : Prop :=
  ∀ entry ∈ r.related, ∃ relation ∈ m.relations, relation.name = entry.1 ∧ relation.isMany = entry.2.isMany

namespace Registry

/-- What stands under a key of a row stays, whatever is shown of its relations along with it. -/
def Keeps (g : Registry) (m : Model) (key : String) : Prop :=
  ∀ (r : Record) (withLinks : Bool), r.Fits m → r.LoadsFrom m → ∀ v,
    (g.render m r false withLinks).get? key = some v → (g.render m r true withLinks).get? key = some v

section Render

variable {g : Registry} {m : Model} {r : Record} {withLinks : Bool} {key : String}

/-- What is shown of relations only replaces columns of the same names; links come last in any case. -/
theorem get?_render_true (h : withLinks = true ∧ key = Export.linksKey ∨
    key ∉ (g.loadedMembers m r true withLinks).map (·.1)) :
    (g.render m r true withLinks).get? key = (g.render m r false withLinks).get? key := by
  have hloaded : key ∉ (g.loadedMembers m r true withLinks).map (·.1) →
      ((g.loadedMembers m r true withLinks).foldl (fun o m => o.insert m.1 m.2) (shownValues r.toRow)).get? key =
        (shownValues r.toRow).get? key := fun hnot => Object.get?_foldl_insert_of_notMem hnot _
  simp only [render, addLinks, Bool.false_eq_true, ↓reduceIte, List.foldl_nil]
  cases withLinks with
  | false => exact hloaded (h.resolve_left fun hlinks => Bool.false_ne_true hlinks.1)
  | true =>
    by_cases hkey : key = Export.linksKey
    · subst hkey
      exact (Object.get?_insert_self _).trans (Object.get?_insert_self _).symm
    · refine (Object.get?_insert_of_ne hkey _).trans (.trans ?_ (Object.get?_insert_of_ne hkey _).symm)
      exact hloaded (h.resolve_left fun hlinks => hkey hlinks.2)

/-- A row without its relations shows columns and its links. -/
theorem of_get?_render_false (hr : r.Fits m) {v : Json} (h : (g.render m r false withLinks).get? key = some v) :
    withLinks = true ∧ key = Export.linksKey ∨ ∃ f ∈ m.columns, f.name = key := by
  rw [render_eq_ofMembers] at h
  have hmember := Object.mem_of_mem_ofMembers (mem_of_lookup h)
  rcases List.mem_append.mp hmember with hown | hlinks
  · rcases List.mem_append.mp hown with hshown | hloaded
    · obtain ⟨entry, hentry, -, heq⟩ := mem_shownMembers_iff.mp hshown
      cases heq
      exact .inr (hr.column hentry)
    · cases hloaded
  · unfold linkMembers at hlinks
    split at hlinks
    · next hasked =>
      cases List.mem_singleton.mp hlinks
      exact .inl ⟨hasked, rfl⟩
    · cases hlinks

end Render

section Tables

variable {tables : List Table} {config : Config} {g : Registry} {m : Model}
  (h : Registry.build [] tables config = .ok g) (hm : m ∈ g.models)

include h hm

/-- What a relation leads to is shown under its member name, and never as null where there is a row or may be many. -/
theorem exists_renderRelated? {relation : Relation} (hrelation : relation ∈ m.relations) (withLinks : Bool)
    {related : Related Record} (hmany : relation.isMany = related.isMany) :
    ∃ v, g.renderRelated? m withLinks relation.name related = some (relation.memberName, v) ∧
      (v = .null → related = .one none) := by
  -- The first relation of that name is shown, which need not be this one but has its name.
  obtain ⟨found, hfound⟩ : ∃ found, m.relations.find? (·.name == relation.name) = some found :=
    Option.isSome_iff_exists.mp (List.find?_isSome.mpr ⟨relation, hrelation, beq_self_eq_true _⟩)
  have hname : found.name = relation.name := by simpa using List.find?_some hfound
  obtain ⟨target, htarget, -⟩ := exists_target_of_build h hm (List.mem_of_find?_eq_some hfound)
  have hsuffix := collectionSuffix_of_mem h (mem_models_of_get? htarget)
  cases related with
  | one row =>
    have hscalar : relation.cardinality = .scalar := by
      cases hc : relation.cardinality <;> simp [Relation.isMany, Related.isMany, hc] at hmany ⊢
    refine ⟨ofOption (renderRow target ·.toRow withLinks) row, ?_, ?_⟩
    · simp [renderRelated?, hfound, htarget, hname, Relation.memberName, hscalar]
    · cases row with
      | none => exact fun _ => rfl
      | some row => exact nofun
  | many rows =>
    have hcollection : relation.cardinality = .collection := by
      cases hc : relation.cardinality <;> simp [Relation.isMany, Related.isMany, hc] at hmany ⊢
    refine ⟨.arr (rows.map (renderRow target ·.toRow withLinks)), ?_, nofun⟩
    simp [renderRelated?, hfound, htarget, hname, hsuffix, Relation.memberName, hcollection]

theorem exists_of_mem_loadedMembers {r : Record} (hr : r.LoadsFrom m) {withLinks : Bool} {member : String × Json}
    (hmember : member ∈ g.loadedMembers m r true withLinks) : ∃ r ∈ m.relations, r.memberName = member.1 := by
  obtain ⟨⟨name, related⟩, hentry, hshown⟩ := List.mem_filterMap.mp hmember
  obtain ⟨relation, hrelation, rfl, hmany⟩ := hr _ hentry
  obtain ⟨v, hrendered, -⟩ := exists_renderRelated? h hm hrelation withLinks hmany
  cases hrendered.symm.trans hshown
  exact ⟨relation, hrelation, rfl⟩

/-- A column of every row stays where it has no member name. -/
theorem keeps_column_iff {f : Field} (hf : f ∈ m.columns) :
    g.Keeps m f.name ↔ ∀ r ∈ m.relations, f.name ≠ r.memberName := by
  constructor
  · intro hkeeps relation hrelation hname
    -- a row with NULL in the column, and something to show of the relation
    let related : Related Record := if relation.isMany then .many [] else .one (some ⟨⟨[], none⟩, []⟩)
    have hmany : relation.isMany = related.isMany := by
      simp only [related]
      cases relation.isMany <;> rfl
    let r : Record := ⟨⟨[(f.name, .bool none)], none⟩, [(relation.name, related)]⟩
    have hfits : r.Fits m :=
      ⟨List.nodup_singleton _, fun hentry => ⟨f, hf, by rw [List.mem_singleton.mp hentry]⟩⟩
    have hloads : r.LoadsFrom m := by
      intro entry hentry
      rw [List.mem_singleton.mp hentry]
      exact ⟨relation, hrelation, rfl, hmany⟩
    have hnull : (g.render m r false false).get? f.name = some .null := List.lookup_cons_self
    obtain ⟨v, hrendered, hvalue⟩ := exists_renderRelated? h hm hrelation false hmany
    have hshown : (g.render m r true false).get? f.name = some v := by
      simp only [r, render, addLinks, List.filterMap_cons, List.filterMap_nil, hrendered, List.foldl_cons,
        List.foldl_nil, hname, ↓reduceIte, Bool.false_eq_true]
      exact Object.get?_insert_self _
    have hlost := hkeeps r false hfits hloads .null hnull
    have hone : related = .one none := hvalue (Option.some.inj (hshown.symm.trans hlost))
    simp only [related] at hone
    split at hone <;> cases hone
  · intro hapart r withLinks hfits hloads v hv
    rw [get?_render_true (.inr ?_), hv]
    intro hmem
    obtain ⟨member, hmember, hname⟩ := List.mem_map.mp hmem
    obtain ⟨relation, hrelation, heq⟩ := exists_of_mem_loadedMembers h hm hloads hmember
    exact hapart relation hrelation (hname.symm.trans heq.symm)

omit h hm in
/-- The links of every row stay, and beside them it has nothing but columns. -/
theorem keeps_of_forall_ne {key : String} (hnone : ∀ f ∈ m.columns, f.name ≠ key) : g.Keeps m key := by
  intro r withLinks hfits _ v hv
  rcases of_get?_render_false hfits hv with hlinks | ⟨f, hf, hname⟩
  · rw [get?_render_true (.inl hlinks), hv]
  · exact absurd hname (hnone f hf)

/-- Whatever every row of a table shows under a key it also shows there along with what its relations lead to, whichever
of them were loaded and whatever they hold. This fails just for the columns that have the name which is left for a
relation to one row where that of its target is taken, or the name of a relation to many rows with `List` behind it. -/
theorem keeps_iff {key : String} :
    g.Keeps m key ↔ ∀ f ∈ m.columns, f.name = key → ∀ r ∈ m.relations,
      match r.cardinality with
      | .scalar => r.HasFallbackName → key ≠ r.name
      | .collection => key ≠ r.name ++ "List" := by
  constructor
  · rintro hkeeps f hf rfl r hr
    have hne := (keeps_column_iff h hm hf).mp hkeeps r hr
    unfold Relation.memberName at hne
    cases hc : r.cardinality <;> rw [hc] at hne
    · exact fun _ => hne
    · exact hne
  · intro hapart
    by_cases hcolumn : ∃ f ∈ m.columns, f.name = key
    · obtain ⟨f, hf, rfl⟩ := hcolumn
      refine (keeps_column_iff h hm hf).mpr fun r hr => ?_
      have hne := hapart f hf rfl r hr
      unfold Relation.memberName
      cases hc : r.cardinality <;> rw [hc] at hne
      · intro heq
        -- a target's name that no column has cannot be this column's
        rcases isNamedIn_of_build h hm hr with ⟨hname, hfree⟩ | hfallback
        · have hfound := column?_isSome_of_mem hf
          rw [heq, hname, hfree] at hfound
          cases hfound
        · exact hne hfallback heq
      · exact hne
    · exact keeps_of_forall_ne fun f hf hname => hcolumn ⟨f, hf, hname⟩

end Tables

/-! ## Authors and books -/

/-- Authors, with the titles of their books as one text. -/
def authorTable : Table :=
  { name := "author"
    comment := none
    columns := [(Field.new "id" .integer).primaryKey, .new "BookList" .string]
    foreignKeys := [] }

/-- Books, with the name of their author, and the name under which the author is listed. -/
def bookTable : Table :=
  { name := "book"
    comment := none
    columns := [(Field.new "id" .integer).primaryKey, .new "author_id" .integer, .new "Author" .string,
      .new "Author_author_id" .string]
    foreignKeys := [⟨"author_id", "author", some "id"⟩] }

/-- The authors as a resource. -/
def authorModel : Model := tableModel "Author" authorTable [.collection "Book" "Book" "id" "author_id"]

/-- The books as a resource. -/
def bookModel : Model :=
  tableModel "Book" bookTable
    [{ Relation.scalar "Author_author_id" "Author" "author_id" "id" with segment := "author" }]

/-- Both of them. -/
def libraryRegistry : Registry := ⟨[authorModel, bookModel]⟩

theorem build_library : Registry.build [] [authorTable, bookTable] {} = .ok libraryRegistry := by decide +kernel

/-- The name of a book's author stays when the author is shown with it, as the relation has another name. -/
theorem book_keeps_author : libraryRegistry.Keeps bookModel "Author" := by
  refine (keeps_iff build_library (by decide)).mpr ?_
  have hall : ∀ r ∈ bookModel.relations, r.cardinality = .scalar ∧ "Author" ≠ r.name := by decide
  intro f _ _ r hr
  obtain ⟨hscalar, hne⟩ := hall r hr
  rw [hscalar]
  exact fun _ => hne

/-- An author with the titles of some books, of which none is there. -/
def titledAuthor : Record :=
  ⟨⟨[("id", .bigInt (some 1)), ("BookList", .string (some "Dune; Emma"))], none⟩, [("Book", .many [])]⟩

/-- A book whose author is not there, with some text in each column. -/
def listedBook : Record :=
  ⟨⟨[("id", .bigInt (some 1)), ("author_id", .bigInt none), ("Author", .string (some "x")),
    ("Author_author_id", .string (some "y"))], none⟩, [("Author_author_id", .one none)]⟩

/-- The titles of the author's books are lost behind the list of them, and the text in the last column of the book
behind its author. -/
theorem columns_are_lost :
    Registry.build [] [authorTable, bookTable] {} = .ok libraryRegistry ∧
      titledAuthor.LoadsFrom authorModel ∧ listedBook.LoadsFrom bookModel ∧
      libraryRegistry.render authorModel titledAuthor false false =
        [("BookList", .str "Dune; Emma"), ("id", .int 1)] ∧
      libraryRegistry.render authorModel titledAuthor true false = [("BookList", .arr []), ("id", .int 1)] ∧
      libraryRegistry.render bookModel listedBook false false =
        [("Author", .str "x"), ("Author_author_id", .str "y"), ("author_id", .null), ("id", .int 1)] ∧
      libraryRegistry.render bookModel listedBook true false =
        [("Author", .str "x"), ("Author_author_id", .null), ("author_id", .null), ("id", .int 1)] := by
  refine ⟨build_library, ?_, ?_, by decide +kernel, by decide +kernel, by decide +kernel, by decide +kernel⟩
  · intro entry hentry
    rw [List.mem_singleton.mp hentry]
    exact ⟨_, List.mem_singleton_self _, rfl, rfl⟩
  · intro entry hentry
    rw [List.mem_singleton.mp hentry]
    exact ⟨_, List.mem_singleton_self _, rfl, rfl⟩

end Registry

end RestTables
