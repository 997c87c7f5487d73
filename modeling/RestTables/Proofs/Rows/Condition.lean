import RestTables.Proofs.Query.Compiled
import RestTables.Proofs.Query.Meaning
import RestTables.Proofs.Sql.Execution

/-
Module: RestTables.Proofs.Rows.Condition
Purpose: The condition that is sent for a query says what the query asks. Tests of a relation's column become
  searches in its target, ranges that are negated become two comparisons, and NULL makes nothing true.
Main exports: Predicate.condition_iff, Filter.condition_iff, Query.exists_condition_iff_holds
-/

namespace RestTables

open Sql

variable {E : Engine} {db : Database} {σ : Scope}

/-! ## Tests -/

/-- The comparison of an operator of order is true where the operator holds. -/
theorem Operator.compare_comparison_iff {op : Operator} (hop : op.isOrder = true) {v w : Value} :
    E.compare op.comparison v w = some true ↔ op.Holds E v w := by
  rw [Engine.compare_eq_true_iff]
  cases op with
  | eq => exact Iff.rfl
  | gt => exact ⟨fun h => ⟨h.2.1, h.1, h.2.2⟩, fun h => ⟨h.2.1, h.1, h.2.2⟩⟩
  | lt => exact Iff.rfl
  | ne => simp [comparison, Engine.decide, Operator.Holds, Engine.Differ]
  | ge =>
    simp only [comparison, Engine.decide, Operator.Holds, Engine.Less, Engine.Equal, Bool.or_eq_true]
    tauto
  | le =>
    simp only [comparison, Engine.decide, Operator.Holds, Engine.Less, Engine.Equal, Bool.or_eq_true]
    tauto
  | _ => cases hop

theorem Sql.Engine.like_eq_true_iff {escape : Char} (h : Folding E.upper escape) {pattern : String} {negated : Bool}
    {v : Value} :
    Truth.opposite negated (E.like escape pattern v) = some true ↔
      v.isSqlNull = false ∧ likeHolds (sameUpper E.upper) escape pattern.toList (E.text v) = !negated := by
  rw [Engine.like, h.likeHolds_map_upper]
  cases v.isSqlNull with
  | true => simp [Truth.opposite]
  | false =>
    cases likeHolds (sameUpper E.upper) escape pattern.toList (E.text v) <;> cases negated <;>
      simp [Truth.opposite]

/-- A test's condition is true where the test holds of the column's value. -/
theorem Predicate.condition_iff {escape : Char} (h : Folding E.upper escape) {p : Predicate}
    (hp : p.isOrdered = true) {column : Column} :
    (p.condition escape column).eval E db σ = some true ↔ p.Holds E escape (σ.value column) := by
  cases p with
  | compare op w =>
    rw [condition, Condition.eval_compare]
    exact Operator.compare_comparison_iff hp
  | like pattern negated =>
    simp only [condition, Condition.eval, Holds]
    exact Engine.like_eq_true_iff h
  | isIn values negated =>
    cases negated with
    | false =>
      simp only [condition, Condition.eval, Truth.opposite_false, Holds]
      exact Engine.member_eq_true_iff
    | true =>
      simp only [condition, Condition.eval, Truth.opposite_true_eq_true_iff, Engine.member_eq_false_iff, Holds]
      exact forall₂_congr fun w _ => Engine.compare_eq_false_iff
  | null negated =>
    simp only [condition, Condition.eval, Holds, Option.some.injEq, bne_iff_ne]
    cases (σ.value column).isSqlNull <;> cases negated <;> simp
  | range low high negated =>
    have horder : ∀ (op : Operator) (w : Value), op.isOrder = true →
        (E.compare op.comparison (σ.value column) w = some true ↔ op.Holds E (σ.value column) w) :=
      fun op w hop => Operator.compare_comparison_iff hop
    cases negated with
    | false =>
      simp only [condition, Condition.eval, Truth.conj_eq_true_iff, List.forall_mem_cons, List.not_mem_nil,
        false_imp_iff, implies_true, and_true, Holds]
      exact and_congr (horder .ge low rfl) (horder .le high rfl)
    | true =>
      rw [condition, Condition.eval_any_iff]
      simp only [List.exists_mem_cons_iff, List.not_mem_nil, false_and, exists_false, or_false,
        Condition.eval_compare, Holds]
      exact or_congr (horder .lt low rfl) (horder .gt high rfl)

/-- A filter's condition is true where one of its tests holds. -/
theorem Filter.condition_iff {escape : Char} (h : Folding E.upper escape) {f : Filter}
    (hf : ∀ p ∈ f.alternatives, p.isOrdered = true) {table : String} :
    (f.condition escape table).eval E db σ = some true ↔
      ∃ p ∈ f.alternatives, p.Holds E escape (σ.value ⟨table, f.field⟩) := by
  rw [condition, Condition.eval_any_iff]
  constructor
  · rintro ⟨c, hc, htrue⟩
    obtain ⟨p, hp, rfl⟩ := List.mem_map.mp hc
    exact ⟨p, hp, (Predicate.condition_iff h (hf p hp)).mp htrue⟩
  · rintro ⟨p, hp, hholds⟩
    exact ⟨_, List.mem_map_of_mem hp, (Predicate.condition_iff h (hf p hp)).mpr hholds⟩

/-- The pattern of a search matches the values that contain the term. -/
theorem Sql.Engine.like_containment_iff {grammar : Grammar} (hescape : grammar.escape ≠ '%')
    (hfold : Folding E.upper grammar.escape) {term : String} {v : Value} :
    E.like grammar.escape (String.ofList (containment grammar term.toList)) v = some true ↔
      E.Contains v term := by
  rw [Engine.like, String.toList_ofList, hfold.containment_map]
  unfold Engine.Contains
  cases v.isSqlNull with
  | true => simp
  | false => simp [likeHolds_containment_iff grammar hescape]

/-! ## Lists of conditions -/

theorem exists_mapM_eq_ok {α β ε : Type} {f : α → Except ε β} {R : α → β → Prop} {l : List α}
    (h : ∀ a ∈ l, ∃ b, f a = .ok b ∧ R a b) : ∃ bs, l.mapM f = .ok bs ∧ List.Forall₂ R l bs := by
  induction l with
  | nil => exact ⟨[], rfl, .nil⟩
  | cons a l ih =>
    obtain ⟨b, hb, hR⟩ := h a List.mem_cons_self
    obtain ⟨bs, hbs, hRs⟩ := ih fun a' ha' => h a' (List.mem_cons_of_mem a ha')
    refine ⟨b :: bs, ?_, .cons hR hRs⟩
    rw [List.mapM_cons, hb, hbs]
    rfl

/-- A condition is true of exactly the rows of a table that have a property, in every database that folds
capitals without touching the marks of patterns. -/
def Sql.Condition.Expresses (escape : Char) (table : String) (P : Engine → Database → StoredRow → Prop)
    (c : Condition) : Prop :=
  ∀ E : Engine, Folding E.upper escape → ∀ db row, c.eval E db [(table, row)] = some true ↔ P E db row

theorem forall_eval_iff {α : Type} {escape : Char} {table : String}
    {P : α → Engine → Database → StoredRow → Prop} {l : List α} {cs : List Condition}
    (h : List.Forall₂ (fun a c => c.Expresses escape table (P a)) l cs) (hfold : Folding E.upper escape)
    (row : StoredRow) :
    (∀ c ∈ cs, c.eval E db [(table, row)] = some true) ↔ ∀ a ∈ l, P a E db row := by
  induction h with
  | nil => simp
  | cons hc _ ih =>
    rw [List.forall_mem_cons, List.forall_mem_cons, ih]
    exact and_congr_left' (hc E hfold db row)

/-! ## Queries -/

section Queries

variable {declared : List Model} {tables : List Table} {config : Config} {c : Compiler}

/-- A row meets the condition of a relation when the relation leads to a row that meets the inner one. -/
theorem relatedCondition_iff {m target : Model} {r : Relation} {inner : Condition} {row : StoredRow} :
    (relatedCondition m r target (some inner)).eval E db [(m.table, row)] = some true ↔
      ∃ row' ∈ db target.table, inner.eval E db [(relatedAlias, row'), (m.table, row)] = some true ∧
        E.Equal (row r.localKey) (row' r.remoteKey) := by
  rw [relatedCondition, Condition.eval_isInTable_some_iff]
  simp only [Scope.value_cons_self]

theorem relatedCondition_none_iff {m target : Model} {r : Relation} {row : StoredRow} :
    (relatedCondition m r target none).eval E db [(m.table, row)] = some true ↔
      ∃ row' ∈ db target.table, E.Equal (row r.localKey) (row' r.remoteKey) := by
  rw [relatedCondition, Condition.eval_isInTable_none_iff]
  simp only [Scope.value_cons_self]

/-- With different names, a name leads only along its own relation and to that relation's target. -/
theorem Model.leadsTo_iff {g : Registry} {m target : Model} {r : Relation} (hdistinct : m.DistinctRelations)
    (hr : r ∈ m.relations) (ht : g.get? r.target = some target) {row row' : StoredRow} :
    m.LeadsTo E db g r.name row row' ↔
      row' ∈ db target.table ∧ E.Equal (row r.localKey) (row' r.remoteKey) := by
  constructor
  · rintro ⟨s, hs, hname, t, hget, hrow', hequal⟩
    have hfold : Text.sameFold s.name r.name = true := by
      rw [hname]
      exact Text.equalFold_refl r.name.toList
    have heq : s = r := Model.eq_of_sameFold_name hdistinct hr hs hfold
    rw [heq] at hget hequal
    have htarget : t = target := Option.some.inj (hget.symm.trans ht)
    rw [htarget] at hrow'
    exact ⟨hrow', hequal⟩
  · rintro ⟨hrow', hequal⟩
    exact ⟨r, hr, rfl, target, ht, hrow', hequal⟩

/-- The search is true of the rows that have the term in a column that can be searched. -/
theorem Query.searchCondition_iff {m : Model} {grammar : Grammar} (hescape : grammar.escape ≠ '%')
    (hfold : Folding E.upper grammar.escape) {term : Option String} {row : StoredRow} :
    (∀ c ∈ Query.searchCondition m grammar term, c.eval E db [(m.table, row)] = some true) ↔
      ∀ t, term = some t → m.searchable ≠ [] → ∃ name ∈ m.searchable, E.Contains (row name) t := by
  cases term with
  | none => simp [searchCondition]
  | some term =>
    simp only [searchCondition, Option.some.injEq, forall_eq', List.isEmpty_iff]
    split
    · next hnone => simp [hnone]
    · next hsome =>
      rw [List.forall_mem_singleton, Condition.eval_any_iff]
      -- The term is escaped, so its pattern matches the texts that contain it.
      have hlike : ∀ name, (Condition.like ⟨m.table, name⟩
          (String.ofList ('%' :: grammar.escapeLike term.toList ++ ['%'])) grammar.escape false).eval E db
            [(m.table, row)] = some true ↔ E.Contains (row name) term := by
        intro name
        simp only [Condition.eval, Truth.opposite_false, Scope.value_cons_self]
        exact Engine.like_containment_iff hescape hfold
      constructor
      · rintro ⟨_, hmem, htrue⟩ _
        obtain ⟨name, hname, rfl⟩ := List.mem_map.mp hmem
        exact ⟨name, hname, (hlike name).mp htrue⟩
      · intro h
        obtain ⟨name, hname, hcontains⟩ := h hsome
        exact ⟨_, List.mem_map_of_mem hname, (hlike name).mpr hcontains⟩

/-- A filter that fits has a condition, and the condition says what the filter asks. -/
theorem Query.exists_filterCondition (hbuild : Registry.build declared tables config = .ok c.registry)
    (hm : c.model ∈ c.registry.models) (hdistinct : c.model.DistinctRelations) {f : Filter}
    (hf : c.FitsFilter f) :
    ∃ cond, Query.filterCondition c.registry c.model c.grammar f = .ok cond ∧
      cond.Expresses c.grammar.escape c.model.table fun E db row =>
        f.Holds E db c.registry c.model c.grammar.escape row := by
  cases hrelation : f.relation with
  | none =>
    refine ⟨f.condition c.grammar.escape c.model.table, by rw [filterCondition, hrelation], ?_⟩
    intro E hfold db row
    rw [Filter.condition_iff hfold hf.tests]
    simp only [Filter.Holds, hrelation, Scope.value_cons_self]
  | some name =>
    obtain ⟨field, hfinds, -⟩ := hf.column
    rw [hrelation] at hfinds
    obtain ⟨⟨r, hr, rfl⟩, -⟩ := hfinds
    obtain ⟨t, ht, htarget⟩ := Registry.exists_relationTarget hbuild hm hdistinct hr
    refine ⟨relatedCondition c.model r t (some (f.condition c.grammar.escape relatedAlias)), ?_, ?_⟩
    · simp only [filterCondition, hrelation, htarget]
      rfl
    · intro E hfold db row
      rw [relatedCondition_iff]
      simp only [Filter.Holds, hrelation, Model.leadsTo_iff hdistinct hr ht, Filter.condition_iff hfold hf.tests,
        Scope.value_cons_self]
      constructor
      · rintro ⟨row', hrow', htests, hequal⟩
        exact ⟨row', ⟨hrow', hequal⟩, htests⟩
      · rintro ⟨row', ⟨hrow', hequal⟩, htests⟩
        exact ⟨row', hrow', htests, hequal⟩

/-- A relation to read has a condition under an inner join, which says that it leads to some row. -/
theorem Query.exists_joinCondition (hbuild : Registry.build declared tables config = .ok c.registry)
    (hm : c.model ∈ c.registry.models) (hdistinct : c.model.DistinctRelations) {load : Load}
    (hload : ∃ r ∈ c.model.relations, r.name = load.relation) :
    ∃ cond, (do
        let (relation, target) ← c.registry.relationTarget c.model load.relation
        return relatedCondition c.model relation target none) = Except.ok cond ∧
      cond.Expresses c.grammar.escape c.model.table fun E db row =>
        ∃ row', c.model.LeadsTo E db c.registry load.relation row row' := by
  obtain ⟨r, hr, hname⟩ := hload
  obtain ⟨t, ht, htarget⟩ := Registry.exists_relationTarget hbuild hm hdistinct hr
  rw [hname] at htarget
  refine ⟨relatedCondition c.model r t none, by rw [htarget]; rfl, ?_⟩
  intro E _ db row
  rw [relatedCondition_none_iff, ← hname]
  simp only [Model.leadsTo_iff hdistinct hr ht]

theorem Query.exists_joinConditions (hbuild : Registry.build declared tables config = .ok c.registry)
    (hm : c.model ∈ c.registry.models) (hdistinct : c.model.DistinctRelations) {loads : List Load}
    (hloads : ∀ l ∈ loads, ∃ r ∈ c.model.relations, r.name = l.relation) (join : Join) :
    ∃ conds, Query.joinConditions c.registry c.model loads join = .ok conds ∧
      ∀ E : Engine, Folding E.upper c.grammar.escape → ∀ db row,
        (∀ cond ∈ conds, cond.eval E db [(c.model.table, row)] = some true) ↔
          (join = .inner → ∀ l ∈ loads, ∃ row', c.model.LeadsTo E db c.registry l.relation row row') := by
  cases join with
  | outer => exact ⟨[], rfl, fun E _ db row => by simp⟩
  | inner =>
    obtain ⟨conds, hconds, hexpress⟩ := exists_mapM_eq_ok fun l hl =>
      exists_joinCondition hbuild hm hdistinct (hloads l hl)
    refine ⟨conds, hconds, ?_⟩
    intro E hfold db row
    rw [forall_eval_iff hexpress hfold row]
    simp

/-- The condition of a query is true of exactly the rows that meet all that the query asks. -/
theorem Query.exists_condition_iff_holds (hbuild : Registry.build declared tables config = .ok c.registry)
    (hm : c.model ∈ c.registry.models) (hdistinct : c.model.DistinctRelations)
    (hescape : c.grammar.escape ≠ '%') {q : Query} (hq : c.Produces q) (join : Join) :
    ∃ cond, q.condition c.registry c.model join c.grammar = .ok cond ∧
      ∀ E : Engine, Folding E.upper c.grammar.escape → ∀ db row,
        cond.eval E db [(c.model.table, row)] = some true ↔
          q.Holds E db c.registry c.model c.grammar.escape join row := by
  have hfits : c.Fits q := Compiler.fits_of_produces hq
  obtain ⟨filters, hfilters, hexpress⟩ := exists_mapM_eq_ok fun f hf =>
    exists_filterCondition hbuild hm hdistinct (hfits.filters f hf)
  obtain ⟨joins, hjoins, hjoined⟩ := exists_joinConditions hbuild hm hdistinct hfits.related join
  refine ⟨.all (filters ++ searchCondition c.model c.grammar q.search ++ joins), ?_, ?_⟩
  · rw [condition, hfilters, hjoins]
    rfl
  · intro E hfold db row
    rw [Condition.eval_all_iff, List.forall_mem_append, List.forall_mem_append,
      forall_eval_iff hexpress hfold row, searchCondition_iff hescape hfold, hjoined E hfold db row]
    constructor
    · rintro ⟨⟨hown, hsearch⟩, hjoin⟩
      exact ⟨hown, hsearch, hjoin⟩
    · rintro ⟨hown, hsearch, hjoin⟩
      exact ⟨⟨hown, hsearch⟩, hjoin⟩

end Queries

/-! ## A library -/

/-- Books, each of which has an author. -/
def bookModel : Model :=
  { (default : Model) with
    name := "Book"
    table := "book"
    url := "/book"
    columns := [(Field.new "id" .integer).primaryKey, .new "title" .string, .new "year" .integer,
      .new "author_id" .integer]
    keyField := (Field.new "id" .integer).primaryKey
    relations := [.scalar "author" "Author" "author_id" "id"] }

/-- Authors. -/
def authorModel : Model :=
  { (default : Model) with
    name := "Author"
    table := "author"
    url := "/author"
    columns := [(Field.new "id" .integer).primaryKey, .new "name" .string]
    keyField := (Field.new "id" .integer).primaryKey
    relations := [.collection "books" "Book" "id" "author_id"] }

/-- A declaration of a model, as it is. -/
def Model.toDeclaration (m : Model) : Model.Declaration :=
  { name := m.name, table := m.table, url := some m.url, description := m.description
    collectionSuffix := m.collectionSuffix, fields := m.columns, relations := m.relations, methods := some m.methods }

/-- The models of the library can be declared. -/
theorem exists_declaration_of_library : ∀ m ∈ [bookModel, authorModel], ∃ d : Model.Declaration, d.build = .ok m := by
  intro m hm
  simp only [List.mem_cons, List.not_mem_nil, or_false] at hm
  rcases hm with rfl | rfl
  · exact ⟨bookModel.toDeclaration, by decide +kernel⟩
  · exact ⟨authorModel.toDeclaration, by decide +kernel⟩

/-- A compiler of queries on books. -/
def bookCompiler : Compiler := { registry := ⟨[bookModel, authorModel]⟩, model := bookModel }

/-- Books outside the nineties with a pattern in the title, by an author. -/
def bookArguments : Arguments :=
  [("title", "%the %"), ("year", "!(1990;1999)"), ("author.name", "Ann"), ("_search", "ART"), ("_related", "author")]

/-- What is asked for when these arguments are read. -/
def bookQuery : Query :=
  { filters :=
      [⟨none, "title", [.like "the %" false]⟩,
       ⟨none, "year", [.range (.bigInt (some 1990)) (.bigInt (some 1999)) true]⟩,
       ⟨some "author", "name", [.compare .eq (.string (some "Ann"))]⟩]
    related := [⟨"author", none⟩]
    search := some "ART" }

/-- A book of the year 2001. -/
def bookRow : StoredRow := fun name =>
  if name = "title" then .string (some "The art")
  else if name = "year" then .bigInt (some 2001)
  else .bigInt (some 7)

/-- Its author. -/
def authorRow : StoredRow := fun name => if name = "name" then .string (some "Ann") else .bigInt (some 7)

/-- A database with that book and that author. -/
def libraryDb : Database := fun table =>
  if table = "book" then [bookRow] else if table = "author" then [authorRow] else []

theorem produces_bookQuery : bookCompiler.Produces bookQuery := by
  have hquery : (bookCompiler.ofArguments bookArguments).query = bookQuery := by decide +kernel
  rw [← hquery]
  exact .arguments bookArguments

/-- The author relation leads from the book to its author. -/
theorem leadsTo_author {E : Engine} (hequal : E.Equal (.bigInt (some 7)) (.bigInt (some 7))) :
    bookModel.LeadsTo E libraryDb bookCompiler.registry "author" bookRow authorRow :=
  ⟨_, List.mem_singleton_self _, rfl, authorModel, by decide +kernel, List.mem_singleton_self _, hequal⟩

/-- The book meets all that is asked. -/
theorem holds_bookQuery :
    bookQuery.Holds (.plain []) libraryDb bookCompiler.registry bookModel '\\' .inner bookRow := by
  have hauthor := leadsTo_author (E := .plain []) (Engine.plain_equal_iff.mpr (by decide))
  constructor
  · intro f hf
    simp only [bookQuery, List.mem_cons, List.not_mem_nil, or_false] at hf
    rcases hf with rfl | rfl | rfl
    · exact ⟨_, List.mem_singleton_self _, rfl, by decide +kernel⟩
    · exact ⟨_, List.mem_singleton_self _, .inr ⟨rfl, rfl, by decide +kernel⟩⟩
    · exact ⟨authorRow, hauthor, _, List.mem_singleton_self _, Engine.plain_equal_iff.mpr (by decide +kernel)⟩
  · intro term hterm _
    cases hterm
    exact ⟨"title", by decide +kernel, rfl, "THE ".toList, [], by decide +kernel⟩
  · intro _ l hl
    rw [List.mem_singleton.mp hl]
    exact ⟨authorRow, hauthor⟩

/-- The condition that is sent is true of the book. -/
theorem Query.condition_holds_of_book :
    ∃ cond, bookQuery.condition bookCompiler.registry bookModel .inner {} = .ok cond ∧
      cond.eval (.plain []) libraryDb [("book", bookRow)] = some true := by
  have hbuild : Registry.build [bookModel, authorModel] [] {} = .ok bookCompiler.registry := by decide +kernel
  have hdistinct : bookModel.DistinctRelations := List.pairwise_singleton _ _
  obtain ⟨cond, hcond, hiff⟩ := Query.exists_condition_iff_holds (c := bookCompiler) hbuild List.mem_cons_self
    hdistinct (by decide) produces_bookQuery .inner
  refine ⟨cond, hcond, ?_⟩
  have htrue := hiff (.plain []) Engine.folding_plain libraryDb bookRow
  exact htrue.mpr holds_bookQuery

end RestTables
