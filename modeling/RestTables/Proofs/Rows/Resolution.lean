import RestTables.Proofs.Query.Operands
import RestTables.Proofs.Rows.Condition

/-
Module: RestTables.Proofs.Rows.Resolution
Purpose: The names in a compiled query are looked up once more when its statements are written. Nothing is missing
  then, and where the relations of a resource have different names, each name leads to the column it was read for.
Main exports: Registry.columnAt?, Query.Executable, Query.Resolves, Compiler.executable_of_produces
-/

namespace RestTables

variable {g : Registry} {m : Model}

/-- The column that a statement means by a name, of the resource or of what a relation leads to. -/
def Registry.columnAt? (g : Registry) (m : Model) (relation : Option String) (name : String) : Option Field :=
  match relation with
  | none => m.column? name
  | some leading =>
    match g.relationTarget m leading with
    | .ok (_, target) => target.column? name
    | .error _ => none

/-- Every statement of a query can be written. -/
structure Query.Executable (g : Registry) (m : Model) (q : Query) : Prop where
  condition : ∀ join grammar, ∃ cond, q.condition g m join grammar = .ok cond
  order : ∃ items, Query.order g m q.orders = .ok items
  related : ∀ l ∈ q.related, ∃ found : Relation × Model, g.relationTarget m l.relation = .ok found

/-- Statements mean columns by the names in a query, of the kind that the query compares them as. -/
structure Query.Resolves (g : Registry) (m : Model) (q : Query) : Prop where
  filters : ∀ f ∈ q.filters, ∃ field, g.columnAt? m f.relation f.field = some field ∧
    ∀ p ∈ f.alternatives, p.HasKind field.kind
  orders : ∀ o ∈ q.orders, ∃ field, g.columnAt? m o.relation o.field = some field
  related : ∀ l ∈ q.related, ∃ r t, g.relationTarget m l.relation = .ok (r, t) ∧
    ∀ names, l.columns = some names → ∀ name ∈ names, (t.column? name).isSome

/-! ## Names that lead somewhere -/

section Targets

/-- The target of a relation is found by the name of any relation of the model. -/
theorem Registry.exists_relationTarget_of_name (htargets : ∀ r ∈ m.relations, ∃ t, g.get? r.target = some t)
    {name : String} (hname : ∃ r ∈ m.relations, r.name = name) :
    ∃ found : Relation × Model, g.relationTarget m name = .ok found := by
  obtain ⟨r, hr, rfl⟩ := hname
  obtain ⟨s, hs, hrelated, -⟩ := Model.exists_related?_of_mem hr
  obtain ⟨t, ht⟩ := htargets s hs
  exact ⟨(s, t), by simp only [relationTarget, hrelated, ht]⟩

variable {c : Compiler} {q : Query}
  (htargets : ∀ r ∈ c.model.relations, ∃ t, c.registry.get? r.target = some t) (hq : c.Fits q)

include htargets hq

/-- A query that fits has a condition. -/
theorem Query.exists_condition (join : Join) (grammar : Grammar) :
    ∃ cond, q.condition c.registry c.model join grammar = .ok cond := by
  have hfilters : ∀ f ∈ q.filters, ∃ cond, filterCondition c.registry c.model grammar f = .ok cond ∧ True := by
    intro f hf
    obtain ⟨field, hfinds, -⟩ := (hq.filters f hf).column
    cases hrelation : f.relation with
    | none => exact ⟨_, by rw [filterCondition, hrelation], trivial⟩
    | some name =>
      rw [hrelation] at hfinds
      obtain ⟨found, hfound⟩ := Registry.exists_relationTarget_of_name htargets hfinds.1
      exact ⟨_, by simp only [filterCondition, hrelation, hfound]; rfl, trivial⟩
  have hjoins : ∃ conds, joinConditions c.registry c.model q.related join = .ok conds := by
    cases join with
    | outer => exact ⟨[], rfl⟩
    | inner =>
      refine (exists_mapM_eq_ok (R := fun _ _ => True) fun load hload => ?_).imp fun _ h => h.1
      obtain ⟨found, hfound⟩ := Registry.exists_relationTarget_of_name htargets (hq.related load hload)
      exact ⟨_, by rw [hfound]; rfl, trivial⟩
  obtain ⟨filters, hfilters, -⟩ := exists_mapM_eq_ok hfilters
  obtain ⟨joins, hjoins⟩ := hjoins
  exact ⟨_, by rw [condition, hfilters, hjoins]; rfl⟩

/-- It has an order, too. -/
theorem Query.exists_order : ∃ items, Query.order c.registry c.model q.orders = .ok items := by
  have hitems : ∀ o ∈ q.orders, ∃ item, sortItem c.registry c.model o = .ok item ∧ True := by
    intro o ho
    obtain ⟨field, hfinds, -⟩ := hq.orders o ho
    cases hrelation : o.relation with
    | none => exact ⟨_, by rw [sortItem, hrelation], trivial⟩
    | some name =>
      rw [hrelation] at hfinds
      obtain ⟨found, hfound⟩ := Registry.exists_relationTarget_of_name htargets hfinds.1
      exact ⟨_, by simp only [sortItem, hrelation, hfound]; rfl, trivial⟩
  obtain ⟨items, hitems, -⟩ := exists_mapM_eq_ok hitems
  rw [order, hitems]
  by_cases hkey : (q.orders.any fun o => o.relation.isNone && o.field == c.model.keyField.name) = true
  · exact ⟨items, if_pos hkey⟩
  · exact ⟨_, if_neg hkey⟩

/-- Whatever fits can be executed. -/
theorem Query.executable_of_fits : q.Executable c.registry c.model where
  condition := exists_condition htargets hq
  order := exists_order htargets hq
  related := fun l hl => Registry.exists_relationTarget_of_name htargets (hq.related l hl)

end Targets

/-- So can whatever is asked of a resource of a registry that was built. -/
theorem Query.executable_of_build {declared : List Model} {tables : List Table} {config : Config} {c : Compiler}
    {q : Query} (hbuild : Registry.build declared tables config = .ok c.registry) (hm : c.model ∈ c.registry.models)
    (hq : c.Produces q) : q.Executable c.registry c.model := by
  refine executable_of_fits (fun r hr => ?_) (Compiler.fits_of_produces hq)
  obtain ⟨t, ht, -⟩ := Registry.exists_target_of_build hbuild hm hr
  exact ⟨t, ht⟩

/-! ## Names that lead to what was meant -/

section Columns

variable {declared : List Model} {tables : List Table} {config : Config} {c : Compiler} {q : Query}
  (hbuild : Registry.build declared tables config = .ok c.registry) (hm : c.model ∈ c.registry.models)
  (hdistinct : c.model.DistinctRelations)

include hbuild hm hdistinct

/-- Where the relations have different names, the column that was found is the one that statements mean. -/
theorem Compiler.Finds.columnAt? {relation : Option String} {field : Field} (h : c.Finds relation field) :
    c.registry.columnAt? c.model relation field.name = some field := by
  cases relation with
  | none => exact h
  | some name =>
    obtain ⟨⟨r, hr, rfl⟩, s, hs, hnamed, t, ht, hcolumn⟩ := h
    have hsame : s = r := Model.eq_of_sameFold_name hdistinct hr hs hnamed
    rw [hsame] at ht
    obtain ⟨t', ht', htarget⟩ := Registry.exists_relationTarget hbuild hm hdistinct hr
    have heq : t' = t := Option.some.inj (ht'.symm.trans ht)
    rw [heq] at htarget
    simp only [Registry.columnAt?, htarget, hcolumn]

/-- A query that fits and is well typed means what it says. -/
theorem Query.resolves_of_fits (hfits : c.Fits q) (htyped : c.WellTyped q) : q.Resolves c.registry c.model where
  filters := by
    intro f hf
    obtain ⟨field, hfinds, hname, hkinds⟩ := htyped f hf
    refine ⟨field, ?_, hkinds⟩
    rw [hname]
    exact hfinds.columnAt? hbuild hm hdistinct
  orders := by
    intro o ho
    obtain ⟨field, hfinds, hname⟩ := hfits.orders o ho
    refine ⟨field, ?_⟩
    rw [hname]
    exact hfinds.columnAt? hbuild hm hdistinct
  related := by
    intro l hl
    obtain ⟨r, hr, hname⟩ := hfits.related l hl
    obtain ⟨t, ht, htarget⟩ := Registry.exists_relationTarget hbuild hm hdistinct hr
    refine ⟨r, t, hname ▸ htarget, ?_⟩
    intro names hnames name hmem
    obtain ⟨r', hr', hname', t', ht', hcolumns⟩ := hfits.columns l hl names hnames
    -- Names are found without regard to case, and the relations of a model are distinct that way.
    have hnamed : Text.sameFold r'.name r.name = true := by
      rw [hname', hname]
      exact Text.equalFold_refl l.relation.toList
    have hsame : r' = r := Model.eq_of_sameFold_name hdistinct hr hr' hnamed
    rw [hsame] at ht'
    have heq : t' = t := Option.some.inj (ht'.symm.trans ht)
    rw [← heq]
    exact hcolumns name hmem

end Columns

/-- Whatever is asked of a resource of a registry that was built, the query is well typed, shows only columns of the
resource and can be executed. Where the relations have different names, its statements mean what was read. -/
theorem Compiler.executable_of_produces {declared : List Model} {tables : List Table} {config : Config}
    {c : Compiler} {q : Query} (hbuild : Registry.build declared tables config = .ok c.registry)
    (hm : c.model ∈ c.registry.models) (hq : c.Produces q) :
    q.Executable c.registry c.model ∧ c.WellTyped q ∧ (∀ name ∈ q.fields, (c.model.column? name).isSome) ∧
      (c.model.DistinctRelations → q.Resolves c.registry c.model) := by
  have hfits : c.Fits q := fits_of_produces hq
  have htyped : c.WellTyped q := wellTyped_of_produces hq
  have htargets := Registry.targets_of_build hbuild hm
  exact ⟨Query.executable_of_fits htargets hfits, htyped, hfits.fields,
    fun hdistinct => Query.resolves_of_fits hbuild hm hdistinct hfits htyped⟩

/-- The author of a book is asked for by a name that statements look up again. -/
theorem Compiler.executable_bookQuery :
    bookQuery.Executable bookCompiler.registry bookModel ∧ bookQuery.Resolves bookCompiler.registry bookModel := by
  have hbuild : Registry.build [bookModel, authorModel] [] {} = .ok bookCompiler.registry := by decide +kernel
  have hdistinct : bookModel.DistinctRelations := List.pairwise_singleton _ _
  obtain ⟨hexecutable, -, -, hresolves⟩ :=
    Compiler.executable_of_produces (c := bookCompiler) hbuild List.mem_cons_self produces_bookQuery
  exact ⟨hexecutable, hresolves hdistinct⟩

end RestTables
