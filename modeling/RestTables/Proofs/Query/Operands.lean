import RestTables.Proofs.Query.Compiled
import RestTables.Proofs.Value.Coerce

/-
Module: RestTables.Proofs.Query.Operands
Purpose: Compiled queries are well typed: whatever a test compares a column with has the type of the column's kind.
  What does not fit the kind is reported instead, and never comes into a query.
Main exports: Predicate.HasKind, Compiler.predicate?_hasKind, Compiler.test?_hasKind, Compiler.WellTyped,
  Compiler.wellTyped_of_produces
-/

namespace RestTables

/-- The values that a test compares with. Patterns and tests for NULL have none. -/
def Predicate.operands : Predicate → List Value
  | .compare _ v => [v]
  | .isIn vs _ => vs
  | .range low high _ => [low, high]
  | .like .. | .null .. => []

/-- Every operand has the type of a kind. -/
def Predicate.HasKind (kind : Kind) (p : Predicate) : Prop := ∀ v ∈ p.operands, v.hasKind kind = true

namespace Compiler

/-! ## Tests -/

section Tests

variable {kind : Kind} {p : Predicate}

/-- What is made of values of a kind compares with such values. -/
theorem hasKind_of_isMadeOf (h : p.IsMadeOf (·.hasKind kind = true)) : p.HasKind kind := by
  cases h with
  | compare _ holds => exact List.forall_mem_singleton.mpr holds
  | isIn hold => exact hold
  | range low_holds high_holds => exact List.forall_mem_cons.mpr ⟨low_holds, List.forall_mem_singleton.mpr high_holds⟩
  | like | null => exact fun _ hv => absurd hv List.not_mem_nil

/-- A value of a query string is compared as a value of the column's kind. -/
theorem predicate?_hasKind {g : Grammar} {raw : String} (h : predicate? g kind raw = some p) : p.HasKind kind :=
  hasKind_of_isMadeOf (predicate?_isMadeOf (fun _ _ => Value.hasKind_of_ofText?) h)

/-- So is a value in a body. -/
theorem test?_hasKind {op : Operator} {v : Json} (h : test? kind op v = some p) : p.HasKind kind :=
  hasKind_of_isMadeOf (test?_isMadeOf (fun _ _ => Value.hasKind_of_ofJson?) h)

end Tests

/-! ## Filters -/

variable {c : Compiler} {acc : Compiled}

/-- A filter tests a column that was found, against values of the column's kind. -/
def TypedFilter (c : Compiler) (f : Filter) : Prop :=
  ∃ field, c.Finds f.relation field ∧ f.field = field.name ∧ ∀ p ∈ f.alternatives, p.HasKind field.kind

/-- Every filter of a query is typed. -/
def WellTyped (c : Compiler) (q : Query) : Prop := ∀ f ∈ q.filters, c.TypedFilter f

theorem WellTyped.addFilter {f : Filter} (h : c.WellTyped acc.query) (hf : c.TypedFilter f) :
    c.WellTyped (acc.addFilter f).query := by
  intro f' hf'
  rcases List.mem_append.mp hf' with hold | hnew
  · exact h f' hold
  · rw [List.mem_singleton.mp hnew]
    exact hf

/-- A query is as well typed as another one with the same filters. -/
theorem WellTyped.of_filters_eq {q q' : Query} (h : c.WellTyped q) (heq : q'.filters = q.filters) :
    c.WellTyped q' := by
  intro f hf
  rw [heq] at hf
  exact h f hf

/-- A pass over a list keeps a query well typed when each step does. -/
theorem WellTyped.foldl {α : Type} {step : Compiled → α → Compiled}
    (hstep : ∀ acc : Compiled, c.WellTyped acc.query → ∀ a, c.WellTyped (step acc a).query) (l : List α)
    (h : c.WellTyped acc.query) : c.WellTyped (l.foldl step acc).query := by
  induction l generalizing acc with
  | nil => exact h
  | cons a l ih => exact ih (hstep acc h a)

/-- A pass whose steps add no filter adds none. -/
theorem filters_foldl {α : Type} {step : Compiled → α → Compiled}
    (hstep : ∀ acc a, (step acc a).query.filters = acc.query.filters) (l : List α) :
    (l.foldl step acc).query.filters = acc.query.filters := by
  induction l generalizing acc with
  | nil => rfl
  | cons a l ih => rw [List.foldl_cons, ih, hstep]

/-! ### Query strings -/

theorem filters_directive (arg : String × String) : (c.directive acc arg).query.filters = acc.query.filters := by
  unfold directive
  split
  · apply filters_foldl
    intro acc item
    simp only [sortItem]
    split <;> rfl
  · split
    · apply filters_foldl
      intro acc item
      unfold field
      split <;> rfl
    · rfl

theorem filters_expand (value : String) : (c.expand acc value).query.filters = acc.query.filters := by
  simp only [expand]
  split
  · rfl
  · apply filters_foldl
    intro acc name
    unfold loadItem
    split <;> rfl

theorem wellTyped_clause (h : c.WellTyped acc.query) (group : String × List String) :
    c.WellTyped (c.clause acc group).query := by
  obtain ⟨key, values⟩ := group
  simp only [clause]
  split
  · exact h
  · next relation field hfound =>
    split
    · exact h
    · refine WellTyped.addFilter h ⟨field, resolve?_finds hfound, rfl, ?_⟩
      intro p hp
      obtain ⟨raw, -, hraw⟩ := List.mem_filterMap.mp hp
      exact predicate?_hasKind hraw

/-- What a query string asks for is well typed. -/
theorem wellTyped_ofArguments (c : Compiler) (args : Arguments) : c.WellTyped (c.ofArguments args).query := by
  have hfiltered : ∀ sorts filters : Arguments,
      c.WellTyped ((grouped filters).foldl c.clause (sorts.foldl c.directive {})).query := by
    intro sorts filters
    have hnone : (sorts.foldl c.directive {}).query.filters = [] := filters_foldl (fun _ => filters_directive) sorts
    apply WellTyped.foldl (fun _ => wellTyped_clause)
    intro f hf
    rw [hnone] at hf
    cases hf
  simp only [ofArguments]
  apply WellTyped.of_filters_eq (hfiltered _ _)
  split
  · exact filters_expand _
  · rfl

/-! ### Bodies -/

theorem filters_payloadField (name : String) : (c.payloadField acc name).query.filters = acc.query.filters := by
  unfold payloadField
  split <;> rfl

theorem filters_payloadLoad (entry : String × Payload.Columns) :
    (c.payloadLoad acc entry).query.filters = acc.query.filters := by
  obtain ⟨name, columns⟩ := entry
  simp only [payloadLoad]
  split
  · rfl
  · split
    · split <;> rfl
    · split
      · rfl
      · split
        · rfl
        · apply filters_foldl
          intro acc column
          rfl

theorem filters_payloadOrder (spec : Payload.SortSpec) :
    (c.payloadOrder acc spec).query.filters = acc.query.filters := by
  unfold payloadOrder
  split
  · rfl
  · simp only
    split
    · rfl
    · split <;> rfl

theorem wellTyped_payloadFilter (h : c.WellTyped acc.query) (spec : Payload.FilterSpec) :
    c.WellTyped (c.payloadFilter acc spec).query := by
  unfold payloadFilter
  split
  · exact h
  · next relation field hlocated =>
    split
    · exact h
    · split
      · exact h
      · next test htest =>
        refine WellTyped.addFilter h ⟨field, locate_finds hlocated, rfl, ?_⟩
        intro p hp
        rw [List.mem_singleton.mp hp]
        exact test?_hasKind htest

/-- What a body asks for is well typed. -/
theorem wellTyped_ofPayload (c : Compiler) (p : Payload) : c.WellTyped (c.ofPayload p).query := by
  have hnone : (p.related.foldl c.payloadLoad (p.fields.foldl c.payloadField {})).query.filters = [] := by
    rw [filters_foldl fun _ => filters_payloadLoad, filters_foldl fun _ => filters_payloadField]
  have hfilters : c.WellTyped
      (p.filters.foldl c.payloadFilter (p.related.foldl c.payloadLoad (p.fields.foldl c.payloadField {}))).query := by
    apply WellTyped.foldl (fun _ => wellTyped_payloadFilter)
    intro f hf
    rw [hnone] at hf
    cases hf
  exact hfilters.of_filters_eq (filters_foldl (fun _ => filters_payloadOrder) p.sorting)

/-- Whatever is asked, the query is well typed. -/
theorem wellTyped_of_produces {q : Query} (h : c.Produces q) : c.WellTyped q := by
  cases h with
  | arguments args => exact wellTyped_ofArguments c args
  | payload p => exact wellTyped_ofPayload c p

end Compiler

end RestTables
