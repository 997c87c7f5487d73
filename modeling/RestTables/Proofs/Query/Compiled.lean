import RestTables.Proofs.Registry.Relations
import RestTables.Query.Arguments
import RestTables.Query.Payload

/-
Module: RestTables.Proofs.Query.Compiled
Purpose: What every compiled query is made of, whichever way it was asked: columns that were found, relations
  of the resource, and comparisons by operators of order. Each part that is read keeps this so.
Main exports: Predicate.IsMadeOf, Compiler.Finds, Compiler.Fits, Compiler.Produces, Compiler.predicate?_isMadeOf,
  Compiler.test?_isMadeOf, Compiler.fits_of_produces
-/

namespace RestTables

/-- The operator has a comparison of its own. -/
def Operator.isOrder : Operator → Bool
  | .eq | .ne | .gt | .ge | .lt | .le => true
  | _ => false

/-- A test compares only by an operator of order. -/
def Predicate.isOrdered : Predicate → Bool
  | .compare op _ => op.isOrder
  | _ => true

/-- A test is made of values of which something holds, and compares only by an operator of order. -/
inductive Predicate.IsMadeOf (P : Value → Prop) : Predicate → Prop
  | compare {op : Operator} {v : Value} (ordered : op.isOrder = true) (holds : P v) : IsMadeOf P (.compare op v)
  | like (pattern : String) (negated : Bool) : IsMadeOf P (.like pattern negated)
  | isIn {vs : List Value} {negated : Bool} (hold : ∀ v ∈ vs, P v) : IsMadeOf P (.isIn vs negated)
  | null (negated : Bool) : IsMadeOf P (.null negated)
  | range {low high : Value} {negated : Bool} (low_holds : P low) (high_holds : P high) :
    IsMadeOf P (.range low high negated)

theorem Predicate.IsMadeOf.isOrdered {P : Value → Prop} {p : Predicate} (h : p.IsMadeOf P) : p.isOrdered = true := by
  cases h with
  | compare ordered => exact ordered
  | like | isIn | null | range => rfl

namespace Compiler

/-- A column of the resource or, behind the name of a relation, of the target of one so named. -/
def Finds (c : Compiler) (relation : Option String) (field : Field) : Prop :=
  match relation with
  | none => c.model.column? field.name = some field
  | some name =>
    (∃ r ∈ c.model.relations, r.name = name) ∧
      ∃ s ∈ c.model.relations, s.isNamed name = true ∧
        ∃ t, c.target? s = some t ∧ t.column? field.name = some field

/-- A filter tests a column that was found, in ways that make sense. -/
structure FitsFilter (c : Compiler) (f : Filter) : Prop where
  column : ∃ field, c.Finds f.relation field ∧ f.field = field.name
  tests : ∀ p ∈ f.alternatives, p.isOrdered = true

/-- The columns to read of what a relation leads to are those of the target of a relation so named. -/
def FitsColumns (c : Compiler) (l : Load) : Prop :=
  ∀ names, l.columns = some names → ∃ r ∈ c.model.relations, r.name = l.relation ∧
    ∃ t, c.target? r = some t ∧ ∀ name ∈ names, (t.column? name).isSome

/-- Every part of a query is about what was found. -/
structure Fits (c : Compiler) (q : Query) : Prop where
  fields : ∀ name ∈ q.fields, (c.model.column? name).isSome
  filters : ∀ f ∈ q.filters, c.FitsFilter f
  orders : ∀ o ∈ q.orders, ∃ field, c.Finds o.relation field ∧ o.field = field.name
  related : ∀ l ∈ q.related, ∃ r ∈ c.model.relations, r.name = l.relation
  columns : ∀ l ∈ q.related, c.FitsColumns l

/-- The queries that can be asked for, in either of the two ways. -/
inductive Produces (c : Compiler) : Query → Prop where
  | arguments (args : Arguments) : c.Produces (c.ofArguments args).query
  | payload (p : Payload) : c.Produces (c.ofPayload p).query

variable {c : Compiler}

/-! ## Names -/

theorem name_of_column? {m : Model} {name : String} {field : Field} (h : m.column? name = some field) :
    field.name = name := by
  have hname := List.find?_some h
  simpa using hname

theorem finds_of_column? {name : String} {field : Field} (h : c.model.column? name = some field) :
    c.Finds none field := by
  have hname : field.name = name := name_of_column? h
  simpa [Finds, hname] using h

theorem resolve?_finds {name : String} {relation : Option String} {field : Field}
    (h : c.resolve? name = some (relation, field)) : c.Finds relation field := by
  unfold resolve? at h
  split at h
  · next f hf =>
    cases h
    exact finds_of_column? hf
  · simp only [Option.bind_eq_bind, Option.bind_eq_some_iff, Prod.exists, Option.some.injEq, Prod.mk.injEq] at h
    obtain ⟨before, behind, -, r, hr, t, ht, f, hf, rfl, rfl⟩ := h
    have hmem : r ∈ c.model.relations := Model.mem_relations_of_related? hr
    have hself : r.isNamed r.name = true := Text.equalFold_refl r.name.toList
    have hname : f.name = String.ofList behind := name_of_column? hf
    rw [← hname] at hf
    exact ⟨⟨r, hmem, rfl⟩, r, hmem, hself, t, ht, hf⟩

/-- A name in a body is that of the resource, or leads to one of its relations. -/
theorem exists_of_model? {model : Option String} {name : String} (h : c.model? model = some (some name)) :
    ∃ r ∈ c.model.relations, r.name = name := by
  unfold model? at h
  split at h
  · cases h
  · next asked =>
    split at h
    · cases h
    · obtain ⟨r, hr, hname⟩ := Option.map_eq_some_iff.mp h
      cases hname
      exact ⟨r, Model.mem_relations_of_related? hr, rfl⟩

theorem locate_finds {model relation : Option String} {name : String} {field : Field}
    (h : c.locate model name = .ok (relation, field)) : c.Finds relation field := by
  unfold locate at h
  split at h
  · cases h
  · next relation' hmodel =>
    split at h
    · cases h
    · next f hf =>
      cases h
      cases relation with
      | none => exact finds_of_column? hf
      | some leading =>
        obtain ⟨r, hr, rfl⟩ := exists_of_model? hmodel
        obtain ⟨s, hs, hrelated, hnamed⟩ := Model.exists_related?_of_mem hr
        simp only [fieldOf?, hrelated, Option.bind_eq_bind, Option.bind_some, Option.bind_eq_some_iff] at hf
        obtain ⟨t, ht, hcolumn⟩ := hf
        have hname : field.name = name := name_of_column? hcolumn
        rw [← hname] at hcolumn
        exact ⟨⟨r, hr, rfl⟩, s, hs, hnamed, t, ht, hcolumn⟩

/-! ## Tests -/

theorem comparison?_isOrder {g : Grammar} {s rest : List Char} {op : Operator}
    (h : comparison? g s = some (op, rest)) : op.isOrder = true := by
  obtain ⟨⟨mark, op'⟩, hmem, hmark⟩ := List.exists_of_findSome?_eq_some h
  have hop : op' = op := by
    obtain ⟨_, -, heq⟩ := Option.map_eq_some_iff.mp hmark
    cases heq
    rfl
  simp only [comparisons, List.mem_cons, Prod.mk.injEq, List.not_mem_nil, or_false] at hmem
  rw [← hop]
  rcases hmem with ⟨-, rfl⟩ | ⟨-, rfl⟩ | ⟨-, rfl⟩ | ⟨-, rfl⟩ <;> rfl

/-- Where values are read one by one, each comes from one that was read. -/
theorem exists_read_of_mem {α β : Type} {f : α → Option β} {l : List α} {bs : List β} (h : l.mapM f = some bs) :
    ∀ b ∈ bs, ∃ a ∈ l, f a = some b := by
  induction l generalizing bs with
  | nil =>
    cases h
    simp
  | cons a l ih =>
    simp only [List.mapM_cons, Option.bind_eq_bind, Option.bind_eq_some_iff, Option.pure_def,
      Option.some.injEq] at h
    obtain ⟨b, hb, rest, hrest, rfl⟩ := h
    refine List.forall_mem_cons.mpr ⟨⟨a, List.mem_cons_self, hb⟩, fun c hc => ?_⟩
    obtain ⟨read, hread, heq⟩ := ih hrest c hc
    exact ⟨read, List.mem_cons_of_mem a hread, heq⟩

/-- Values that are read one by one have what each of them has. -/
theorem forall_mem_of_mapM {α β : Type} {f : α → Option β} {P : β → Prop} (hf : ∀ a b, f a = some b → P b) {l : List α}
    {bs : List β} (h : l.mapM f = some bs) : ∀ b ∈ bs, P b := by
  intro b hb
  obtain ⟨a, -, hread⟩ := exists_read_of_mem h b hb
  exact hf a b hread

section Tests

variable {kind : Kind} {P : Value → Prop} {p : Predicate}

section Texts

variable {g : Grammar} (hread : ∀ s v, Value.ofText? kind s = some v → P v)

include hread

theorem membership?_isMadeOf {items : List (List Char)} (h : membership? g kind items = some p) : p.IsMadeOf P := by
  cases items with
  | nil => cases h
  | cons first rest =>
    simp only [membership?] at h
    split at h
    · split at h
      · cases h
        exact .null _
      · obtain ⟨v, hv, rfl⟩ := Option.map_eq_some_iff.mp h
        refine .compare ?_ (hread _ v hv)
        split <;> rfl
    · obtain ⟨vs, hvs, rfl⟩ := Option.map_eq_some_iff.mp h
      exact .isIn (forall_mem_of_mapM (fun _ => hread _) hvs)

theorem rangeOf?_isMadeOf {negated : Bool} {items : List (List Char)} (h : rangeOf? kind negated items = some p) :
    p.IsMadeOf P := by
  unfold rangeOf? at h
  split at h
  · simp only [Option.bind_eq_bind, Option.bind_eq_some_iff, Option.some.injEq] at h
    obtain ⟨low, hlow, high, hhigh, rfl⟩ := h
    exact .range (hread _ low hlow) (hread _ high hhigh)
  · cases h

/-- What a value of a query string asks for is made of the values that are read from its text. -/
theorem predicate?_isMadeOf {raw : String} (h : predicate? g kind raw = some p) : p.IsMadeOf P := by
  simp only [predicate?] at h
  split at h
  · cases h
  · split at h
    · next op rest hop =>
      obtain ⟨v, hv, rfl⟩ := Option.map_eq_some_iff.mp h
      exact .compare (comparison?_isOrder hop) (hread _ v hv)
    · split at h
      · cases h
        exact .like _ _
      · split at h
        · exact rangeOf?_isMadeOf hread h
        · exact membership?_isMadeOf hread h

end Texts

/-- What a value of a body asks for is made of the values that are read from it. -/
theorem test?_isMadeOf {op : Operator} {v : Json} (hread : ∀ j w, Value.ofJson? kind j = some w → P w)
    (h : test? kind op v = some p) : p.IsMadeOf P := by
  have hcompare : ∀ op : Operator, op.isOrder = true →
      (Value.ofJson? kind v).map (.compare op) = some p → p.IsMadeOf P := by
    intro op hop hp
    obtain ⟨w, hw, rfl⟩ := Option.map_eq_some_iff.mp hp
    exact .compare hop (hread _ w hw)
  have hoperands : ∀ vs, operands? kind v = some vs → ∀ w ∈ vs, P w := by
    intro vs hvs
    obtain ⟨items, -, hitems⟩ := Option.bind_eq_some_iff.mp hvs
    exact forall_mem_of_mapM hread hitems
  -- operators that make tests of one form go together
  cases op with
  | eq | ne =>
    simp only [test?] at h
    split at h
    · cases h
      exact .null _
    · exact hcompare _ rfl h
  | gt | ge | lt | le => exact hcompare _ rfl h
  | like | notLike =>
    obtain ⟨pattern, -, rfl⟩ := Option.map_eq_some_iff.mp h
    exact .like _ _
  | isIn | notIn =>
    obtain ⟨vs, hvs, rfl⟩ := Option.map_eq_some_iff.mp h
    exact .isIn (hoperands vs hvs)
  | isNull | isNotNull =>
    cases h
    exact .null _
  | between | notBetween =>
    obtain ⟨vs, hvs, hrange⟩ := Option.bind_eq_some_iff.mp h
    split at hrange
    · next low high =>
      cases hrange
      exact .range (hoperands _ hvs low (by simp)) (hoperands _ hvs high (by simp))
    · cases hrange

/-- A value of a query string compares only by an operator of order, and so does a value of a body. -/
theorem predicate?_isOrdered {g : Grammar} {raw : String} (h : predicate? g kind raw = some p) : p.isOrdered = true :=
  (predicate?_isMadeOf (fun _ _ _ => trivial) h : p.IsMadeOf fun _ => True).isOrdered

theorem test?_isOrdered {op : Operator} {v : Json} (h : test? kind op v = some p) : p.isOrdered = true :=
  (test?_isMadeOf (fun _ _ _ => trivial) h : p.IsMadeOf fun _ => True).isOrdered

end Tests

/-! ## Steps -/

section Steps

variable {acc : Compiled}

theorem fits_empty (c : Compiler) : c.Fits ({} : Compiled).query := by
  constructor <;> simp

theorem Fits.reject (h : c.Fits acc.query) (part : String) : c.Fits (acc.reject part).query := h

theorem Fits.addField {name : String} (h : c.Fits acc.query) (hname : (c.model.column? name).isSome) :
    c.Fits (acc.addField name).query := by
  refine ⟨?_, h.filters, h.orders, h.related, h.columns⟩
  intro n hn
  rcases List.mem_append.mp hn with hold | hnew
  · exact h.fields n hold
  · rw [List.mem_singleton.mp hnew]
    exact hname

theorem Fits.addFilter {f : Filter} (h : c.Fits acc.query) (hf : c.FitsFilter f) :
    c.Fits (acc.addFilter f).query := by
  refine ⟨h.fields, ?_, h.orders, h.related, h.columns⟩
  intro f' hf'
  rcases List.mem_append.mp hf' with hold | hnew
  · exact h.filters f' hold
  · rw [List.mem_singleton.mp hnew]
    exact hf

theorem Fits.addOrder {relation : Option String} {field : Field} (h : c.Fits acc.query)
    (hfinds : c.Finds relation field) (descending : Bool) :
    c.Fits (acc.addOrder ⟨relation, field.name, descending⟩).query := by
  refine ⟨h.fields, h.filters, ?_, h.related, h.columns⟩
  intro o ho
  rcases List.mem_append.mp ho with hold | hnew
  · exact h.orders o hold
  · rw [List.mem_singleton.mp hnew]
    exact ⟨field, hfinds, rfl⟩

theorem Fits.addLoad {r : Relation} {columns : Option (List String)} (h : c.Fits acc.query)
    (hr : r ∈ c.model.relations) (hcolumns : c.FitsColumns ⟨r.name, columns⟩) :
    c.Fits (acc.addLoad ⟨r.name, columns⟩).query := by
  refine ⟨h.fields, h.filters, h.orders, ?_, ?_⟩
  · intro l hl
    rcases List.mem_append.mp hl with hold | hnew
    · exact h.related l hold
    · rw [List.mem_singleton.mp hnew]
      exact ⟨r, hr, rfl⟩
  · intro l hl
    rcases List.mem_append.mp hl with hold | hnew
    · exact h.columns l hold
    · rw [List.mem_singleton.mp hnew]
      exact hcolumns

/-- All columns are read of what is not restricted to some. -/
theorem fitsColumns_none (c : Compiler) (relation : String) : c.FitsColumns ⟨relation, none⟩ := nofun

theorem Fits.search {q : Query} (h : c.Fits q) (term : Option String) : c.Fits { q with search := term } :=
  ⟨h.fields, h.filters, h.orders, h.related, h.columns⟩

/-- A pass over a list keeps a query fitting when each step does. -/
theorem Fits.foldl {α : Type} {step : Compiled → α → Compiled}
    (hstep : ∀ acc : Compiled, c.Fits acc.query → ∀ a, c.Fits (step acc a).query) (l : List α)
    (h : c.Fits acc.query) : c.Fits (l.foldl step acc).query := by
  induction l generalizing acc with
  | nil => exact h
  | cons a l ih => exact ih (hstep acc h a)

/-! ### Query strings -/

theorem fits_field (h : c.Fits acc.query) (item : String) : c.Fits (c.field acc item).query := by
  unfold field
  split
  · next hcolumn => exact h.addField hcolumn
  · exact h.reject item

theorem fits_sortItem (h : c.Fits acc.query) (item : String) : c.Fits (c.sortItem acc item).query := by
  simp only [sortItem]
  split
  · next relation field hfound => exact h.addOrder (resolve?_finds hfound) _
  · exact h.reject item

theorem fits_directive (h : c.Fits acc.query) (arg : String × String) :
    c.Fits (c.directive acc arg).query := by
  unfold directive
  split
  · exact h.foldl (fun _ => fits_sortItem) _
  · split
    · exact h.foldl (fun _ => fits_field) _
    · exact h

theorem fits_clause (h : c.Fits acc.query) (group : String × List String) :
    c.Fits (c.clause acc group).query := by
  obtain ⟨key, values⟩ := group
  simp only [clause]
  split
  · exact h.reject key
  · next relation field hfound =>
    split
    · exact h
    · apply Fits.addFilter h
      refine ⟨⟨field, resolve?_finds hfound, rfl⟩, ?_⟩
      intro p hp
      obtain ⟨raw, -, hraw⟩ := List.mem_filterMap.mp hp
      exact predicate?_isOrdered hraw

theorem fits_loadItem (h : c.Fits acc.query) (name : String) : c.Fits (c.loadItem acc name).query := by
  unfold loadItem
  split
  · next r hr => exact h.addLoad (Model.mem_relations_of_related? hr) (c.fitsColumns_none _)
  · exact h.reject name

theorem fits_expand (h : c.Fits acc.query) (value : String) : c.Fits (c.expand acc value).query := by
  simp only [expand]
  split
  · refine ⟨h.fields, h.filters, h.orders, ?_, ?_⟩
    · intro l hl
      obtain ⟨r, hr, rfl⟩ := List.mem_map.mp hl
      exact ⟨r, hr, rfl⟩
    · intro l hl
      obtain ⟨r, -, rfl⟩ := List.mem_map.mp hl
      exact c.fitsColumns_none _
  · exact h.foldl (fun _ => fits_loadItem) _

/-- A query string asks only for what was found. -/
theorem fits_ofArguments (c : Compiler) (args : Arguments) : c.Fits (c.ofArguments args).query := by
  have hfiltered : ∀ sorts filters : Arguments,
      c.Fits ((grouped filters).foldl c.clause (sorts.foldl c.directive {})).query := by
    intro sorts filters
    have hsorted := (fits_empty c).foldl (fun _ => fits_directive) sorts
    exact hsorted.foldl (fun _ => fits_clause) (grouped filters)
  simp only [ofArguments]
  apply Fits.search
  split
  · next value _ => exact fits_expand (hfiltered _ _) value
  · exact hfiltered _ _

/-! ### Bodies -/

theorem fits_payloadField (h : c.Fits acc.query) (name : String) :
    c.Fits (c.payloadField acc name).query := by
  unfold payloadField
  split
  · next hcolumn => exact h.addField hcolumn
  · exact h.reject name

theorem fits_payloadLoad (h : c.Fits acc.query) (entry : String × Payload.Columns) :
    c.Fits (c.payloadLoad acc entry).query := by
  obtain ⟨name, columns⟩ := entry
  simp only [payloadLoad]
  split
  · exact h.reject name
  · next r hr =>
    have hmem : r ∈ c.model.relations := Model.mem_relations_of_related? hr
    split
    · split
      · exact h.addLoad hmem (c.fitsColumns_none _)
      · exact h.reject _
    · split
      · exact h.reject name
      · next t ht =>
        split
        · next hknown =>
          refine h.addLoad hmem fun names hnames => ?_
          cases hnames
          refine ⟨r, hmem, rfl, t, ht, ?_⟩
          simpa [List.filter_eq_nil_iff, Option.isSome_iff_ne_none] using hknown
        · exact h.foldl (fun _ hacc _ => hacc.reject _) _

theorem fits_payloadFilter (h : c.Fits acc.query) (spec : Payload.FilterSpec) :
    c.Fits (c.payloadFilter acc spec).query := by
  unfold payloadFilter
  split
  · exact h.reject _
  · next relation field hlocated =>
    split
    · exact h.reject _
    · split
      · exact h.reject _
      · next test htest =>
        apply Fits.addFilter h
        refine ⟨⟨field, locate_finds hlocated, rfl⟩, ?_⟩
        intro p hp
        rw [List.mem_singleton.mp hp]
        exact test?_isOrdered htest

theorem fits_payloadOrder (h : c.Fits acc.query) (spec : Payload.SortSpec) :
    c.Fits (c.payloadOrder acc spec).query := by
  unfold payloadOrder
  split
  · exact h.reject _
  · next relation field hlocated =>
    simp only
    split
    · exact h.addOrder (locate_finds hlocated) false
    · split
      · exact h.addOrder (locate_finds hlocated) true
      · exact h.reject _

/-- A body asks only for what was found. -/
theorem fits_ofPayload (c : Compiler) (p : Payload) : c.Fits (c.ofPayload p).query := by
  have hfields := (fits_empty c).foldl (fun _ => fits_payloadField) p.fields
  have hloads := hfields.foldl (fun _ => fits_payloadLoad) p.related
  have hfilters := hloads.foldl (fun _ => fits_payloadFilter) p.filters
  exact hfilters.foldl (fun _ => fits_payloadOrder) p.sorting

end Steps

/-- Whatever is asked, the query is about what was found. -/
theorem fits_of_produces {q : Query} (h : c.Produces q) : c.Fits q := by
  cases h with
  | arguments args => exact fits_ofArguments c args
  | payload p => exact fits_ofPayload c p

end Compiler

end RestTables
