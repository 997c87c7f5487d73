import RestTables.Proofs.Query.Parts
import RestTables.Proofs.Registry.Origin
import RestTables.Proofs.Rows.Condition

/-
Module: RestTables.Proofs.Query.Conservation
Purpose: Nothing that is asked for gets lost. Every part of a query string or of a body becomes one entry of the
  query or is reported, and what comes in another order goes out as the same entries in another order.
Main exports: Compiler.AccountsFor, Compiler.Rearranges, Compiler.AccountsForBody, Compiler.every_part_is_accounted_for
-/

namespace RestTables

/-- Two filters test one column alike; their tests may come in different orders. -/
structure Filter.Alike (f f' : Filter) : Prop where
  relation_eq : f.relation = f'.relation
  field_eq : f.field = f'.field
  alternatives_perm : f.alternatives.Perm f'.alternatives

/-- Two readings have the same entries; only columns, filters, tests and reports may come in different orders. -/
structure Compiled.Alike (out out' : Compiled) : Prop where
  fields_perm : out.query.fields.Perm out'.query.fields
  orders_perm : out.query.orders.Perm out'.query.orders
  filters_perm : ∃ filters, List.Forall₂ Filter.Alike out.query.filters filters ∧ filters.Perm out'.query.filters
  related_eq : out.query.related = out'.query.related
  search_eq : out.query.search = out'.query.search
  invalid_perm : out.invalid.Perm out'.invalid

namespace Compiler

open Arguments

variable {c : Compiler}

/-! ## Kinds of entries -/

theorem fieldEntry_cases (c : Compiler) (item : String) :
    (∃ name, c.fieldEntry item = .field name) ∨ ∃ part, c.fieldEntry item = .invalid part := by
  unfold fieldEntry
  split
  · exact .inl ⟨_, rfl⟩
  · exact .inr ⟨_, rfl⟩

theorem orderEntry_cases (c : Compiler) (item : String) :
    (∃ o, c.orderEntry item = .order o) ∨ ∃ part, c.orderEntry item = .invalid part := by
  simp only [orderEntry]
  split
  · exact .inl ⟨_, rfl⟩
  · exact .inr ⟨_, rfl⟩

theorem valueEntry_cases (c : Compiler) (relation : Option String) (field : Field) (key value : String) :
    (∃ p, c.valueEntry relation field key value = .test ⟨relation, field.name, [p]⟩) ∨
      c.valueEntry relation field key value = .invalid (key ++ "=" ++ value) := by
  unfold valueEntry
  split
  · exact .inl ⟨_, rfl⟩
  · exact .inr rfl

theorem keyEntries_cases {key : String} {values : List String} {e : Entry} (h : e ∈ c.keyEntries key values) :
    (∃ f, e = .test f) ∨ ∃ part, e = .invalid part := by
  unfold keyEntries at h
  split at h
  · exact .inr ⟨key, List.mem_singleton.mp h⟩
  · obtain ⟨value, -, rfl⟩ := List.mem_map.mp h
    rcases c.valueEntry_cases _ _ key value with ⟨p, hp⟩ | hp
    · exact .inl ⟨_, hp⟩
    · exact .inr ⟨_, hp⟩

theorem directiveEntries_cases {arg : String × String} {e : Entry} (h : e ∈ c.directiveEntries arg) :
    (arg.1 = c.names.sort ∧ ∃ o, e = .order o) ∨ (arg.1 = c.names.fields ∧ ∃ name, e = .field name) ∨
      ∃ part, e = .invalid part := by
  unfold directiveEntries at h
  split at h
  · cases h
  · split at h
    · next hsort =>
      obtain ⟨item, -, rfl⟩ := List.mem_map.mp h
      exact (c.orderEntry_cases item).imp (fun ho => ⟨by simpa using hsort, ho⟩) .inr
    · split at h
      · next hfields =>
        obtain ⟨item, -, rfl⟩ := List.mem_map.mp h
        exact .inr ((c.fieldEntry_cases item).imp_left fun hname => ⟨by simpa using hfields, hname⟩)
      · cases h

theorem expansionEntries_cases {value : Option String} {e : Entry} (h : e ∈ c.expansionEntries value) :
    (∃ l, e = .load l) ∨ ∃ part, e = .invalid part := by
  cases value with
  | none => cases h
  | some value =>
    simp only [expansionEntries] at h
    split at h
    · obtain ⟨r, -, rfl⟩ := List.mem_map.mp h
      exact .inl ⟨_, rfl⟩
    · obtain ⟨name, -, rfl⟩ := List.mem_map.mp h
      unfold loadEntry
      split
      · exact .inl ⟨_, rfl⟩
      · exact .inr ⟨_, rfl⟩

theorem payloadFilterEntry_cases (c : Compiler) (spec : Payload.FilterSpec) :
    (∃ f, c.payloadFilterEntry spec = .test f ∧ f.tests = [f]) ∨
      ∃ part, c.payloadFilterEntry spec = .invalid part := by
  unfold payloadFilterEntry
  split
  · exact .inr ⟨_, rfl⟩
  · split
    · exact .inr ⟨_, rfl⟩
    · split
      · exact .inr ⟨_, rfl⟩
      · exact .inl ⟨_, rfl, rfl⟩

theorem payloadOrderEntry_cases (c : Compiler) (spec : Payload.SortSpec) :
    (∃ o, c.payloadOrderEntry spec = .order o) ∨ ∃ part, c.payloadOrderEntry spec = .invalid part := by
  unfold payloadOrderEntry
  split
  · exact .inr ⟨_, rfl⟩
  · simp only
    split
    · exact .inl ⟨_, rfl⟩
    · split
      · exact .inl ⟨_, rfl⟩
      · exact .inr ⟨_, rfl⟩

theorem payloadLoadEntries_cases (c : Compiler) (entry : String × Payload.Columns) :
    (∃ l, c.payloadLoadEntries entry = [.load l]) ∨
      (c.payloadLoadEntries entry ≠ [] ∧ ∀ e ∈ c.payloadLoadEntries entry, ∃ part, e = .invalid part) := by
  have hreport : ∀ part : String, [Entry.invalid part] ≠ [] ∧ ∀ e ∈ [Entry.invalid part], ∃ part, e = .invalid part :=
    fun part => ⟨nofun, fun e he => ⟨part, List.mem_singleton.mp he⟩⟩
  unfold payloadLoadEntries
  split
  · exact .inr (hreport _)
  · split
    · split
      · exact .inl ⟨_, rfl⟩
      · exact .inr (hreport _)
    · split
      · exact .inr (hreport _)
      · simp only
        split
        · exact .inl ⟨_, rfl⟩
        · next hunknown =>
          refine .inr ⟨by simpa using hunknown, ?_⟩
          intro e he
          obtain ⟨column, -, rfl⟩ := List.mem_map.mp he
          exact ⟨_, rfl⟩

/-- Each part becomes an entry of its own kind or is reported; only a relation in a body may be reported in several
entries. -/
structure KeepsKinds (c : Compiler) : Prop where
  field (item : String) : (∃ name, c.fieldEntry item = .field name) ∨ ∃ part, c.fieldEntry item = .invalid part
  order (item : String) : (∃ o, c.orderEntry item = .order o) ∨ ∃ part, c.orderEntry item = .invalid part
  value (relation : Option String) (field : Field) (key value : String) :
    (∃ p, c.valueEntry relation field key value = .test ⟨relation, field.name, [p]⟩) ∨
      c.valueEntry relation field key value = .invalid (key ++ "=" ++ value)
  payloadFilter (spec : Payload.FilterSpec) :
    (∃ f, c.payloadFilterEntry spec = .test f ∧ f.tests = [f]) ∨ ∃ part, c.payloadFilterEntry spec = .invalid part
  payloadOrder (spec : Payload.SortSpec) :
    (∃ o, c.payloadOrderEntry spec = .order o) ∨ ∃ part, c.payloadOrderEntry spec = .invalid part
  payloadLoad (entry : String × Payload.Columns) :
    (∃ l, c.payloadLoadEntries entry = [.load l]) ∨
      (c.payloadLoadEntries entry ≠ [] ∧ ∀ e ∈ c.payloadLoadEntries entry, ∃ part, e = .invalid part)

theorem keepsKinds (c : Compiler) : c.KeepsKinds :=
  ⟨c.fieldEntry_cases, c.orderEntry_cases, c.valueEntry_cases, c.payloadFilterEntry_cases, c.payloadOrderEntry_cases,
    c.payloadLoadEntries_cases⟩

/-! ## Steps -/

section Steps

variable {acc : Compiled}

theorem field_eq_enter (c : Compiler) : c.field = fun acc item => acc.enter (c.fieldEntry item) := by
  funext acc item
  unfold field fieldEntry
  split <;> rfl

theorem sortItem_eq_enter (c : Compiler) : c.sortItem = fun acc item => acc.enter (c.orderEntry item) := by
  funext acc item
  simp only [sortItem, orderEntry]
  cases c.resolve? (String.ofList (takeMark c.grammar.reverse.toList item.toList).2) <;> rfl

theorem directive_eq_enter (acc : Compiled) (arg : String × String) :
    (if !c.names.isScalar arg.1 then c.directive acc arg else acc) =
      (c.directiveEntries arg).foldl Compiled.enter acc := by
  unfold directive directiveEntries
  cases c.names.isScalar arg.1 with
  | true => rfl
  | false =>
    simp only [Bool.not_false, if_true, Bool.false_eq_true, if_false, sortItem_eq_enter, field_eq_enter]
    split
    · rw [List.foldl_map]
    · split
      · rw [List.foldl_map]
      · rfl

theorem foldl_directive (args : Arguments) (acc : Compiled) :
    (args.filter fun (k, _) => !c.names.isScalar k).foldl c.directive acc =
      (args.flatMap c.directiveEntries).foldl Compiled.enter acc := by
  rw [List.foldl_filter, List.foldl_flatMap]
  simp only [directive_eq_enter]

/-- The values of a column that are no tests are reported. -/
theorem reported_eq (c : Compiler) (relation : Option String) (field : Field) (key : String) (values : List String) :
    (values.map (c.valueEntry relation field key)).filterMap Entry.invalid? =
      (c.alternatives field.kind key values).2 := by
  induction values with
  | nil => rfl
  | cons v values ih =>
    simp only [alternatives] at ih ⊢
    cases hv : predicate? c.grammar field.kind v <;> simp [valueEntry, hv, Entry.invalid?, List.filterMap_cons, ih]

/-- The others are its tests. -/
theorem tests_eq (c : Compiler) (relation : Option String) (field : Field) (key : String) (values : List String) :
    (values.map (c.valueEntry relation field key)).filterMap Entry.test? =
      (c.alternatives field.kind key values).1.map fun p => ⟨relation, field.name, [p]⟩ := by
  induction values with
  | nil => rfl
  | cons v values ih =>
    simp only [alternatives] at ih ⊢
    cases hv : predicate? c.grammar field.kind v <;> simp [valueEntry, hv, Entry.test?, List.filterMap_cons, ih]

/-- Of a name's values, those that are tests make the filter, and the others are reported. -/
theorem clause_eq (acc : Compiled) (key : String) (values : List String) :
    c.clause acc (key, values) =
      { query := { acc.query with filters := acc.query.filters ++ (c.clauseOf? key values).toList }
        invalid := acc.invalid ++ (c.keyEntries key values).filterMap Entry.invalid? } := by
  cases hkey : c.resolve? key with
  | none => simp [clause, clauseOf?, keyEntries, hkey, Compiled.reject, Entry.invalid?]
  | some column =>
    obtain ⟨relation, field⟩ := column
    have htests : values.filterMap (predicate? c.grammar field.kind) = (c.alternatives field.kind key values).1 := rfl
    simp only [clause, clauseOf?, keyEntries, hkey, reported_eq, htests]
    by_cases hempty : (c.alternatives field.kind key values).1.isEmpty = true
    · rw [if_pos hempty, if_pos hempty, Option.toList_none, List.append_nil]
    · rw [if_neg hempty, if_neg hempty, Option.toList_some, Compiled.addFilter]

theorem foldl_clause (c : Compiler) (values : String → List String) (keys : List String) (acc : Compiled) :
    (keys.map fun key => (key, values key)).foldl c.clause acc =
      { query := { acc.query with
          filters := acc.query.filters ++ keys.filterMap fun key => c.clauseOf? key (values key) }
        invalid := acc.invalid ++
          (keys.flatMap fun key => c.keyEntries key (values key)).filterMap Entry.invalid? } := by
  induction keys generalizing acc with
  | nil => simp
  | cons key keys ih =>
    rw [List.map_cons, List.foldl_cons, clause_eq, ih]
    cases hclause : c.clauseOf? key (values key) <;> simp [hclause]

theorem loadItem_eq_enter (c : Compiler) : c.loadItem = fun acc name => acc.enter (c.loadEntry name) := by
  funext acc name
  simp only [loadItem, loadEntry]
  cases c.model.related? name <;> rfl

/-- Where no relation is read yet, those of an argument are read one by one. -/
theorem expand_eq_enter (hacc : acc.query.related = []) (value : String) :
    c.expand acc value = (c.expansionEntries (some value)).foldl Compiled.enter acc := by
  simp only [expand, expansionEntries, loadItem_eq_enter]
  split
  · rw [Compiled.foldl_enter]
    simp [hacc, List.filterMap_map, Function.comp_def, Entry.field?, Entry.order?, Entry.test?, Entry.load?,
      Entry.invalid?]
  · rw [List.foldl_map]

end Steps

/-! ## Query strings -/

/-- A filter has the tests of its column's values. -/
theorem clauseOf?_tests (c : Compiler) (key : String) (values : List String) :
    (c.clauseOf? key values).toList.flatMap Filter.tests = (c.keyEntries key values).filterMap Entry.test? := by
  cases hkey : c.resolve? key with
  | none => simp [clauseOf?, keyEntries, hkey, Entry.test?, List.filterMap_cons]
  | some column =>
    obtain ⟨relation, field⟩ := column
    simp only [clauseOf?, keyEntries, hkey, tests_eq]
    simp only [alternatives]
    split
    · next hempty => simp [List.isEmpty_iff.mp hempty]
    · simp [Filter.tests]

/-- The query holds every part of the query string, and a filter for each column with a test, in the order in which
the columns come first. -/
structure AccountsFor (c : Compiler) (args : Arguments) (out : Compiled) : Prop where
  holds : out.Holds (c.argumentEntries args)
  clauses : out.query.filters = (c.keysOf args).filterMap fun key => c.clauseOf? key (args.valuesOf key)

section Arguments

variable {args args' : Arguments}

theorem filterMap_directiveEntries {α : Type} (pick : Entry → Option α) (horder : ∀ o, pick (.order o) = none)
    (hfield : ∀ name, pick (.field name) = none) (hinvalid : ∀ part, pick (.invalid part) = none) :
    (args.flatMap c.directiveEntries).filterMap pick = [] := by
  rw [List.filterMap_eq_nil_iff]
  intro e he
  obtain ⟨arg, -, he⟩ := List.mem_flatMap.mp he
  rcases directiveEntries_cases he with ⟨-, o, rfl⟩ | ⟨-, name, rfl⟩ | ⟨part, rfl⟩
  · exact horder o
  · exact hfield name
  · exact hinvalid part

theorem filterMap_keyEntries {α : Type} (pick : Entry → Option α) (htest : ∀ f, pick (.test f) = none)
    (hinvalid : ∀ part, pick (.invalid part) = none) (keys : List String) (values : String → List String) :
    (keys.flatMap fun key => c.keyEntries key (values key)).filterMap pick = [] := by
  rw [List.filterMap_eq_nil_iff]
  intro e he
  obtain ⟨key, -, he⟩ := List.mem_flatMap.mp he
  rcases keyEntries_cases he with ⟨f, rfl⟩ | ⟨part, rfl⟩
  · exact htest f
  · exact hinvalid part

theorem filterMap_expansionEntries {α : Type} (pick : Entry → Option α) (hload : ∀ l, pick (.load l) = none)
    (hinvalid : ∀ part, pick (.invalid part) = none) (value : Option String) :
    (c.expansionEntries value).filterMap pick = [] := by
  rw [List.filterMap_eq_nil_iff]
  intro e he
  rcases expansionEntries_cases he with ⟨l, rfl⟩ | ⟨part, rfl⟩
  · exact hload l
  · exact hinvalid part

/-- What is read of a query string, list by list. -/
theorem ofArguments_eq (c : Compiler) (args : Arguments) :
    c.ofArguments args =
      { query :=
          { fields := (args.flatMap c.directiveEntries).filterMap Entry.field?
            filters := (c.keysOf args).filterMap fun key => c.clauseOf? key (args.valuesOf key)
            orders := (args.flatMap c.directiveEntries).filterMap Entry.order?
            related := (c.expansionEntries (c.expansion? args)).filterMap Entry.load?
            search := c.searchTerm? args }
        invalid := (c.argumentEntries args).filterMap Entry.invalid? } := by
  -- Directives make no filters and load nothing, and expansions make nothing but loads.
  have hnofilter : (args.flatMap c.directiveEntries).filterMap Entry.test? = [] :=
    filterMap_directiveEntries _ (fun _ => rfl) (fun _ => rfl) fun _ => rfl
  have hnoload : (args.flatMap c.directiveEntries).filterMap Entry.load? = [] :=
    filterMap_directiveEntries _ (fun _ => rfl) (fun _ => rfl) fun _ => rfl
  have hfields := filterMap_expansionEntries (c := c) Entry.field? (fun _ => rfl) fun _ => rfl
  have horders := filterMap_expansionEntries (c := c) Entry.order? (fun _ => rfl) fun _ => rfl
  have htests := filterMap_expansionEntries (c := c) Entry.test? (fun _ => rfl) fun _ => rfl
  simp only [ofArguments, foldl_directive, grouped_filter_eq, foldl_clause, Compiled.foldl_enter, hnofilter, hnoload,
    argumentEntries, List.filterMap_append]
  cases c.expansion? args with
  | none => simp [expansionEntries]
  | some value =>
    dsimp only
    rw [expand_eq_enter, Compiled.foldl_enter, hfields, horders, htests]
    · simp
    · rfl

/-- Columns to show are named by directives alone. -/
theorem field?_argumentEntries (c : Compiler) (args : Arguments) :
    (c.argumentEntries args).filterMap Entry.field? = (args.flatMap c.directiveEntries).filterMap Entry.field? := by
  rw [argumentEntries, List.filterMap_append, List.filterMap_append, filterMap_keyEntries _ (fun _ => rfl) fun _ => rfl,
    filterMap_expansionEntries _ (fun _ => rfl) fun _ => rfl, List.append_nil, List.append_nil]

/-- So are columns to sort by. -/
theorem order?_argumentEntries (c : Compiler) (args : Arguments) :
    (c.argumentEntries args).filterMap Entry.order? = (args.flatMap c.directiveEntries).filterMap Entry.order? := by
  rw [argumentEntries, List.filterMap_append, List.filterMap_append, filterMap_keyEntries _ (fun _ => rfl) fun _ => rfl,
    filterMap_expansionEntries _ (fun _ => rfl) fun _ => rfl, List.append_nil, List.append_nil]

/-- Tests are read of the values of columns. -/
theorem test?_argumentEntries (c : Compiler) (args : Arguments) :
    (c.argumentEntries args).filterMap Entry.test? =
      ((c.keysOf args).flatMap fun key => c.keyEntries key (args.valuesOf key)).filterMap Entry.test? := by
  rw [argumentEntries, List.filterMap_append, List.filterMap_append,
    filterMap_directiveEntries _ (fun _ => rfl) (fun _ => rfl) fun _ => rfl,
    filterMap_expansionEntries _ (fun _ => rfl) fun _ => rfl, List.nil_append, List.append_nil]

/-- Relations to read along are named by the expansion alone. -/
theorem load?_argumentEntries (c : Compiler) (args : Arguments) :
    (c.argumentEntries args).filterMap Entry.load? =
      (c.expansionEntries (c.expansion? args)).filterMap Entry.load? := by
  rw [argumentEntries, List.filterMap_append, List.filterMap_append,
    filterMap_directiveEntries _ (fun _ => rfl) (fun _ => rfl) fun _ => rfl,
    filterMap_keyEntries _ (fun _ => rfl) fun _ => rfl, List.nil_append, List.nil_append]

theorem accountsFor_ofArguments (c : Compiler) (args : Arguments) : c.AccountsFor args (c.ofArguments args) := by
  rw [ofArguments_eq]
  refine ⟨⟨?_, ?_, ?_, ?_, rfl⟩, rfl⟩
  · rw [field?_argumentEntries]
  · rw [order?_argumentEntries]
  · simp only [test?_argumentEntries, List.filterMap_flatMap, ← clauseOf?_tests]
    rw [List.filterMap_eq_flatMap_toList, List.flatMap_assoc]
  · rw [load?_argumentEntries]

/-! ### Another order -/

theorem valuesOf_perm (h : args.Perm args') (key : String) : (args.valuesOf key).Perm (args'.valuesOf key) :=
  (h.filter _).map _

theorem keysOf_perm (c : Compiler) (h : args.Perm args') : (c.keysOf args).Perm (c.keysOf args') :=
  perm_eraseDups ((h.map _).filter _)

theorem keyEntries_perm (c : Compiler) (key : String) {values values' : List String} (h : values.Perm values') :
    (c.keyEntries key values).Perm (c.keyEntries key values') := by
  unfold keyEntries
  cases c.resolve? key with
  | none => exact .refl _
  | some column => exact h.map _

/-- Values in another order make a filter with the same tests in another order, or none in either case. -/
theorem clauseOf?_alike (c : Compiler) (key : String) {values values' : List String} (h : values.Perm values') :
    Option.Rel Filter.Alike (c.clauseOf? key values) (c.clauseOf? key values') := by
  unfold clauseOf?
  cases c.resolve? key with
  | none => exact .none
  | some column =>
    have htests := h.filterMap (predicate? c.grammar column.2.kind)
    have hempty : (values.filterMap (predicate? c.grammar column.2.kind)).isEmpty =
        (values'.filterMap (predicate? c.grammar column.2.kind)).isEmpty := by
      rw [Bool.eq_iff_iff, List.isEmpty_iff, List.isEmpty_iff]
      exact ⟨fun hnil => List.nil_perm.mp (hnil ▸ htests), fun hnil => List.perm_nil.mp (hnil ▸ htests)⟩
    simp only [hempty]
    split
    · exact .none
    · exact .some ⟨rfl, rfl, htests⟩

theorem forall₂_filterMap {α β : Type} {R : β → β → Prop} {f f' : α → Option β} {l : List α}
    (h : ∀ a ∈ l, Option.Rel R (f a) (f' a)) : List.Forall₂ R (l.filterMap f) (l.filterMap f') := by
  induction l with
  | nil => exact .nil
  | cons a l ih =>
    obtain ⟨ha, hl⟩ := List.forall_mem_cons.mp h
    rw [List.filterMap_cons, List.filterMap_cons]
    cases hfa : f a with
    | none =>
      cases hfa' : f' a with
      | none => exact ih hl
      | some b' => rw [hfa, hfa'] at ha; cases ha
    | some b =>
      cases hfa' : f' a with
      | none => rw [hfa, hfa'] at ha; cases ha
      | some b' =>
        rw [hfa, hfa'] at ha
        cases ha with
        | some hR => exact .cons hR (ih hl)

theorem argumentEntries_perm (c : Compiler) (h : args.Perm args')
    (hexpansion : c.expansion? args = c.expansion? args') :
    (c.argumentEntries args).Perm (c.argumentEntries args') := by
  have hdirectives := h.flatMap_right c.directiveEntries
  have hkeys : ((c.keysOf args).flatMap fun key => c.keyEntries key (args.valuesOf key)).Perm
      ((c.keysOf args').flatMap fun key => c.keyEntries key (args'.valuesOf key)) :=
    (c.keysOf_perm h).flatMap fun key _ => c.keyEntries_perm key (valuesOf_perm h key)
  unfold argumentEntries
  rw [hexpansion]
  exact (hdirectives.append hkeys).append_right _

/-- Arguments in another order are read alike. -/
theorem alike_of_perm (c : Compiler) (h : args.Perm args') (hexpansion : c.expansion? args = c.expansion? args')
    (hsearch : c.searchTerm? args = c.searchTerm? args') :
    (c.ofArguments args).Alike (c.ofArguments args') := by
  have hentries := c.argumentEntries_perm h hexpansion
  have hout := c.accountsFor_ofArguments args
  have hout' := c.accountsFor_ofArguments args'
  constructor
  · rw [hout.holds.fields, hout'.holds.fields]
    exact hentries.filterMap _
  · rw [hout.holds.orders, hout'.holds.orders]
    exact hentries.filterMap _
  · rw [hout.clauses, hout'.clauses]
    refine ⟨(c.keysOf args).filterMap fun key => c.clauseOf? key (args'.valuesOf key), ?_, ?_⟩
    · exact forall₂_filterMap fun key _ => c.clauseOf?_alike key (valuesOf_perm h key)
    · exact (c.keysOf_perm h).filterMap _
  · rw [ofArguments_eq, ofArguments_eq, hexpansion]
  · rw [ofArguments_eq, ofArguments_eq]
    exact hsearch
  · rw [hout.holds.invalid, hout'.holds.invalid]
    exact hentries.filterMap _

/-- What only some elements give depends on those alone. -/
theorem flatMap_eq_flatMap_filter {α β : Type} {p : α → Bool} {f : α → List β} {l : List α}
    (h : ∀ a ∈ l, p a = false → f a = []) : l.flatMap f = (l.filter p).flatMap f := by
  induction l with
  | nil => rfl
  | cons a l ih =>
    obtain ⟨ha, hl⟩ := List.forall_mem_cons.mp h
    rw [List.flatMap_cons, List.filter_cons, ih hl]
    split
    · rfl
    · next hp => rw [ha (by simpa using hp), List.nil_append]

/-- What only the arguments of one name give depends on those arguments and their order. -/
theorem filterMap_directiveEntries_congr {α : Type} {name : String} {pick : Entry → Option α}
    (hother : ∀ arg : String × String, arg.1 ≠ name → (c.directiveEntries arg).filterMap pick = [])
    (h : args.filter (·.1 == name) = args'.filter (·.1 == name)) :
    (args.flatMap c.directiveEntries).filterMap pick = (args'.flatMap c.directiveEntries).filterMap pick := by
  have hnone : ∀ (args : Arguments), ∀ arg ∈ args, (arg.1 == name) = false →
      (c.directiveEntries arg).filterMap pick = [] := fun _ arg _ harg => hother arg (by simpa using harg)
  rw [List.filterMap_flatMap, List.filterMap_flatMap, flatMap_eq_flatMap_filter (hnone args),
    flatMap_eq_flatMap_filter (hnone args'), h]

/-- The columns to sort by depend on the arguments that name them and their order. -/
theorem orders_eq_of_filter_eq (c : Compiler)
    (h : args.filter (·.1 == c.names.sort) = args'.filter (·.1 == c.names.sort)) :
    (c.ofArguments args).query.orders = (c.ofArguments args').query.orders := by
  rw [ofArguments_eq, ofArguments_eq]
  refine filterMap_directiveEntries_congr (fun arg harg => ?_) h
  rw [List.filterMap_eq_nil_iff]
  intro e he
  rcases directiveEntries_cases he with ⟨hsort, -⟩ | ⟨-, name, rfl⟩ | ⟨part, rfl⟩
  · exact absurd hsort harg
  · rfl
  · rfl

/-- So do the columns to show. -/
theorem fields_eq_of_filter_eq (c : Compiler)
    (h : args.filter (·.1 == c.names.fields) = args'.filter (·.1 == c.names.fields)) :
    (c.ofArguments args).query.fields = (c.ofArguments args').query.fields := by
  rw [ofArguments_eq, ofArguments_eq]
  refine filterMap_directiveEntries_congr (fun arg harg => ?_) h
  rw [List.filterMap_eq_nil_iff]
  intro e he
  rcases directiveEntries_cases he with ⟨-, o, rfl⟩ | ⟨hfields, -⟩ | ⟨part, rfl⟩
  · rfl
  · exact absurd hfields harg
  · rfl

/-- Arguments in another order are read alike, and the columns to sort by and to show stay in place when the arguments
that name them do. -/
structure Rearranges (c : Compiler) (args args' : Arguments) : Prop where
  alike : (c.ofArguments args).Alike (c.ofArguments args')
  orders_eq : args.filter (·.1 == c.names.sort) = args'.filter (·.1 == c.names.sort) →
    (c.ofArguments args).query.orders = (c.ofArguments args').query.orders
  fields_eq : args.filter (·.1 == c.names.fields) = args'.filter (·.1 == c.names.fields) →
    (c.ofArguments args).query.fields = (c.ofArguments args').query.fields

end Arguments

/-! ## Bodies -/

/-- The query holds every part of the body, and a filter for each test. -/
structure AccountsForBody (c : Compiler) (p : Payload) (out : Compiled) : Prop where
  holds : out.Holds (c.payloadEntries p)
  filters : out.query.filters = (p.filters.map c.payloadFilterEntry).filterMap Entry.test?

theorem payloadLoad_eq_enter (acc : Compiled) (entry : String × Payload.Columns) :
    c.payloadLoad acc entry = (c.payloadLoadEntries entry).foldl Compiled.enter acc := by
  obtain ⟨name, columns⟩ := entry
  simp only [payloadLoad, payloadLoadEntries]
  cases c.model.related? name with
  | none => rfl
  | some relation =>
    cases columns with
    | word w =>
      simp only
      split <;> rfl
    | list names =>
      simp only
      cases c.target? relation with
      | none => rfl
      | some target =>
        simp only
        split
        · rfl
        · rw [List.foldl_map]
          rfl

theorem payloadFilter_eq_enter (c : Compiler) :
    c.payloadFilter = fun acc spec => acc.enter (c.payloadFilterEntry spec) := by
  funext acc spec
  simp only [payloadFilter, payloadFilterEntry]
  cases c.locate spec.model spec.field with
  | error part => rfl
  | ok column =>
    cases Operator.read? spec.op with
    | none => rfl
    | some op => cases hop : test? column.2.kind op spec.value <;> simp only [hop] <;> rfl

theorem payloadOrder_eq_enter (c : Compiler) :
    c.payloadOrder = fun acc spec => acc.enter (c.payloadOrderEntry spec) := by
  funext acc spec
  simp only [payloadOrder, payloadOrderEntry]
  cases c.locate spec.model spec.field with
  | error part => rfl
  | ok column =>
    simp only
    split
    · rfl
    · split <;> rfl

theorem ofPayload_eq (c : Compiler) (p : Payload) :
    c.ofPayload p = (c.payloadEntries p).foldl Compiled.enter {} := by
  have hfield : c.payloadField = fun acc name => acc.enter (c.fieldEntry name) := c.field_eq_enter
  simp only [ofPayload, payloadEntries, List.foldl_append, List.foldl_map, List.foldl_flatMap, hfield,
    payloadFilter_eq_enter, payloadOrder_eq_enter, ← payloadLoad_eq_enter]

theorem accountsForBody_ofPayload (c : Compiler) (p : Payload) : c.AccountsForBody p (c.ofPayload p) := by
  have hfields : (p.fields.map c.fieldEntry).filterMap Entry.test? = [] := by
    rw [List.filterMap_eq_nil_iff]
    intro e he
    obtain ⟨name, -, rfl⟩ := List.mem_map.mp he
    rcases c.fieldEntry_cases name with ⟨_, h⟩ | ⟨_, h⟩ <;> rw [h] <;> rfl
  have hloads : (p.related.flatMap c.payloadLoadEntries).filterMap Entry.test? = [] := by
    rw [List.filterMap_eq_nil_iff]
    intro e he
    obtain ⟨entry, -, he⟩ := List.mem_flatMap.mp he
    rcases c.payloadLoadEntries_cases entry with ⟨l, h⟩ | ⟨-, h⟩
    · rw [h, List.mem_singleton] at he
      rw [he]
      rfl
    · obtain ⟨part, rfl⟩ := h e he
      rfl
  have horders : (p.sorting.map c.payloadOrderEntry).filterMap Entry.test? = [] := by
    rw [List.filterMap_eq_nil_iff]
    intro e he
    obtain ⟨spec, -, rfl⟩ := List.mem_map.mp he
    rcases c.payloadOrderEntry_cases spec with ⟨_, h⟩ | ⟨_, h⟩ <;> rw [h] <;> rfl
  have htests : (c.payloadEntries p).filterMap Entry.test? =
      (p.filters.map c.payloadFilterEntry).filterMap Entry.test? := by
    simp only [payloadEntries, List.filterMap_append, hfields, hloads, horders, List.nil_append, List.append_nil]
  -- A filter of a body has one test, so taking the tests apart changes nothing.
  have hsingle : ∀ f ∈ (p.filters.map c.payloadFilterEntry).filterMap Entry.test?, f.tests = [f] := by
    intro f hf
    obtain ⟨e, he, hef⟩ := List.mem_filterMap.mp hf
    obtain ⟨spec, -, rfl⟩ := List.mem_map.mp he
    rcases c.payloadFilterEntry_cases spec with ⟨f', h, htest⟩ | ⟨part, h⟩
    · rw [h] at hef
      cases hef
      exact htest
    · rw [h] at hef
      cases hef
  rw [ofPayload_eq, Compiled.foldl_enter]
  refine ⟨⟨rfl, rfl, ?_, rfl, rfl⟩, htests⟩
  simp only [htests, List.nil_append]
  rw [List.flatMap_congr hsingle, List.flatMap_singleton']

/-! ## Names -/

/-- No column of a registered model is named like an argument. -/
theorem resolve?_of_isReserved {declared : List Model} {tables : List Table} {config : Config}
    (hbuild : Registry.build declared tables config = .ok c.registry)
    (hdeclared : ∀ o ∈ declared, ∃ d : Model.Declaration, d.build = .ok o) (hm : c.model ∈ c.registry.models)
    {key : String} (hkey : ({} : ArgumentNames).isReserved key = true) : c.resolve? key = none := by
  -- Names of arguments begin with an underscore and have no point.
  have hshape : key.toList.head? = some '_' ∧ Text.cut? '.' key.toList = none := by
    simp only [ArgumentNames.isReserved, ArgumentNames.isScalar, Bool.or_eq_true, List.contains_eq_mem,
      decide_eq_true_eq, List.mem_cons, List.not_mem_nil, or_false, beq_iff_eq] at hkey
    rcases hkey with ((rfl | rfl | rfl | rfl | rfl | rfl | rfl | rfl | rfl) | rfl) | rfl <;> decide +kernel
  have hcolumn : c.model.column? key = none := by
    rw [Model.column?, List.find?_eq_none]
    intro field hfield
    rw [beq_iff_eq]
    rintro rfl
    exact Registry.head?_name_ne hbuild hdeclared hm hfield hshape.1
  rw [resolve?, hcolumn]
  simp only [hshape.2]
  rfl

/-- Nothing that is asked for gets lost. Every item, value or name of a query string becomes one entry of the query or
is reported, and the order of the arguments matters only to the order of what comes out; every part of a body becomes
one entry or is reported. The names of arguments are never columns. -/
theorem every_part_is_accounted_for (c : Compiler) :
    c.KeepsKinds ∧
    (∀ args, c.AccountsFor args (c.ofArguments args)) ∧
    (∀ args args' : Arguments, args.Perm args' → c.expansion? args = c.expansion? args' →
      c.searchTerm? args = c.searchTerm? args' → c.Rearranges args args') ∧
    (∀ p, c.AccountsForBody p (c.ofPayload p)) ∧
    ∀ (declared : List Model) (tables : List Table) (config : Config),
      Registry.build declared tables config = .ok c.registry →
      (∀ o ∈ declared, ∃ d : Model.Declaration, d.build = .ok o) → c.model ∈ c.registry.models →
      ∀ key, ({} : ArgumentNames).isReserved key = true → c.resolve? key = none :=
  ⟨c.keepsKinds, c.accountsFor_ofArguments,
    fun _ _ hperm hexpansion hsearch => ⟨c.alike_of_perm hperm hexpansion hsearch, c.orders_eq_of_filter_eq,
      c.fields_eq_of_filter_eq⟩,
    c.accountsForBody_ofPayload,
    fun _ _ _ hbuild hdeclared hm _ hkey => resolve?_of_isReserved hbuild hdeclared hm hkey⟩

/-- Two filters and a list of columns to sort by, of which one is no column. -/
def mixedArguments : Arguments := [("year", "1990"), ("_sort", "title;no"), ("title", "Emma"), ("year", "2001")]

/-- The same, the other way round. -/
def turnedArguments : Arguments := mixedArguments.reverse

/-- Turned round, they sort by the same column and keep the same rows, and report the same. -/
theorem rearranges_mixedArguments :
    (bookCompiler.ofArguments mixedArguments).Alike (bookCompiler.ofArguments turnedArguments) ∧
      (bookCompiler.ofArguments mixedArguments).query.orders = (bookCompiler.ofArguments turnedArguments).query.orders ∧
      bookCompiler.resolve? "_sort" = none := by
  obtain ⟨-, -, hturn, -, hnames⟩ := every_part_is_accounted_for bookCompiler
  have hperm : mixedArguments.Perm turnedArguments := (List.reverse_perm _).symm
  have hrearranged := hturn mixedArguments turnedArguments hperm (by decide +kernel) (by decide +kernel)
  exact ⟨hrearranged.alike, hrearranged.orders_eq (by decide +kernel),
    hnames [bookModel, authorModel] [] {} (by decide +kernel) exists_declaration_of_library (by decide +kernel) "_sort"
      (by decide +kernel)⟩

/-- Columns to sort by and to show follow the order of their arguments. -/
theorem orders_follow_their_arguments :
    let args : Arguments := [("_sort", "id"), ("_sort", "title"), ("_fields", "id"), ("_fields", "title")]
    let args' : Arguments := [("_sort", "title"), ("_sort", "id"), ("_fields", "title"), ("_fields", "id")]
    args.Perm args' ∧ bookCompiler.expansion? args = bookCompiler.expansion? args' ∧
      bookCompiler.searchTerm? args = bookCompiler.searchTerm? args' ∧
      (bookCompiler.ofArguments args).query.orders ≠ (bookCompiler.ofArguments args').query.orders ∧
      (bookCompiler.ofArguments args).query.fields ≠ (bookCompiler.ofArguments args').query.fields := by
  refine ⟨?_, by decide +kernel, by decide +kernel, by decide +kernel, by decide +kernel⟩
  exact (List.Perm.swap _ _ _).trans (((List.Perm.swap _ _ _).cons _).cons _)

end Compiler

end RestTables
