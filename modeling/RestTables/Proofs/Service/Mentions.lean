import RestTables.Proofs.Rows.Mentions
import RestTables.Proofs.Service.Statements

/-
Module: RestTables.Proofs.Service.Mentions
Purpose: What the statements of a service name. Each is about one registered model, and names what the statements
  for that model may name.
Main exports: Service.exists_grants_of_reads, Service.mentions_of_writes, Service.exists_grants_of_utters
-/

namespace RestTables

open Sql (Statement Mention)

namespace Service

variable {s : Service} {P : Mention → Prop} {m : Model}

theorem mem_models_of_asks {q : Query} (hm : s.model ∈ s.registry.models) (h : s.Asks m q) :
    m ∈ s.registry.models := by
  cases h with
  | own produced => exact hm
  | behind relation_mem target_eq produced key => exact Registry.mem_models_of_get? target_eq

/-- Also the query that is restricted to the rows of a relation asks only for what was found. -/
theorem fits_of_asks {q : Query} (hclosed : s.registry.IsClosed) (hm : s.model ∈ s.registry.models)
    (h : s.Asks m q) : ({ registry := s.registry, model := m } : Compiler).Fits q := by
  cases h with
  | own produced => exact Compiler.fits_of_produces produced
  | @behind relation _ q relation_mem target_eq produced key =>
    have hfits := Compiler.fits_of_produces produced
    obtain ⟨t, ht, -, hremote⟩ := hclosed.relation s.model hm relation relation_mem
    rw [target_eq] at ht
    cases ht
    obtain ⟨field, hfield⟩ := Option.isSome_iff_exists.mp hremote
    have hname : field.name = relation.remoteKey := Compiler.name_of_column? hfield
    -- one filter is added, on the column of the target at that end of the relation
    refine ⟨hfits.fields, ?_, hfits.orders, hfits.related, hfits.columns⟩
    intro f hf
    rcases List.mem_append.mp hf with hf | hf
    · exact hfits.filters f hf
    · rw [List.mem_singleton.mp hf]
      refine ⟨⟨field, Compiler.finds_of_column? hfield, hname.symm⟩, ?_⟩
      intro p hp
      rw [List.mem_singleton.mp hp]
      rfl

theorem mentions_columns {g : Registry} (hgrants : m.Grants g P) {fields : List Field}
    (hfields : ∀ f ∈ fields, f ∈ m.columns) :
    ∀ x ∈ (fields.map (·.name)).map (Mention.column (.own m.table)), P x := by
  rw [List.forall_mem_map, List.forall_mem_map]
  exact fun f hf => hgrants.column f.name (Registry.column?_isSome_of_mem (hfields f hf))

theorem mem_columns_of_mem_loadColumns {requested needed : List String} :
    ∀ f ∈ m.loadColumns requested needed, f ∈ m.columns := by
  unfold Model.loadColumns
  split
  · exact fun f hf => hf
  · exact fun f hf => (List.mem_filter.mp hf).1

/-- A row is looked for among the rows of a model. -/
theorem mentions_oneStatement {g : Registry} (hgrants : m.Grants g P) {c : Sql.Condition}
    (hc : ∀ x ∈ c.mentions .own, P x) : ∀ x ∈ (Statement.select (Rows.oneStatement m c)).mentions, P x := by
  simp only [Statement.mentions, Rows.oneStatement, List.cons_append, List.forall_mem_cons, List.forall_mem_append,
    List.flatMap_nil, List.not_mem_nil, false_implies, implies_true, and_true]
  exact ⟨hgrants.table, mentions_columns hgrants fun f hf => hf, hc⟩

theorem mentions_keyCondition {g : Registry} (hgrants : m.Grants g P) (hkey : (m.column? m.keyField.name).isSome)
    (key : Value) : ∀ x ∈ (Sql.Condition.all [m.keyCondition key]).mentions .own, P x := by
  simpa [Sql.Condition.mentions, Sql.mentionsOf, Model.keyCondition] using hgrants.column _ hkey

variable (hclosed : s.registry.IsClosed) (hm : s.model ∈ s.registry.models)

include hclosed hm

/-- A statement that reads names what some registered model grants. -/
theorem exists_grants_of_reads {statement : Statement} (h : s.Reads statement) :
    ∃ m ∈ s.registry.models, ∀ P, m.Grants s.registry P → ∀ x ∈ statement.mentions, P x := by
  cases h with
  | key key =>
    refine ⟨s.model, hm, fun P hgrants => ?_⟩
    exact mentions_oneStatement hgrants (mentions_keyCondition hgrants (hclosed.key s.model hm) key)
  | @count m q c asked condition_eq =>
    have hmem := mem_models_of_asks hm asked
    refine ⟨m, hmem, fun P hgrants => List.forall_mem_cons.mpr ⟨hgrants.table, ?_⟩⟩
    exact Query.mentions_condition hgrants hclosed hmem (fits_of_asks hclosed hm asked) condition_eq
  | @page m q c order asked condition_eq order_eq limited page =>
    have hmem := mem_models_of_asks hm asked
    have hfits := fits_of_asks hclosed hm asked
    refine ⟨m, hmem, fun P hgrants => ?_⟩
    simp only [Statement.mentions, Rows.pageStatement, List.cons_append, List.forall_mem_cons,
      List.forall_mem_append]
    exact ⟨hgrants.table, ⟨mentions_columns hgrants mem_columns_of_mem_loadColumns,
      Query.mentions_condition hgrants hclosed hmem hfits condition_eq⟩,
      Query.mentions_order hgrants hclosed hmem hfits order_eq⟩
  | @related m q load relation target asked load_mem target_eq keys =>
    -- the statement is about the target, whose end of the relation is a column
    obtain ⟨hrelated, htarget⟩ := Registry.relationTarget_eq_ok target_eq
    have hmem := mem_models_of_asks hm asked
    have htargetMem := Registry.mem_models_of_get? htarget
    obtain ⟨t, ht, -, hremote⟩ := hclosed.relation m hmem relation (Model.mem_relations_of_related? hrelated)
    rw [htarget] at ht
    cases ht
    refine ⟨target, htargetMem, fun P hgrants => ?_⟩
    simp only [Statement.mentions, Rows.relatedStatement, List.cons_append, List.forall_mem_cons,
      List.forall_mem_append]
    refine ⟨hgrants.table, ⟨mentions_columns hgrants mem_columns_of_mem_loadColumns, ?_⟩, ?_⟩
    · simpa [Sql.Condition.mentions] using hgrants.column _ hremote
    · simpa [Sql.SortItem.mentions] using hgrants.column _ (hclosed.key target htargetMem)

/-- A statement that writes names what its model grants. -/
theorem mentions_of_writes {statement : Statement} (h : s.Writes statement) (hgrants : s.model.Grants s.registry P) :
    ∀ x ∈ statement.mentions, P x := by
  have hkey := hclosed.key s.model hm
  cases h with
  | @equalRow row bound =>
    apply mentions_oneStatement hgrants
    intro x hx
    obtain ⟨c, hc, hx⟩ := Sql.mem_mentionsOf.mp hx
    obtain ⟨e, he, rfl⟩ := List.mem_map.mp hc
    have hcolumn := hgrants.column e.1 (bound e he)
    simp only [Rows.matchCondition] at hx
    split at hx <;> simpa [Sql.Condition.mentions, List.mem_singleton.mp hx] using hcolumn
  | @insert row bound =>
    simp only [Statement.mentions, Rows.insertStatement, List.forall_mem_cons, List.map_append,
      List.forall_mem_append]
    refine ⟨hgrants.table, ?_, mentions_columns hgrants fun f hf => hf⟩
    rw [List.forall_mem_map, List.forall_mem_map]
    intro e he
    -- A column that the row names is the key or one that the client may write.
    rcases bound e he with heq | hcolumn
    · rw [heq]
      exact hgrants.column _ hkey
    · exact hgrants.column _ hcolumn
  | @update changes bound key =>
    simp only [Statement.mentions, List.cons_append, List.forall_mem_cons, List.forall_mem_append,
      List.forall_mem_map]
    exact ⟨hgrants.table, fun e he => hgrants.column _ (bound e he), mentions_keyCondition hgrants hkey key⟩
  | delete key =>
    exact List.forall_mem_cons.mpr ⟨hgrants.table, mentions_keyCondition hgrants hkey key⟩

theorem exists_grants_of_utters {statement : Statement} (h : s.Utters statement) :
    ∃ m ∈ s.registry.models, ∀ P, m.Grants s.registry P → ∀ x ∈ statement.mentions, P x := by
  rcases h with h | h
  · exact exists_grants_of_reads hclosed hm h
  · exact ⟨s.model, hm, fun P hgrants => mentions_of_writes hclosed hm h hgrants⟩

end Service

end RestTables
