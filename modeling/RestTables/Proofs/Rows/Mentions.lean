import RestTables.Proofs.Query.Compiled
import RestTables.Proofs.Registry.Origin
import RestTables.Proofs.Sql.Mentions
import RestTables.Rows.Page
import RestTables.Rows.Write

/-
Module: RestTables.Proofs.Rows.Mentions
Purpose: What the statements for a model name: its table, its columns, and the tables and columns that its
  relations lead to.
Main exports: Model.Grants, Query.mentions_condition, Query.mentions_order
-/

namespace RestTables

open Sql

/-- The property holds of all that the statements for a model need to name. -/
structure Model.Grants (g : Registry) (m : Model) (P : Mention → Prop) : Prop where
  table : P (.table (.own m.table))
  column : ∀ name, (m.column? name).isSome → P (.column (.own m.table) name)
  /-- The target of a relation is named with the column at that end. -/
  target : ∀ r ∈ m.relations, ∀ t, g.get? r.target = some t →
    P (.table (.related t.table)) ∧ P (.column (.related t.table) r.remoteKey)
  /-- A column that was found behind a relation's name is named as one of the table to which the name leads. -/
  found : ∀ name field r t, ({ registry := g, model := m } : Compiler).Finds (some name) field →
    g.relationTarget m name = .ok (r, t) → P (.column (.related t.table) field.name)
  escape : P (.escape ({} : Grammar).escape)

theorem exists_of_mem_mapM {α β ε : Type} {f : α → Except ε β} {l : List α} {bs : List β} (h : l.mapM f = .ok bs)
    {b : β} (hb : b ∈ bs) : ∃ a ∈ l, f a = .ok b := by
  replace h := mapM_eq_ok_iff.mp h
  induction h with
  | nil => cases hb
  | @cons a _ _ _ hfirst _ ih =>
    rcases List.mem_cons.mp hb with rfl | hb
    · exact ⟨a, List.mem_cons_self, hfirst⟩
    · obtain ⟨a', ha', hfa⟩ := ih hb
      exact ⟨a', List.mem_cons_of_mem a ha', hfa⟩

/-- The name of a relation leads along one of the relations to its target. -/
theorem Registry.relationTarget_eq_ok {g : Registry} {m : Model} {name : String} {r : Relation} {t : Model}
    (h : g.relationTarget m name = .ok (r, t)) : m.related? name = some r ∧ g.get? r.target = some t := by
  unfold Registry.relationTarget at h
  split at h
  · cases h
  · next r' hr =>
    split at h
    · cases h
    · next t' ht =>
      cases h
      exact ⟨hr, ht⟩

section Names

variable {P : Mention → Prop} {g : Registry} {m : Model} {names : String → Source}

/-! ## Conditions -/

theorem Predicate.mentions_condition {escape : Char} {column : Column} (p : Predicate)
    (hcolumn : P (.column (names column.table) column.name)) (hescape : P (.escape escape)) :
    ∀ x ∈ (p.condition escape column).mentions names, P x := by
  cases p with
  | compare op v => simpa [Predicate.condition, Condition.mentions] using hcolumn
  | like pattern negated => simpa [Predicate.condition, Condition.mentions] using ⟨hcolumn, hescape⟩
  | isIn values negated => simpa [Predicate.condition, Condition.mentions] using hcolumn
  | null negated => simpa [Predicate.condition, Condition.mentions] using hcolumn
  | range low high negated =>
    cases negated <;> simpa [Predicate.condition, Condition.mentions, mentionsOf] using hcolumn

theorem Filter.mentions_condition {escape : Char} {table : String} (f : Filter)
    (hcolumn : P (.column (names table) f.field)) (hescape : P (.escape escape)) :
    ∀ x ∈ (f.condition escape table).mentions names, P x := by
  intro x hx
  obtain ⟨c, hc, hx⟩ := mem_mentionsOf.mp hx
  obtain ⟨p, -, rfl⟩ := List.mem_map.mp hc
  exact p.mentions_condition hcolumn hescape x hx

variable (hgrants : m.Grants g P) (hclosed : g.IsClosed) (hm : m ∈ g.models)

include hgrants hclosed hm

/-- The condition of a relation names its two ends, and what the condition on the target names. -/
theorem Model.mentions_relatedCondition {r : Relation} {t : Model} (hr : r ∈ m.relations)
    (ht : g.get? r.target = some t) {inner : Option Condition}
    (hinner : ∀ c ∈ inner, ∀ x ∈ c.mentions (within t.table .own), P x) :
    ∀ x ∈ (relatedCondition m r t inner).mentions .own, P x := by
  obtain ⟨t', -, hlocal, -⟩ := hclosed.relation m hm r hr
  have hown : P (.column (.own m.table) r.localKey) := hgrants.column r.localKey hlocal
  obtain ⟨htable, hremote⟩ := hgrants.target r hr t ht
  cases inner with
  | none => simpa [relatedCondition, Condition.mentions, Subquery.mentions] using ⟨hown, htable, hremote⟩
  | some c =>
    simpa [relatedCondition, Condition.mentions, Subquery.mentions] using ⟨hown, htable, hremote, hinner c rfl⟩

theorem Query.mentions_filterCondition {f : Filter} {c : Condition}
    (hf : ({ registry := g, model := m } : Compiler).FitsFilter f)
    (h : Query.filterCondition g m {} f = .ok c) : ∀ x ∈ c.mentions .own, P x := by
  obtain ⟨⟨field, hfinds, hname⟩, -⟩ := hf
  unfold Query.filterCondition at h
  cases hrelation : f.relation with
  | none =>
    rw [hrelation] at h hfinds
    cases h
    have hcolumn : (m.column? f.field).isSome := by
      rw [hname]
      exact Option.isSome_of_eq_some hfinds
    exact f.mentions_condition (hgrants.column _ hcolumn) hgrants.escape
  | some name =>
    rw [hrelation] at h hfinds
    obtain ⟨⟨r, t⟩, htarget, h⟩ := exists_of_bind_eq_ok h
    cases h
    obtain ⟨hr, ht⟩ := Registry.relationTarget_eq_ok htarget
    have hcolumn : P (.column (.related t.table) f.field) := by
      rw [hname]
      exact hgrants.found name field r t hfinds htarget
    have hwithin : within t.table .own relatedAlias = .related t.table := if_pos rfl
    apply Model.mentions_relatedCondition hgrants hclosed hm (Model.mem_relations_of_related? hr) ht
    intro c hc
    cases hc
    exact f.mentions_condition (by rwa [hwithin]) hgrants.escape

theorem Query.mentions_joinConditions {loads : List Load} {join : Join} {cs : List Condition}
    (h : Query.joinConditions g m loads join = .ok cs) : ∀ c ∈ cs, ∀ x ∈ c.mentions .own, P x := by
  intro c hc
  cases join with
  | outer =>
    cases h
    cases hc
  | inner =>
    obtain ⟨load, -, hload⟩ := exists_of_mem_mapM h hc
    obtain ⟨⟨r, t⟩, htarget, hload⟩ := exists_of_bind_eq_ok hload
    cases hload
    obtain ⟨hr, ht⟩ := Registry.relationTarget_eq_ok htarget
    exact Model.mentions_relatedCondition hgrants hclosed hm (Model.mem_relations_of_related? hr) ht nofun

omit hclosed hm in
theorem Query.mentions_searchCondition (term : Option String) :
    ∀ c ∈ Query.searchCondition m {} term, ∀ x ∈ c.mentions .own, P x := by
  intro c hc x hx
  cases term with
  | none => cases hc
  | some term =>
    simp only [Query.searchCondition] at hc
    split at hc
    · cases hc
    · rw [List.mem_singleton.mp hc] at hx
      obtain ⟨like, hlike, hx⟩ := mem_mentionsOf.mp hx
      obtain ⟨name, hname, rfl⟩ := List.mem_map.mp hlike
      obtain ⟨f, hf, rfl⟩ := List.mem_map.mp hname
      have hcolumn := hgrants.column f.name (Registry.column?_isSome_of_mem (List.mem_filter.mp hf).1)
      simp only [Condition.mentions, List.mem_cons, List.not_mem_nil, or_false] at hx
      rcases hx with rfl | rfl
      · exact hcolumn
      · exact hgrants.escape

/-- The condition of a query names only what the model grants. -/
theorem Query.mentions_condition {q : Query} (hq : ({ registry := g, model := m } : Compiler).Fits q) {join : Join}
    {c : Condition} (h : q.condition g m join {} = .ok c) : ∀ x ∈ c.mentions .own, P x := by
  obtain ⟨filters, hfilters, h⟩ := exists_of_bind_eq_ok h
  obtain ⟨joins, hjoins, h⟩ := exists_of_bind_eq_ok h
  cases h
  intro x hx
  obtain ⟨c, hc, hx⟩ := mem_mentionsOf.mp hx
  simp only [List.mem_append] at hc
  rcases hc with (hc | hc) | hc
  · obtain ⟨f, hf, hcondition⟩ := exists_of_mem_mapM hfilters hc
    exact Query.mentions_filterCondition hgrants hclosed hm (hq.filters f hf) hcondition x hx
  · exact Query.mentions_searchCondition hgrants q.search c hc x hx
  · exact Query.mentions_joinConditions hgrants hclosed hm hjoins c hc x hx

/-! ## Orders -/

theorem Query.mentions_sortItem {o : Order} {item : SortItem}
    (ho : ∃ field, ({ registry := g, model := m } : Compiler).Finds o.relation field ∧ o.field = field.name)
    (h : Query.sortItem g m o = .ok item) : ∀ x ∈ item.mentions, P x := by
  obtain ⟨field, hfinds, hname⟩ := ho
  unfold Query.sortItem at h
  cases hrelation : o.relation with
  | none =>
    rw [hrelation] at h hfinds
    cases h
    have hcolumn : (m.column? o.field).isSome := by
      rw [hname]
      exact Option.isSome_of_eq_some hfinds
    simpa [SortItem.mentions] using hgrants.column _ hcolumn
  | some name =>
    rw [hrelation] at h hfinds
    obtain ⟨⟨r, t⟩, htarget, h⟩ := exists_of_bind_eq_ok h
    cases h
    obtain ⟨hrelated, ht⟩ := Registry.relationTarget_eq_ok htarget
    have hr : r ∈ m.relations := Model.mem_relations_of_related? hrelated
    obtain ⟨t', -, hlocal, -⟩ := hclosed.relation m hm r hr
    obtain ⟨htable, hremote⟩ := hgrants.target r hr t ht
    have hcolumn : P (.column (.related t.table) o.field) := by
      rw [hname]
      exact hgrants.found name field r t hfinds htarget
    simpa [SortItem.mentions] using ⟨htable, hcolumn, hremote, hgrants.column r.localKey hlocal⟩

/-- The order of a query names only what the model grants. -/
theorem Query.mentions_order {q : Query} (hq : ({ registry := g, model := m } : Compiler).Fits q)
    {items : List SortItem} (h : Query.order g m q.orders = .ok items) :
    ∀ x ∈ items.flatMap SortItem.mentions, P x := by
  obtain ⟨sorted, hitems, h⟩ := exists_of_bind_eq_ok h
  have hsorted : ∀ x ∈ sorted.flatMap SortItem.mentions, P x := by
    intro x hx
    obtain ⟨item, hitem, hx⟩ := List.mem_flatMap.mp hx
    obtain ⟨o, ho, hsort⟩ := exists_of_mem_mapM hitems hitem
    exact Query.mentions_sortItem hgrants hclosed hm (hq.orders o ho) hsort x hx
  -- The key is put behind the columns to sort by unless it is one of them.
  change (if q.orders.any fun o => o.relation.isNone && o.field == m.keyField.name then Except.ok sorted
    else .ok (sorted ++ [⟨.column ⟨m.table, m.keyField.name⟩, false⟩])) = Except.ok items at h
  split at h
  · cases h
    exact hsorted
  · cases h
    rw [List.flatMap_append, List.forall_mem_append]
    exact ⟨hsorted, by simpa [SortItem.mentions] using hgrants.column _ (hclosed.key m hm)⟩

end Names

end RestTables
