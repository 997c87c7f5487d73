import Mathlib.Data.List.Forall2
import Mathlib.Data.List.Pairwise
import RestTables.Registry.Build
import RestTables.Rows.Condition

/-
Module: RestTables.Proofs.Registry.Relations
Purpose: Where relations lead. A registry that was built leaves no relation without a target, and a relation
  is found by its own name where no other one has that name in another case.
Main exports: Registry.exists_target_of_build, Model.DistinctRelations, Model.related?_of_mem,
  Registry.exists_relationTarget
-/

namespace RestTables

open Registry

theorem forM_eq_ok_iff {α ε : Type} {f : α → Except ε Unit} {l : List α} :
    l.forM f = .ok () ↔ ∀ a ∈ l, f a = .ok () := by
  induction l with
  | nil => simp [pure, Except.pure]
  | cons a l ih =>
    rw [List.forM_eq_forM] at ih ⊢
    rw [List.forM_cons, List.forall_mem_cons, ← ih]
    cases f a with
    | error e => simp [bind, Except.bind]
    | ok u => simp [bind, Except.bind]

/-- What fails over a list fails at one of its members. -/
theorem exists_of_forM_eq_error {α ε : Type} {f : α → Except ε Unit} {l : List α} {e : ε} (h : l.forM f = .error e) :
    ∃ a ∈ l, f a = .error e := by
  induction l with
  | nil => cases h
  | cons a l ih =>
    rw [List.forM_eq_forM] at ih h
    rw [List.forM_cons] at h
    cases ha : f a with
    | error e' =>
      rw [ha] at h
      cases h
      exact ⟨a, List.mem_cons_self, ha⟩
    | ok u =>
      rw [ha] at h
      obtain ⟨b, hb, hfails⟩ := ih h
      exact ⟨b, List.mem_cons_of_mem _ hb, hfails⟩

/-- What succeeds in two steps succeeds in each. -/
theorem exists_of_bind_eq_ok {α β ε : Type} {x : Except ε α} {f : α → Except ε β} {b : β} (h : x >>= f = .ok b) :
    ∃ a, x = .ok a ∧ f a = .ok b := by
  cases x with
  | error e => cases h
  | ok a => exact ⟨a, rfl, h⟩

/-- A pass over a list succeeds with the results of its members, one by one. -/
theorem mapM_eq_ok_iff {α β ε : Type} {f : α → Except ε β} {l : List α} {bs : List β} :
    l.mapM f = .ok bs ↔ List.Forall₂ (fun a b => f a = .ok b) l bs := by
  induction l generalizing bs with
  | nil => cases bs <;> simp [pure, Except.pure]
  | cons a l ih =>
    rw [List.mapM_cons, List.forall₂_cons_left_iff]
    constructor
    · intro h
      obtain ⟨b, hb, h⟩ := exists_of_bind_eq_ok h
      obtain ⟨rest, hrest, h⟩ := exists_of_bind_eq_ok h
      cases h
      exact ⟨b, rest, hb, ih.mp hrest, rfl⟩
    · rintro ⟨b, rest, hb, hrest, rfl⟩
      rw [hb, ih.mpr hrest]
      rfl

/-! ## Targets -/

section Targets

variable {g : Registry} {m : Model} {r : Relation}

/-- A relation passes its check when it leads from a column to a column of its target. -/
theorem Registry.checkRelation_eq_ok_iff :
    g.checkRelation m r = .ok () ↔
      ∃ t, g.get? r.target = some t ∧ (m.column? r.localKey).isSome ∧ (t.column? r.remoteKey).isSome := by
  unfold checkRelation
  cases g.get? r.target with
  | none => simp
  | some t =>
    cases m.column? r.localKey with
    | none => simp
    | some k =>
      cases hremote : t.column? r.remoteKey with
      | none => simp [hremote]
      | some k' => simp [hremote]

/-- A registry that passes the checks is that of its models. -/
theorem Registry.eq_of_ofModels {models : List Model} (h : ofModels models = .ok g) :
    g = ⟨models⟩ ∧ (models.forM fun m => m.relations.forM (checkRelation ⟨models⟩ m)) = .ok () := by
  unfold ofModels at h
  split at h
  · cases h
  · cases h
  · obtain ⟨_, hcheck, heq⟩ := exists_of_bind_eq_ok h
    cases heq
    exact ⟨rfl, hcheck⟩

theorem Registry.checkRelation_of_ofModels {models : List Model} (h : ofModels models = .ok g)
    (hm : m ∈ g.models) (hr : r ∈ m.relations) : g.checkRelation m r = .ok () := by
  obtain ⟨rfl, hcheck⟩ := eq_of_ofModels h
  have hmodel := forM_eq_ok_iff.mp hcheck m hm
  exact forM_eq_ok_iff.mp hmodel r hr

/-- Every relation of a registry leads from a column to a column of a model. -/
theorem Registry.exists_target_of_build {declared : List Model} {tables : List Table} {config : Config}
    (h : Registry.build declared tables config = .ok g) (hm : m ∈ g.models) (hr : r ∈ m.relations) :
    ∃ t, g.get? r.target = some t ∧ (m.column? r.localKey).isSome ∧ (t.column? r.remoteKey).isSome := by
  obtain ⟨models, -, hmodels⟩ := exists_of_bind_eq_ok h
  exact checkRelation_eq_ok_iff.mp (checkRelation_of_ofModels hmodels hm hr)

/-- Every relation of a model leads to a model. -/
theorem Registry.targets_of_build {declared : List Model} {tables : List Table} {config : Config}
    (h : Registry.build declared tables config = .ok g) (hm : m ∈ g.models) :
    ∀ r ∈ m.relations, ∃ t, g.get? r.target = some t :=
  fun _ hr => (exists_target_of_build h hm hr).imp fun _ ht => ht.1

end Targets

/-! ## Names -/

namespace Model

/-- The relations have different names, whatever the case. -/
def DistinctRelations (m : Model) : Prop :=
  m.relations.Pairwise fun r s => Text.sameFold r.name s.name = false

variable {m : Model} {r s : Relation}

theorem eq_of_sameFold_name (h : m.DistinctRelations) (hr : r ∈ m.relations) (hs : s ∈ m.relations)
    (hname : Text.sameFold s.name r.name = true) : s = r := by
  by_cases heq : s = r
  · exact heq
  · have hsymm : Std.Symm fun a b : Relation => Text.sameFold a.name b.name = false := by
      constructor
      intro a b hab
      rw [Text.sameFold, Text.equalFold_symm]
      exact hab
    have hdistinct : Text.sameFold s.name r.name = false := List.Pairwise.forall h hs hr heq
    rw [hdistinct] at hname
    cases hname

/-- The name of a relation leads to a relation of that name. -/
theorem exists_related?_of_mem (hr : r ∈ m.relations) :
    ∃ s ∈ m.relations, m.related? r.name = some s ∧ s.isNamed r.name = true := by
  unfold related?
  cases hfind : m.relations.find? (·.isNamed r.name) with
  | none =>
    have hself := List.find?_eq_none.mp hfind r hr
    simp [Relation.isNamed, Text.sameFold, Text.equalFold_refl] at hself
  | some s =>
    have hnamed := List.find?_some hfind
    exact ⟨s, List.mem_of_find?_eq_some hfind, rfl, hnamed⟩

/-- A relation is found by its name. -/
theorem related?_of_mem (h : m.DistinctRelations) (hr : r ∈ m.relations) : m.related? r.name = some r := by
  obtain ⟨s, hs, hrelated, hnamed⟩ := exists_related?_of_mem hr
  have heq : s = r := eq_of_sameFold_name h hr hs hnamed
  rw [hrelated, heq]

theorem mem_relations_of_related? {name : String} (h : m.related? name = some r) : r ∈ m.relations := by
  unfold related? at h
  cases hnamed : m.relations.find? (·.isNamed name) with
  | some s =>
    rw [hnamed] at h
    cases h
    exact List.mem_of_find?_eq_some hnamed
  | none =>
    rw [hnamed] at h
    have hanswers : m.relations.find? (·.answersTo name) = some r := h
    exact List.mem_of_find?_eq_some hanswers

end Model

/-- The relation of a name leads to its target. -/
theorem Registry.exists_relationTarget {declared : List Model} {tables : List Table} {config : Config}
    {g : Registry} {m : Model} {r : Relation} (h : Registry.build declared tables config = .ok g)
    (hm : m ∈ g.models) (hdistinct : m.DistinctRelations) (hr : r ∈ m.relations) :
    ∃ t, g.get? r.target = some t ∧ g.relationTarget m r.name = .ok (r, t) := by
  obtain ⟨t, ht, -, -⟩ := exists_target_of_build h hm hr
  refine ⟨t, ht, ?_⟩
  simp only [relationTarget, Model.related?_of_mem hdistinct hr, ht]

end RestTables
