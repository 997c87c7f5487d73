import Mathlib.Data.List.Induction
import Mathlib.Logic.Function.Basic
import RestTables.Proofs.Registry.Names
import RestTables.Proofs.Registry.References

/-
Module: RestTables.Proofs.Registry.Labels
Purpose: The names and parts of paths that foreign keys give to relations. The first relation to a partner has the
  partner's own, later ones have the column of their key behind it; which are the same can be told from the columns.
Main exports: Registry.labels, Registry.IsLabelled, Registry.columnsBetween, Registry.isLabelled_foldl_link,
  IsLabelled.distinct_iff
-/

namespace RestTables

/-- A list whose groups are apart from each other is apart when each group is. -/
theorem pairwise_iff_forall_filter [BEq κ] [LawfulBEq κ] {R : α → α → Prop} {key : α → κ} {l : List α}
    (h : ∀ a ∈ l, ∀ b ∈ l, key a ≠ key b → R a b) :
    l.Pairwise R ↔ ∀ k, (l.filter (key · == k)).Pairwise R := by
  refine ⟨fun hl _ => hl.filter _, fun hgroups => ?_⟩
  induction l with
  | nil => exact .nil
  | cons a l ih =>
    have hrest : ∀ k, (l.filter (key · == k)).Pairwise R := by
      intro k
      have hgroup := hgroups k
      rw [List.filter_cons] at hgroup
      split at hgroup
      · exact hgroup.of_cons
      · exact hgroup
    refine List.pairwise_cons.mpr ⟨fun b hb => ?_, ih (fun b hb c hc => h b (.tail a hb) c (.tail a hc)) hrest⟩
    by_cases hkey : key a = key b
    · have hgroup := hgroups (key b)
      rw [List.filter_cons_of_pos (by simpa using hkey)] at hgroup
      exact List.rel_of_pairwise_cons hgroup (List.mem_filter.mpr ⟨hb, by simp⟩)
    · exact h a List.mem_cons_self b (.tail a hb) hkey

namespace Registry

/-! ## Names of relations -/

/-- The name of a relation to a partner whose own name is taken. -/
def fallback (partner : Model) (column : String) : String := partner.name ++ "_" ++ column

/-- A column of the model has the partner's name. -/
def Shadows (m partner : Model) : Prop := (m.column? partner.name).isSome = true

instance (m partner : Model) : Decidable (Shadows m partner) := inferInstanceAs (Decidable (_ = true))

/-- By which name and which part of a path a relation is found. -/
def label (r : Relation) : String × String := (r.name, r.segment)

/-- The labels of a model's relations to one partner, for the columns of the keys between them. -/
def labels (m partner : Model) : List String → List (String × String)
  | [] => []
  | c :: cs =>
    (if Shadows m partner then fallback partner c else partner.name, partner.segment) ::
      cs.map fun c => (fallback partner c, Text.lower (fallback partner c))

/-- Neither the names nor the parts of a path are the same, ignoring case. -/
def Apart (a b : String × String) : Prop := Text.sameFold a.1 b.1 = false ∧ Text.sameFold a.2 b.2 = false

/-- The label of one more relation. -/
theorem labels_append (m partner : Model) (cs : List String) (c : String) :
    labels m partner (cs ++ [c]) = labels m partner cs ++
      [(if cs ≠ [] ∨ Shadows m partner then fallback partner c else partner.name,
        if cs ≠ [] then Text.lower (fallback partner c) else partner.segment)] := by
  cases cs with
  | nil => simp [labels]
  | cons d ds => simp [labels]

/-- A label that a relation to the partner may have. -/
structure IsLabel (partner : Model) (l : String × String) : Prop where
  name : l.1 = partner.name ∨ ∃ c, l.1 = fallback partner c
  segment : l.2 = partner.segment ∨ ∃ c, l.2 = Text.lower (fallback partner c)

theorem isLabel_of_mem_labels {m partner : Model} {cs : List String} {l : String × String}
    (h : l ∈ labels m partner cs) : IsLabel partner l := by
  cases cs with
  | nil => cases h
  | cons c cs =>
    rcases List.mem_cons.mp h with rfl | h
    · refine ⟨?_, .inl rfl⟩
      dsimp only
      split
      · exact .inr ⟨c, rfl⟩
      · exact .inl rfl
    · obtain ⟨d, -, rfl⟩ := List.mem_map.mp h
      exact ⟨.inr ⟨d, rfl⟩, .inr ⟨d, rfl⟩⟩

section Apart

variable {a b : Model} (ha : IsTabular a) (hb : IsTabular b)

include ha in
theorem sameFold_name_fallback (c : String) : Text.sameFold a.name (fallback b c) = false :=
  Text.sameFold_underscore ha.underscore_not_mem

include ha in
theorem sameFold_segment_fallback (c : String) : Text.sameFold a.segment (Text.lower (fallback b c)) = false := by
  rw [fallback, Text.lower_append_underscore]
  exact Text.sameFold_underscore ha.underscore_not_mem_segment

include ha hb

/-- Labels of relations to different partners are apart. -/
theorem IsLabel.apart (hname : nameKey a ≠ nameKey b) (hsegment : segmentKey a ≠ segmentKey b)
    {k l : String × String} (hk : IsLabel a k) (hl : IsLabel b l) : Apart k l := by
  have hnames : Text.sameFold a.name b.name = false := by
    rw [← Bool.not_eq_true]
    exact fun h => hname (Text.lower_eq_of_sameFold h)
  have hsegments : Text.sameFold a.segment b.segment = false := by
    rw [← Bool.not_eq_true]
    intro h
    have heq := Text.eq_of_sameFold_of_isSmall ha.isSmall_of_mem_segment hb.isSmall_of_mem_segment h
    exact hsegment (congrArg Text.lower heq)
  constructor
  · rcases hk.name with hk | ⟨c, hk⟩ <;> rcases hl.name with hl | ⟨d, hl⟩ <;> rw [hk, hl]
    · exact hnames
    · exact sameFold_name_fallback ha d
    · rw [Text.sameFold, Text.equalFold_symm]
      exact sameFold_name_fallback hb c
    · rw [fallback, fallback, ← Bool.not_eq_true,
        Text.sameFold_append_underscore_iff ha.underscore_not_mem hb.underscore_not_mem, hnames]
      simp
  · rcases hk.segment with hk | ⟨c, hk⟩ <;> rcases hl.segment with hl | ⟨d, hl⟩ <;> rw [hk, hl]
    · exact hsegments
    · exact sameFold_segment_fallback ha d
    · rw [Text.sameFold, Text.equalFold_symm]
      exact sameFold_segment_fallback hb c
    · rw [← Bool.not_eq_true, Text.sameFold_lower_iff, fallback, fallback,
        Text.lower_append_underscore_inj ha.underscore_not_mem hb.underscore_not_mem]
      exact fun h => hname h.1

omit hb in
/-- Labels of relations to one partner are apart when the columns of the keys behind the first are, and that of the
first too where it is in its name. -/
theorem pairwise_labels_iff {m : Model} {cs : List String} :
    (labels m a cs).Pairwise Apart ↔ cs.tail.Pairwise (fun c d => Text.lower c ≠ Text.lower d) ∧
      (Shadows m a → cs.Pairwise fun c d => Text.sameFold c d = false) := by
  have hfold : ∀ c d, Text.sameFold (fallback a c) (fallback a d) = false ↔ Text.sameFold c d = false := by
    intro c d
    have hself : Text.sameFold a.name a.name = true := Text.equalFold_refl _
    rw [← Bool.not_eq_true, ← Bool.not_eq_true, fallback, fallback,
      Text.sameFold_append_underscore_iff ha.underscore_not_mem ha.underscore_not_mem, hself]
    simp
  have hlower : ∀ c d, Text.sameFold (Text.lower (fallback a c)) (Text.lower (fallback a d)) = false ↔
      Text.lower c ≠ Text.lower d := by
    intro c d
    rw [← Bool.not_eq_true, Text.sameFold_lower_iff, fallback, fallback,
      Text.lower_append_underscore_inj ha.underscore_not_mem ha.underscore_not_mem]
    simp
  -- Segments are in lower case, so what keeps two segments apart keeps the two names apart as well.
  have hweaker : ∀ c d, Text.lower c ≠ Text.lower d → Text.sameFold c d = false := by
    intro c d hne
    rw [← Bool.not_eq_true]
    exact fun h => hne (Text.lower_eq_of_sameFold h)
  -- Only the first label can be the bare name, so it is compared with the fallbacks behind it by itself.
  cases cs with
  | nil => simp [labels]
  | cons c cs =>
    have hrest : (cs.map fun c => (fallback a c, Text.lower (fallback a c))).Pairwise Apart ↔
        cs.Pairwise fun c d => Text.lower c ≠ Text.lower d := by
      rw [List.pairwise_map]
      apply List.Pairwise.iff
      intro d e
      rw [Apart, hfold, hlower]
      exact and_iff_right_of_imp (hweaker d e)
    have hfirst : (∀ l ∈ cs.map fun c => (fallback a c, Text.lower (fallback a c)),
        Apart (if Shadows m a then fallback a c else a.name, a.segment) l) ↔
          (Shadows m a → ∀ d ∈ cs, Text.sameFold c d = false) := by
      rw [List.forall_mem_map]
      by_cases hshadows : Shadows m a
      · simp [Apart, hshadows, hfold, sameFold_segment_fallback ha]
      · simp [Apart, hshadows, sameFold_name_fallback ha, sameFold_segment_fallback ha]
    rw [labels, List.pairwise_cons, hrest, hfirst, List.tail_cons, List.pairwise_cons]
    constructor
    · rintro ⟨hapart, hcs⟩
      exact ⟨hcs, fun hshadows => ⟨hapart hshadows, hcs.imp (hweaker _ _)⟩⟩
    · rintro ⟨hcs, hapart⟩
      exact ⟨fun hshadows => (hapart hshadows).1, hcs⟩

end Apart

/-! ## Relations as they are added -/

/-- Models as their tables make them, no two of which have one name. -/
structure AreNamed (base : List Model) : Prop where
  tabular : ∀ n ∈ base, IsTabular n
  apart : HaveApartNames base

/-- The relations of a model lead to partners, and those to one partner have the labels for the columns of the keys
between the two. -/
structure IsLabelled (base : List Model) (m : Model) (columns : Nat → List String) : Prop where
  targets : ∀ r ∈ m.relations, ∃ (p : Nat) (n : Model), base[p]? = some n ∧ r.target = n.name
  labels : ∀ (p : Nat) (n : Model), base[p]? = some n →
    (m.relations.filter (·.target == n.name)).map label = labels m n (columns p)

theorem key_ne_of_pairwise {key : Model → String} {models : List Model} (h : models.Pairwise fun a b => key a ≠ key b)
    {p q : Nat} {a b : Model} (ha : models[p]? = some a) (hb : models[q]? = some b) (hne : p ≠ q) : key a ≠ key b := by
  obtain ⟨hp, rfl⟩ := List.getElem?_eq_some_iff.mp ha
  obtain ⟨hq, rfl⟩ := List.getElem?_eq_some_iff.mp hb
  rcases Nat.lt_or_gt_of_ne hne with hlt | hgt
  · exact List.pairwise_iff_getElem.mp h p q hp hq hlt
  · exact (List.pairwise_iff_getElem.mp h q p hq hp hgt).symm

namespace AreNamed

variable {base : List Model} {p q : Nat} {n k : Model} (h : AreNamed base) (hn : base[p]? = some n)

include h hn

theorem isTabular : IsTabular n := h.tabular n (List.mem_of_getElem? hn)

/-- The place of a model is known by its name. -/
theorem name_eq_iff (hk : base[q]? = some k) : n.name = k.name ↔ p = q := by
  constructor
  · intro hname
    by_contra hne
    exact key_ne_of_pairwise h.apart.names hn hk hne (congrArg Text.lower hname)
  · rintro rfl
    rw [hn] at hk
    cases hk
    rfl

theorem apart_labels (hk : base[q]? = some k) (hne : p ≠ q) {l l' : String × String} (hl : IsLabel n l)
    (hl' : IsLabel k l') : Apart l l' :=
  hl.apart (h.isTabular hn) (h.isTabular hk) (key_ne_of_pairwise h.apart.names hn hk hne)
    (key_ne_of_pairwise h.apart.segments hn hk hne) hl'

end AreNamed

namespace IsLabelled

variable {base : List Model} {m : Model} {columns : Nat → List String} {p : Nat} {n : Model} {r : Relation}
  (h : IsLabelled base m columns)

include h

/-- A relation has one of the labels for its target. -/
theorem label_mem (hn : base[p]? = some n) (hr : r ∈ m.relations) (htarget : r.target = n.name) :
    label r ∈ Registry.labels m n (columns p) := by
  rw [← h.labels p n hn]
  exact List.mem_map_of_mem (List.mem_filter.mpr ⟨hr, by simpa using htarget⟩)

/-- The labels for a partner are labels of relations. -/
theorem exists_of_label_mem (hn : base[p]? = some n) {l : String × String}
    (hl : l ∈ Registry.labels m n (columns p)) : ∃ r ∈ m.relations, label r = l := by
  rw [← h.labels p n hn] at hl
  obtain ⟨r, hr, heq⟩ := List.mem_map.mp hl
  exact ⟨r, (List.mem_filter.mp hr).1, heq⟩

/-- A relation that is not apart from a label for a partner leads to this partner. -/
theorem columns_ne_nil (hbase : AreNamed base) (hn : base[p]? = some n) (hr : r ∈ m.relations)
    {l : String × String} (hl : IsLabel n l) (hnot : ¬ Apart (label r) l) : columns p ≠ [] := by
  obtain ⟨q, k, hk, htarget⟩ := h.targets r hr
  have hmem := h.label_mem hk hr htarget
  by_cases hpq : q = p
  · subst hpq
    intro hnil
    rw [hnil] at hmem
    cases hmem
  · exact absurd (hbase.apart_labels hk hn hpq (isLabel_of_mem_labels hmem) hl) hnot

/-- The first of the relations to a partner. -/
theorem exists_first (hn : base[p]? = some n) (hcolumns : columns p ≠ []) :
    ∃ r ∈ m.relations, (¬ Shadows m n → r.name = n.name) ∧ r.segment = n.segment := by
  cases hlist : columns p with
  | nil => exact absurd hlist hcolumns
  | cons c cs =>
    obtain ⟨r, hr, hlabel⟩ := h.exists_of_label_mem hn (by rw [hlist]; exact List.mem_cons_self)
    obtain ⟨hname, hsegment⟩ := Prod.ext_iff.mp hlabel
    refine ⟨r, hr, fun hshadows => ?_, hsegment⟩
    exact hname.trans (if_neg hshadows)

variable (hbase : AreNamed base) (hn : base[p]? = some n)

include hbase hn

/-- The name of a partner is taken when there is a relation to it already, or a column of that name. -/
theorem isTaken_iff : isTaken m n.name = true ↔ columns p ≠ [] ∨ Shadows m n := by
  rw [isTaken, Bool.or_eq_true, List.any_eq_true]
  constructor
  · rintro (⟨r, hr, hnamed⟩ | hcolumn)
    · refine .inl (h.columns_ne_nil hbase hn hr (l := (n.name, n.segment)) ⟨.inl rfl, .inl rfl⟩ ?_)
      rintro ⟨hapart, -⟩
      exact absurd (hapart.symm.trans hnamed) Bool.false_ne_true
    · exact .inr hcolumn
  · intro htaken
    by_cases hcolumn : Shadows m n
    · exact .inr hcolumn
    · obtain ⟨r, hr, hname, -⟩ := h.exists_first hn (htaken.resolve_right hcolumn)
      refine .inl ⟨r, hr, ?_⟩
      rw [Relation.isNamed, hname hcolumn]
      exact Text.equalFold_refl _

/-- The end of a partner's path is taken when there is a relation to it already. -/
theorem relationBySegment?_isSome_iff : (m.relationBySegment? n.segment).isSome = true ↔ columns p ≠ [] := by
  rw [Model.relationBySegment?, List.find?_isSome]
  constructor
  · rintro ⟨r, hr, hsame⟩
    refine h.columns_ne_nil hbase hn hr (l := (n.name, n.segment)) ⟨.inl rfl, .inl rfl⟩ ?_
    rintro ⟨-, hapart⟩
    exact absurd (hapart.symm.trans hsame) Bool.false_ne_true
  · intro hcolumns
    obtain ⟨r, hr, -, hsegment⟩ := h.exists_first hn hcolumns
    refine ⟨r, hr, ?_⟩
    rw [hsegment]
    exact Text.equalFold_refl _

/-- One more relation to a partner has the next label. -/
theorem add {c : String} (htarget : r.target = n.name) (hname : r.name = relationName m n.name c)
    (hsegment : r.segment = relationSegment m n.segment r.name) :
    IsLabelled base (m.addRelation r) (Function.update columns p (columns p ++ [c])) := by
  have hlabel : label r = (if columns p ≠ [] ∨ Shadows m n then fallback n c else n.name,
      if columns p ≠ [] then Text.lower (fallback n c) else n.segment) := by
    have hname' : r.name = if columns p ≠ [] ∨ Shadows m n then fallback n c else n.name := by
      rw [hname, relationName]
      simp only [h.isTaken_iff hbase hn]
      rfl
    refine Prod.ext hname' ?_
    show r.segment = _
    rw [hsegment, relationSegment]
    simp only [h.relationBySegment?_isSome_iff hbase hn]
    split
    · next hcolumns => rw [hname', if_pos (.inl hcolumns)]
    · exact (hbase.isTabular hn).lower_segment
  constructor
  · intro s hs
    rcases List.mem_append.mp hs with hs | hs
    · exact h.targets s hs
    · rw [List.mem_singleton.mp hs]
      exact ⟨p, n, hn, htarget⟩
  · intro q k hk
    have hmodel : Registry.labels (m.addRelation r) k = Registry.labels m k := rfl
    rw [Model.addRelation, List.filter_append, List.map_append, h.labels q k hk]
    -- Only the group of the partner grows. In the others the new relation falls out of the filter.
    by_cases hpq : q = p
    · subst hpq
      rw [hn] at hk
      cases hk
      have hkeep : [r].filter (·.target == n.name) = [r] := by simp [htarget]
      rw [Function.update_self, hkeep, List.map_singleton, hlabel]
      exact (labels_append m n (columns q) c).symm
    · have hdrop : [r].filter (·.target == k.name) = [] := by
        have hne := (hbase.name_eq_iff hn hk).not.mpr (Ne.symm hpq)
        simp [htarget, hne]
      rw [Function.update_of_ne hpq, hdrop, List.map_nil, List.append_nil]
      rfl

omit hn in
/-- The relations are apart when those to each partner are. -/
theorem distinct_iff :
    m.DistinctRelations ∧ m.relations.Pairwise (fun r s => Text.sameFold r.segment s.segment = false) ↔
    ∀ (p : Nat) (n : Model), base[p]? = some n →
      (columns p).tail.Pairwise (fun c d => Text.lower c ≠ Text.lower d) ∧
        (Shadows m n → (columns p).Pairwise fun c d => Text.sameFold c d = false) := by
  -- Labels of relations to two partners are never alike, so the groups can be looked at one by one.
  have hgroups : m.relations.Pairwise (fun r s => Apart (label r) (label s)) ↔
      ∀ k, (m.relations.filter (·.target == k)).Pairwise fun r s => Apart (label r) (label s) := by
    apply pairwise_iff_forall_filter
    intro r hr s hs hne
    obtain ⟨p, n, hn, htarget⟩ := h.targets r hr
    obtain ⟨q, k, hk, htarget'⟩ := h.targets s hs
    rw [htarget, htarget'] at hne
    have hpq := (hbase.name_eq_iff hn hk).not.mp hne
    exact hbase.apart_labels hn hk hpq (isLabel_of_mem_labels (h.label_mem hn hr htarget))
      (isLabel_of_mem_labels (h.label_mem hk hs htarget'))
  have hgroup : ∀ (p : Nat) (n : Model), base[p]? = some n →
      ((m.relations.filter (·.target == n.name)).Pairwise (fun r s => Apart (label r) (label s)) ↔
        (columns p).tail.Pairwise (fun c d => Text.lower c ≠ Text.lower d) ∧
          (Shadows m n → (columns p).Pairwise fun c d => Text.sameFold c d = false)) := by
    intro p n hn
    rw [← List.pairwise_map, h.labels p n hn]
    exact pairwise_labels_iff (hbase.isTabular hn)
  rw [Model.DistinctRelations, ← List.pairwise_and_iff]
  refine hgroups.trans ⟨fun hall p n hn => (hgroup p n hn).mp (hall n.name), fun hall k => ?_⟩
  by_cases hk : ∃ (p : Nat) (n : Model), base[p]? = some n ∧ n.name = k
  · obtain ⟨p, n, hn, rfl⟩ := hk
    exact (hgroup p n hn).mpr (hall p n hn)
  · -- No relation has a target that is no model.
    have hnone : m.relations.filter (·.target == k) = [] := by
      rw [List.filter_eq_nil_iff]
      intro r hr hsame
      obtain ⟨p, n, hn, htarget⟩ := h.targets r hr
      exact hk ⟨p, n, hn, htarget.symm.trans (beq_iff_eq.mp hsame)⟩
    rw [hnone]
    exact .nil

end IsLabelled

/-! ## All keys -/

/-- The columns of the keys between two models, whichever of them has the key, in order. -/
def columnsBetween (refs : List Reference) (i p : Nat) : List String :=
  refs.filterMap fun ref =>
    if ref.owner = i ∧ ref.target = p ∨ ref.owner = p ∧ ref.target = i then some ref.key.column else none

section Columns

variable (refs : List Reference) (ref : Reference)

theorem columnsBetween_append (i p : Nat) :
    columnsBetween (refs ++ [ref]) i p = columnsBetween refs i p ++
      if ref.owner = i ∧ ref.target = p ∨ ref.owner = p ∧ ref.target = i then [ref.key.column] else [] := by
  rw [columnsBetween, columnsBetween, List.filterMap_append]
  congr 1
  by_cases h : ref.owner = i ∧ ref.target = p ∨ ref.owner = p ∧ ref.target = i <;> simp [h]

/-- A key is one more between its owner and its target, from either side. -/
theorem columnsBetween_update (hne : ref.owner ≠ ref.target) :
    columnsBetween (refs ++ [ref]) ref.owner = Function.update (columnsBetween refs ref.owner) ref.target
        (columnsBetween refs ref.owner ref.target ++ [ref.key.column]) ∧
      columnsBetween (refs ++ [ref]) ref.target = Function.update (columnsBetween refs ref.target) ref.owner
        (columnsBetween refs ref.target ref.owner ++ [ref.key.column]) := by
  constructor
  · funext q
    rw [columnsBetween_append]
    by_cases hq : q = ref.target
    · subst hq
      simp
    · simp [Function.update_of_ne hq, Ne.symm hq, hne.symm]
  · funext q
    rw [columnsBetween_append]
    by_cases hq : q = ref.owner
    · subst hq
      simp
    · simp [Function.update_of_ne hq, Ne.symm hq, hne]

theorem columnsBetween_of_ne {i : Nat} (howner : ref.owner ≠ i) (htarget : ref.target ≠ i) :
    columnsBetween (refs ++ [ref]) i = columnsBetween refs i := by
  funext q
  rw [columnsBetween_append]
  simp [howner, htarget]

end Columns

/-- A key that leads from one model to another one. -/
structure IsBetween (count : Nat) (ref : Reference) : Prop where
  owner_lt : ref.owner < count
  target_lt : ref.target < count
  ne : ref.owner ≠ ref.target

/-- Once all keys are linked, every model's relations have the labels for the keys between it and its partners. -/
theorem isLabelled_foldl_link {base : List Model} (hbase : AreNamed base) {refs : List Reference}
    (hrefs : ∀ ref ∈ refs, IsBetween base.length ref) {i : Nat} {m : Model}
    (hm : (refs.foldl link base)[i]? = some m) : IsLabelled base m (columnsBetween refs i) := by
  -- The last key is linked to what the keys before it made. Its two ends get one relation each.
  induction refs using List.reverseRecOn generalizing i m with
  | nil =>
    have hnone : m.relations = [] := (hbase.isTabular hm).relations_eq
    constructor
    · rw [hnone]
      exact nofun
    · intro p n _
      rw [hnone]
      rfl
  | append_singleton refs ref ih =>
    obtain ⟨hrest, href⟩ := List.forall_mem_append.mp hrefs
    have hbetween := href ref (List.mem_singleton_self ref)
    have hgrows := grows_foldl_link refs base
    -- Linking keeps every model where it is, so both ends are there whatever came before.
    obtain ⟨more, ho⟩ := hgrows ref.owner _ (List.getElem?_eq_getElem hbetween.owner_lt)
    obtain ⟨more', ht⟩ := hgrows ref.target _ (List.getElem?_eq_getElem hbetween.target_lt)
    rw [List.foldl_append, List.foldl_cons, List.foldl_nil, getElem?_link ho ht] at hm
    obtain ⟨m', hm', rfl⟩ := Option.map_eq_some_iff.mp hm
    have hlabelled := ih hrest hm'
    obtain ⟨howner, htarget⟩ := columnsBetween_update refs ref hbetween.ne
    by_cases hiowner : ref.owner = i
    · subst hiowner
      rw [ho] at hm'
      cases hm'
      rw [howner, Reference.added, if_pos rfl, if_neg hbetween.ne.symm]
      exact hlabelled.add hbase (List.getElem?_eq_getElem hbetween.target_lt) rfl rfl rfl
    · by_cases hitarget : ref.target = i
      · subst hitarget
        rw [ht] at hm'
        cases hm'
        rw [htarget, Reference.added, if_neg hiowner, if_pos rfl]
        exact hlabelled.add hbase (List.getElem?_eq_getElem hbetween.owner_lt) rfl rfl rfl
      · rw [columnsBetween_of_ne refs ref hiowner hitarget, Reference.added, if_neg hiowner, if_neg hitarget]
        simpa using hlabelled

end Registry

end RestTables
