import RestTables.Proofs.Rows.Listing
import RestTables.Proofs.Rows.Mentions
import RestTables.Proofs.Value.Coerce

/-
Module: RestTables.Proofs.Rows.Alone
Purpose: What the relations of a row lead to does not depend on the rows that are read with it, nor on which of its
  columns are read, as long as the keys are among them. Rows of many keys are told apart by the text of their own key,
  which the database must not take for that of another one.
Main exports: Engine.ComparesKeys, Rows.IsComparable, Rows.alone, Rows.resultOf_loadRelated_eq_alone,
  Rows.exists_loadsAlone
-/

namespace RestTables

open Sql Dialogue

/-! ## Databases that compare keys -/

namespace Sql.Engine

variable {E : Engine} {kind kind' : Kind} {v w : Value}

/-- How a database compares keys, unless a column asks for another collation: a key is equal to itself, and to no other
one of its kind. Keys of two kinds that it compares at all are equal where their texts are the same. -/
structure ComparesKeys (E : Engine) : Prop where
  reflexive {kind : Kind} {v : Value} (exact : kind.isExact = true) (hv : v.IsKnown kind) : E.equal v v = true
  apart {kind : Kind} {v w : Value} (exact : kind.isExact = true) (hv : v.IsKnown kind) (hw : w.IsKnown kind)
    (equal : E.equal v w = true) : v = w
  across {kind kind' : Kind} {v w w' : Value} (exact : kind.isExact = true) (exact' : kind'.isExact = true)
    (hv : v.IsKnown kind) (hw : w.IsKnown kind') (hw' : w'.IsKnown kind') (compared : E.equal v w = true)
    (text : v.keyText = w'.keyText) : E.equal v w' = true

/-- A value that is equal to some key of a kind, and has the text of a key of the kind, is equal to that key only. -/
theorem ComparesKeys.eq_of_equal (h : E.ComparesKeys) {key : Value} (exact : kind.isExact = true)
    (exact' : kind'.isExact = true) (hv : v.IsKnown kind) (hw : w.IsKnown kind') (hkey : key.IsKnown kind')
    (htext : v.keyText = key.keyText) (hequal : E.equal v w = true) : w = key :=
  h.apart exact' hw hkey (E.equal_trans (E.equal_symm hequal) (h.across exact exact' hv hw hkey hequal htext))

/-- The plain engine compares keys as they are. -/
theorem comparesKeys_plain (keys : List (String × List String)) : (plain keys).ComparesKeys where
  reflexive _ _ := beq_self_eq_true _
  apart _ _ _ equal := beq_iff_eq.mp equal
  across {kind kind' v w w'} exact exact' hv hw hw' compared text := by
    obtain rfl : v = w := beq_iff_eq.mp compared
    exact beq_iff_eq.mpr (Value.keyText_inj exact' hw.1 hw'.1 text)

end Sql.Engine

namespace Rows

variable {E : Engine} {db : Database} {m target : Model} {relation : Relation}

/-! ## Rows that were read -/

/-- The values of a row are of the kinds of the columns of its model. -/
def IsOf (m : Model) (r : Record) : Prop :=
  ∀ name v, r.get? name = some v → ∃ f, m.column? name = some f ∧ v.hasKind f.kind = true

/-- The columns at both ends of a relation hold keys that are shown exactly. -/
structure IsComparable (m : Model) (relation : Relation) (target : Model) : Prop where
  own : ∀ f, m.column? relation.localKey = some f → f.kind.isExact = true
  other : ∀ f, target.column? relation.remoteKey = some f → f.kind.isExact = true

theorem IsComparable.hasKeys (h : IsComparable m relation target) {records : List Record}
    (hrecords : ∀ r ∈ records, IsOf m r) : ∃ kind, kind.isExact = true ∧ HasKeys kind relation.localKey records := by
  cases hf : m.column? relation.localKey with
  | none =>
    refine ⟨.integer, rfl, fun r hr v hv => ?_⟩
    obtain ⟨f, hf', -⟩ := hrecords r hr _ v hv
    rw [hf] at hf'
    cases hf'
  | some f =>
    refine ⟨f.kind, h.own f hf, fun r hr v hv => ?_⟩
    obtain ⟨f', hf', hkind⟩ := hrecords r hr _ v hv
    rw [hf, Option.some.injEq] at hf'
    rwa [hf']

/-- A key that has a text was read from the row. -/
theorem isKnown_of_keyText {f : Field} {row : StoredRow} {key : String} (hexact : f.kind.isExact = true)
    (h : (row.read f).keyText = some key) :
    (row f.name).IsKnown f.kind ∧ (row f.name).keyText = some key := by
  have hkind := row.hasKind_read f
  have hknown : (row.read f).isSqlNull = false := (Value.exists_keyText_iff hexact hkind).mp ⟨key, h⟩
  rw [← StoredRow.read_eq_of_known hknown]
  exact ⟨⟨hkind, hknown⟩, h⟩

/-- A row that shows a key has it stored. -/
theorem IsComparable.isKnown_of_keyText (h : IsComparable m relation target) {requested : List String}
    {row : StoredRow} {key : String}
    (htext : (readRow (target.loadColumns requested [relation.remoteKey]) row).keyText relation.remoteKey = some key) :
    ∃ kind, kind.isExact = true ∧ (row relation.remoteKey).IsKnown kind ∧
      (row relation.remoteKey).keyText = some key := by
  obtain ⟨v, hv, hkey⟩ := Option.bind_eq_some_iff.mp htext
  rw [get?_readRow, find?_loadColumns_of_needed (.inr (List.mem_singleton_self _))] at hv
  obtain ⟨f, hf, rfl⟩ := Option.map_eq_some_iff.mp hv
  have hexact : f.kind.isExact = true := h.other f hf
  have hstored := Rows.isKnown_of_keyText hexact hkey
  rw [Compiler.name_of_column? hf] at hstored
  exact ⟨f.kind, hexact, hstored⟩

/-! ## Rows that are asked for -/

/-- A row is among those that are asked for by keys. -/
def asked (E : Engine) (relation : Relation) (keys : List Value) (row : StoredRow) : Bool :=
  decide (∃ key ∈ keys, E.Equal (row relation.remoteKey) key)

/-- The rows that keys are answered with, as they are read. -/
def answered (E : Engine) (relation : Relation) (fields : List Field) (sorted : List StoredRow) (keys : List Value) :
    List Record :=
  (sorted.filter (asked E relation keys)).map (readRow fields)

theorem asked_singleton {key : Value} {row : StoredRow} :
    asked E relation [key] row = true ↔ E.Equal (row relation.remoteKey) key := by
  simp [asked]

section Sorted

variable {sorted : List StoredRow} {fields : List Field}
  (hsorted : ∀ (s : Select) (p : StoredRow → Bool), s.table = target.table →
    s.order = [⟨.column ⟨target.table, target.keyField.name⟩, false⟩] →
    E.arrange s ((db target.table).filter p) = sorted.filter p)

include hsorted

theorem rows_relatedStatement (keys : List Value) :
    E.rows db (.select (relatedStatement relation target fields keys)) =
      (sorted.filter (asked E relation keys)).map (·.cells (fields.map (·.name))) := by
  have hselects : (relatedStatement relation target fields keys).condition.selects E db target.table =
      asked E relation keys := by
    funext row
    rw [Bool.eq_iff_iff, Condition.selects_iff, asked, decide_eq_true_iff]
    simp only [relatedStatement, Condition.eval, Truth.opposite_false, Engine.member_eq_true_iff,
      Scope.value_cons_self]
  rw [Engine.rows, Engine.selected_of_unlimited rfl rfl, Engine.matching]
  exact congrArg (List.map _) (hselects ▸ hsorted _ _ rfl rfl)

/-- The rows of some parts of the keys are answered part by part. -/
theorem resultOf_relatedRows_eq (parts : List (List Value)) :
    resultOf (E.answers db) (relatedRows relation target fields parts).run =
      .ok (parts.flatMap (answered E relation fields sorted)) := by
  have hanswers : ∀ keys ∈ parts, E.answers db (.select (relatedStatement relation target fields keys)) =
      .ok ((sorted.filter (asked E relation keys)).map (·.cells (fields.map (·.name)))) :=
    fun keys _ => congrArg Except.ok (rows_relatedStatement hsorted keys)
  rw [resultOf_relatedRows hanswers]
  simp only [List.map_map]
  rfl

end Sorted

/-! ## One row among many -/

/-- What a relation leads to from one row, out of the rows that are asked for it alone. -/
def alone (E : Engine) (relation : Relation) (fields : List Field) (sorted : List StoredRow)
    (projection : Option (List String)) (r : Record) : Related Record :=
  relatedOf relation (answered E relation fields sorted (r.get? relation.localKey).toList) projection r

theorem alone_congr {fields : List Field} {sorted : List StoredRow} {projection : Option (List String)}
    {r r' : Record} (h : r.get? relation.localKey = r'.get? relation.localKey) :
    alone E relation fields sorted projection r = alone E relation fields sorted projection r' := by
  simp only [alone, relatedOf, Row.keyText, h]

section Exact

variable (hcompares : E.ComparesKeys) (hrelation : IsComparable m relation target) (requested : List String)
  (sorted : List StoredRow) {kind : Kind} (hkind : kind.isExact = true)

include hcompares hrelation hkind

/-- A row with the text of a key is asked for when that key is. -/
theorem asked_iff {keys : List Value} (hkeys : ∀ w ∈ keys, w.IsKnown kind) {v : Value} (hv : v.IsKnown kind)
    {key : String} (hkey : v.keyText = some key) {row : StoredRow}
    (htext : (readRow (target.loadColumns requested [relation.remoteKey]) row).keyText relation.remoteKey = some key) :
    asked E relation keys row = true ↔ v ∈ keys ∧ asked E relation [v] row = true := by
  obtain ⟨kind', hkind', hknown, hrow⟩ := hrelation.isKnown_of_keyText htext
  rw [asked_singleton, asked, decide_eq_true_iff]
  constructor
  · rintro ⟨w, hw, hequal⟩
    obtain rfl : w = v :=
      hcompares.eq_of_equal hkind' hkind hknown (hkeys w hw) hv (hrow.trans hkey.symm) hequal.2.2
    exact ⟨hw, hequal⟩
  · exact fun ⟨hmem, hequal⟩ => ⟨v, hmem, hequal⟩

/-- Of the rows that some keys are answered with, those with the text of a key are the ones that it is answered with
alone, if it is among them. -/
theorem filter_answered {keys : List Value} (hkeys : ∀ w ∈ keys, w.IsKnown kind) {v : Value} (hv : v.IsKnown kind)
    {key : String} (hkey : v.keyText = some key) :
    (answered E relation (target.loadColumns requested [relation.remoteKey]) sorted keys).filter
        (fun row => row.keyText relation.remoteKey == some key) =
      if v ∈ keys then
        (answered E relation (target.loadColumns requested [relation.remoteKey]) sorted [v]).filter
          (fun row => row.keyText relation.remoteKey == some key)
      else [] := by
  have hasked := fun row =>
    @asked_iff E m target relation hcompares hrelation requested kind hkind keys hkeys v hv key hkey row
  simp only [answered, List.filter_map, List.filter_filter]
  split
  · next hmem =>
    refine congrArg _ (List.filter_congr fun row _ => ?_)
    rw [Bool.eq_iff_iff, Bool.and_eq_true, Bool.and_eq_true]
    refine and_congr_right fun htext => ?_
    rw [hasked row (beq_iff_eq.mp htext), and_iff_right hmem]
  · next hmem =>
    rw [List.map_eq_nil_iff, List.filter_eq_nil_iff]
    rintro row - h
    obtain ⟨htext, hrow⟩ := Bool.and_eq_true_iff.mp h
    exact hmem ((hasked row (beq_iff_eq.mp htext)).mp hrow).1

/-- Out of the rows for all records, each record gets what it gets alone. -/
theorem relatedOf_eq_alone (projection : Option (List String)) {records : List Record}
    (hkeys : HasKeys kind relation.localKey records) {r : Record} (hr : r ∈ records) :
    relatedOf relation ((chunksOf chunkSize (distinctKeys relation.localKey [] records)).flatMap
        (answered E relation (target.loadColumns requested [relation.remoteKey]) sorted)) projection r =
      alone E relation (target.loadColumns requested [relation.remoteKey]) sorted projection r := by
  cases hkey : r.keyText relation.localKey with
  | none => simp only [alone, relatedOf, hkey]
  | some key =>
    obtain ⟨v, hget, hv⟩ := Option.bind_eq_some_iff.mp hkey
    have hvkind : v.hasKind kind = true := hkeys r hr v hget
    have hvnull : v.isSqlNull = false := (Value.exists_keyText_iff hkind hvkind).mp ⟨key, hv⟩
    have hflatten := flatten_chunksOf chunkSize (distinctKeys relation.localKey [] records)
    have hmem : v ∈ distinctKeys relation.localKey [] records :=
      (mem_distinctKeys_iff hkind hkeys []).mpr ⟨⟨r, hr, hget⟩, hvnull, by simp⟩
    have hparts : ∀ keys ∈ chunksOf chunkSize (distinctKeys relation.localKey [] records),
        ∀ w ∈ keys, w.IsKnown kind := by
      intro keys hpart w hw
      have hasked := hflatten ▸ List.mem_flatten_of_mem hpart hw
      obtain ⟨⟨r', hr', hget'⟩, hnull, -⟩ := (mem_distinctKeys_iff hkind hkeys []).mp hasked
      exact ⟨hkeys r' hr' w hget', hnull⟩
    -- the text of the key picks the same rows out of all that are read as out of those that are read for it
    have hfound : ((chunksOf chunkSize (distinctKeys relation.localKey [] records)).flatMap
        (answered E relation (target.loadColumns requested [relation.remoteKey]) sorted)).filter
          (fun row => row.keyText relation.remoteKey == some key) =
        (answered E relation (target.loadColumns requested [relation.remoteKey]) sorted [v]).filter
          (fun row => row.keyText relation.remoteKey == some key) := by
      rw [List.filter_flatMap, List.flatMap_congr fun keys hpart =>
        filter_answered hcompares hrelation requested sorted hkind (hparts keys hpart) ⟨hvkind, hvnull⟩ hv]
      exact flatMap_parts (by rw [hflatten]; exact nodup_distinctKeys hkind hkeys []) (by rw [hflatten]; exact hmem) _
    simp only [alone, relatedOf, hkey, hget, Option.toList_some, hfound]

end Exact

/-! ## All relations -/

/-- What is read along is of the same model. -/
theorem IsOf.of_toRow {r r' : Record} (h : IsOf m r) (hrow : r'.toRow = r.toRow) : IsOf m r' := by
  intro name v hv
  rw [Row.get?, hrow] at hv
  exact h name v hv

variable {g : Registry}

/-- Each record gets what a relation leads to from it alone. -/
theorem resultOf_loadRelated_eq_alone (hcompares : E.ComparesKeys) {load : Load}
    (htarget : g.relationTarget m load.relation = .ok (relation, target)) (hrelation : IsComparable m relation target)
    (hkeeps : E.KeepsOrder target.table [⟨.column ⟨target.table, target.keyField.name⟩, false⟩] (db target.table)) :
    ∃ sorted, ∀ records : List Record, (∀ r ∈ records, IsOf m r) →
      resultOf (E.answers db) (loadRelated g m records load).run = .ok (records.map fun r =>
        { r with related := r.related ++ [(relation.name,
          alone E relation (fieldsAlong relation target load) sorted load.columns r)] }) := by
  obtain ⟨sorted, hsorted⟩ := hkeeps
  refine ⟨sorted, fun records hrecords => ?_⟩
  obtain ⟨kind, hkind, hkeys⟩ := hrelation.hasKeys hrecords
  rw [loadRelated, resultOf_lift_bind htarget,
    resultOf_except_bind (resultOf_relatedRows_eq hsorted _)]
  refine congrArg Except.ok (List.map_congr_left fun r hr => ?_)
  rw [relatedOf_eq_alone hcompares hrelation (load.columns.getD []) sorted hkind load.columns hkeys hr]

/-- What loading gives to each record by itself, for nothing but its own keys. -/
structure LoadsAlone (E : Engine) (db : Database) (g : Registry) (m : Model) (loads : List Load)
    (found : Record → List (String × Related Record)) : Prop where
  congr {r r' : Record} (h : ∀ name ∈ localKeys m loads, r.get? name = r'.get? name) : found r = found r'
  result {records : List Record} (h : ∀ r ∈ records, IsOf m r) :
    resultOf (E.answers db) (loadAll g m records loads).run =
      .ok (records.map fun r => { r with related := r.related ++ found r })

/-- Records get what some relations lead to from each of them alone. -/
theorem exists_loadsAlone (hcompares : E.ComparesKeys) {loads : List Load}
    (hloads : ∀ load ∈ loads, ∃ relation target, g.relationTarget m load.relation = .ok (relation, target) ∧
      IsComparable m relation target ∧
      E.KeepsOrder target.table [⟨.column ⟨target.table, target.keyField.name⟩, false⟩] (db target.table)) :
    ∃ found, LoadsAlone E db g m loads found := by
  -- What a load finds hangs on the key columns only, which the loads before it leave as they are.
  induction loads with
  | nil =>
    refine ⟨fun _ => [], fun _ => rfl, fun _ => ?_⟩
    have hnone : (fun r : Record => { r with related := r.related ++ [] }) = id := by
      funext r
      cases r
      exact congrArg (Record.mk _) (List.append_nil _)
    rw [hnone, List.map_id]
    rfl
  | cons load loads ih =>
    obtain ⟨hload, hrest⟩ := List.forall_mem_cons.mp hloads
    obtain ⟨relation, target, htarget, hrelation, hkeeps⟩ := hload
    obtain ⟨sorted, hfirst⟩ := resultOf_loadRelated_eq_alone hcompares htarget hrelation hkeeps
    obtain ⟨found, hfound⟩ := ih hrest
    have hlocal : localKeys m (load :: loads) = relation.localKey :: localKeys m loads := by
      simp only [localKeys, List.filterMap_cons, (Registry.relationTarget_eq_ok htarget).1, Option.map_some]
    let own : Record → Related Record := alone E relation (fieldsAlong relation target load) sorted load.columns
    refine ⟨fun r => (relation.name, own r) :: found r, ?_, ?_⟩
    · intro r r' h
      rw [hlocal] at h
      obtain ⟨hkey, hkeys⟩ := List.forall_mem_cons.mp h
      simp only [hfound.congr hkeys, own, alone_congr hkey]
    · intro records hrecords
      rw [loadAll, resultOf_except_bind (hfirst records hrecords), hfound.result, List.map_map]
      · refine congrArg Except.ok (List.map_congr_left fun r _ => ?_)
        -- The first load has already added its own part to the record.
        have hsame : found { r with related := r.related ++ [(relation.name, own r)] } = found r :=
          hfound.congr fun _ _ => rfl
        simp only [Function.comp_apply, List.append_assoc, List.singleton_append]
        exact congrArg (fun x => { r with related := r.related ++ (relation.name, own r) :: x }) hsame
      · intro r hr
        obtain ⟨r', hr', rfl⟩ := List.mem_map.mp hr
        exact (hrecords r' hr').of_toRow rfl

end Rows

end RestTables
