import RestTables.Proofs.Rows.Page
import RestTables.Proofs.Value.KeyText

/-
Module: RestTables.Proofs.Rows.Related
Purpose: Reading along for many rows at once gives each of them what a look-up for it alone would give. Every key is
  asked for once, in as few statements as hold them all.
Main exports: Rows.mem_distinctKeys_iff, Rows.length_chunksOf, Rows.AnswersKeys, Rows.lookedUp, Rows.AsksOnce,
  Rows.loadRelated_eq_lookedUp
-/

namespace RestTables.Rows

open Sql Dialogue

/-! ## Parts of a list -/

section Parts

variable {size : Nat} {l : List α}

/-- There are as few parts as possible. -/
theorem length_chunksOf (hsize : 0 < size) (l : List α) :
    (chunksOf size l).length = (l.length + (size - 1)) / size := by
  fun_induction chunksOf size l with
  | case1 =>
    have hnone : (0 + (size - 1)) / size = 0 := Nat.div_eq_of_lt (by omega)
    rw [List.length_nil, List.length_nil, hnone]
  | case2 a l ih =>
    rw [List.length_cons, ih, List.length_drop, List.length_cons]
    by_cases hrest : l.length < size - 1
    · have hone : (l.length + 1 + (size - 1)) / size = 1 := Nat.div_eq_of_lt_le (by omega) (by omega)
      have hnone : (l.length - (size - 1) + (size - 1)) / size = 0 := Nat.div_eq_of_lt (by omega)
      rw [hone, hnone]
    · have hsum : l.length + 1 + (size - 1) = l.length - (size - 1) + (size - 1) + size := by omega
      rw [hsum, Nat.add_div_right _ hsize]

theorem length_le_of_mem_chunksOf (hsize : 0 < size) : ∀ part ∈ chunksOf size l, part.length ≤ size := by
  fun_induction chunksOf size l with
  | case1 => simp
  | case2 a l ih =>
    refine List.forall_mem_cons.mpr ⟨?_, ih⟩
    rw [List.length_cons, List.length_take]
    omega

/-- What only the part with an element has is all that the parts have. -/
theorem flatMap_parts [DecidableEq α] {parts : List (List α)} {a : α} (hnodup : parts.flatten.Nodup)
    (ha : a ∈ parts.flatten) (found : List β) :
    (parts.flatMap fun part => if a ∈ part then found else []) = found := by
  induction parts with
  | nil => cases ha
  | cons part parts ih =>
    rw [List.flatten_cons] at hnodup ha
    obtain ⟨-, hrest, hdisjoint⟩ := List.nodup_append.mp hnodup
    rw [List.flatMap_cons]
    by_cases hmem : a ∈ part
    · have hnone : (parts.flatMap fun part => if a ∈ part then found else []) = [] := by
        rw [List.flatMap_eq_nil_iff]
        intro other hother
        have hnot : a ∉ other := fun h => hdisjoint a hmem a (List.mem_flatten_of_mem hother h) rfl
        rw [if_neg hnot]
      rw [if_pos hmem, hnone, List.append_nil]
    · have hlater : a ∈ parts.flatten := (List.mem_append.mp ha).resolve_left hmem
      rw [if_neg hmem, List.nil_append, ih hrest hlater]

end Parts

/-! ## Keys -/

section Keys

variable {kind : Kind} {column : String} {v : Value}

/-- The values of a column, where they have been read, are of a kind. -/
def HasKeys (kind : Kind) (column : String) (records : List Record) : Prop :=
  ∀ r ∈ records, ∀ v, r.get? column = some v → v.hasKind kind = true

theorem keyText_of_get? {r : Row} (h : r.get? column = some v) : r.keyText column = v.keyText := by
  rw [Row.keyText, h, Option.bind_some]

variable (hkind : kind.isExact = true)

include hkind

/-- The keys are all values of the column but NULL and those whose text has been seen. -/
theorem mem_distinctKeys_iff {records : List Record} (hkeys : HasKeys kind column records) (seen : List String) :
    v ∈ distinctKeys column seen records ↔
      (∃ r ∈ records, r.get? column = some v) ∧ v.isSqlNull = false ∧ ∀ key ∈ seen, v.keyText ≠ some key := by
  fun_induction distinctKeys column seen records with
  | case1 seen => simp
  | case2 seen r records key w hget hkey hseen ih =>
    -- no value that this row gives is new
    obtain ⟨-, hrest⟩ := List.forall_mem_cons.mp hkeys
    rw [ih hrest, List.exists_mem_cons_iff]
    refine and_congr_left fun hnew => (or_iff_right ?_).symm
    intro hv
    rw [keyText_of_get? hv] at hkey
    exact hnew.2 key (List.contains_iff_mem.mp hseen) hkey
  | case3 seen r records key w hget hkey hseen ih =>
    obtain ⟨hfirst, hrest⟩ := List.forall_mem_cons.mp hkeys
    have hw : w.hasKind kind = true := hfirst w hget
    have htext : w.keyText = some key := (keyText_of_get? hget).symm.trans hkey
    rw [List.mem_cons, ih hrest, List.exists_mem_cons_iff, List.forall_mem_cons]
    constructor
    · rintro (rfl | ⟨hread, hknown, -, hnew⟩)
      · refine ⟨.inl hget, (Value.exists_keyText_iff hkind hw).mp ⟨key, htext⟩, ?_⟩
        rintro key' hkey' hsame
        obtain rfl : key' = key := Option.some.inj (hsame.symm.trans htext)
        exact hseen (List.contains_iff_mem.mpr hkey')
      · exact ⟨.inr hread, hknown, hnew⟩
    · rintro ⟨hget' | hread, hknown, hnew⟩
      · exact .inl (Option.some.inj (hget'.symm.trans hget))
      · by_cases hsame : v = w
        · exact .inl hsame
        · obtain ⟨r', hr', hget'⟩ := hread
          refine .inr ⟨⟨r', hr', hget'⟩, hknown, ?_, hnew⟩
          intro hv
          exact hsame (Value.keyText_inj hkind (hrest r' hr' v hget') hw (hv.trans htext.symm))
  | case4 seen r records hnone ih =>
    -- this row gives NULL, or nothing
    obtain ⟨hfirst, hrest⟩ := List.forall_mem_cons.mp hkeys
    rw [ih hrest, List.exists_mem_cons_iff]
    refine and_congr_left fun hnew => (or_iff_right ?_).symm
    intro hv
    cases htext : v.keyText with
    | none =>
      have hnull := (Value.keyText_eq_none_iff hkind (hfirst v hv)).mp htext
      rw [hnew.1] at hnull
      cases hnull
    | some key => exact hnone key v ((keyText_of_get? hv).trans htext) hv

theorem nodup_distinctKeys {records : List Record} (hkeys : HasKeys kind column records) (seen : List String) :
    (distinctKeys column seen records).Nodup := by
  fun_induction distinctKeys column seen records with
  | case1 seen => exact List.nodup_nil
  | case2 seen r records key w hget hkey hseen ih => exact ih (List.forall_mem_cons.mp hkeys).2
  | case3 seen r records key w hget hkey hseen ih =>
    obtain ⟨-, hrest⟩ := List.forall_mem_cons.mp hkeys
    refine List.nodup_cons.mpr ⟨?_, ih hrest⟩
    -- the text of the first key counts as seen in what follows
    rw [mem_distinctKeys_iff hkind hrest, List.forall_mem_cons]
    exact fun hmem => hmem.2.2.1 ((keyText_of_get? hget).symm.trans hkey)
  | case4 seen r records hnone ih => exact ih (List.forall_mem_cons.mp hkeys).2

end Keys

/-! ## Rows that were read -/

section Read

variable {m : Model} {f : Field} {name : String}

theorem lookup_map_name (fields : List Field) (value : Field → Value) (name : String) :
    (fields.map fun f => (f.name, value f)).lookup name = (fields.find? (·.name == name)).map value := by
  induction fields with
  | nil => rfl
  | cons f fields ih =>
    rw [List.map_cons, List.lookup_cons, List.find?_cons, BEq.comm]
    cases f.name == name with
    | true => rfl
    | false => exact ih

/-- A column is read when all are, or when it is the key, asked for or needed. -/
theorem find?_loadColumns (m : Model) (requested needed : List String) (name : String) :
    (m.loadColumns requested needed).find? (·.name == name) =
      if requested.isEmpty || name == m.keyField.name || requested.contains name || needed.contains name then
        m.column? name
      else none := by
  unfold Model.loadColumns
  split
  · next hall => rw [hall, Bool.true_or, Bool.true_or, Bool.true_or, if_pos rfl, Model.column?]
  · next hsome =>
    -- Of the columns that are kept only those with the name count, so the test can be made of the name.
    have hnamed : (fun f : Field => decide ((f.name == m.keyField.name || requested.contains f.name ||
        needed.contains f.name) = true ∧ (f.name == name) = true)) = fun f : Field =>
          (name == m.keyField.name || requested.contains name || needed.contains name) && (f.name == name) := by
      funext f
      cases hsame : f.name == name with
      | false => simp
      | true => simp only [beq_iff_eq.mp hsame, and_true, Bool.and_true, Bool.decide_eq_true]
    rw [List.find?_filter, hnamed, Bool.eq_false_iff.mpr hsome, Bool.false_or]
    cases name == m.keyField.name || requested.contains name || needed.contains name with
    | false => simp
    | true => simp [Model.column?]

/-- The key and the columns that are needed are read in any case. -/
theorem find?_loadColumns_of_needed {needed : List String} (hname : name = m.keyField.name ∨ name ∈ needed)
    (requested : List String) : (m.loadColumns requested needed).find? (·.name == name) = m.column? name := by
  rw [find?_loadColumns, if_pos]
  rcases hname with hkey | hmem
  · simp [hkey]
  · simp [hmem]

theorem keyText_ofCells (hf : m.column? name = some f) (requested : List String) (cells : Cells) :
    (ofCells (m.loadColumns requested [name]) cells).keyText name = (cells.decode name f.kind).keyText := by
  have hname : f.name = name := Compiler.name_of_column? hf
  apply keyText_of_get?
  rw [Row.get?, ofCells, lookup_map_name, find?_loadColumns_of_needed (.inr (List.mem_singleton_self _)), hf,
    Option.map_some, hname]

end Read

/-! ## Look-ups -/

/-- A key that a statement may ask for: a value of the kind but NULL. -/
def IsKey (kind : Kind) (v : Value) : Prop := v.hasKind kind = true ∧ v.isSqlNull = false

/-- All rows of a target, in the order of its key, answer each statement for some keys of it with those rows whose
key is among them, in the same order. -/
def AnswersKeys (answers : Answers) (relation : Relation) (target : Model) (fields : List Field) (kind : Kind)
    (rows : List Cells) : Prop :=
  ∀ keys, (∀ v ∈ keys, IsKey kind v) → answers (.select (relatedStatement relation target fields keys)) =
    .ok (rows.filter fun row => keys.contains (row.decode relation.remoteKey kind))

/-- The rows that have a key, as they are read along. -/
def rowsWithKey (relation : Relation) (fields : List Field) (kind : Kind) (projection : Option (List String))
    (rows : List Cells) (key : Value) : List Record :=
  (rows.filter fun row => row.decode relation.remoteKey kind == key).map fun row =>
    { ofCells fields row with projection }

/-- What a relation leads to from one row, looked up for it alone: the rows with its key, or the first of them; none
without a key. -/
def lookedUp (relation : Relation) (fields : List Field) (kind : Kind) (projection : Option (List String))
    (rows : List Cells) (r : Record) : Related Record :=
  let own :=
    match r.get? relation.localKey with
    | some key => if key.isSqlNull then [] else rowsWithKey relation fields kind projection rows key
    | none => []
  match relation.cardinality with
  | .scalar => .one own.head?
  | .collection => .many own

section LookUps

variable {answers : Answers} {relation : Relation} {target : Model} {fields : List Field} {kind : Kind}
  {rows : List Cells}

theorem statementsOf_select {s : Select} {found : List Cells} (h : answers (.select s) = .ok found) :
    statementsOf answers (select s fields).run = [.select s] := by
  rw [select, statementsOf_except_bind (resultOf_query h)]
  rfl

/-- What the statement for some keys brings. -/
def rowsOfPart (relation : Relation) (fields : List Field) (kind : Kind) (rows : List Cells) (keys : List Value) :
    List Record :=
  (rows.filter fun row => keys.contains (row.decode relation.remoteKey kind)).map (ofCells fields)

/-- The statements for some parts of the keys are sent one after another, and bring the rows part by part. -/
theorem relatedRows_eq (hanswers : AnswersKeys answers relation target fields kind rows)
    {parts : List (List Value)} (hparts : ∀ keys ∈ parts, ∀ v ∈ keys, IsKey kind v) :
    resultOf answers (relatedRows relation target fields parts).run =
        .ok (parts.flatMap (rowsOfPart relation fields kind rows)) ∧
      statementsOf answers (relatedRows relation target fields parts).run =
        parts.map fun keys => .select (relatedStatement relation target fields keys) := by
  have hparts' := fun keys hkeys => hanswers keys (hparts keys hkeys)
  refine ⟨resultOf_relatedRows hparts', ?_⟩
  clear hparts
  induction parts with
  | nil => rfl
  | cons keys parts ih =>
    obtain ⟨hfirst, hrest⟩ := List.forall_mem_cons.mp hparts'
    rw [relatedRows, statementsOf_except_bind (resultOf_select hfirst),
      statementsOf_except_bind (resultOf_relatedRows hrest), ih hrest, statementsOf_select hfirst]
    exact congrArg (_ :: ·) (List.append_nil _)

variable {f : Field} (hremote : target.column? relation.remoteKey = some f) (hkind : f.kind.isExact = true)

include hremote hkind

/-- Of a part with a key, the rows with the text of the key are those with the key; other parts have none of them. -/
theorem filter_rowsOfPart (requested : List String) (rows : List Cells) {v : Value} {key : String}
    (hv : v.hasKind f.kind = true) (hkey : v.keyText = some key) (keys : List Value) :
    (rowsOfPart relation (target.loadColumns requested [relation.remoteKey]) f.kind rows keys).filter
        (fun row => row.keyText relation.remoteKey == some key) =
      if v ∈ keys then
        (rows.filter fun row => row.decode relation.remoteKey f.kind == v).map
          (ofCells (target.loadColumns requested [relation.remoteKey]))
      else [] := by
  -- Keys of these kinds are told apart by their texts.
  have hsame : ∀ row : Cells, ((row.decode relation.remoteKey f.kind).keyText == some key) =
      (row.decode relation.remoteKey f.kind == v) := by
    intro row
    rw [Bool.eq_iff_iff, beq_iff_eq, beq_iff_eq]
    constructor
    · exact fun h => Value.keyText_inj hkind (Cells.hasKind_decode row _ _) hv (h.trans hkey.symm)
    · rintro h
      rw [h, hkey]
  rw [rowsOfPart, List.filter_map, List.filter_filter]
  simp only [Function.comp_apply, keyText_ofCells hremote, hsame]
  split
  · next hmem =>
    congr 2
    funext row
    rw [Bool.and_eq_left_iff_imp, beq_iff_eq]
    rintro rfl
    exact List.contains_iff_mem.mpr hmem
  · next hmem =>
    rw [List.map_eq_nil_iff, List.filter_eq_nil_iff]
    rintro row - h
    obtain ⟨hrow, hasked⟩ := Bool.and_eq_true_iff.mp h
    rw [beq_iff_eq.mp hrow] at hasked
    exact hmem (List.contains_iff_mem.mp hasked)

/-- Out of the rows of all parts, each record gets what a look-up for it alone would give. -/
theorem relatedOf_eq_lookedUp (requested : List String) (rows : List Cells) (projection : Option (List String))
    {records : List Record} (hkeys : HasKeys f.kind relation.localKey records) {r : Record} (hr : r ∈ records) :
    relatedOf relation ((chunksOf chunkSize (distinctKeys relation.localKey [] records)).flatMap
        (rowsOfPart relation (target.loadColumns requested [relation.remoteKey]) f.kind rows)) projection r =
      lookedUp relation (target.loadColumns requested [relation.remoteKey]) f.kind projection rows r := by
  cases hget : r.get? relation.localKey with
  | none =>
    cases hcardinality : relation.cardinality <;>
      simp [relatedOf, lookedUp, Row.keyText, hget, hcardinality]
  | some v =>
    have hv : v.hasKind f.kind = true := hkeys r hr v hget
    cases hkey : v.keyText with
    | none =>
      have hnull : v.isSqlNull = true := (Value.keyText_eq_none_iff hkind hv).mp hkey
      cases hcardinality : relation.cardinality <;>
        simp [relatedOf, lookedUp, keyText_of_get? hget, hget, hkey, hnull, hcardinality]
    | some key =>
      have hknown : v.isSqlNull = false := (Value.exists_keyText_iff hkind hv).mp ⟨key, hkey⟩
      have hasked : v ∈ distinctKeys relation.localKey [] records :=
        (mem_distinctKeys_iff hkind hkeys []).mpr ⟨⟨r, hr, hget⟩, hknown, by simp⟩
      have hflatten := flatten_chunksOf chunkSize (distinctKeys relation.localKey [] records)
      -- The value is in one part only, so the rows of all other parts drop out.
      have hfound : ((chunksOf chunkSize (distinctKeys relation.localKey [] records)).flatMap
          (rowsOfPart relation (target.loadColumns requested [relation.remoteKey]) f.kind rows)).filter
            (fun row => row.keyText relation.remoteKey == some key) =
          (rows.filter fun row => row.decode relation.remoteKey f.kind == v).map
            (ofCells (target.loadColumns requested [relation.remoteKey])) := by
        rw [List.filter_flatMap]
        simp only [filter_rowsOfPart hremote hkind requested rows hv hkey]
        exact flatMap_parts (by rw [hflatten]; exact nodup_distinctKeys hkind hkeys [])
          (by rw [hflatten]; exact hasked) _
      simp only [relatedOf, lookedUp, keyText_of_get? hget, hget, hkey, hknown, hfound, Bool.false_eq_true,
        ↓reduceIte, rowsWithKey, List.map_map]
      rfl

/-- How keys of records are asked for: every key but NULL once, at most 500 of them in one statement, in as few
statements as that takes. -/
structure AsksOnce (column : String) (records : List Record) (parts : List (List Value)) : Prop where
  nodup : parts.flatten.Nodup
  mem_iff (v : Value) : v ∈ parts.flatten ↔ (∃ r ∈ records, r.get? column = some v) ∧ v.isSqlNull = false
  length_eq : parts.length = (parts.flatten.length + 499) / 500
  length_le : ∀ keys ∈ parts, keys.length ≤ 500

omit hremote in
theorem asksOnce_chunksOf {records : List Record} (hkeys : HasKeys f.kind relation.localKey records) :
    AsksOnce relation.localKey records (chunksOf chunkSize (distinctKeys relation.localKey [] records)) := by
  have hflatten := flatten_chunksOf chunkSize (distinctKeys relation.localKey [] records)
  constructor
  · rw [hflatten]
    exact nodup_distinctKeys hkind hkeys []
  · intro v
    rw [hflatten, mem_distinctKeys_iff hkind hkeys []]
    simp
  · rw [hflatten]
    exact length_chunksOf (by decide) _
  · exact length_le_of_mem_chunksOf (by decide)

/-- The columns of a target that are read along. -/
abbrev fieldsAlong (relation : Relation) (target : Model) (load : Load) : List Field :=
  target.loadColumns (load.columns.getD []) [relation.remoteKey]

/-- Reading a relation along for many records gives each of them what a look-up for it alone would give, and leaves
the rest of it as it is. -/
theorem loadRelated_eq_lookedUp {g : Registry} {m : Model} {records : List Record} {load : Load}
    (htarget : g.relationTarget m load.relation = .ok (relation, target))
    (hkeys : HasKeys f.kind relation.localKey records)
    (hanswers : AnswersKeys answers relation target (fieldsAlong relation target load) f.kind rows) :
    resultOf answers (loadRelated g m records load).run = .ok (records.map fun r =>
        { r with related := r.related ++ [(relation.name,
          lookedUp relation (fieldsAlong relation target load) f.kind load.columns rows r)] }) ∧
      ∃ parts, AsksOnce relation.localKey records parts ∧
        statementsOf answers (loadRelated g m records load).run = parts.map fun keys =>
          .select (relatedStatement relation target (fieldsAlong relation target load) keys) := by
  have hasks := asksOnce_chunksOf hkind hkeys
  have hparts : ∀ keys ∈ chunksOf chunkSize (distinctKeys relation.localKey [] records),
      ∀ v ∈ keys, IsKey f.kind v := by
    intro keys hpart v hv
    obtain ⟨⟨r, hr, hget⟩, hknown⟩ := (hasks.mem_iff v).mp (List.mem_flatten_of_mem hpart hv)
    exact ⟨hkeys r hr v hget, hknown⟩
  obtain ⟨hresult, hstatements⟩ := relatedRows_eq hanswers hparts
  constructor
  · rw [loadRelated, resultOf_lift_bind htarget, resultOf_except_bind hresult]
    refine congrArg Except.ok (List.map_congr_left fun r hr => ?_)
    rw [relatedOf_eq_lookedUp hremote hkind (load.columns.getD []) rows load.columns hkeys hr]
  · refine ⟨_, hasks, ?_⟩
    rw [loadRelated, statementsOf_lift_bind htarget, statementsOf_except_bind hresult, hstatements]
    exact List.append_nil _

end LookUps

/-! ## A shelf -/

/-- Two books by one author, one without an author and one whose author is not known. -/
def shelf : List Record :=
  [some 7, some 7, none, some 9].map fun author =>
    { values := [("id", .bigInt (some 1)), ("author_id", .bigInt author)], projection := none, related := [] }

/-- All authors. -/
def authorRows : List Cells :=
  [[("id", .bigInt (some 5)), ("name", .string (some "Eve"))],
   [("id", .bigInt (some 7)), ("name", .string (some "Ann"))]]

/-- A database that finds authors by their keys. -/
def authorAnswers : Answers
  | .select s =>
    match s.condition with
    | .isIn _ keys _ => .ok (authorRows.filter fun row => keys.contains (row.decode "id" .integer))
    | _ => .ok []
  | _ => .ok []

/-- The author of two of the books, by name. -/
def ann : Record :=
  { values := [("id", .bigInt (some 7)), ("name", .string (some "Ann"))], projection := some ["name"], related := [] }

/-- The authors of books, by name. -/
def authorLoad : Load := ⟨"author", some ["name"]⟩

/-- The books by the known author get that author, the others get none. -/
theorem loadRelated_shelf :
    resultOf authorAnswers (loadRelated bookCompiler.registry bookModel shelf authorLoad).run =
      .ok (shelf.zipWith (fun r author => { r with related := [("author", .one author)] })
        [some ann, some ann, none, none]) := by
  have htarget : bookCompiler.registry.relationTarget bookModel authorLoad.relation =
      .ok (.scalar "author" "Author" "author_id" "id", authorModel) := by decide +kernel
  have hremote : authorModel.column? "id" = some (Field.new "id" .integer).primaryKey := by decide +kernel
  have hkeys : HasKeys .integer "author_id" shelf := by
    intro r hr v hv
    obtain ⟨author, -, rfl⟩ := List.mem_map.mp hr
    cases hv
    rfl
  have hanswers : AnswersKeys authorAnswers (.scalar "author" "Author" "author_id" "id") authorModel
      (fieldsAlong (.scalar "author" "Author" "author_id" "id") authorModel authorLoad) .integer authorRows :=
    fun _ _ => rfl
  obtain ⟨hresult, -⟩ := loadRelated_eq_lookedUp hremote rfl htarget hkeys hanswers
  rw [hresult]
  rfl

end RestTables.Rows
