import RestTables.Proofs.Json.Text
import RestTables.Proofs.Rows.Shown
import RestTables.Proofs.Value.KeyText

/-
Module: RestTables.Proofs.Rows.Alike
Purpose: When two rows of a model show alike. They do exactly when all their columns do: two values are shown alike when
  they are equal, when both are shown as null, or when both are decimals that become the same double.
Main exports: Value.ShownAlike, Value.toJson_eq_iff, Rows.ShownAlike, Rows.render_eq_iff,
  Rows.hasPrintableMembers_render
-/

namespace RestTables

namespace Value

variable {kind : Kind} {v w : Value}

/-- Two values show alike: they are equal, or both are shown as null, or both are decimals for which the same double
stands. -/
inductive ShownAlike : Value → Value → Prop where
  | refl (v : Value) : ShownAlike v v
  | null {v w : Value} (hv : v.isNull = true) (hw : w.isNull = true) : ShownAlike v w
  | decimal {d e : Decimal} (h : d.toBinary64 = e.toBinary64) : ShownAlike (.decimal (some d)) (.decimal (some e))

theorem isNull_iff : v.isNull = true ↔ v.toJson = .null := by
  unfold isNull
  cases v.toJson <;> simp [Json.isNull]

/-- The plain text is made of what is shown. -/
theorem keyText_eq_of_toJson_eq (h : v.toJson = w.toJson) : v.keyText = w.keyText := by
  rw [keyText, keyText, h]

/-- A double that is shown is shown in full. -/
theorem eq_of_float_eq {x y : Binary64} (h : Json.float x = Json.float y) (hx : Json.float x ≠ .null) : x = y := by
  have hfinite : ∀ {z : Binary64}, Json.float z ≠ .null → Json.float z = .num (.float z) := by
    intro z hz
    unfold Json.float at hz ⊢
    split
    · rfl
    · next hnot => exact absurd (if_neg hnot) hz
  have hsame := h
  rw [hfinite hx, hfinite fun hy => hx (h.trans hy)] at hsame
  exact Json.Number.float.inj (Json.num.inj hsame)

/-- The values of kinds that are not shown exactly, other than NULL. -/
inductive Inexact : Kind → Value → Prop where
  | float (x : Binary64) : Inexact .float (.double (some x))
  | decimal (d : Decimal) : Inexact .decimal (.decimal (some d))
  | json (j : Json) : Inexact .json (.json (some j))

theorem inexact_of_hasKind (hkind : kind.isExact = false) (hv : v.hasKind kind = true) (hnull : v.toJson ≠ .null) :
    Inexact kind v := by
  cases kind with
  | float | decimal | json =>
    cases v with
    | double x | decimal x | json x =>
      cases x with
      | none => exact absurd rfl hnull
      | some x => first | constructor | cases hv
    | _ => cases hv
  | _ => cases hkind

theorem shownAlike_of_toJson_eq (hv : v.hasKind kind = true) (hw : w.hasKind kind = true) (h : v.toJson = w.toJson) :
    v.ShownAlike w := by
  -- Values of exact kinds are shown alike only if they are the same, so three kinds are left.
  cases hexact : kind.isExact with
  | true =>
    rw [keyText_inj hexact hv hw (keyText_eq_of_toJson_eq h)]
    exact .refl w
  | false =>
    by_cases hnull : v.toJson = .null
    · exact .null (isNull_iff.mpr hnull) (isNull_iff.mpr (h ▸ hnull))
    cases inexact_of_hasKind hexact hv hnull with
    | float x =>
      cases inexact_of_hasKind hexact hw (h ▸ hnull) with
      | float y =>
        rw [eq_of_float_eq h hnull]
        exact .refl _
    | decimal d =>
      cases inexact_of_hasKind hexact hw (h ▸ hnull) with
      | decimal e => exact .decimal (eq_of_float_eq h hnull)
    | json j =>
      cases inexact_of_hasKind hexact hw (h ▸ hnull) with
      | json k =>
        obtain rfl : j = k := h
        exact .refl _

/-- Two values of a kind are shown as the same JSON exactly when they show alike. -/
theorem toJson_eq_iff (hv : v.hasKind kind = true) (hw : w.hasKind kind = true) :
    v.toJson = w.toJson ↔ v.ShownAlike w := by
  constructor
  · exact shownAlike_of_toJson_eq hv hw
  · intro h
    cases h with
    | refl => rfl
    | null hv hw => rw [isNull_iff.mp hv, isNull_iff.mp hw]
    | decimal h => simp only [toJson, Json.ofOption, h]

/-- What is shown of a value can be printed, if that holds of the document that the value may be. -/
theorem isPrintable_toJson (h : ∀ j, v = .json (some j) → j.IsPrintable) : v.toJson.IsPrintable := by
  have hfloat : ∀ x : Binary64, (Json.float x).IsPrintable := by
    intro x
    unfold Json.float
    split
    · next hfinite => exact hfinite
    · trivial
  cases v with
  | json j =>
    cases j with
    | none => trivial
    | some j => exact h j rfl
  | float x | double x =>
    cases x with
    | none => trivial
    | some x => exact hfloat x
  | decimal d =>
    cases d with
    | none => trivial
    | some d => exact hfloat d.toBinary64
  | bool v | tinyInt v | smallInt v | int v | bigInt v | tinyUnsigned v | smallUnsigned v | unsigned v | bigUnsigned v
  | string v | char v | bytes v | date v | time v | datetime v | instant v | zoned v | uuid v => cases v <;> trivial

end Value

namespace Rows

variable {g : Registry} {m : Model} {r r' : Record}

/-- Two records show alike in every column. -/
def ShownAlike (m : Model) (r r' : Record) : Prop :=
  ∀ f ∈ m.columns, ∀ v w, (f.name, v) ∈ r.values → (f.name, w) ∈ r'.values → v.ShownAlike w

/-- The documents in a record can be printed, which only infinities and not-a-numbers cannot. -/
def HasPrintableDocuments (r : Record) : Prop := ∀ name j, (name, Value.json (some j)) ∈ r.values → j.IsPrintable

/-- Columns that show alike in turn are shown as the same members. -/
theorem map_toJson_eq {vs ws : List (String × Value)} (hnames : vs.map (·.1) = ws.map (·.1))
    (halike : ∀ name v w, (name, v) ∈ vs → (name, w) ∈ ws → v.toJson = w.toJson) :
    vs.map (fun entry => (entry.1, entry.2.toJson)) = ws.map fun entry => (entry.1, entry.2.toJson) := by
  induction vs generalizing ws with
  | nil =>
    cases ws with
    | nil => rfl
    | cons => cases hnames
  | cons entry vs ih =>
    cases ws with
    | nil => cases hnames
    | cons entry' ws =>
      obtain ⟨name, v⟩ := entry
      obtain ⟨name', w⟩ := entry'
      obtain ⟨rfl, hrest⟩ : name = name' ∧ vs.map (·.1) = ws.map (·.1) := List.cons.inj hnames
      have hfirst : (name, v.toJson) = (name, w.toJson) := by rw [halike name v w (.head _) (.head _)]
      have hothers := ih hrest fun n v w hv hw => halike n v w (.tail _ hv) (.tail _ hw)
      exact congrArg₂ List.cons hfirst hothers

/-- A column is found among the members where it is found in the record. -/
theorem lookup_map_toJson (vs : List (String × Value)) (name : String) :
    (vs.map fun entry => (entry.1, entry.2.toJson)).lookup name = (vs.lookup name).map Value.toJson := by
  induction vs with
  | nil => rfl
  | cons entry vs ih =>
    obtain ⟨key, v⟩ := entry
    rw [List.map_cons, List.lookup_cons, List.lookup_cons, ih]
    cases name == key <;> rfl

/-- Records that show alike are shown the same. -/
theorem render_eq_of_shownAlike (hr : IsFull m r) (hr' : IsFull m r') (h : ShownAlike m r r') :
    g.render m r false true = g.render m r' false true := by
  have hnames : r.values.map (·.1) = r'.values.map (·.1) := hr.names.trans hr'.names.symm
  have hcolumns : r.values.map (fun entry => (entry.1, entry.2.toJson)) =
      r'.values.map fun entry => (entry.1, entry.2.toJson) := by
    apply map_toJson_eq hnames
    intro name v w hv hw
    have hname : name ∈ m.columns.map (·.name) := hr.names ▸ List.mem_map_of_mem hv
    obtain ⟨f, hf, rfl⟩ := List.mem_map.mp hname
    exact (Value.toJson_eq_iff (hr.kinds hf hv) (hr'.kinds hf hw)).mpr (h f hf v w hv hw)
  have hshown : Registry.shownValues r.toRow = Registry.shownValues r'.toRow := by
    rw [shownValues_of_isFull hr, shownValues_of_isFull hr', hcolumns]
  -- The link of a record has the text of its key, which what is shown of it decides.
  have hkey : r.keyText m.keyField.name = r'.keyText m.keyField.name := by
    have hlookup : (r.get? m.keyField.name).map Value.toJson = (r'.get? m.keyField.name).map Value.toJson := by
      rw [Row.get?, Row.get?, ← lookup_map_toJson, ← lookup_map_toJson, hcolumns]
    unfold Row.keyText
    cases hv : r.get? m.keyField.name with
    | none =>
      rw [hv, Option.map_none, eq_comm, Option.map_eq_none_iff] at hlookup
      rw [hlookup]
    | some v =>
      rw [hv, Option.map_some, eq_comm, Option.map_eq_some_iff] at hlookup
      obtain ⟨w, hw, hsame⟩ := hlookup
      rw [hw]
      exact Value.keyText_eq_of_toJson_eq hsame.symm
  have hlinks : m.links r.toRow = m.links r'.toRow := by
    unfold Model.links Model.recordUri
    rw [hkey]
  unfold Registry.render Registry.addLinks
  simp only [Bool.false_eq_true, ↓reduceIte, List.foldl_nil, hshown, hlinks]

/-- And only those. -/
theorem render_eq_iff (hm : m.HasPublicColumns) (hr : IsFull m r) (hr' : IsFull m r') :
    g.render m r false true = g.render m r' false true ↔ ShownAlike m r r' := by
  constructor
  · intro h f hf v w hv hw
    have hmember : (f.name, v.toJson) ∈ g.render m r false true := (mem_render_iff_eq hm hr hf hv).mpr rfl
    rw [h] at hmember
    exact Value.shownAlike_of_toJson_eq (hr.kinds hf hv) (hr'.kinds hf hw)
      ((mem_render_iff_eq hm hr' hf hw).mp hmember)
  · exact render_eq_of_shownAlike hr hr'

theorem hasPrintableMembers_iff {o : Json.Object} :
    Json.HasPrintableMembers o ↔ ∀ member ∈ o, member.2.IsPrintable := by
  induction o with
  | nil => exact ⟨fun _ => nofun, fun _ => trivial⟩
  | cons member o ih =>
    rw [List.forall_mem_cons, ← ih]
    rfl

/-- What is shown of a record can be printed, if its documents can. -/
theorem hasPrintableMembers_render (h : HasPrintableDocuments r) :
    Json.HasPrintableMembers (g.render m r false true) := by
  rw [hasPrintableMembers_iff]
  -- What is shown of a record are its values and addresses, and addresses are plain texts.
  have hvalues : ∀ member ∈ Registry.shownValues r.toRow, member.2.IsPrintable := by
    intro member hmember
    obtain ⟨⟨name, v⟩, hentry, rfl⟩ := List.mem_map.mp (Json.Object.mem_of_mem_ofMembers hmember)
    apply Value.isPrintable_toJson
    rintro j rfl
    exact h name j (List.mem_filter.mp hentry).1
  have hlinks : Json.HasPrintableMembers (m.links r.toRow) := by
    rw [hasPrintableMembers_iff]
    unfold Model.links
    split
    · nofun
    · rintro ⟨key, j⟩ hmember
      rcases Json.Object.mem_insert hmember with heq | hmember
      · cases heq
        trivial
      · obtain ⟨relation, -, heq⟩ := List.mem_map.mp (Json.Object.mem_of_mem_ofMembers hmember)
        cases heq
        trivial
  rintro ⟨key, j⟩ hmember
  rcases Json.Object.mem_insert hmember with heq | hmember
  · cases heq
    exact hlinks
  · exact hvalues _ hmember

end Rows

end RestTables
