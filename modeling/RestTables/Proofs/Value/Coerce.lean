import RestTables.Proofs.Number.Decimal
import RestTables.Proofs.Sql.Engine
import RestTables.Value.Coerce

/-
Module: RestTables.Proofs.Value.Coerce
Purpose: What clients send becomes values of the kind of their column and of no other type. A text never becomes a
  NULL, and of all JSON values only null does. What becomes a value shows as null only if it is NULL, or a double that
  is not finite.
Main exports: Value.hasKind_of_ofText?, Value.hasKind_of_ofJson?, Value.isSqlNull_iff_of_ofJson?,
  Value.isNull_eq_isSqlNull_of_ofJson?
-/

namespace RestTables.Value

variable {kind : Kind} {v : Value}

/-- A value of the kind that is no NULL. -/
def IsKnown (kind : Kind) (v : Value) : Prop := v.hasKind kind = true ∧ v.isSqlNull = false

/-- What is made of something that was read is known when it is so for everything that can be read. -/
theorem isKnown_of_map {α : Type} {x : Option α} {f : α → Value} (hf : ∀ a, (f a).IsKnown kind)
    (h : x.map f = some v) : v.IsKnown kind := by
  obtain ⟨a, -, rfl⟩ := Option.map_eq_some_iff.mp h
  exact hf a

/-- A text becomes a value of the kind. -/
theorem isKnown_of_ofText? {s : String} (h : ofText? kind s = some v) : v.IsKnown kind := by
  cases kind with
  | string | json =>
    cases h
    exact ⟨rfl, rfl⟩
  | integer | float | decimal | boolean | date | time | datetime | datetimeTz | uuid | binary =>
    exact isKnown_of_map (fun _ => ⟨rfl, rfl⟩) h

/-- So does a number. -/
theorem isKnown_of_ofNumber? {n : Json.Number} (h : ofNumber? kind n = some v) : v.IsKnown kind := by
  cases kind with
  | integer | decimal => exact isKnown_of_map (fun _ => ⟨rfl, rfl⟩) h
  | float | string =>
    cases h
    exact ⟨rfl, rfl⟩
  | boolean =>
    simp only [ofNumber?] at h
    split at h
    · cases h
      exact ⟨rfl, rfl⟩
    · cases h
      exact ⟨rfl, rfl⟩
    · cases h
  | date | time | datetime | datetimeTz | uuid | json | binary => cases h

/-- Null becomes the NULL of the kind, and every other JSON value that fits a value of the kind. -/
theorem ofJson?_cases {j : Json} (h : ofJson? kind j = some v) :
    (j = .null ∧ v = null kind) ∨ j ≠ .null ∧ v.IsKnown kind := by
  unfold ofJson? at h
  split at h
  · cases h
    exact .inl ⟨rfl, rfl⟩
  · next hnull =>
    cases h
    exact .inr ⟨hnull, rfl, rfl⟩
  · cases h
    exact .inr ⟨by simp, rfl, rfl⟩
  · cases h
    exact .inr ⟨by simp, rfl, rfl⟩
  · exact .inr ⟨by simp, isKnown_of_ofNumber? h⟩
  · exact .inr ⟨by simp, isKnown_of_ofText? h⟩
  · cases h

theorem hasKind_of_ofText? {s : String} (h : ofText? kind s = some v) : v.hasKind kind = true :=
  (isKnown_of_ofText? h).1

/-- What a JSON value becomes has the type of the kind. -/
theorem hasKind_of_ofJson? {j : Json} (h : ofJson? kind j = some v) : v.hasKind kind = true := by
  rcases ofJson?_cases h with ⟨-, rfl⟩ | ⟨-, hknown⟩
  · exact hasKind_null kind
  · exact hknown.1

/-- Only null becomes a NULL. -/
theorem isSqlNull_iff_of_ofJson? {j : Json} (h : ofJson? kind j = some v) : v.isSqlNull = true ↔ j = .null := by
  rcases ofJson?_cases h with ⟨rfl, rfl⟩ | ⟨hj, hknown⟩
  · simp
  · simp [hj, hknown.2]

/-! ## What shows as null -/

/-- The value is no double, or a finite one. -/
def IsFinite : Value → Prop
  | .double (some x) => x.isFinite = true
  | _ => True

/-- A decimal that was sent is within bounds. -/
theorem isBounded_of_ofJson? {j : Json} {d : Decimal} (h : ofJson? kind j = some (.decimal (some d))) :
    d.IsBounded := by
  have hkind := hasKind_of_ofJson? h
  cases kind with
  | decimal =>
    cases j with
    | num n =>
      obtain ⟨d', hd, heq⟩ := Option.map_eq_some_iff.mp h
      cases heq
      exact Decimal.isBounded_of_ofText? hd
    | str s =>
      obtain ⟨d', hd, heq⟩ := Option.map_eq_some_iff.mp h
      cases heq
      exact Decimal.isBounded_of_ofText? hd
    | null | bool _ | arr _ | obj _ => cases h
  | _ => cases hkind

/-- A JSON value that was sent is not null. -/
theorem ne_null_of_ofJson? {j shown : Json} (h : ofJson? kind j = some (.json (some shown))) : shown ≠ .null := by
  have hkind := hasKind_of_ofJson? h
  cases kind with
  | json =>
    cases j with
    | null => cases h
    | num _ | str _ | bool _ | arr _ | obj _ =>
      cases h
      exact Json.noConfusion
  | _ => cases hkind

/-- What was sent shows as null where it is NULL, and nowhere else when it is finite. -/
theorem isNull_eq_isSqlNull_of_ofJson? {j : Json} (h : ofJson? kind j = some v) (hfinite : v.IsFinite) :
    v.isNull = v.isSqlNull := by
  have hkind := hasKind_of_ofJson? h
  cases v with
  | bool v | bigInt v | string v | bytes v | date v | time v | datetime v | instant v | uuid v => cases v <;> rfl
  | double x =>
    cases x with
    | none => rfl
    | some x =>
      have hshown : Json.float x = .num (.float x) := if_pos hfinite
      simp only [isNull, toJson, Json.ofOption, hshown]
      rfl
  | decimal d =>
    cases d with
    | none => rfl
    | some d =>
      -- A decimal that was read is bounded, and so it has a finite double.
      have hshown : Json.float d.toBinary64 = .num (.float d.toBinary64) :=
        if_pos (Decimal.isFinite_toBinary64 (isBounded_of_ofJson? h))
      simp only [isNull, toJson, Json.ofOption, hshown]
      rfl
  | json shown =>
    cases shown with
    | none => rfl
    | some shown =>
      have hne := ne_null_of_ofJson? h
      cases shown with
      | null => exact absurd rfl hne
      | num _ | str _ | bool _ | arr _ | obj _ => rfl
  | tinyInt _ | smallInt _ | int _ | tinyUnsigned _ | smallUnsigned _ | unsigned _ | bigUnsigned _ | float _ | char _
  | zoned _ => cases kind <;> cases hkind

end RestTables.Value
