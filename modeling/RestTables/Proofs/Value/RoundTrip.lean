import RestTables.Proofs.Calendar.Reading
import RestTables.Proofs.Value.Coerce
import RestTables.Proofs.Value.KeyText

/-
Module: RestTables.Proofs.Value.RoundTrip
Purpose: Keys are read back from their plain text, as it stands in the path of a row. Of the kinds that are shown
  exactly this is so for all but instants, whose text has an offset that years of more than four digits cannot have.
  What tells all of a value is read back from JSON too.
Main exports: Kind.isReadBack, Uuid.read?_text, Value.ofText?_keyText, Value.IsLegible, Value.exists_keyText,
  Value.ofJson?_toJson
-/

namespace RestTables

/-- Keys of the kind are read back from their text. -/
def Kind.isReadBack : Kind → Bool
  | .float | .decimal | .json | .datetimeTz => false
  | _ => true

theorem Kind.isExact_of_isReadBack {kind : Kind} (h : kind.isReadBack = true) : kind.isExact = true := by
  cases kind <;> first | rfl | cases h

/-- The text of an identifier is longer than its digits and shorter than any other form. -/
theorem Uuid.read?_text (u : Uuid) : Uuid.read? u.text.toList = some u := by
  have hdigits : (Text.Hex.encode u.bytes).length = groups.sum := by
    rw [Text.Hex.length_encode, u.size]
    rfl
  have hungrouped := ungrouped?_grouped (by decide) hdigits
  have hlength : (grouped groups (Text.Hex.encode u.bytes)).length = 36 := by
    have hsum : (Text.Hex.encode u.bytes).length = 32 := hdigits
    simp only [grouped, groups, List.length_append, List.length_cons, List.length_take, List.length_drop, hsum]
    decide
  rw [Uuid.text, String.toList_ofList, read?, hlength]
  simp only [readDigits?, hlength, hungrouped, Text.Hex.decode?_encode, Option.bind_eq_bind, Option.bind_some,
    ofBytes?_bytes, Nat.reduceEqDiff, ↓reduceIte]

namespace Value

/-- A whole number is read back from its text. -/
theorem readInt?_text (n : Int64) : Number.readInt? 64 (Json.int n.toInt).text.toList = some n.toInt := by
  have htext : (Json.int n.toInt).text.toList = (toString n.toInt).toList := String.toList_ofList
  have hfits : Number.inSigned 64 n.toInt = true := by
    rw [Number.inSigned, Bool.and_eq_true, decide_eq_true_iff, decide_eq_true_iff]
    exact ⟨n.le_toInt, n.toInt_lt⟩
  rw [htext, Number.readInt?_toString hfits]

/-- A truth value is read back from its word. -/
theorem boolOfText?_text : ∀ b : Bool, boolOfText? (Json.bool b).text = some b := by decide +kernel

variable {kind : Kind} {v : Value} {s : String}

/-- Where texts are read back, so are the values that have them. -/
theorem ofText?_of_keyText {α : Type} {wrap : Option α → Value} {text : α → String}
    (hshown : ∀ a, (wrap a).keyText = a.map text) (hread : ∀ a, ofText? kind (text a) = some (wrap (some a)))
    {a : Option α} (h : (wrap a).keyText = some s) : ofText? kind s = some (wrap a) := by
  rw [hshown] at h
  obtain ⟨a, rfl, rfl⟩ := Option.map_eq_some_iff.mp h
  exact hread a

/-- A key is read back from its plain text. -/
theorem ofText?_keyText (hkind : kind.isReadBack = true) (hv : v.hasKind kind = true) (h : v.keyText = some s) :
    ofText? kind s = some v := by
  cases exact_of_hasKind (Kind.isExact_of_isReadBack hkind) hv with
  | integer n =>
    refine ofText?_of_keyText keyText_bigInt (fun n => ?_) h
    rw [ofText?, readInt?_text, Option.map_some, Int64.ofInt_toInt]
  | boolean b =>
    refine ofText?_of_keyText keyText_bool (fun b => ?_) h
    rw [ofText?, boolOfText?_text, Option.map_some]
  | string t =>
    rw [keyText_string] at h
    rw [ofText?, h]
  | date d =>
    refine ofText?_of_keyText keyText_date (fun d => ?_) h
    rw [ofText?, Date.read?_text, Option.map_some]
  | time t =>
    refine ofText?_of_keyText keyText_time (fun t => ?_) h
    rw [ofText?, Time.read?_text, Option.map_some]
  | datetime t =>
    refine ofText?_of_keyText keyText_datetime (fun t => ?_) h
    rw [ofText?, DateTime.read?_text, Option.map_some]
  | datetimeTz t => cases hkind
  | uuid u =>
    refine ofText?_of_keyText keyText_uuid (fun u => ?_) h
    rw [ofText?, Uuid.read?_text, Option.map_some]
  | binary b =>
    refine ofText?_of_keyText keyText_bytes (fun b => ?_) h
    rw [ofText?, String.toList_ofList, Text.Hex.decode?_encode, Option.map_some]

/-! ## Values that are shown in full -/

/-- A value of the kind that its text tells in full. It is no NULL and no number with a point, and neither a JSON null
nor an instant of a year that has not four digits. -/
structure IsLegible (kind : Kind) (v : Value) : Prop where
  known : v.IsKnown kind
  whole : kind ≠ .float ∧ kind ≠ .decimal
  ne_null : v ≠ .json (some .null)
  year {t : DateTime} (ht : v = .instant (some t)) : 0 ≤ t.date.year ∧ t.date.year ≤ 9999

/-- What is read back may be an instant as well. -/
theorem IsLegible.isReadBack_or (h : v.IsLegible kind) :
    kind.isReadBack = true ∨ kind = .json ∨ ∃ t, kind = .datetimeTz ∧ v = .instant (some t) := by
  have hknown := h.known
  cases kind with
  | float => exact absurd rfl h.whole.1
  | decimal => exact absurd rfl h.whole.2
  | json => exact .inr (.inl rfl)
  | datetimeTz =>
    cases exact_of_hasKind rfl hknown.1 with
    | datetimeTz t =>
      cases t with
      | none => cases hknown.2
      | some t => exact .inr (.inr ⟨t, rfl, rfl⟩)
  | integer | boolean | string | date | time | datetime | uuid | binary => exact .inl rfl

/-- A value that is no document has a text of its own, and is read back from it. -/
theorem exists_keyText (h : v.IsLegible kind) (hkind : kind ≠ .json) :
    ∃ s, v.keyText = some s ∧ ofText? kind s = some v := by
  rcases h.isReadBack_or with hread | rfl | ⟨t, rfl, rfl⟩
  · obtain ⟨s, hs⟩ := (exists_keyText_iff (Kind.isExact_of_isReadBack hread) h.known.1).mpr h.known.2
    exact ⟨s, hs, ofText?_keyText hread h.known.1 hs⟩
  · exact absurd rfl hkind
  · refine ⟨t.textUtc, keyText_instant (some t), ?_⟩
    rw [ofText?, DateTime.readUtc?_textUtc (h.year rfl), Option.map_some]

/-- What is shown as a string is read as the text that it holds. -/
theorem ofJson?_of_toJson_eq_str (h : v.IsLegible kind) (hkind : kind ≠ .json) (hshown : v.toJson = .str s) :
    ofJson? kind v.toJson = some v := by
  obtain ⟨s', hs', hread⟩ := exists_keyText h hkind
  have htext : v.keyText = some s := by rw [keyText, hshown]
  obtain rfl : s = s' := Option.some.inj (htext.symm.trans hs')
  rw [hshown, ← hread]
  cases kind <;> first | rfl | exact absurd rfl hkind

/-- A value is read back from what it is shown as. -/
theorem ofJson?_toJson (h : v.IsLegible kind) : ofJson? kind v.toJson = some v := by
  have hknown := h.known
  -- Beside the keys that are read back from their text, there are JSON and instants.
  rcases h.isReadBack_or with hread | rfl | ⟨t, rfl, rfl⟩
  · cases exact_of_hasKind (Kind.isExact_of_isReadBack hread) hknown.1 with
    | integer n =>
      cases n with
      | none => cases hknown.2
      | some n =>
        have hrange : -(twoTo 63 : Int) ≤ n.toInt ∧ n.toInt < twoTo 63 := ⟨n.le_toInt, n.toInt_lt⟩
        have hnumber : (Json.Number.int n.toInt).int64? = some n := by
          rw [Json.Number.int64?, if_pos hrange, Int64.ofInt_toInt]
        simp only [toJson, Json.ofOption, Json.int, ofJson?, ofNumber?, hnumber, Option.map_some]
    | boolean b =>
      cases b with
      | none => cases hknown.2
      | some b => rfl
    | string v | date v | time v | datetime v | uuid v | binary v =>
      cases v with
      | none => cases hknown.2
      | some v => exact ofJson?_of_toJson_eq_str h (by decide) rfl
    | datetimeTz t => cases hread
  · cases v with
    | json j =>
      cases j with
      | none => cases hknown.2
      | some j => cases j <;> first | rfl | exact absurd rfl h.ne_null
    | _ => cases hknown.1
  · exact ofJson?_of_toJson_eq_str h (by decide) rfl

end Value

end RestTables
