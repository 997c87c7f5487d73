import Mathlib.Data.List.TakeWhile
import RestTables.Http.Target
import RestTables.Proofs.Text.Form
import RestTables.Proofs.Value.KeyText

/-
Module: RestTables.Proofs.Http.PathPart
Purpose: Texts that can be written into a path as they are. Such a text is one part of the path, and it is read back
  from there. The texts of numbers, truth values, dates and identifiers are such texts; a string may be none. A slash
  that is written is read as one, whatever stands around it.
Main exports: Form.slash_mem_percentDecode, Utf8.slash_mem_of_decode?, Target.IsPart, Target.read_path,
  Target.IsPart.decode, Value.isPart_keyText
-/

namespace RestTables

/-! ## Bytes -/

namespace Text

/-- A text that was written is read back strictly. -/
theorem Utf8.decode?_encode (s : List Char) : Utf8.decode? (Utf8.encode s) = some s := by
  rw [Utf8.decode?, Utf8.scan_encode]
  induction s with
  | nil => rfl
  | cons c s ih => simp [ih]

/-- Only a percent sign is written with the byte of one. -/
theorem Utf8.percent_not_mem_encode {s : List Char} (h : '%' ∉ s) : (37 : UInt8) ∉ Utf8.encode s := by
  intro hmem
  obtain ⟨c, hc, hbyte⟩ := List.mem_flatMap.mp hmem
  have hpercent : c.val.toNat = 37 := by
    have h37 : (37 : UInt8).toNat = 37 := rfl
    simp only [String.utf8EncodeChar] at hbyte
    split at hbyte
    · simp only [List.mem_singleton, ← UInt8.toNat_inj, UInt8.toNat_ofNat', h37] at hbyte
      omega
    · -- every byte of a longer character is 128 or more
      split at hbyte
      · simp only [List.mem_cons, List.not_mem_nil, or_false, ← UInt8.toNat_inj, UInt8.toNat_ofNat', h37] at hbyte
        omega
      · split at hbyte
        · simp only [List.mem_cons, List.not_mem_nil, or_false, ← UInt8.toNat_inj, UInt8.toNat_ofNat', h37] at hbyte
          omega
        · simp only [List.mem_cons, List.not_mem_nil, or_false, ← UInt8.toNat_inj, UInt8.toNat_ofNat', h37] at hbyte
          omega
  have hchar : c = '%' := Char.ext (UInt32.toNat_inj.mp hpercent)
  exact h (hchar ▸ hc)

/-- Without percent signs there is nothing to decode. -/
theorem Form.percentDecode_of_not_mem {bytes : List UInt8} (h : (37 : UInt8) ∉ bytes) :
    Form.percentDecode bytes = bytes := by
  induction bytes with
  | nil => rfl
  | cons b bytes ih =>
    rw [List.mem_cons, not_or] at h
    obtain ⟨hb, hrest⟩ := h
    rw [Form.percentDecode_cons (Ne.symm hb), ih hrest]

/-! ### Slashes -/

/-- A slash is no digit of an escape. -/
theorem Form.slash_mem_percentDecode {bytes : List UInt8} (h : 47 ∈ bytes) : 47 ∈ Form.percentDecode bytes := by
  have hdigit : ∀ b : UInt8, (Hex.value? (Char.ofNat b.toNat)).isSome → 47 ≠ b := by
    rintro _ hsome rfl
    exact absurd hsome (by decide)
  fun_induction Form.percentDecode bytes with
  | case1 first second s high low hsecond hfirst ih =>
    have hnot : 47 ≠ first ∧ 47 ≠ second := ⟨hdigit first (by simp [hfirst]), hdigit second (by simp [hsecond])⟩
    simp only [List.mem_cons, hnot, false_or] at h
    rcases h with h | h
    · exact absurd h (by decide)
    · exact List.mem_cons_of_mem _ (ih h)
  | case2 first second s _ ih =>
    rcases List.mem_cons.mp h with h | h
    · exact absurd h (by decide)
    · exact List.mem_cons_of_mem _ (ih h)
  | case3 b s _ ih =>
    rcases List.mem_cons.mp h with rfl | h
    · exact List.mem_cons_self
    · exact List.mem_cons_of_mem _ (ih h)
  | case4 => exact h

/-- A slash is no part of a longer character. -/
theorem Utf8.slash_mem_scan {bytes : List UInt8} (h : 47 ∈ bytes) : some '/' ∈ Utf8.scan bytes := by
  -- A byte below 128 is no tail of a longer character, so it is read by itself wherever it stands.
  have hone : (47 : UInt8) < 128 := by decide
  have htail : Utf8.isTail 47 = false := by decide
  have hthree : ∀ first, Utf8.secondOfThree first 47 = false := by
    intro first
    unfold Utf8.secondOfThree
    split_ifs <;> decide
  have hfour : ∀ first, Utf8.secondOfFour first 47 = false := by
    intro first
    unfold Utf8.secondOfFour
    split_ifs <;> decide
  fun_induction Utf8.scan bytes with
  | case2 b rest _ ih =>
    rcases List.mem_cons.mp h with rfl | h
    · exact List.mem_cons_self
    · exact List.mem_cons_of_mem _ (ih h)
  | _ => grind

theorem Utf8.slash_mem_of_decode? {bytes : List UInt8} {s : List Char} (hdecode : Utf8.decode? bytes = some s)
    (h : 47 ∈ bytes) : '/' ∈ s := by
  rw [← Utf8.decodeLossy_of_decode? hdecode]
  exact List.mem_map_of_mem (f := (·.getD '\uFFFD')) (Utf8.slash_mem_scan h)

end Text

namespace Target

/-! ## Paths -/

/-- A path without a query is the whole target. -/
theorem read_path {s : String} (hhead : s.toList.head? = some '/') (hchars : ∀ c ∈ s.toList, isPathChar c = true)
    (hlength : s.utf8ByteSize ≤ maxLength) : Target.read s = .ok ⟨s, none⟩ := by
  -- The marks of a query and of a fragment are no characters of a path, so the path is not cut.
  have hmarks : ∀ c ∈ s.toList, (c != '?' && c != '#') = true := by
    intro c hc
    have hpath := hchars c hc
    have hquestion : c ≠ '?' := by
      rintro rfl
      cases hpath
    have hhash : c ≠ '#' := by
      rintro rfl
      cases hpath
    simp [hquestion, hhash]
  have hpath : readPath s.toList = .ok ⟨s, none⟩ := by
    have hwhole : s.toList.takeWhile (fun c => c != '?' && c != '#') = s.toList := List.takeWhile_eq_self_iff.mpr hmarks
    have hall : s.toList.all isPathChar = true := List.all_eq_true.mpr hchars
    simp only [readPath, hwhole, hall, List.drop_length, Bool.not_true, Bool.false_eq_true, ↓reduceIte,
      String.ofList_toList]
  rw [read, if_neg (Nat.not_lt.mpr hlength)]
  cases hlist : s.toList with
  | nil =>
    rw [hlist] at hhead
    cases hhead
  | cons c rest =>
    rw [hlist] at hhead hpath
    cases hhead
    exact hpath

/-! ## Parts -/

/-- A text that stands for itself as one part of a path: all of its characters may stand in a path, none of them is a
slash, and no percent sign in it begins an escape. -/
structure IsPart (s : String) : Prop where
  ne_nil : s.toList ≠ []
  isPathChar {c : Char} (hc : c ∈ s.toList) : isPathChar c = true
  ne_slash {c : Char} (hc : c ∈ s.toList) : c ≠ '/'
  decoded : Text.Form.percentDecode (Text.Utf8.encode s.toList) = Text.Utf8.encode s.toList

/-- It is what is read there. -/
theorem IsPart.decode {s : String} (h : IsPart s) :
    (Text.Utf8.decode? (Text.Form.percentDecode (Text.Utf8.encode s.toList))).map String.ofList = some s := by
  rw [h.decoded, Text.Utf8.decode?_encode, Option.map_some, String.ofList_toList]

/-- A letter, a digit or a sign. -/
def IsPlainChar (c : Char) : Prop := c.isAlphanum = true ∨ c = '-' ∨ c = '+'

theorem IsPlainChar.isPathChar {c : Char} (h : IsPlainChar c) :
    isPathChar c = true ∧ c ≠ '/' ∧ c ≠ '%' := by
  rcases h with h | rfl | rfl
  · change (decide (c.val ≥ 65 ∧ c.val ≤ 90) || (decide (c.val ≥ 97) && decide (c.val ≤ 122)) ||
      (decide (c.val ≥ 48) && decide (c.val ≤ 57))) = true at h
    simp only [Bool.or_eq_true, Bool.and_eq_true, decide_eq_true_eq, UInt32.le_iff_toNat_le, ge_iff_le] at h
    change ((65 ≤ c.toNat ∧ c.toNat ≤ 90) ∨ 97 ≤ c.toNat ∧ c.toNat ≤ 122) ∨ 48 ≤ c.toNat ∧ c.toNat ≤ 57 at h
    refine ⟨?_, ?_, ?_⟩
    · simp only [Target.isPathChar, Bool.or_eq_true, Bool.and_eq_true, decide_eq_true_eq]
      omega
    · rintro rfl
      have hcode : '/'.toNat = 47 := rfl
      omega
    · rintro rfl
      have hcode : '%'.toNat = 37 := rfl
      omega
  · decide
  · decide

/-- A text of such characters is a part. -/
theorem isPart_of_plain {s : String} (hne : s.toList ≠ []) (h : ∀ c ∈ s.toList, IsPlainChar c) : IsPart s where
  ne_nil := hne
  isPathChar hc := (h _ hc).isPathChar.1
  ne_slash hc := (h _ hc).isPathChar.2.1
  decoded := Text.Form.percentDecode_of_not_mem
    (Text.Utf8.percent_not_mem_encode fun hmem => (h _ hmem).isPathChar.2.2 rfl)

theorem isPart_of_all {s : String} (hne : s.toList ≠ [])
    (h : s.toList.all (fun c => c.isAlphanum || c == '-' || c == '+') = true) : IsPart s := by
  apply isPart_of_plain hne
  simpa only [List.all_eq_true, Bool.or_eq_true, beq_iff_eq, or_assoc, IsPlainChar] using h

theorem isPlainChar_of_isDigit {c : Char} (h : c.isDigit = true) : IsPlainChar c := by
  left
  simp [Char.isAlphanum, h]

end Target

/-! ## Keys -/

open Target

theorem Json.isPart_text_int (n : Int) : IsPart (Json.int n).text := by
  have htext : (Json.int n).text.toList = (toString n).toList := String.toList_ofList
  have hdigits : ∀ k : Nat, ∀ c ∈ Nat.toDigits 10 k, IsPlainChar c :=
    fun k c hc => isPlainChar_of_isDigit (Number.isDigit_of_mem_toDigits hc)
  cases n with
  | ofNat k =>
    rw [Number.toList_toString_ofNat] at htext
    exact isPart_of_plain (htext ▸ Nat.toDigits_ne_nil) (htext ▸ hdigits k)
  | negSucc k =>
    rw [Number.toList_toString_negSucc] at htext
    exact isPart_of_plain (htext ▸ List.cons_ne_nil _ _)
      (htext ▸ List.forall_mem_cons.mpr ⟨.inr (.inl rfl), hdigits _⟩)

theorem Json.isPart_text_bool (b : Bool) : IsPart (Json.bool b).text := by
  cases b <;> exact isPart_of_all (by decide +kernel) (by decide +kernel)

theorem Date.isPart_text (d : Date) : IsPart d.text := by
  have hpadded : ∀ (width n : Nat), ∀ c ∈ (Date.padded width n).toList, IsPlainChar c :=
    fun width n c hc => isPlainChar_of_isDigit (Date.isDigit_of_mem_padded hc)
  have hsign : ∀ c ∈ Date.yearSign d.year, IsPlainChar c := by
    unfold Date.yearSign
    split_ifs
    · exact List.forall_mem_singleton.mpr (.inr (.inl rfl))
    · exact List.forall_mem_singleton.mpr (.inr (.inr rfl))
    · exact nofun
  have hhyphen : ∀ c ∈ "-".toList, IsPlainChar c := List.forall_mem_singleton.mpr (.inr (.inl rfl))
  refine isPart_of_plain ?_ ?_
  · simp [Date.text, String.toList_append]
  · simp only [Date.text, String.toList_append, Date.toList_yearText, List.forall_mem_append]
    exact ⟨⟨⟨⟨⟨hsign, hpadded _ _⟩, hhyphen⟩, hpadded _ _⟩, hhyphen⟩, hpadded _ _⟩

/-- The digits of an identifier and its hyphens. -/
theorem Uuid.isPart_text (u : Uuid) : IsPart u.text := by
  have hgrouped : ∀ (groups : List Nat) (digits : List Char), (∀ c ∈ digits, IsPlainChar c) →
      ∀ c ∈ Uuid.grouped groups digits, IsPlainChar c := by
    intro groups
    induction groups with
    | nil => exact fun _ _ => nofun
    | cons n groups ih =>
      intro digits hdigits
      have hfirst : ∀ c ∈ digits.take n, IsPlainChar c := fun c hc => hdigits c (List.mem_of_mem_take hc)
      cases groups with
      | nil => exact hfirst
      | cons n' groups =>
        have hrest := ih (digits.drop n) fun c hc => hdigits c (List.mem_of_mem_drop hc)
        exact List.forall_mem_append.mpr ⟨hfirst, List.forall_mem_cons.mpr ⟨.inr (.inl rfl), hrest⟩⟩
  have hdigits : ∀ c ∈ Text.Hex.encode u.bytes, IsPlainChar c :=
    Text.Hex.forall_mem_encode (by unfold IsPlainChar; decide) _
  refine isPart_of_plain ?_ ?_
  · rw [Uuid.text, String.toList_ofList]
    simp [Uuid.grouped, Uuid.groups]
  · rw [Uuid.text, String.toList_ofList]
    exact hgrouped _ _ hdigits

/-- Where texts are parts of a path, so are those of the keys that have them. -/
theorem Value.isPart_of_keyText {α : Type} {wrap : Option α → Value} {text : α → String} {s : String}
    (hshown : ∀ a, (wrap a).keyText = a.map text) (hpart : ∀ a, IsPart (text a)) {a : Option α}
    (h : (wrap a).keyText = some s) : IsPart s := by
  rw [hshown] at h
  obtain ⟨a, -, rfl⟩ := Option.map_eq_some_iff.mp h
  exact hpart a

/-- The text of a key is a part of a path, unless it is a string that is none. -/
theorem Value.isPart_keyText {kind : Kind} {key : Value} {s : String}
    (hkind : kind ∈ [Kind.integer, .string, .uuid, .date, .boolean]) (hkey : key.hasKind kind = true)
    (h : key.keyText = some s) (hstring : key = .string (some s) → IsPart s) : IsPart s := by
  have hexact : ∀ k ∈ [Kind.integer, .string, .uuid, .date, .boolean], k.isExact = true := by decide
  cases exact_of_hasKind (hexact kind hkind) hkey with
  | integer n => exact isPart_of_keyText keyText_bigInt (fun n => Json.isPart_text_int _) h
  | boolean b => exact isPart_of_keyText keyText_bool Json.isPart_text_bool h
  | string t =>
    rw [keyText_string] at h
    exact hstring (h ▸ rfl)
  | date d => exact isPart_of_keyText keyText_date Date.isPart_text h
  | uuid u => exact isPart_of_keyText keyText_uuid Uuid.isPart_text h
  | time | datetime | datetimeTz | binary => exact absurd hkind (by decide)

end RestTables
