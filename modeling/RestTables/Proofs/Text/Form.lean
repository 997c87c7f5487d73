import RestTables.Proofs.Text.Split
import RestTables.Proofs.Text.Utf8
import RestTables.Text.Form

/-
Module: RestTables.Proofs.Text.Form
Purpose: Pairs in form encoding are read back, whatever characters are in them, and the encoding holds none of the
  characters that end a query string or part it.
Main exports: Form.parse_encodePairs, Form.not_mem_encodePairs
-/

namespace RestTables.Text.Form

/-! ## Bytes -/

/-- What is read for a plus sign. -/
def plusAsSpace (b : UInt8) : UInt8 := if b == 43 then 32 else b

/-- What holds of the first 256 numbers holds of all bytes. -/
theorem forall_byte {P : UInt8 → Prop} (h : ∀ n : Fin 256, P (UInt8.ofNat n.val)) (b : UInt8) : P b := by
  have hb := h ⟨b.toNat, b.toNat_lt⟩
  rwa [UInt8.ofNat_toNat] at hb

/-- The bytes that are read for one byte: itself, or a percent sign and two digits. -/
theorem bytes_encodeByte (b : UInt8) :
    (b ≠ 37 ∧ (Utf8.encode (encodeByte b)).map plusAsSpace = [b]) ∨
      (Utf8.encode (encodeByte b)).map plusAsSpace =
        [37, UInt8.ofNat (Hex.digitUpper (b.toNat / 16)).toNat, UInt8.ofNat (Hex.digitUpper (b.toNat % 16)).toNat] := by
  revert b
  exact forall_byte (by decide +kernel)

theorem value?_digitUpper {n : Nat} (h : n < 16) :
    Hex.value? (Char.ofNat (UInt8.ofNat (Hex.digitUpper n).toNat).toNat) = some n := by
  have hall : ∀ k : Fin 16, Hex.value? (Char.ofNat (UInt8.ofNat (Hex.digitUpper k.val).toNat).toNat) = some k.val := by
    decide
  exact hall ⟨n, h⟩

theorem percentDecode_cons {b : UInt8} (hb : b ≠ 37) (s : List UInt8) :
    percentDecode (b :: s) = b :: percentDecode s := by
  rw [percentDecode]
  rintro _ _ _ rfl
  exact absurd rfl hb

/-- A byte that was encoded is read back. -/
theorem percentDecode_encodeByte (b : UInt8) (rest : List Char) :
    percentDecode ((Utf8.encode (encodeByte b ++ rest)).map plusAsSpace) =
      b :: percentDecode ((Utf8.encode rest).map plusAsSpace) := by
  have happend : Utf8.encode (encodeByte b ++ rest) = Utf8.encode (encodeByte b) ++ Utf8.encode rest :=
    List.flatMap_append
  rw [happend, List.map_append]
  rcases bytes_encodeByte b with ⟨hb, hself⟩ | hdigits
  · rw [hself, List.singleton_append, percentDecode_cons hb]
  · have hbyte : b.toNat < 256 := b.toNat_lt
    have hnumber : b.toNat / 16 * 16 + b.toNat % 16 = b.toNat := by omega
    rw [hdigits, List.cons_append, List.cons_append, List.singleton_append, percentDecode,
      value?_digitUpper (show b.toNat / 16 < 16 by omega), value?_digitUpper (show b.toNat % 16 < 16 by omega)]
    simp only [hnumber, UInt8.ofNat_toNat]

theorem percentDecode_flatMap_encodeByte (bytes : List UInt8) :
    percentDecode ((Utf8.encode (bytes.flatMap encodeByte)).map plusAsSpace) = bytes := by
  induction bytes with
  | nil => rfl
  | cons b bytes ih => rw [List.flatMap_cons, percentDecode_encodeByte, ih]

/-! ## Names and values -/

/-- A name or value that was encoded is read back. -/
theorem decodePart_encodeText (s : String) : decodePart (encodeText s) = s := by
  have hbytes : percentDecode ((Utf8.encode (encodeText s)).map plusAsSpace) = Utf8.encode s.toList :=
    percentDecode_flatMap_encodeByte _
  have hpart : decodePart (encodeText s) =
      String.ofList (Utf8.decodeLossy (percentDecode ((Utf8.encode (encodeText s)).map plusAsSpace))) := rfl
  rw [hpart, hbytes, Utf8.decodeLossy_encode, String.ofList_toList]

/-- The characters that part an address or a query string. -/
def marks : List Char := ['&', '=', '?', '#']

theorem not_mem_encodeText {c : Char} (hc : c ∈ marks) (s : String) : c ∉ encodeText s := by
  have hbyte : ∀ b : UInt8, (encodeByte b).all (fun d => !marks.contains d) = true := forall_byte (by decide +kernel)
  intro hmem
  obtain ⟨b, -, hb⟩ := List.mem_flatMap.mp hmem
  have hmark := List.all_eq_true.mp (hbyte b) c hb
  rw [List.contains_iff_mem.mpr hc] at hmark
  cases hmark

/-! ## Pairs -/

/-- A pair in form encoding. -/
def encodePair (pair : String × String) : List Char := encodeText pair.1 ++ '=' :: encodeText pair.2

theorem not_mem_encodePair {c : Char} (hc : c ∈ marks) (heq : c ≠ '=') (pair : String × String) :
    c ∉ encodePair pair := by
  simp [encodePair, not_mem_encodeText hc, heq]

theorem toList_encodePairs (pairs : List (String × String)) :
    (encodePairs pairs).toList = ['&'].intercalate (pairs.map encodePair) := by
  have hmark : "&".toList = ['&'] := rfl
  rw [encodePairs, toList_join, hmark, List.map_map]
  refine congrArg _ (List.map_congr_left fun pair _ => ?_)
  exact String.toList_ofList

/-- Pairs in form encoding are read back. -/
theorem parse_encodePairs (pairs : List (String × String)) : parse (encodePairs pairs) = pairs := by
  by_cases hnil : pairs = []
  · subst hnil
    rfl
  · have hsplit : split ['&'] (encodePairs pairs).toList = pairs.map encodePair := by
      rw [toList_encodePairs]
      apply split_intercalate (by simpa using hnil)
      rw [List.forall_mem_map]
      exact fun pair _ => not_mem_encodePair (by decide) (by decide) pair
    -- a pair always has its equals sign, so that no part is empty
    have hfilter : (pairs.map encodePair).filter (!·.isEmpty) = pairs.map encodePair := by
      rw [List.filter_eq_self, List.forall_mem_map]
      intro pair _
      simp [encodePair]
    rw [parse, hsplit, hfilter, List.map_map]
    conv => rhs; rw [← List.map_id pairs]
    refine List.map_congr_left fun pair _ => ?_
    have hcut : cut? '=' (encodePair pair) = some (encodeText pair.1, encodeText pair.2) :=
      cut?_eq_some_iff.mpr ⟨rfl, not_mem_encodeText (by decide) pair.1⟩
    simp only [Function.comp_apply, hcut, decodePart_encodeText, id_eq]

/-- No character that would end the query string is in the encoding. -/
theorem not_mem_encodePairs {c : Char} (hc : c = '?' ∨ c = '#') (pairs : List (String × String)) :
    c ∉ (encodePairs pairs).toList := by
  have hmark : c ∈ marks ∧ c ≠ '=' ∧ c ≠ '&' := by
    rcases hc with rfl | rfl <;> decide
  rw [toList_encodePairs]
  apply not_mem_intercalate hmark.2.2
  rw [List.forall_mem_map]
  exact fun pair _ => not_mem_encodePair hmark.1 hmark.2.1 pair

end RestTables.Text.Form
