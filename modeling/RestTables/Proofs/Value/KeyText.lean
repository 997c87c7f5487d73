import Mathlib.Algebra.Ring.Nat
import RestTables.Proofs.Calendar.Text
import RestTables.Proofs.Http.EntityTag
import RestTables.Proofs.Number.Literal
import RestTables.Proofs.Sql.Engine

/-
Module: RestTables.Proofs.Value.KeyText
Purpose: The plain text of a key tells it from every other value of its kind, for the kinds whose values are written
  out in full.
Main exports: Kind.isExact, Uuid.text_inj, Value.keyText_eq_none_iff, Value.exists_keyText_iff, Value.keyText_inj
-/

namespace RestTables

/-- Different values of the kind are shown differently. Numbers with a point are shown as doubles, some of which
have no text of their own, and a document may show null as a NULL does. -/
def Kind.isExact : Kind → Bool
  | .float | .decimal | .json => false
  | _ => true

/-! ## Texts -/

namespace Uuid

open Text

/-- The hyphens can be taken out again. -/
theorem ungrouped?_grouped {groups : List Nat} {s : List Char} (hne : groups ≠ []) (h : s.length = groups.sum) :
    ungrouped? groups (grouped groups s) = some s := by
  induction groups generalizing s with
  | nil => exact absurd rfl hne
  | cons n groups ih =>
    cases groups with
    | nil =>
      have hlength : s.length = n := by simpa using h
      simp [grouped, ungrouped?, hlength]
    | cons n' groups =>
      have hlength : s.length = n + (n' :: groups).sum := by simpa using h
      have htake : (s.take n).length = n := by
        rw [List.length_take]
        omega
      have hrest := @ih (s.drop n) (List.cons_ne_nil _ _) (by rw [List.length_drop]; omega)
      simp only [grouped, ungrouped?]
      rw [List.drop_left' htake, List.take_left' htake]
      simp only [hrest, Option.map_some, List.take_append_drop]

theorem text_inj {u v : Uuid} (h : u.text = v.text) : u = v := by
  have hdigits : ∀ u : Uuid, (Hex.encode u.bytes).length = groups.sum := by
    intro u
    rw [Hex.length_encode, u.size]
    rfl
  have hlists : grouped groups (Hex.encode u.bytes) = grouped groups (Hex.encode v.bytes) := String.ofList_injective h
  have hencoded : some (Hex.encode u.bytes) = some (Hex.encode v.bytes) := by
    rw [← ungrouped?_grouped (by decide) (hdigits u), hlists, ungrouped?_grouped (by decide) (hdigits v)]
  have hbytes : u.bytes = v.bytes := Hex.encode_injective (Option.some.inj hencoded)
  cases u
  cases v
  cases hbytes
  rfl

end Uuid

theorem DateTime.textUtc_inj {t u : DateTime} (h : t.textUtc = u.textUtc) : t = u := by
  have hlists := congrArg String.toList h
  simp only [textUtc, textWithOffset, String.toList_append] at hlists
  exact text_inj (List.append_cancel_right hlists)

theorem Json.text_int_inj {n m : Int} (h : (Json.int n).text = (Json.int m).text) : n = m :=
  Number.toList_toString_inj (String.ofList_injective h)

namespace Value

/-! ## Keys -/

section Shown

theorem keyText_bool (v : Option Bool) : (bool v).keyText = v.map fun b => (Json.bool b).text := by
  cases v <;> rfl

theorem keyText_bigInt (v : Option Int64) : (bigInt v).keyText = v.map fun n => (Json.int n.toInt).text := by
  cases v <;> rfl

theorem keyText_string (v : Option String) : (string v).keyText = v := by
  cases v <;> rfl

theorem keyText_bytes (v : Option (List UInt8)) :
    (bytes v).keyText = v.map fun b => String.ofList (Text.Hex.encode b) := by
  cases v <;> rfl

theorem keyText_date (v : Option Date) : (date v).keyText = v.map Date.text := by
  cases v <;> rfl

theorem keyText_time (v : Option Time) : (time v).keyText = v.map Time.text := by
  cases v <;> rfl

theorem keyText_datetime (v : Option DateTime) : (datetime v).keyText = v.map DateTime.text := by
  cases v <;> rfl

theorem keyText_instant (v : Option DateTime) : (instant v).keyText = v.map DateTime.textUtc := by
  cases v <;> rfl

theorem keyText_uuid (v : Option Uuid) : (uuid v).keyText = v.map Uuid.text := by
  cases v <;> rfl

end Shown

/-- The values of kinds that are shown exactly, NULL included. -/
inductive Exact : Kind → Value → Prop where
  | integer (n : Option Int64) : Exact .integer (.bigInt n)
  | boolean (b : Option Bool) : Exact .boolean (.bool b)
  | string (s : Option String) : Exact .string (.string s)
  | date (d : Option Date) : Exact .date (.date d)
  | time (t : Option Time) : Exact .time (.time t)
  | datetime (t : Option DateTime) : Exact .datetime (.datetime t)
  | datetimeTz (t : Option DateTime) : Exact .datetimeTz (.instant t)
  | uuid (u : Option Uuid) : Exact .uuid (.uuid u)
  | binary (b : Option (List UInt8)) : Exact .binary (.bytes b)

variable {kind : Kind} {v w : Value}

theorem exact_of_hasKind (hkind : kind.isExact = true) (hv : v.hasKind kind = true) : Exact kind v := by
  cases kind with
  | float | decimal | json => cases hkind
  | integer | boolean | string | date | time | datetime | datetimeTz | uuid | binary =>
    cases v <;> first | constructor | cases hv

/-- A value has no plain text exactly when it is a NULL. -/
theorem keyText_eq_none_iff (hkind : kind.isExact = true) (hv : v.hasKind kind = true) :
    v.keyText = none ↔ v.isSqlNull = true := by
  cases exact_of_hasKind hkind hv with
  | integer v => simp [keyText_bigInt, isSqlNull]
  | boolean v => simp [keyText_bool, isSqlNull]
  | string v => simp [keyText_string, isSqlNull]
  | date v => simp [keyText_date, isSqlNull]
  | time v => simp [keyText_time, isSqlNull]
  | datetime v => simp [keyText_datetime, isSqlNull]
  | datetimeTz v => simp [keyText_instant, isSqlNull]
  | uuid v => simp [keyText_uuid, isSqlNull]
  | binary v => simp [keyText_bytes, isSqlNull]

/-- A value has a plain text exactly when it is known. -/
theorem exists_keyText_iff (hkind : kind.isExact = true) (hv : v.hasKind kind = true) :
    (∃ s, v.keyText = some s) ↔ v.isSqlNull = false := by
  rw [← Option.ne_none_iff_exists', ne_eq, keyText_eq_none_iff hkind hv, Bool.not_eq_true]

/-- What texts tell apart they tell apart as values, of which one may be NULL. -/
theorem eq_of_keyText {α : Type} {wrap : Option α → Value} {text : α → String}
    (hshown : ∀ a, (wrap a).keyText = a.map text) (hinj : ∀ a b, text a = text b → a = b) {a b : Option α}
    (h : (wrap a).keyText = (wrap b).keyText) : wrap a = wrap b := by
  rw [hshown, hshown] at h
  rw [Option.map_injective (fun a b => hinj a b) h]

/-- Values with the same plain text are equal. -/
theorem keyText_inj (hkind : kind.isExact = true) (hv : v.hasKind kind = true) (hw : w.hasKind kind = true)
    (h : v.keyText = w.keyText) : v = w := by
  cases exact_of_hasKind hkind hv <;> cases exact_of_hasKind hkind hw
  case integer.integer =>
    exact eq_of_keyText keyText_bigInt (fun _ _ hnm => Int64.toInt_inj.mp (Json.text_int_inj hnm)) h
  case boolean.boolean => exact eq_of_keyText keyText_bool (by decide +kernel) h
  case string.string =>
    rw [keyText_string, keyText_string] at h
    rw [h]
  case date.date => exact eq_of_keyText keyText_date (fun _ _ hde => Date.text_inj (congrArg String.toList hde)) h
  case time.time => exact eq_of_keyText keyText_time (fun _ _ hst => Time.text_inj (congrArg String.toList hst)) h
  case datetime.datetime =>
    exact eq_of_keyText keyText_datetime (fun _ _ htu => DateTime.text_inj (congrArg String.toList htu)) h
  case datetimeTz.datetimeTz => exact eq_of_keyText keyText_instant (fun _ _ => DateTime.textUtc_inj) h
  case uuid.uuid => exact eq_of_keyText keyText_uuid (fun _ _ => Uuid.text_inj) h
  case binary.binary =>
    exact eq_of_keyText keyText_bytes (fun _ _ hbc => Text.Hex.encode_injective (String.ofList_injective hbc)) h

end Value

end RestTables
