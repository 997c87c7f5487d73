import RestTables.Text.Letter

/-
Module: RestTables.Http.Header
Purpose: Header fields: names in small letters, values of which some cannot be sent and some cannot be read as
  text.
Main exports: Headers, Headers.get?, Headers.text?, Headers.set, Headers.extend
-/

namespace RestTables

/-- Header fields in order; a name may repeat. -/
abbrev Headers := List (String × String)

namespace Headers

/-- A character that a value may hold: no control but the tab. -/
def isValueChar (c : Char) : Bool := c = '\t' || (32 ≤ c.toNat && c.toNat != 127)

/-- The value can be sent. -/
def isValue (v : String) : Bool := v.toList.all isValueChar

/-- The value can be read as text: visible ASCII, spaces and tabs. -/
def isReadable (v : String) : Bool := v.toList.all fun c => c = '\t' || (32 ≤ c.toNat && c.toNat < 127)

/-- The first value of a name. -/
def get? (h : Headers) (name : String) : Option String := h.lookup name

/-- The first value of a name, if it can be read as text. -/
def text? (h : Headers) (name : String) : Option String :=
  (h.get? name).bind fun v => if isReadable v then some v else none

/-- The fields without those of a name. -/
def remove (h : Headers) (name : String) : Headers := h.filter (·.1 != name)

/-- One value for a name, in place of all others. -/
def set (h : Headers) (name value : String) : Headers := h.remove name ++ [(name, value)]

/-- One value for a name, if it can be sent. -/
def trySet (h : Headers) (name value : String) : Headers := if isValue value then h.set name value else h

/-- Further fields: their values take the place of all that a name had before. -/
def extend (h more : Headers) : Headers := (h.filter fun f => !more.any (·.1 == f.1)) ++ more

@[simp] theorem get?_set (h : Headers) (name value : String) : (h.set name value).get? name = some value := by
  unfold get? set remove
  induction h with
  | nil => simp
  | cons f h ih =>
    by_cases hf : f.1 = name
    · simpa [hf] using ih
    · simp only [List.filter_cons, bne_iff_ne, ne_eq, hf, not_false_eq_true, ↓reduceIte, List.cons_append]
      rw [List.lookup_cons]
      have : (name == f.1) = false := by simpa [beq_eq_false_iff_ne] using fun e => hf e.symm
      rw [this]
      exact ih

end Headers

end RestTables
