/-
Module: RestTables.Text.Affix
Purpose: What stands after a leading mark, before a trailing mark, or on the two sides of the first
  occurrence of a character.
Main exports: after?, before?, cut?
-/

namespace RestTables.Text

/-- The rest of `s` after the leading `mark`, if `s` starts with it. -/
def after? : (mark s : List Char) → Option (List Char)
  | [], s => some s
  | _ :: _, [] => none
  | m :: mark, c :: s => if m = c then after? mark s else none

/-- The part of `s` before the trailing `mark`, if `s` ends with it. -/
def before? (mark s : List Char) : Option (List Char) :=
  (after? mark.reverse s.reverse).map List.reverse

/-- The parts of `s` before and after the first `mark` in it. -/
def cut? (mark : Char) : List Char → Option (List Char × List Char)
  | [] => none
  | c :: s => if c = mark then some ([], s) else (cut? mark s).map fun (a, b) => (c :: a, b)

/-- A mark is found exactly at the front of the texts that start with it. -/
theorem after?_eq_some_iff {mark s r : List Char} : after? mark s = some r ↔ s = mark ++ r := by
  induction mark generalizing s with
  | nil => simp [after?]
  | cons m mark ih =>
    cases s with
    | nil => simp [after?]
    | cons c s =>
      by_cases h : m = c
      · simp [after?, h, ih]
      · simp [after?, h, Ne.symm h]

/-- A mark is found exactly at the end of the texts that end with it. -/
theorem before?_eq_some_iff {mark s r : List Char} : before? mark s = some r ↔ s = r ++ mark := by
  simp only [before?, Option.map_eq_some_iff, after?_eq_some_iff]
  constructor
  · rintro ⟨a, h, rfl⟩
    have := congrArg List.reverse h
    simpa using this
  · rintro rfl
    exact ⟨r.reverse, by simp, by simp⟩

/-- Cutting loses nothing but the mark, and takes the first one. -/
theorem cut?_eq_some_iff {mark : Char} {s a b : List Char} :
    cut? mark s = some (a, b) ↔ s = a ++ mark :: b ∧ mark ∉ a := by
  induction s generalizing a with
  | nil => simp [cut?]
  | cons c s ih =>
    by_cases h : c = mark
    · subst h
      cases a with
      | nil => simp [cut?]
      | cons x a => simp [cut?]; rintro rfl; simp
    · cases a with
      | nil => simp [cut?, h]
      | cons x a =>
        have := @ih a
        simp only [cut?, h, if_false, Option.map_eq_some_iff, Prod.exists, Prod.mk.injEq,
          List.cons.injEq, List.cons_append, List.mem_cons, not_or]
        constructor
        · rintro ⟨a', b', h1, ⟨rfl, rfl⟩, rfl⟩
          exact ⟨⟨rfl, (this.1 h1).1⟩, Ne.symm h, (this.1 h1).2⟩
        · rintro ⟨⟨rfl, h1⟩, _, h2⟩
          exact ⟨a, b, this.2 ⟨h1, h2⟩, ⟨rfl, rfl⟩, rfl⟩

end RestTables.Text
