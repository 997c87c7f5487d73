import Mathlib.Data.List.Infix
import RestTables.Query.Grammar

/-
Module: RestTables.Proofs.Sql.Like
Purpose: What a pattern of LIKE matches. A percent sign stands for any sequence, an underscore for any one
  character, and the escape makes the next character stand for itself. Comparing capitals is matching up to
  case, and an escaped term between two percent signs matches the texts that contain it.
Main exports: PatternPart, patternParts?, partsMatch, likeHolds, Folding, Folding.likeHolds_map_upper,
  likeHolds_containment_iff
-/

namespace RestTables.Sql

/-- A part of a pattern. -/
inductive PatternPart where
  | anything
  | anyOne
  | char (c : Char)
deriving Repr, DecidableEq

namespace PatternPart

/-- What a character means that is not escaped. -/
def ofChar (c : Char) : PatternPart := if c = '%' then anything else if c = '_' then anyOne else char c

/-- The part with its character changed. -/
def map (f : Char → Char) : PatternPart → PatternPart
  | char c => char (f c)
  | p => p

end PatternPart

/-- The parts of a pattern; a pattern that ends with the escape has none. -/
def patternParts? (escape : Char) : List Char → Option (List PatternPart)
  | [] => some []
  | [c] => if c = escape then none else some [.ofChar c]
  | c :: d :: rest =>
    if c = escape then (patternParts? escape rest).map (.char d :: ·)
    else (patternParts? escape (d :: rest)).map (.ofChar c :: ·)

/-- A text has the form that the parts describe, characters being compared by `same`. -/
def partsMatch (same : Char → Char → Bool) : List PatternPart → List Char → Bool
  | [], s => s.isEmpty
  | .anything :: parts, s => s.tails.any (partsMatch same parts)
  | .anyOne :: _, [] => false
  | .anyOne :: parts, _ :: s => partsMatch same parts s
  | .char _ :: _, [] => false
  | .char c :: parts, d :: s => same c d && partsMatch same parts s

/-- A pattern matches a text, characters being compared by `same`. -/
def likeHolds (same : Char → Char → Bool) (escape : Char) (pattern s : List Char) : Bool :=
  match patternParts? escape pattern with
  | some parts => partsMatch same parts s
  | none => false

/-! ## Capitals -/

/-- Changing characters one by one leaves the marks of a pattern alone and makes no new ones. -/
structure Folding (upper : Char → Char) (escape : Char) : Prop where
  percent : ∀ c, upper c = '%' ↔ c = '%'
  underscore : ∀ c, upper c = '_' ↔ c = '_'
  escape : ∀ c, upper c = escape ↔ c = escape

/-- Equal up to the case of two characters. -/
def sameUpper (upper : Char → Char) (c d : Char) : Bool := upper c == upper d

theorem Folding.ofChar_upper {upper : Char → Char} {escape : Char} (h : Folding upper escape) (c : Char) :
    PatternPart.ofChar (upper c) = (PatternPart.ofChar c).map upper := by
  unfold PatternPart.ofChar
  by_cases hp : c = '%'
  · simp [hp, (h.percent '%').2 rfl, PatternPart.map]
  · by_cases hu : c = '_'
    · simp [hu, (h.underscore '_').2 rfl, PatternPart.map]
    · have hp' : upper c ≠ '%' := fun e => hp ((h.percent c).1 e)
      have hu' : upper c ≠ '_' := fun e => hu ((h.underscore c).1 e)
      simp [hp, hu, hp', hu', PatternPart.map]

/-- A pattern in capitals has the same parts in capitals. -/
theorem Folding.patternParts?_map {upper : Char → Char} {escape : Char} (h : Folding upper escape)
    (pattern : List Char) :
    patternParts? escape (pattern.map upper) =
      (patternParts? escape pattern).map (List.map (PatternPart.map upper)) := by
  fun_induction patternParts? escape pattern with
  | case1 => rfl
  | case2 => simp [patternParts?, (h.escape escape).2 rfl]
  | case3 c hc =>
    have hc' : upper c ≠ escape := fun e => hc ((h.escape c).1 e)
    simp [patternParts?, hc', h.ofChar_upper]
  | case4 d rest ih =>
    simp only [List.map_cons, patternParts?, (h.escape escape).2 rfl, if_true, ih, Option.map_map]
    rfl
  | case5 c d rest hc ih =>
    have hc' : upper c ≠ escape := fun e => hc ((h.escape c).1 e)
    simp only [List.map_cons] at ih
    simp only [List.map_cons, patternParts?, hc', if_false, ih, Option.map_map, h.ofChar_upper]
    rfl

/-- Parts in capitals match a text in capitals where the parts match the text up to case. -/
theorem partsMatch_map_upper (upper : Char → Char) (parts : List PatternPart) (s : List Char) :
    partsMatch (· == ·) (parts.map (PatternPart.map upper)) (s.map upper) =
      partsMatch (sameUpper upper) parts s := by
  induction parts generalizing s with
  | nil => cases s <;> rfl
  | cons p parts ih =>
    cases p with
    | anything =>
      simp only [List.map_cons, PatternPart.map, partsMatch]
      induction s with
      | nil => simpa using ih []
      | cons c s ihs => simpa [ihs] using congrArg (· || _) (ih (c :: s))
    | anyOne => cases s <;> simp [PatternPart.map, partsMatch, ih]
    | char c => cases s <;> simp [PatternPart.map, partsMatch, ih, sameUpper]

/-- Comparing a pattern and a text in capitals is matching up to case. -/
theorem Folding.likeHolds_map_upper {upper : Char → Char} {escape : Char} (h : Folding upper escape)
    (pattern s : List Char) :
    likeHolds (· == ·) escape (pattern.map upper) (s.map upper) =
      likeHolds (sameUpper upper) escape pattern s := by
  unfold likeHolds
  rw [h.patternParts?_map]
  cases patternParts? escape pattern with
  | none => rfl
  | some parts => exact partsMatch_map_upper upper parts s

/-! ## Containment -/

/-- The parts of an escaped term stand for its characters. -/
theorem patternParts?_escapeLike (g : Grammar) (term rest : List Char) :
    patternParts? g.escape (g.escapeLike term ++ rest) =
      (patternParts? g.escape rest).map (term.map .char ++ ·) := by
  induction term with
  | nil => simp [Grammar.escapeLike]
  | cons c term ih =>
    have hsplit : g.escapeLike (c :: term) = g.escapeLikeChar c ++ g.escapeLike term := by
      simp [Grammar.escapeLike]
    rw [hsplit, List.append_assoc]
    generalize g.escapeLike term ++ rest = tail at ih
    unfold Grammar.escapeLikeChar
    split
    · simp [patternParts?, ih, Function.comp_def]
    · next hc =>
      simp only [not_or] at hc
      have hchar : PatternPart.ofChar c = .char c := by simp [PatternPart.ofChar, hc]
      cases tail with
      | nil =>
        cases hr : patternParts? g.escape rest with
        | none => simp [patternParts?, hr] at ih
        | some parts => simp_all [patternParts?]
      | cons d tail => simp [patternParts?, hc, hchar, ih, Function.comp_def]

/-- An escaped term between two percent signs. -/
def containment (g : Grammar) (term : List Char) : List Char := '%' :: g.escapeLike term ++ ['%']

theorem patternParts?_containment (g : Grammar) (h : g.escape ≠ '%') (term : List Char) :
    patternParts? g.escape (containment g term) =
      some (.anything :: term.map .char ++ [.anything]) := by
  have hinner := patternParts?_escapeLike g term ['%']
  have hpercent : PatternPart.ofChar '%' = .anything := by simp [PatternPart.ofChar]
  rw [show patternParts? g.escape ['%'] = some [.anything] by
    simp [patternParts?, Ne.symm h, hpercent]] at hinner
  unfold containment
  rw [List.cons_append]
  generalize g.escapeLike term ++ ['%'] = tail at hinner
  cases tail with
  | nil => simp [patternParts?] at hinner
  | cons d tail => simp [patternParts?, Ne.symm h, hinner, hpercent]

/-- Characters in front of a percent sign match the texts that begin with them. -/
theorem partsMatch_chars_anything_iff (term s : List Char) :
    partsMatch (· == ·) (term.map .char ++ [.anything]) s = true ↔ term <+: s := by
  induction term generalizing s with
  | nil =>
    have hnil : partsMatch (· == ·) [] [] = true := rfl
    simp only [List.map_nil, List.nil_append, partsMatch, List.any_eq_true, List.mem_tails, List.nil_prefix,
      iff_true]
    exact ⟨[], List.nil_suffix, hnil⟩
  | cons c term ih =>
    cases s with
    | nil => simp [partsMatch]
    | cons d s => simp [partsMatch, ih, List.cons_prefix_cons]

/-- A term matches literally: its pattern holds of the texts that contain it. -/
theorem likeHolds_containment_iff (g : Grammar) (h : g.escape ≠ '%') (term s : List Char) :
    likeHolds (· == ·) g.escape (containment g term) s = true ↔ term <:+: s := by
  unfold likeHolds
  rw [patternParts?_containment g h]
  simp only [List.cons_append, partsMatch, List.any_eq_true, List.mem_tails,
    partsMatch_chars_anything_iff, List.infix_iff_prefix_suffix]
  constructor
  · rintro ⟨u, hs, hp⟩
    exact ⟨u, hp, hs⟩
  · rintro ⟨u, hp, hs⟩
    exact ⟨u, hs, hp⟩

/-- Capitals of an escaped term are the escaped term in capitals. -/
theorem Folding.containment_map {upper : Char → Char} {g : Grammar} (h : Folding upper g.escape)
    (term : List Char) : (containment g term).map upper = containment g (term.map upper) := by
  have hescape : upper g.escape = g.escape := (h.escape g.escape).2 rfl
  have hpercent : upper '%' = '%' := (h.percent '%').2 rfl
  have hchar : ∀ c, (g.escapeLikeChar c).map upper = g.escapeLikeChar (upper c) := by
    intro c
    simp only [Grammar.escapeLikeChar, h.percent, h.underscore, h.escape]
    split
    · rw [List.map_cons, List.map_singleton, hescape]
    · rw [List.map_singleton]
  simp only [containment, Grammar.escapeLike, List.map_append, List.map_cons, List.map_nil, hpercent,
    List.map_flatMap, List.flatMap_map, hchar]

end RestTables.Sql
