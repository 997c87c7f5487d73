import RestTables.Proofs.Rows.Condition

/-
Module: RestTables.Proofs.Rows.Search
Purpose: Searches are literal. What a pattern of LIKE matches is said by a relation of its own, which the matcher
  decides; the pattern that a search makes of a term matches the texts that contain the term, also where pattern and
  text are compared in capitals, and so its condition is true of the rows that have the term in some column.
Main exports: Sql.Matches, Sql.PatternPart.Leaves, Sql.likeHolds_iff_matches, Sql.matches_containment_iff,
  Query.search_is_literal
-/

namespace RestTables

namespace Sql

/-! ## What a pattern matches -/

/-- A pattern of LIKE matches a text. The escape comes first: behind it, every character stands for itself. -/
inductive Matches (escape : Char) : (pattern s : List Char) → Prop where
  | nil : Matches escape [] []
  /-- A percent sign stands for any sequence. -/
  | percent {pattern s : List Char} (any : List Char) (hne : '%' ≠ escape) (h : Matches escape pattern s) :
      Matches escape ('%' :: pattern) (any ++ s)
  /-- An underscore stands for any one character. -/
  | underscore {pattern s : List Char} (c : Char) (hne : '_' ≠ escape) (h : Matches escape pattern s) :
      Matches escape ('_' :: pattern) (c :: s)
  | escaped {pattern s : List Char} (c : Char) (h : Matches escape pattern s) :
      Matches escape (escape :: c :: pattern) (c :: s)
  | char {pattern s : List Char} {c : Char} (hpercent : c ≠ '%') (hunderscore : c ≠ '_') (hescape : c ≠ escape)
      (h : Matches escape pattern s) : Matches escape (c :: pattern) (c :: s)

/-- What a part of a pattern may leave of a text. -/
def PatternPart.Leaves (s rest : List Char) : PatternPart → Prop
  | .anything => rest <:+ s
  | .anyOne => ∃ c, s = c :: rest
  | .char c => s = c :: rest

section Matching

variable {escape c : Char} {pattern s : List Char}

theorem partsMatch_cons_iff {part : PatternPart} {parts : List PatternPart} :
    partsMatch (· == ·) (part :: parts) s = true ↔
      ∃ rest, part.Leaves s rest ∧ partsMatch (· == ·) parts rest = true := by
  cases part with
  | anything => simp only [partsMatch, List.any_eq_true, List.mem_tails, PatternPart.Leaves]
  | anyOne => cases s <;> simp [partsMatch, PatternPart.Leaves]
  | char c =>
    cases s with
    | nil => simp [partsMatch, PatternPart.Leaves]
    | cons d s =>
      simp only [partsMatch, PatternPart.Leaves, List.cons.injEq, Bool.and_eq_true, beq_iff_eq]
      constructor
      · rintro ⟨rfl, h⟩
        exact ⟨s, ⟨rfl, rfl⟩, h⟩
      · rintro ⟨_, ⟨rfl, rfl⟩, h⟩
        exact ⟨rfl, h⟩

theorem matches_nil_iff : Matches escape [] s ↔ s = [] := by
  constructor
  · rintro ⟨⟩
    rfl
  · rintro rfl
    exact .nil

/-- A character in front of a pattern that is not the escape. -/
theorem matches_cons_iff (hc : c ≠ escape) :
    Matches escape (c :: pattern) s ↔ ∃ rest, (PatternPart.ofChar c).Leaves s rest ∧ Matches escape pattern rest := by
  constructor
  · intro h
    cases h with
    | percent any hne h => exact ⟨_, List.suffix_append _ _, h⟩
    | underscore d hne h => exact ⟨_, ⟨d, rfl⟩, h⟩
    | escaped d h => exact absurd rfl hc
    | char hpercent hunderscore hescape h =>
      exact ⟨_, by simp [PatternPart.ofChar, hpercent, hunderscore, PatternPart.Leaves], h⟩
  · rintro ⟨rest, hleaves, h⟩
    unfold PatternPart.ofChar at hleaves
    split_ifs at hleaves with hpercent hunderscore
    · obtain ⟨any, rfl⟩ := hleaves
      exact hpercent ▸ .percent any (hpercent ▸ hc) h
    · obtain ⟨d, rfl⟩ := hleaves
      exact hunderscore ▸ .underscore d (hunderscore ▸ hc) h
    · obtain rfl := hleaves
      exact .char hpercent hunderscore hc h

/-- The escape takes the character behind it with it. -/
theorem matches_escape_cons_iff :
    Matches escape (escape :: c :: pattern) s ↔
      ∃ rest, (PatternPart.char c).Leaves s rest ∧ Matches escape pattern rest := by
  constructor
  · intro h
    cases h with
    | percent any hne h => exact absurd rfl hne
    | underscore d hne h => exact absurd rfl hne
    | escaped d h => exact ⟨_, rfl, h⟩
    | char hpercent hunderscore hescape h => exact absurd rfl hescape
  · rintro ⟨rest, rfl, h⟩
    exact .escaped c h

/-- An escape with nothing behind it matches nothing. -/
theorem not_matches_escape : ¬ Matches escape [escape] s := by
  intro h
  cases h with
  | percent any hne h => exact hne rfl
  | underscore d hne h => exact hne rfl
  | char hpercent hunderscore hescape h => exact hescape rfl

theorem likeHolds_iff_exists : likeHolds (· == ·) escape pattern s = true ↔
    ∃ parts, patternParts? escape pattern = some parts ∧ partsMatch (· == ·) parts s = true := by
  unfold likeHolds
  cases patternParts? escape pattern <;> simp

/-- The first part takes what it stands for, and the others match what it leaves. -/
theorem exists_cons_iff {parts? : Option (List PatternPart)} {part : PatternPart} :
    (∃ parts, parts?.map (part :: ·) = some parts ∧ partsMatch (· == ·) parts s = true) ↔
      ∃ rest, part.Leaves s rest ∧ ∃ parts, parts? = some parts ∧ partsMatch (· == ·) parts rest = true := by
  cases parts? with
  | none => simp
  | some parts => simp [partsMatch_cons_iff]

/-- The matcher decides what a pattern matches. -/
theorem likeHolds_iff_matches : likeHolds (· == ·) escape pattern s = true ↔ Matches escape pattern s := by
  rw [likeHolds_iff_exists]
  fun_induction patternParts? escape pattern generalizing s with
  | case1 => simp [partsMatch, matches_nil_iff]
  | case2 => simp [not_matches_escape]
  | case3 c hc => simp [matches_cons_iff hc, partsMatch_cons_iff, partsMatch, matches_nil_iff]
  | case4 d rest ih =>
    rw [exists_cons_iff, matches_escape_cons_iff]
    simp only [ih]
  | case5 c d rest hc ih =>
    rw [exists_cons_iff, matches_cons_iff hc]
    simp only [ih]

end Matching

/-- An escaped term between two percent signs matches the texts that contain the term. -/
theorem matches_containment_iff (g : Grammar) (h : g.escape ≠ '%') (term s : List Char) :
    Matches g.escape (containment g term) s ↔ term <:+: s := by
  rw [← likeHolds_iff_matches, likeHolds_containment_iff g h]

/-- So it does in capitals. -/
theorem Folding.matches_containment_iff {upper : Char → Char} {g : Grammar} (hfold : Folding upper g.escape)
    (h : g.escape ≠ '%') (term s : List Char) :
    Matches g.escape ((containment g term).map upper) (s.map upper) ↔ term.map upper <:+: s.map upper := by
  rw [hfold.containment_map, Sql.matches_containment_iff g h]

end Sql

open Sql

/-- Search terms are literal. The pattern of a term matches the texts that contain the term, and in capitals it matches
those that contain it in capitals, where no mark of a pattern is a capital of another character. It is what a search
compares each column with that can be searched, so the condition of a search is true of the rows that have the term in
one of these columns, up to case. -/
theorem Query.search_is_literal (g : Grammar) (hescape : g.escape ≠ '%') (term s : List Char) :
    let pattern := '%' :: g.escapeLike term ++ ['%']
    (Matches g.escape pattern s ↔ term <:+: s) ∧
      (∀ upper : Char → Char, Folding upper g.escape →
        (Matches g.escape (pattern.map upper) (s.map upper) ↔ term.map upper <:+: s.map upper)) ∧
      ∀ m : Model, m.searchable ≠ [] →
        let cond := Condition.any
          (m.searchable.map fun name => .like ⟨m.table, name⟩ (String.ofList pattern) g.escape false)
        Query.searchCondition m g (some (String.ofList term)) = [cond] ∧
          ∀ (E : Engine) (db : Database) (row : StoredRow), Folding E.upper g.escape →
            (cond.eval E db [(m.table, row)] = some true ↔
              ∃ name ∈ m.searchable, (row name).isSqlNull = false ∧
                term.map E.upper <:+: (E.text (row name)).map E.upper) := by
  intro pattern
  refine ⟨matches_containment_iff g hescape term s, fun upper hfold => hfold.matches_containment_iff hescape term s,
    fun m hsearchable => ?_⟩
  intro cond
  have hcondition : Query.searchCondition m g (some (String.ofList term)) = [cond] := by
    simp only [searchCondition, List.isEmpty_iff, hsearchable, if_false, String.toList_ofList]
    rfl
  refine ⟨hcondition, fun E db row hfold => ?_⟩
  have hsearch := @searchCondition_iff E db m g hescape hfold (some (String.ofList term)) row
  rw [hcondition, List.forall_mem_singleton] at hsearch
  rw [hsearch]
  simp [hsearchable, Engine.Contains]

/-- A book of some title. -/
def titled (title : String) : StoredRow := fun name =>
  if name = "title" then .string (some title) else .bigInt (some 7)

/-- The percent sign of a term is looked for as it stands, and its letters up to case: a title in small letters does not
match the pattern but is found, and one with another character in place of the sign is not. -/
theorem Query.percent_sign_is_found :
    let pattern := '%' :: ({} : Grammar).escapeLike "0% O".toList ++ ['%']
    ¬ Matches '\\' pattern "50% off".toList ∧
      Matches '\\' (pattern.map Char.toUpper) ("50% off".toList.map Char.toUpper) ∧
      ∃ cond, Query.searchCondition bookModel {} (some "0% O") = [cond] ∧
        cond.eval (.plain []) libraryDb [("book", titled "50% off")] = some true ∧
        ¬ cond.eval (.plain []) libraryDb [("book", titled "500 off")] = some true := by
  intro pattern
  obtain ⟨hmatches, hcapitals, hsearch⟩ :=
    Query.search_is_literal {} (by decide) "0% O".toList "50% off".toList
  obtain ⟨hcondition, hrows⟩ := hsearch bookModel (by decide)
  have hfound := hrows (.plain []) libraryDb (titled "50% off") Engine.folding_plain
  have hlost := hrows (.plain []) libraryDb (titled "500 off") Engine.folding_plain
  refine ⟨fun h => absurd (hmatches.mp h) (by decide), ?_, _, hcondition, hfound.mpr ?_, fun h => ?_⟩
  · exact (hcapitals Char.toUpper (@Engine.folding_plain [])).mpr (by decide)
  · exact ⟨"title", by decide, by decide, by decide⟩
  · obtain ⟨name, hname, -, hinfix⟩ := hlost.mp h
    have hsearchable : bookModel.searchable = ["title"] := by decide
    rw [hsearchable] at hname
    obtain rfl := List.mem_singleton.mp hname
    exact absurd hinfix (by decide)

end RestTables
