import Mathlib.Data.List.TakeWhile
import RestTables.Proofs.Registry.Origin
import RestTables.Proofs.Text.Case

/-
Module: RestTables.Proofs.Registry.Names
Purpose: The names of models that tables make. No underscore and no small s in front is in them, their paths end in
  small letters, and no two of a registry have one name or one end.
Main exports: Registry.IsTabular, Registry.isTabular_of_addTables, Registry.HaveApartNames
-/

namespace RestTables.Registry

/-! ## Words -/

theorem pushHead_spec {p : Char → Bool} {c : Char} {pieces : List (List Char)} (hc : p c = false)
    (h : ∀ piece ∈ pieces, ∀ d ∈ piece, p d = false) : ∀ piece ∈ Text.pushHead c pieces, ∀ d ∈ piece, p d = false := by
  cases pieces with
  | nil => simpa [Text.pushHead] using hc
  | cons piece pieces =>
    obtain ⟨hfirst, hrest⟩ := List.forall_mem_cons.mp h
    exact List.forall_mem_cons.mpr ⟨List.forall_mem_cons.mpr ⟨hc, hfirst⟩, hrest⟩

/-- No piece holds a separator. -/
theorem not_of_mem_splitAny {p : Char → Bool} (s : List Char) :
    ∀ piece ∈ Text.splitAny p s, ∀ d ∈ piece, p d = false := by
  induction s with
  | nil => simp [Text.splitAny]
  | cons c s ih =>
    unfold Text.splitAny
    split
    · exact List.forall_mem_cons.mpr ⟨by simp, ih⟩
    · next hc => exact pushHead_spec (by simpa using hc) ih

theorem underscore_not_mem_modelName (table : String) : '_' ∉ (modelName table).toList := by
  rw [modelName, String.toList_ofList, List.mem_flatMap]
  rintro ⟨word, hword, hmem⟩
  have hplain := not_of_mem_splitAny _ word hword
  cases word with
  | nil => cases hmem
  | cons c rest =>
    obtain ⟨hc, hrest⟩ := List.forall_mem_cons.mp hplain
    rcases List.mem_append.mp hmem with hfirst | hlater
    · rw [(Text.upperChar_spec c).2.2 hfirst] at hc
      exact absurd hc (by decide)
    · exact absurd (hrest '_' hlater) (by decide)

/-- A name begins with a capital or with a character that has none. -/
theorem head?_modelName_ne (table : String) : (modelName table).toList.head? ≠ some 's' := by
  rw [modelName, String.toList_ofList]
  -- Empty words are left out, so the name begins with the capital of the first letter of the first other word.
  induction Text.splitAny _ table.toList with
  | nil => exact nofun
  | cons word words ih =>
    cases word with
    | nil => exact ih
    | cons c rest =>
      obtain ⟨hne, hsmall, -⟩ := Text.upperChar_spec c
      rw [List.flatMap_cons, capitalized, List.append_assoc]
      cases hupper : Text.upperChar c with
      | nil => exact absurd hupper hne
      | cons d ds =>
        rw [hupper] at hsmall
        rintro h
        cases h
        exact hsmall List.mem_cons_self

/-! ## Paths -/

theorem mem_of_mem_lastSegment {url : String} {c : Char} (h : c ∈ (Model.lastSegment url).toList) :
    c ∈ url.toList ∧ c ≠ '/' := by
  rw [Model.lastSegment, String.toList_ofList, List.mem_reverse] at h
  have hstops := List.mem_takeWhile_imp h
  exact ⟨List.mem_reverse.mp ((List.takeWhile_prefix _).subset h), by simpa using hstops⟩

/-- What stands in front of a slash does not matter to the last part of a path. -/
theorem lastSegment_append {url : String} (h : '/' ∈ url.toList) (base : String) :
    Model.lastSegment (base ++ url) = Model.lastSegment url := by
  rw [Model.lastSegment, Model.lastSegment, String.toList_append, List.reverse_append, List.takeWhile_append]
  split
  · next hall =>
    have hself := (List.takeWhile_prefix (· != '/')).eq_of_length hall
    have hnot := List.takeWhile_eq_self_iff.mp hself '/' (List.mem_reverse.mpr h)
    exact absurd hnot (by decide)
  · rfl

theorem segment_mount {m : Model} (h : '/' ∈ m.url.toList) (base : String) : (m.mount base).segment = m.segment :=
  lastSegment_append h _

/-! ## Models of tables -/

/-- A model as its table makes it. -/
structure IsTabular (m : Model) : Prop where
  underscore_not_mem : '_' ∉ m.name.toList
  head?_ne : m.name.toList.head? ≠ some 's'
  url_eq : m.url = "/" ++ Text.lower m.name
  relations_eq : m.relations = []

variable {m : Model}

theorem name_and_url_of_build {d : Model.Declaration} (h : d.build = .ok m) : m.name = d.name ∧ m.url = d.path := by
  obtain ⟨-, _, -, rfl⟩ := Model.exists_of_build h
  exact ⟨rfl, rfl⟩

theorem path_declaration (t : Table) : (declaration t).path = "/" ++ Text.lower (modelName t.name) := by
  have hslash : ("/" ++ Text.lower (modelName t.name)).toList.head? = some '/' := by
    rw [String.toList_append]
    rfl
  simp only [Model.Declaration.path, declaration, Option.getD_none, hslash, if_true]

theorem isTabular_of_build {t : Table} (h : (declaration t).build = .ok m) : IsTabular m := by
  obtain ⟨hname, hurl⟩ := name_and_url_of_build h
  obtain ⟨-, -, hrelations, -, -⟩ := Model.eq_of_build h
  have hmodel : m.name = modelName t.name := hname
  constructor
  · rw [hmodel]
    exact underscore_not_mem_modelName _
  · rw [hmodel]
    exact head?_modelName_ne _
  · rw [hurl, hmodel, path_declaration]
  · exact hrelations

theorem isTabular_of_addTables {models : List Model} {tables : List Table} (h : addTables [] tables = .ok models)
    (hm : m ∈ models) : IsTabular m := by
  rcases mem_of_addTables h hm with hdeclared | ⟨t, -, hbuild⟩
  · cases hdeclared
  · exact isTabular_of_build hbuild

namespace IsTabular

variable (h : IsTabular m)

include h

theorem slash_mem_url : '/' ∈ m.url.toList := by
  rw [h.url_eq, String.toList_append]
  exact List.mem_append_left _ (List.mem_singleton_self _)

theorem mem_lower_of_mem_segment {c : Char} (hc : c ∈ m.segment.toList) : c ∈ (Text.lower m.name).toList := by
  obtain ⟨hmem, hslash⟩ := mem_of_mem_lastSegment hc
  rw [h.url_eq, String.toList_append] at hmem
  rcases List.mem_append.mp hmem with hfirst | hrest
  · exact absurd (List.mem_singleton.mp hfirst) hslash
  · exact hrest

theorem isSmall_of_mem_segment : ∀ c ∈ m.segment.toList, Text.IsSmall c :=
  fun _ hc => Text.isSmall_of_mem_lower (h.mem_lower_of_mem_segment hc)

theorem underscore_not_mem_segment : '_' ∉ m.segment.toList := fun hmem =>
  h.underscore_not_mem ((Text.mem_lower_iff (by decide)).mp (h.mem_lower_of_mem_segment hmem))

theorem lower_segment : Text.lower m.segment = m.segment := Text.lower_of_isSmall h.isSmall_of_mem_segment

end IsTabular

/-! ## Different names -/

theorem clash?_eq_none_iff {key : Model → String} {seen models : List Model} :
    clash? key seen models = none ↔
      (∀ s ∈ seen, ∀ m ∈ models, key s ≠ key m) ∧ models.Pairwise fun a b => key a ≠ key b := by
  induction models generalizing seen with
  | nil => simp [clash?]
  | cons m models ih =>
    unfold clash?
    -- A model is compared with all that came before it, and then it is one of these.
    cases hfind : seen.find? fun s => key s == key m with
    | some s =>
      have hsame : key s = key m := by simpa using List.find?_some hfind
      simp only [reduceCtorEq, false_iff]
      intro hapart
      exact hapart.1 s (List.mem_of_find?_eq_some hfind) m List.mem_cons_self hsame
    | none =>
      have hnew : ∀ s ∈ seen, key s ≠ key m := by simpa using hfind
      simp only [ih, List.forall_mem_append, List.forall_mem_singleton, List.forall_mem_cons, List.pairwise_cons]
      constructor
      · rintro ⟨⟨hseen, hfirst⟩, hrest⟩
        exact ⟨fun s hs => ⟨hnew s hs, hseen s hs⟩, hfirst, hrest⟩
      · rintro ⟨hseen, hfirst, hrest⟩
        exact ⟨⟨fun s hs => (hseen s hs).2, hfirst⟩, hrest⟩

/-- The names of models differ in more than their case, and so do the ends of their paths. -/
structure HaveApartNames (models : List Model) : Prop where
  names : models.Pairwise fun a b => nameKey a ≠ nameKey b
  segments : models.Pairwise fun a b => segmentKey a ≠ segmentKey b

theorem haveApartNames_of_ofModels {models : List Model} {g : Registry} (h : ofModels models = .ok g) :
    HaveApartNames models := by
  unfold ofModels at h
  split at h
  · cases h
  · cases h
  · next hname hsegment =>
    exact ⟨(clash?_eq_none_iff.mp hname).2, (clash?_eq_none_iff.mp hsegment).2⟩

end RestTables.Registry
