import Mathlib.Data.List.Basic
import RestTables.Proofs.Http.EntityTag
import RestTables.Query.Grammar

/-
Module: RestTables.Proofs.Text.Split
Purpose: What is written between separators is read back. A text is left as it is by trimming when neither end of it
  is blank, and a list of such texts without the separator in them is the list of its own items.
Main exports: Text.split_append_cons, Text.split_intercalate, Text.toList_join, Text.trim_eq_self_iff,
  Text.trim_intercalate, Grammar.IsItem, Grammar.items_intercalate
-/

namespace RestTables

namespace Text

/-! ## Separators -/

/-- The first separator ends the first piece. -/
theorem split_append_cons {c : Char} {s rest : List Char} (h : c ∉ s) :
    split [c] (s ++ c :: rest) = s :: split [c] rest := by
  have hfrom : splitFrom [c] 0 (s ++ c :: rest) = s :: splitFrom [c] 0 rest := by
    induction s with
    | nil => simp [splitFrom, List.isPrefixOf]
    | cons x s ih =>
      have hx : c ≠ x := fun heq => h (heq ▸ List.mem_cons_self)
      have hrest := ih fun hmem => h (List.mem_cons_of_mem _ hmem)
      simp [splitFrom, List.isPrefixOf, hx, hrest, pushHead]
  simpa [split] using hfrom

/-- Pieces without the separator are read back from the text with a separator between any two of them. -/
theorem split_intercalate {c : Char} {pieces : List (List Char)} (hne : pieces ≠ [])
    (h : ∀ p ∈ pieces, c ∉ p) : split [c] ([c].intercalate pieces) = pieces := by
  induction pieces with
  | nil => exact absurd rfl hne
  | cons p pieces ih =>
    obtain ⟨hp, hpieces⟩ := List.forall_mem_cons.mp h
    cases pieces with
    | nil => simpa [List.intercalate] using split_of_not_mem hp
    | cons q pieces =>
      rw [List.intercalate_cons_cons, List.append_assoc, List.singleton_append, split_append_cons hp,
        ih (by simp) hpieces]

theorem not_mem_intercalate {c d : Char} {pieces : List (List Char)} (hd : d ≠ c) (h : ∀ p ∈ pieces, d ∉ p) :
    d ∉ [c].intercalate pieces := by
  induction pieces with
  | nil => simp [List.intercalate]
  | cons p pieces ih =>
    obtain ⟨hp, hpieces⟩ := List.forall_mem_cons.mp h
    cases pieces with
    | nil => simpa [List.intercalate] using hp
    | cons q pieces => simp [List.intercalate_cons_cons, hp, hd, ih hpieces]

/-- A joined text has the separator between any two of its parts. -/
theorem toList_join (separator : String) (parts : List String) :
    (join separator parts).toList = separator.toList.intercalate (parts.map (·.toList)) := by
  induction parts with
  | nil => rfl
  | cons s parts ih =>
    cases parts with
    | nil => simp [join, List.intercalate]
    | cons t parts =>
      rw [join, String.toList_append, String.toList_append, ih]
      · simp [List.intercalate]
      · simp

/-! ## Blanks -/

theorem dropWhile_isBlank_eq_self_iff {s : List Char} :
    s.dropWhile isBlank = s ↔ ∀ c, s.head? = some c → isBlank c = false := by
  cases s with
  | nil => simp
  | cons c s =>
    cases hc : isBlank c with
    | false => simp [hc]
    | true =>
      have hlt : (s.dropWhile isBlank).length < (c :: s).length :=
        Nat.lt_succ_of_le (List.dropWhile_sublist _).length_le
      have hne : s.dropWhile isBlank ≠ c :: s := fun heq => by simp [heq] at hlt
      simp [hc, hne]

/-- Trimming leaves a text alone exactly when no blank stands at either end. -/
theorem trim_eq_self_iff {s : List Char} :
    trim s = s ↔ (∀ c, s.head? = some c → isBlank c = false) ∧ ∀ c, s.getLast? = some c → isBlank c = false := by
  have hend : ∀ t : List Char, trimEnd t = t ↔ ∀ c, t.getLast? = some c → isBlank c = false := by
    intro t
    have hrev : trimEnd t = t ↔ t.reverse.dropWhile isBlank = t.reverse := by
      rw [trimEnd, List.reverse_eq_iff]
    rw [hrev, dropWhile_isBlank_eq_self_iff, List.head?_reverse]
  constructor
  · intro h
    -- each of the two halves of trimming can only shorten
    have hstart : trimStart s = s := by
      apply (List.dropWhile_sublist _).eq_of_length_le
      have hle : (trim s).length ≤ (trimStart s).length := by
        simp only [trim, trimEnd, List.length_reverse]
        simpa using (List.dropWhile_sublist isBlank (l := (trimStart s).reverse)).length_le
      rwa [h] at hle
    refine ⟨dropWhile_isBlank_eq_self_iff.mp hstart, (hend s).mp ?_⟩
    rwa [trim, hstart] at h
  · rintro ⟨hhead, hlast⟩
    have hstart : trimStart s = s := dropWhile_isBlank_eq_self_iff.mpr hhead
    rw [trim, hstart, (hend s).mpr hlast]

/-- Whatever stands between two texts without blanks around them. -/
theorem trim_append_append {s t : List Char} (between : List Char) (hs : s ≠ []) (ht : t ≠ []) (htrimS : trim s = s)
    (htrimT : trim t = t) : trim (s ++ between ++ t) = s ++ between ++ t := by
  rw [trim_eq_self_iff] at htrimS htrimT ⊢
  refine ⟨fun c hc => htrimS.1 c ?_, fun c hc => htrimT.2 c ?_⟩
  · rwa [List.append_assoc, List.head?_append_of_ne_nil _ hs] at hc
  · rwa [List.getLast?_append_of_ne_nil _ ht] at hc

/-- Blanks around a text are taken away. -/
theorem trim_surrounded {before s after : List Char} (hbefore : ∀ c ∈ before, isBlank c = true)
    (hafter : ∀ c ∈ after, isBlank c = true) (hne : s ≠ []) (htrim : trim s = s) :
    trim (before ++ s ++ after) = s := by
  obtain ⟨hhead, hlast⟩ := trim_eq_self_iff.mp htrim
  have hstart : trimStart (before ++ s ++ after) = s ++ after := by
    rw [trimStart, List.append_assoc, List.dropWhile_append_of_pos hbefore, dropWhile_isBlank_eq_self_iff]
    rwa [List.head?_append_of_ne_nil _ hne]
  have hend : (s.reverse).dropWhile isBlank = s.reverse := by
    rwa [dropWhile_isBlank_eq_self_iff, List.head?_reverse]
  rw [trim, hstart, trimEnd, List.reverse_append, List.dropWhile_append_of_pos (by simpa using hafter), hend,
    List.reverse_reverse]

/-- A mark that is not blank can stand in front of a text. -/
theorem trim_cons {c : Char} {s : List Char} (hc : isBlank c = false) (hne : s ≠ []) (h : trim s = s) :
    trim (c :: s) = c :: s := by
  have hmark : trim [c] = [c] := trim_eq_self_iff.mpr ⟨by simp [hc], by simp [hc]⟩
  exact trim_append_append [] (List.cons_ne_nil c []) hne hmark h

/-- Pieces without blanks around them make such a text. -/
theorem trim_intercalate {c : Char} {pieces : List (List Char)} (h : ∀ p ∈ pieces, p ≠ [] ∧ trim p = p) :
    trim ([c].intercalate pieces) = [c].intercalate pieces := by
  induction pieces with
  | nil => rfl
  | cons p pieces ih =>
    obtain ⟨⟨hne, htrim⟩, hpieces⟩ := List.forall_mem_cons.mp h
    cases pieces with
    | nil => simpa [List.intercalate] using htrim
    | cons q pieces =>
      have hrest : [c].intercalate (q :: pieces) ≠ [] := by
        cases pieces with
        | nil => simpa [List.intercalate] using (hpieces q List.mem_cons_self).1
        | cons r pieces => simp [List.intercalate]
      rw [List.intercalate_cons_cons]
      exact trim_append_append [c] hne hrest htrim (ih hpieces)

end Text

/-! ## Items -/

namespace Grammar

open Text

/-- A text that a list can hold as one item: not empty, without blanks around it, and without a semicolon. -/
structure IsItem (s : List Char) : Prop where
  ne_nil : s ≠ []
  trim_eq : trim s = s
  not_mem : ';' ∉ s

/-- A mark can stand in front of an item. -/
theorem IsItem.cons {c : Char} {s : List Char} (h : IsItem s) (hblank : isBlank c = false) (hc : c ≠ ';') :
    IsItem (c :: s) where
  ne_nil := List.cons_ne_nil c s
  trim_eq := trim_cons hblank h.ne_nil h.trim_eq
  not_mem := by simp [h.not_mem, hc.symm]

/-- Items with semicolons between them are read back. -/
theorem items_intercalate {items : List (List Char)} (hne : items ≠ []) (h : ∀ s ∈ items, IsItem s) :
    ({} : Grammar).items ([';'].intercalate items) = items := by
  have hsplit : split [';'] ([';'].intercalate items) = items :=
    split_intercalate hne fun s hs => (h s hs).not_mem
  have htrim : items.map trim = items := by
    rw [List.map_congr_left (g := id) fun s hs => (h s hs).trim_eq, List.map_id]
  have hfilter : items.filter (!·.isEmpty) = items :=
    List.filter_eq_self.mpr fun s hs => by simp [(h s hs).ne_nil]
  have hsep : ({} : Grammar).separator.toList = [';'] := rfl
  rw [Grammar.items, hsep, hsplit, htrim, hfilter]

end Grammar

end RestTables
