import Mathlib.Data.List.Basic
import Mathlib.Data.Nat.Bitwise
import RestTables.Text.Affix
import RestTables.Text.Case
import RestTables.Text.Split

/-
Module: RestTables.Proofs.Text.Case
Purpose: Small letters and names. Texts that differ in the case of ASCII letters have one small form, a small form
  is its own small form, it has the marks of the text, and an underscore keeps the small forms of what stands around
  it apart.
Main exports: Text.lower_eq_of_sameFold, Text.IsSmall, Text.mem_lower_iff, Text.sameFold_lower_iff,
  Text.lower_append_underscore
-/

namespace RestTables.Text

/-! ## Capitals of ASCII -/

/-- The capitals of ASCII, by their number. -/
def capital (n : Fin 26) : Char := Char.ofNat (65 + n)

theorem exists_capital {c : Char} (h : lowerAscii c ≠ c) : ∃ n, capital n = c := by
  unfold lowerAscii at h
  split at h
  · next hrange =>
    have hlow : 65 ≤ c.toNat := hrange.1
    have hhigh : c.toNat ≤ 90 := hrange.2
    refine ⟨⟨c.toNat - 65, by omega⟩, ?_⟩
    rw [capital, Nat.add_sub_cancel' hlow, Char.ofNat_toNat]
  · exact absurd rfl h

/-- What is the same for a capital and its small letter does not depend on the case of ASCII letters. -/
theorem apply_lowerAscii {f : Char → β} (h : ∀ n, f (lowerAscii (capital n)) = f (capital n)) (c : Char) :
    f (lowerAscii c) = f c := by
  by_cases hc : lowerAscii c = c
  · rw [hc]
  · obtain ⟨n, rfl⟩ := exists_capital hc
    exact h n

theorem capital_spec (n : Fin 26) : (capital n).toNat = 65 + n ∧ (lowerAscii (capital n)).toNat = 97 + n ∧
    isCased (lowerAscii (capital n)) = isCased (capital n) ∧
      lowerChar (lowerAscii (capital n)) = lowerChar (capital n) := by
  revert n
  decide

theorem isCased_lowerAscii (c : Char) : isCased (lowerAscii c) = isCased c :=
  apply_lowerAscii (fun n => (capital_spec n).2.2.1) c

theorem lowerChar_lowerAscii (c : Char) : lowerChar (lowerAscii c) = lowerChar c :=
  apply_lowerAscii (fun n => (capital_spec n).2.2.2) c

/-- No range of ignorable characters holds a letter of ASCII. -/
theorem letters_not_ignorable : caseIgnorableRanges.all (fun range =>
    (Nat.blt range.2 65 || Nat.blt 90 range.1) && (Nat.blt range.2 97 || Nat.blt 122 range.1)) = true := by
  decide +kernel

theorem isCaseIgnorable_lowerAscii (c : Char) : isCaseIgnorable (lowerAscii c) = isCaseIgnorable c := by
  have hletter : ∀ d : Char, 65 ≤ d.toNat ∧ d.toNat ≤ 90 ∨ 97 ≤ d.toNat ∧ d.toNat ≤ 122 →
      isCaseIgnorable d = false := by
    intro d hd
    rw [isCaseIgnorable, inRanges, List.any_eq_false]
    intro range hrange
    have hapart := List.all_eq_true.mp letters_not_ignorable range hrange
    simp only [Bool.and_eq_true, Bool.or_eq_true, Nat.blt_eq] at hapart
    simp only [Bool.and_eq_true, decide_eq_true_eq]
    omega
  refine apply_lowerAscii (fun n => ?_) c
  obtain ⟨hcapital, hsmall, -, -⟩ := capital_spec n
  rw [hletter _ (by omega), hletter _ (by omega)]

/-- A mark that is no letter of ASCII stays one, and nothing else becomes one. -/
theorem beq_lowerAscii {mark : Char} (hcapital : ¬ (65 ≤ mark.toNat ∧ mark.toNat ≤ 90))
    (hsmall : ¬ (97 ≤ mark.toNat ∧ mark.toNat ≤ 122)) (c : Char) : (lowerAscii c == mark) = (c == mark) := by
  refine apply_lowerAscii (f := (· == mark)) (fun n => ?_) c
  obtain ⟨hfrom, hto, -, -⟩ := capital_spec n
  have hne : ∀ d : Char, d.toNat ≠ mark.toNat → (d == mark) = false := by
    intro d hd
    rw [beq_eq_false_iff_ne]
    rintro rfl
    exact hd rfl
  rw [hne _ (by omega), hne _ (by omega)]

theorem startsCased_map_lowerAscii (s : List Char) : startsCased (s.map lowerAscii) = startsCased s := by
  have hignorable : isCaseIgnorable ∘ lowerAscii = isCaseIgnorable := funext isCaseIgnorable_lowerAscii
  rw [startsCased, startsCased, List.dropWhile_map, hignorable]
  cases s.dropWhile isCaseIgnorable with
  | nil => rfl
  | cons c rest => exact isCased_lowerAscii c

theorem lowerFrom_map_lowerAscii (before s : List Char) :
    lowerFrom (before.map lowerAscii) (s.map lowerAscii) = lowerFrom before s := by
  induction s generalizing before with
  | nil => rfl
  | cons c s ih =>
    have hrest := ih (c :: before)
    rw [List.map_cons] at hrest
    rw [List.map_cons, lowerFrom, lowerFrom, hrest, beq_lowerAscii (by decide) (by decide), lowerChar_lowerAscii,
      startsCased_map_lowerAscii, startsCased_map_lowerAscii]

theorem sameFold_iff {a b : String} : sameFold a b = true ↔ a.toList.map lowerAscii = b.toList.map lowerAscii :=
  beq_iff_eq

/-- The case of ASCII letters does not matter for the small form. -/
theorem lower_eq_of_sameFold {a b : String} (h : sameFold a b = true) : lower a = lower b := by
  rw [lower, lower, ← lowerFrom_map_lowerAscii [] a.toList, sameFold_iff.mp h, lowerFrom_map_lowerAscii]

/-! ## Small letters -/

/-- A character is small when its small form is itself, wherever it stands. -/
def IsSmall (c : Char) : Prop := lowerChar c = [c] ∧ c ≠ '\u03A3'

instance (c : Char) : Decidable (IsSmall c) := inferInstanceAs (Decidable (_ ∧ _))

/-- The codes that a run of a table holds. -/
def CaseRun.codes : CaseRun → List Nat
  | (first, last, step, _) => (List.range ((last - first) / step + 1)).map fun k => first + k * step

/-- The codes that it leads to. -/
def CaseRun.images (run : CaseRun) : List Nat := run.codes.map fun n : Nat => ((n : Int) + run.2.2.2).toNat

theorem CaseRun.mem_codes {run : CaseRun} {n k : Nat} (h : run.image? n = some k) :
    n ∈ run.codes ∧ k = ((n : Int) + run.2.2.2).toNat := by
  obtain ⟨first, last, step, shift⟩ := run
  simp only [image?, Bool.and_eq_true, decide_eq_true_eq, beq_iff_eq, Option.ite_none_right_eq_some,
    Option.some.injEq] at h
  obtain ⟨⟨⟨hfirst, hlast⟩, hstep⟩, rfl⟩ := h
  refine ⟨List.mem_map.mpr ⟨(n - first) / step, List.mem_range.mpr ?_, ?_⟩, rfl⟩
  · exact Nat.lt_succ_of_le (Nat.div_le_div_right (by omega))
  · rw [Nat.div_mul_cancel (Nat.dvd_of_mod_eq_zero hstep), Nat.add_sub_cancel' hfirst]

theorem CaseRun.mem_images {run : CaseRun} {n k : Nat} (h : run.image? n = some k) : k ∈ run.images := by
  obtain ⟨hn, rfl⟩ := mem_codes h
  exact List.mem_map_of_mem hn

/-- A number with the bits that a list names. -/
def bits (codes : List Nat) : Nat := codes.foldr (fun n b => b ||| 1 <<< n) 0

theorem testBit_bits (codes : List Nat) (n : Nat) : (bits codes).testBit n = decide (n ∈ codes) := by
  induction codes with
  | nil => simp [bits]
  | cons k codes ih =>
    have hstep : bits (k :: codes) = bits codes ||| 1 <<< k := rfl
    rw [hstep, Nat.testBit_or, ih, Nat.one_shiftLeft, Nat.testBit_two_pow, ← Bool.decide_or]
    simp [or_comm, eq_comm]

/-- Lists whose numbers share no bit share no element. -/
theorem not_mem_of_bits {a b : List Nat} (h : bits a &&& bits b = 0) {n : Nat} (ha : n ∈ a) : n ∉ b := by
  have hbit : (bits a &&& bits b).testBit n = false := by rw [h, Nat.zero_testBit]
  rw [Nat.testBit_and, testBit_bits, testBit_bits, decide_eq_true ha, Bool.true_and] at hbit
  exact of_decide_eq_false hbit

/-- What the runs of small forms lead to is nothing that one of them holds. -/
theorem lowerRuns_apart :
    bits (lowerRuns.flatMap CaseRun.images) &&& bits (lowerRuns.flatMap CaseRun.codes) = 0 := by
  decide +kernel

/-- It is a character beyond ASCII, or a small k, and no letter with a rule of its own. -/
theorem images_lowerRuns : ∀ run ∈ lowerRuns, ∀ k ∈ run.images,
    k.isValidChar ∧ (k = 107 ∨ 128 ≤ k ∧ k ≠ 0x130 ∧ k ≠ 0x3A3) := by
  decide +kernel

/-- No run moves what a run of small forms leads to. -/
theorem findSome?_image_of_mem {run : CaseRun} {k : Nat} (hrun : run ∈ lowerRuns) (hk : k ∈ run.images) :
    lowerRuns.findSome? (CaseRun.image? k) = none := by
  refine List.findSome?_eq_none_iff.mpr fun run' hrun' => ?_
  cases himage : run'.image? k with
  | none => rfl
  | some j =>
    have hmoved := List.mem_flatMap.mpr ⟨run', hrun', (CaseRun.mem_codes himage).1⟩
    exact absurd hmoved (not_mem_of_bits lowerRuns_apart (List.mem_flatMap.mpr ⟨run, hrun, hk⟩))

/-- A mark is a character of ASCII that is no letter. -/
def IsMark (c : Char) : Prop :=
  c.toNat < 128 ∧ ¬ (65 ≤ c.toNat ∧ c.toNat ≤ 90) ∧ ¬ (97 ≤ c.toNat ∧ c.toNat ≤ 122)

instance (c : Char) : Decidable (IsMark c) := inferInstanceAs (Decidable (_ ∧ _))

/-- Small letters that the runs do not lead to, or that are of ASCII. -/
theorem small_letters :
    ['i', '\u0307', 'k', '\u03C2', '\u03C3'].all (fun c => IsSmall c ∧ ¬ IsMark c) = true := by
  decide

theorem isSmall_of_mem_small_letters {c : Char} (h : c ∈ ['i', '\u0307', 'k', '\u03C2', '\u03C3']) :
    IsSmall c ∧ ¬ IsMark c := of_decide_eq_true (List.all_eq_true.mp small_letters c h)

theorem toNat_ofNat_of_isValidChar {k : Nat} (h : k.isValidChar) : (Char.ofNat k).toNat = k := by
  rw [Char.ofNat, dif_pos h]
  rfl

theorem isSmall_of_mem_images {run : CaseRun} {k : Nat} (hrun : run ∈ lowerRuns) (h : k ∈ run.images) :
    IsSmall (Char.ofNat k) ∧ ¬ IsMark (Char.ofNat k) := by
  obtain ⟨hvalid, hk | ⟨hlarge, hdotted, hsigma⟩⟩ := images_lowerRuns run hrun k h
  · subst hk
    exact isSmall_of_mem_small_letters (by simp)
  · have hcode := toNat_ofNat_of_isValidChar hvalid
    have hne : ∀ c : Char, c.toNat ≠ k → Char.ofNat k ≠ c := by
      rintro c hc rfl
      exact hc hcode
    refine ⟨⟨?_, hne _ ?_⟩, ?_⟩
    · have hdots : ¬ (k == 0x130) = true := by simpa using hdotted
      rw [lowerChar, hcode, if_neg (by omega), if_neg hdots, findSome?_image_of_mem hrun h]
    · exact fun heq => hsigma heq.symm
    · rintro ⟨hascii, -⟩
      omega

/-- What is true of all characters of ASCII. -/
theorem forall_ascii {P : Char → Prop} (h : ∀ n : Fin 128, P (Char.ofNat n)) {c : Char} (hc : c.toNat < 128) : P c := by
  have hchar := h ⟨c.toNat, hc⟩
  rwa [Char.ofNat_toNat] at hchar

/-- The small form of a character is small; only a mark becomes one, namely itself. -/
theorem isSmall_of_mem_lowerChar {c d : Char} (hc : c ≠ '\u03A3') (h : d ∈ lowerChar c) :
    IsSmall d ∧ (IsMark d → c = d) := by
  by_cases hascii : c.toNat < 128
  · -- The claim is computed for the first 128 characters. Beyond them, small forms are in the tables, or the character
    -- is its own.
    have hall := forall_ascii (P := fun c => (lowerChar c).all fun d => IsSmall d ∧ (IsMark d → c = d))
      (by decide) hascii
    exact of_decide_eq_true (List.all_eq_true.mp hall d h)
  · unfold lowerChar at h
    rw [if_neg hascii] at h
    split at h
    · obtain ⟨hsmall, hmark⟩ := isSmall_of_mem_small_letters (List.mem_append_left ['k', '\u03C2', '\u03C3'] h)
      exact ⟨hsmall, fun hd => absurd hd hmark⟩
    · next hdotted =>
      split at h
      · next k hk =>
        obtain ⟨run, hrun, himage⟩ := List.exists_of_findSome?_eq_some hk
        obtain ⟨hsmall, hmark⟩ := isSmall_of_mem_images hrun (CaseRun.mem_images himage)
        rw [List.mem_singleton.mp h]
        exact ⟨hsmall, fun hd => absurd hd hmark⟩
      · next hnone =>
        obtain rfl := List.mem_singleton.mp h
        refine ⟨⟨?_, hc⟩, fun _ => rfl⟩
        rw [lowerChar, if_neg hascii, if_neg hdotted, hnone]

/-- The characters of a small form are small. -/
theorem isSmall_of_mem_lowerFrom {before s : List Char} {c : Char} (h : c ∈ lowerFrom before s) : IsSmall c := by
  induction s generalizing before with
  | nil => cases h
  | cons d s ih =>
    rw [lowerFrom, List.mem_append] at h
    rcases h with h | h
    · split at h
      · split at h <;> rw [List.mem_singleton.mp h]
        · exact (isSmall_of_mem_small_letters (by simp)).1
        · exact (isSmall_of_mem_small_letters (by simp)).1
      · next hd => exact (isSmall_of_mem_lowerChar (by simpa using hd) h).1
    · exact ih h

/-- A text of small characters is its small form. -/
theorem lowerFrom_of_isSmall {s : List Char} (h : ∀ c ∈ s, IsSmall c) (before : List Char) :
    lowerFrom before s = s := by
  induction s generalizing before with
  | nil => rfl
  | cons c s ih =>
    obtain ⟨⟨hlower, hsigma⟩, hrest⟩ := List.forall_mem_cons.mp h
    have hnot : (c == '\u03A3') = false := beq_eq_false_iff_ne.mpr hsigma
    rw [lowerFrom, hnot, if_neg Bool.false_ne_true, hlower, ih hrest]
    rfl

theorem isSmall_of_mem_lower {s : String} {c : Char} (h : c ∈ (lower s).toList) : IsSmall c := by
  rw [lower, String.toList_ofList] at h
  exact isSmall_of_mem_lowerFrom h

theorem lower_of_isSmall {s : String} (h : ∀ c ∈ s.toList, IsSmall c) : lower s = s := by
  rw [lower, lowerFrom_of_isSmall h, String.ofList_toList]

/-- A small character is no capital of ASCII. -/
theorem IsSmall.lowerAscii_eq {c : Char} (h : IsSmall c) : lowerAscii c = c := by
  by_contra hne
  obtain ⟨n, rfl⟩ := exists_capital hne
  have hascii : (capital n).toNat < 128 := by
    rw [(capital_spec n).1]
    omega
  have hlower := h.1
  rw [lowerChar, if_pos hascii] at hlower
  exact hne (List.singleton_inj.mp hlower)

theorem map_lowerAscii_of_isSmall {s : List Char} (h : ∀ c ∈ s, IsSmall c) : s.map lowerAscii = s := by
  induction s with
  | nil => rfl
  | cons c s ih =>
    obtain ⟨hc, hs⟩ := List.forall_mem_cons.mp h
    rw [List.map_cons, hc.lowerAscii_eq, ih hs]

/-- Small texts that are the same ignoring case are the same. -/
theorem eq_of_sameFold_of_isSmall {a b : String} (ha : ∀ c ∈ a.toList, IsSmall c) (hb : ∀ c ∈ b.toList, IsSmall c)
    (h : sameFold a b = true) : a = b := by
  rw [sameFold_iff, map_lowerAscii_of_isSmall ha, map_lowerAscii_of_isSmall hb] at h
  exact String.toList_inj.mp h

theorem sameFold_lower_iff {a b : String} : sameFold (lower a) (lower b) = true ↔ lower a = lower b := by
  constructor
  · exact eq_of_sameFold_of_isSmall (fun _ => isSmall_of_mem_lower) (fun _ => isSmall_of_mem_lower)
  · intro heq
    rw [heq]
    exact equalFold_refl _

/-! ## Marks -/

section Marks

variable {mark : Char} (hmark : IsMark mark)

include hmark

theorem mem_lowerChar_iff {c : Char} (hc : c ≠ '\u03A3') : mark ∈ lowerChar c ↔ mark = c := by
  constructor
  · exact fun h => ((isSmall_of_mem_lowerChar hc h).2 hmark).symm
  · rintro rfl
    have hcapital : ¬ ('A' ≤ mark ∧ mark ≤ 'Z') := hmark.2.1
    rw [lowerChar, if_pos hmark.1, lowerAscii, if_neg hcapital]
    exact List.mem_singleton_self mark

/-- The marks of a small form are those of the text. -/
theorem mem_lowerFrom_iff (before s : List Char) : mark ∈ lowerFrom before s ↔ mark ∈ s := by
  have hsigma : mark ≠ '\u03A3' ∧ mark ≠ '\u03C2' ∧ mark ≠ '\u03C3' := by
    obtain ⟨hcapital, hlast, hsmall⟩ : ¬ IsMark '\u03A3' ∧ ¬ IsMark '\u03C2' ∧ ¬ IsMark '\u03C3' := by decide
    exact ⟨fun h => hcapital (h ▸ hmark), fun h => hlast (h ▸ hmark), fun h => hsmall (h ▸ hmark)⟩
  induction s generalizing before with
  | nil => exact Iff.rfl
  | cons c s ih =>
    rw [lowerFrom, List.mem_append, List.mem_cons]
    refine or_congr ?_ (ih (c :: before))
    by_cases hc : c = '\u03A3'
    · subst hc
      rw [if_pos (beq_self_eq_true _)]
      split <;> simp [hsigma]
    · rw [if_neg (by simpa using hc), mem_lowerChar_iff hmark hc]

theorem mem_lower_iff {s : String} : mark ∈ (lower s).toList ↔ mark ∈ s.toList := by
  rw [lower, String.toList_ofList]
  exact mem_lowerFrom_iff hmark [] s.toList

end Marks

/-! ## Underscores -/

/-- An underscore ends a word: what follows it does not matter to what comes before. -/
theorem startsCased_append_underscore (s t : List Char) : startsCased (s ++ '_' :: t) = startsCased s := by
  have hunder : startsCased ('_' :: t) = false := by
    obtain ⟨hstop, hcased⟩ : isCaseIgnorable '_' = false ∧ isCased '_' = false := by decide +kernel
    rw [startsCased, List.dropWhile_cons, hstop]
    exact hcased
  induction s with
  | nil => exact hunder
  | cons c s ih =>
    rw [startsCased, startsCased, List.cons_append, List.dropWhile_cons, List.dropWhile_cons]
    cases isCaseIgnorable c with
    | true => exact ih
    | false => rfl

/-- What stands before an underscore does not matter to what follows it. -/
theorem lowerFrom_after_underscore (near far s : List Char) :
    lowerFrom (near ++ '_' :: far) s = lowerFrom near s := by
  induction s generalizing near with
  | nil => rfl
  | cons c s ih => rw [lowerFrom, lowerFrom, startsCased_append_underscore, ← List.cons_append, ih]

theorem lowerFrom_append_underscore (before s t : List Char) :
    lowerFrom before (s ++ '_' :: t) = lowerFrom before s ++ '_' :: lowerFrom [] t := by
  induction s generalizing before with
  | nil =>
    have hrest : lowerFrom ('_' :: before) t = lowerFrom [] t := lowerFrom_after_underscore [] before t
    exact congrArg ('_' :: ·) hrest
  | cons c s ih =>
    rw [List.cons_append, lowerFrom, lowerFrom, startsCased_append_underscore, ih, List.append_assoc]

theorem toList_append_underscore (a b : String) : (a ++ "_" ++ b).toList = a.toList ++ '_' :: b.toList := by
  rw [String.toList_append, String.toList_append, List.append_assoc]
  rfl

theorem lower_append_underscore (a b : String) : lower (a ++ "_" ++ b) = lower a ++ "_" ++ lower b := by
  apply String.toList_inj.mp
  rw [toList_append_underscore, lower, toList_append_underscore, lowerFrom_append_underscore, String.toList_ofList,
    lower, lower, String.toList_ofList, String.toList_ofList]

/-- A mark that stands nowhere before tells two parts of a text. -/
theorem append_mark_inj {mark : Char} {a b c d : List Char} (ha : mark ∉ a) (hb : mark ∉ b) :
    a ++ mark :: c = b ++ mark :: d ↔ a = b ∧ c = d := by
  constructor
  · intro heq
    have hleft : cut? mark (a ++ mark :: c) = some (a, c) := cut?_eq_some_iff.mpr ⟨rfl, ha⟩
    have hright : cut? mark (a ++ mark :: c) = some (b, d) := cut?_eq_some_iff.mpr ⟨heq, hb⟩
    simpa using hleft.symm.trans hright
  · rintro ⟨rfl, rfl⟩
    rfl

section Apart

variable {a b c d : String}

theorem underscore_mem_map_lowerAscii {s : List Char} : '_' ∈ s.map lowerAscii ↔ '_' ∈ s := by
  have hiff : ∀ c, lowerAscii c = '_' ↔ c = '_' := fun c => by
    rw [← beq_iff_eq, beq_lowerAscii (by decide) (by decide), beq_iff_eq]
  simp [hiff]

/-- A text without an underscore is no text with one. -/
theorem sameFold_underscore (ha : '_' ∉ a.toList) : sameFold a (b ++ "_" ++ c) = false := by
  rw [← Bool.not_eq_true, sameFold_iff]
  intro heq
  have hmem : '_' ∈ a.toList.map lowerAscii := by
    rw [heq, underscore_mem_map_lowerAscii, toList_append_underscore]
    simp
  exact ha (underscore_mem_map_lowerAscii.mp hmem)

variable (ha : '_' ∉ a.toList) (hb : '_' ∉ b.toList)

include ha hb

/-- Texts are told apart by what stands before their first underscore, and by what stands behind it. -/
theorem sameFold_append_underscore_iff :
    sameFold (a ++ "_" ++ c) (b ++ "_" ++ d) = true ↔ sameFold a b = true ∧ sameFold c d = true := by
  have ha' : '_' ∉ a.toList.map lowerAscii := underscore_mem_map_lowerAscii.not.mpr ha
  have hb' : '_' ∉ b.toList.map lowerAscii := underscore_mem_map_lowerAscii.not.mpr hb
  have hunder : lowerAscii '_' = '_' := by decide
  rw [sameFold_iff, sameFold_iff, sameFold_iff, toList_append_underscore, toList_append_underscore, List.map_append,
    List.map_append, List.map_cons, List.map_cons, hunder, append_mark_inj ha' hb']

theorem lower_append_underscore_inj :
    lower (a ++ "_" ++ c) = lower (b ++ "_" ++ d) ↔ lower a = lower b ∧ lower c = lower d := by
  have ha' : '_' ∉ (lower a).toList := (mem_lower_iff (by decide)).not.mpr ha
  have hb' : '_' ∉ (lower b).toList := (mem_lower_iff (by decide)).not.mpr hb
  rw [lower_append_underscore, lower_append_underscore, ← String.toList_inj, toList_append_underscore,
    toList_append_underscore, append_mark_inj ha' hb', String.toList_inj, String.toList_inj]

end Apart

/-! ## Capital letters -/

/-- The runs of capital forms lead neither to an underscore nor to a small s. -/
theorem upperRuns_apart : bits (upperRuns.flatMap CaseRun.images) &&& bits ['_'.toNat, 's'.toNat] = 0 := by
  decide +kernel

/-- Nor do the capital forms of several characters hold one. -/
theorem upperSpecial_spec :
    ∀ entry ∈ upperSpecial, entry.2 ≠ [] ∧ ∀ k ∈ entry.2, k ∉ ['_'.toNat, 's'.toNat] := by
  decide

theorem eq_toNat_of_ofNat_eq {k : Nat} {c : Char} (hc : c.toNat ≠ 0) (h : Char.ofNat k = c) : k = c.toNat := by
  subst h
  by_cases hvalid : k.isValidChar
  · exact (toNat_ofNat_of_isValidChar hvalid).symm
  · rw [Char.ofNat, dif_neg hvalid] at hc
    exact absurd rfl hc

theorem mem_of_lookup {table : List (Nat × β)} {n : Nat} {b : β} (h : table.lookup n = some b) : (n, b) ∈ table := by
  obtain ⟨before, after, rfl, -⟩ := List.lookup_eq_some_iff.mp h
  simp

theorem ofNat_ne_of_not_mem {k : Nat} (h : k ∉ ['_'.toNat, 's'.toNat]) : Char.ofNat k ≠ '_' ∧ Char.ofNat k ≠ 's' := by
  constructor
  · exact fun heq => h (by simp [eq_toNat_of_ofNat_eq (by decide) heq])
  · exact fun heq => h (by simp [eq_toNat_of_ofNat_eq (by decide) heq])

/-- A capital form has an underscore or a small s only where the character has no capital form. -/
theorem upperChar_spec (c : Char) : upperChar c ≠ [] ∧ 's' ∉ upperChar c ∧ ('_' ∈ upperChar c → c = '_') := by
  -- The first 128 characters are gone through one by one. The capitals of all others stand in two tables.
  by_cases hascii : c.toNat < 128
  · exact forall_ascii (P := fun c => upperChar c ≠ [] ∧ 's' ∉ upperChar c ∧ ('_' ∈ upperChar c → c = '_'))
      (by decide) hascii
  · unfold upperChar
    rw [if_neg hascii]
    split
    · next ks hks =>
      obtain ⟨hne, hnot⟩ := upperSpecial_spec _ (mem_of_lookup hks)
      refine ⟨by simpa using hne, ?_, ?_⟩
      · intro h
        obtain ⟨k, hk, heq⟩ := List.mem_map.mp h
        exact (ofNat_ne_of_not_mem (hnot k hk)).2 heq
      · intro h
        obtain ⟨k, hk, heq⟩ := List.mem_map.mp h
        exact absurd heq (ofNat_ne_of_not_mem (hnot k hk)).1
    · split
      · next k hk =>
        obtain ⟨run, hrun, himage⟩ := List.exists_of_findSome?_eq_some hk
        obtain ⟨hunder, hs⟩ := ofNat_ne_of_not_mem
          (not_mem_of_bits upperRuns_apart (List.mem_flatMap.mpr ⟨run, hrun, CaseRun.mem_images himage⟩))
        refine ⟨List.cons_ne_nil _ _, ?_, ?_⟩
        · exact fun h => hs (List.mem_singleton.mp h).symm
        · exact fun h => absurd (List.mem_singleton.mp h).symm hunder
      · refine ⟨List.cons_ne_nil _ _, ?_, fun h => (List.mem_singleton.mp h).symm⟩
        intro h
        rw [← List.mem_singleton.mp h] at hascii
        exact hascii (by decide)

end RestTables.Text
