import Mathlib.Data.List.TakeWhile
import RestTables.Http.PathPattern

/-
Module: RestTables.Proofs.Http.PathPattern
Purpose: What patterns of paths fit. Text without braces is read as it stands and fits itself; a hole fits what has no
  slash, or all that is left; and there is one text for each hole. Text with braces is read as less than it is: where a
  pattern of such text and of one hole behind it fits a path that begins with the text, the hole reaches back over the
  slash in front of it.
Main exports: PathPattern.ofMarks_append, PathPattern.fit?_segment, PathPattern.fit?_last_segment_iff,
  PathPattern.length_of_fit?, PathPattern.isMoreExact_asymm, PathPattern.slash_mem_of_fit?
-/

namespace RestTables

/-- A piece is a hole. -/
def PathPiece.isHole : PathPiece → Bool
  | .char _ => false
  | _ => true

namespace PathPattern

variable {s path : List Char} {ps : PathPattern} {captures : Captures}

/-! ## Plain text -/

/-- Text that holds no brace. -/
def IsPlain (s : List Char) : Prop := ∀ c ∈ s, c ≠ '\x7b' ∧ c ≠ '\x7d'

instance (s : List Char) : Decidable (IsPlain s) := List.decidableBAll (fun c => c ≠ '\x7b' ∧ c ≠ '\x7d') s

/-- Text without braces is read as it stands. -/
theorem ofMarks_append (h : IsPlain s) (rest : List Char) :
    ofMarks none (marks (s ++ rest)) = s.map .char ++ ofMarks none (marks rest) := by
  induction s with
  | nil => rfl
  | cons c s ih =>
    obtain ⟨⟨hopening, hclosing⟩, hs⟩ := List.forall_mem_cons.mp h
    have hmarks : marks (c :: (s ++ rest)) = .plain c :: marks (s ++ rest) := by
      rw [marks.eq_def]
      split <;> simp_all
    rw [List.cons_append, hmarks, ofMarks, ih hs]
    rfl

/-- Text in front of the first hole stands at the beginning of a path. -/
theorem exists_of_fit?_chars_append (h : fit? (s.map .char ++ ps) path = some captures) :
    ∃ rest, path = s ++ rest ∧ fit? ps rest = some captures := by
  induction s generalizing path with
  | nil => exact ⟨path, rfl, h⟩
  | cons c s ih =>
    cases path with
    | nil => cases h
    | cons d path =>
      rw [List.map_cons, List.cons_append, fit?] at h
      split at h
      · next hcd =>
        obtain ⟨rest, rfl, hrest⟩ := ih h
        exact ⟨rest, by rw [hcd]; rfl, hrest⟩
      · cases h

/-- Text that stands in front of two patterns does not make one of them more exact. -/
theorem isMoreExact_chars_append (s : List Char) (ps qs : PathPattern) :
    isMoreExact (s.map .char ++ ps) (s.map .char ++ qs) = isMoreExact ps qs := by
  induction s with
  | nil => rfl
  | cons c s ih => simpa [isMoreExact] using ih

/-- Of two patterns one at most is more exact than the other. -/
theorem isMoreExact_asymm {p q : PathPattern} (h : p.isMoreExact q = true) : q.isMoreExact p = false := by
  -- A character against a hole, or against the end, decides; all in front of it is of one kind in both.
  induction p generalizing q with
  | nil => cases h
  | cons piece p ih =>
    cases q with
    | nil => rfl
    | cons piece' q =>
      cases piece with
      | char c =>
        cases piece' with
        | char d => exact ih h
        | segment | rest => rfl
      | segment | rest =>
        cases piece' with
        | char d => cases h
        | segment | rest => exact ih h

/-! ## Holes -/

/-- A hole stands for a part of a path that is followed by a slash or the end. -/
theorem fit?_segment {name : String} {part rest : List Char} (hne : part ≠ []) (hslash : '/' ∉ part)
    (hrest : ∀ c ∈ rest.head?, c = '/') :
    fit? (.segment name :: ps) (part ++ rest) = (fit? ps rest).map ((name, String.ofList part) :: ·) := by
  have hplain : ∀ c ∈ part, (c != '/') = true := by
    intro c hc
    rw [bne_iff_ne]
    rintro rfl
    exact hslash hc
  have hne : (part ++ rest).isEmpty = false := by
    simp [hne]
  have hstop : rest.takeWhile (· != '/') = [] ∧ rest.dropWhile (· != '/') = rest := by
    cases rest with
    | nil => exact ⟨rfl, rfl⟩
    | cons c rest =>
      obtain rfl := hrest c rfl
      exact ⟨rfl, rfl⟩
  rw [fit?, hne, if_neg Bool.false_ne_true, List.takeWhile_append_of_pos hplain, List.dropWhile_append_of_pos hplain,
    hstop.1, hstop.2, List.append_nil]

/-- A hole at the end stands for all that is left of a path, which is one part. -/
theorem fit?_last_segment_iff {name : String} :
    fit? [.segment name] path = some captures ↔
      path ≠ [] ∧ '/' ∉ path ∧ captures = [(name, String.ofList path)] := by
  have hself : path ≠ [] → '/' ∉ path → fit? [.segment name] path = some [(name, String.ofList path)] := by
    intro hne hslash
    have hpart : fit? [.segment name] (path ++ []) = _ := fit?_segment hne hslash (by simp)
    rwa [List.append_nil] at hpart
  constructor
  · intro h
    have hne : path ≠ [] := by
      rintro rfl
      cases h
    have hslash : '/' ∉ path := by
      intro hmem
      have hstop : path.dropWhile (· != '/') ≠ [] := by
        intro hnil
        have hall := List.dropWhile_eq_nil_iff.mp hnil '/' hmem
        exact absurd hall (by decide)
      rw [fit?, if_neg (by simpa using hne), fit?, if_neg (by simpa using hstop)] at h
      cases h
    exact ⟨hne, hslash, Option.some.inj (h.symm.trans (hself hne hslash))⟩
  · rintro ⟨hne, hslash, rfl⟩
    exact hself hne hslash

/-- A hole that is a whole pattern stands for the whole path. -/
theorem exists_of_fit?_hole {written : List Char} (h : fit? [hole written] path = some captures) :
    ∃ name, captures = [(name, String.ofList path)] := by
  unfold hole at h
  split at h
  · rw [fit?] at h
    split at h
    · cases h
    · exact ⟨_, (Option.some.inj h).symm⟩
  · exact ⟨_, (fit?_last_segment_iff.mp h).2.2⟩

/-- There is one text for each hole. -/
theorem length_of_fit? (h : fit? ps path = some captures) : captures.length = ps.countP PathPiece.isHole := by
  induction ps generalizing path captures with
  | nil =>
    rw [fit?, Option.ite_none_right_eq_some] at h
    rw [← Option.some.inj h.2]
    rfl
  | cons piece ps ih =>
    cases piece with
    | char c =>
      cases path with
      | nil => cases h
      | cons d path =>
        rw [fit?, Option.ite_none_right_eq_some] at h
        rw [List.countP_cons_of_neg Bool.false_ne_true]
        exact ih h.2
    | segment name | rest name =>
      rw [fit?, Option.ite_none_left_eq_some, Option.map_eq_some_iff] at h
      obtain ⟨-, others, hothers, rfl⟩ := h
      rw [List.length_cons, ih hothers, List.countP_cons_of_pos rfl]

theorem exists_eq_map_char (h : ps.countP PathPiece.isHole = 0) : ∃ s : List Char, ps = s.map .char := by
  induction ps with
  | nil => exact ⟨[], rfl⟩
  | cons piece ps ih =>
    rw [List.countP_eq_zero, List.forall_mem_cons] at h
    obtain ⟨hpiece, hps⟩ := h
    obtain ⟨s, rfl⟩ := ih (List.countP_eq_zero.mpr hps)
    cases piece with
    | char c => exact ⟨c :: s, rfl⟩
    | segment | rest => exact absurd rfl hpiece

/-! ## Text with braces -/

/-- A character that stands for itself. -/
def Mark.isPlain : Mark → Bool
  | .plain _ => true
  | _ => false

/-- Text with braces is read as less than it is. -/
theorem countP_marks (s : List Char) :
    (marks s).countP Mark.isPlain ≤ s.length ∧ ((marks s).countP Mark.isPlain = s.length → IsPlain s) := by
  fun_induction marks s with
  | case1 s ih | case2 s ih =>
    rw [List.countP_cons_of_pos rfl]
    simp only [List.length_cons]
    exact ⟨by omega, by omega⟩
  | case3 s _ ih | case4 s _ ih =>
    rw [List.countP_cons_of_neg (by decide)]
    simp only [List.length_cons]
    exact ⟨by omega, by omega⟩
  | case5 c s _ _ hopening hclosing ih =>
    rw [List.countP_cons_of_pos rfl]
    simp only [List.length_cons]
    refine ⟨by omega, fun heq => List.forall_mem_cons.mpr ⟨⟨hopening, hclosing⟩, ih.2 (by omega)⟩⟩
  | case6 => exact ⟨Nat.le_refl _, fun _ => nofun⟩

/-- A slash ends what belongs to a brace. -/
theorem marks_append_slash (s t : List Char) : marks (s ++ '/' :: t) = marks s ++ marks ('/' :: t) := by
  -- A pair of braces is not torn apart by the slash, as neither of them is one.
  have hhead : ∀ {brace : Char} {s : List Char}, brace ≠ '/' → (∀ rest, s = brace :: rest → False) →
      ∀ rest, s ++ '/' :: t = brace :: rest → False := by
    intro brace s hbrace hs rest heq
    cases s with
    | nil => exact hbrace (List.cons.inj heq).1.symm
    | cons c s => exact hs s (by rw [(List.cons.inj heq).1])
  fun_induction marks s with
  | case1 s ih | case2 s ih => exact congrArg (_ :: ·) ih
  | case3 s hs ih =>
    rw [List.cons_append, marks.eq_3 _ (hhead (by decide) hs), ih]
    rfl
  | case4 s hs ih =>
    rw [List.cons_append, marks.eq_4 _ (hhead (by decide) hs), ih]
    rfl
  | case5 c s _ _ hopening hclosing ih =>
    rw [List.cons_append, marks.eq_5 c _ (fun _ h _ => hopening h) (fun _ h _ => hclosing h) hopening hclosing, ih]
    rfl
  | case6 => rfl

@[simp] theorem isHole_hole (written : List Char) : (hole written).isHole = true := by
  unfold hole
  split <;> rfl

/-- What ends in a hole is a pattern that ends in a hole. Its characters are characters that stand for themselves. -/
theorem exists_ofMarks_eq (name : Option (List Char)) (ms : List Mark) :
    ∃ front written, ofMarks name (ms ++ marks "/\x7bresource\x7d".toList) = front ++ [hole written] ∧
      front.length ≤ ms.countP Mark.isPlain + front.countP PathPiece.isHole + 1 := by
  induction ms generalizing name with
  | nil =>
    cases name with
    | none => exact ⟨[.char '/'], "resource".toList, rfl, by decide⟩
    | some name => exact ⟨[], _, rfl, Nat.zero_le _⟩
  | cons mark ms ih =>
    -- a piece is made of a character outside of holes, and where a hole ends
    cases name with
    | none =>
      cases mark with
      | plain c =>
        obtain ⟨front, written, heq, hlength⟩ := ih none
        refine ⟨.char c :: front, written, congrArg (PathPiece.char c :: ·) heq, ?_⟩
        rw [List.countP_cons_of_pos rfl, List.countP_cons_of_neg Bool.false_ne_true, List.length_cons]
        omega
      | opening =>
        obtain ⟨front, written, heq, hlength⟩ := ih (some [])
        exact ⟨front, written, heq, by rwa [List.countP_cons_of_neg Bool.false_ne_true]⟩
      | closing =>
        obtain ⟨front, written, heq, hlength⟩ := ih none
        exact ⟨front, written, heq, by rwa [List.countP_cons_of_neg Bool.false_ne_true]⟩
    | some name =>
      cases mark with
      | plain c =>
        obtain ⟨front, written, heq, hlength⟩ := ih (some (c :: name))
        refine ⟨front, written, heq, ?_⟩
        rw [List.countP_cons_of_pos rfl]
        omega
      | opening =>
        obtain ⟨front, written, heq, hlength⟩ := ih (some ('\x7b' :: name))
        exact ⟨front, written, heq, by rwa [List.countP_cons_of_neg Bool.false_ne_true]⟩
      | closing =>
        obtain ⟨front, written, heq, hlength⟩ := ih none
        refine ⟨hole name.reverse :: front, written, congrArg (hole name.reverse :: ·) heq, ?_⟩
        rw [List.countP_cons_of_neg Bool.false_ne_true, List.countP_cons_of_pos (isHole_hole _), List.length_cons]
        omega

/-- Where text with braces and a hole behind it fit a path that begins with the text, and no other hole is in it, the
hole stands for more than the part behind the text. -/
theorem slash_mem_of_fit? {base rest : List Char} {name value : String} (hbase : ¬ IsPlain base)
    (h : fit? (ofMarks none (marks (base ++ "/\x7bresource\x7d".toList))) (base ++ '/' :: rest) =
      some [(name, value)]) :
    '/' ∈ value.toList := by
  obtain ⟨front, written, hpattern, hlength⟩ := exists_ofMarks_eq none (marks base)
  have hmarks : marks (base ++ "/\x7bresource\x7d".toList) = marks base ++ marks "/\x7bresource\x7d".toList :=
    marks_append_slash base _
  rw [hmarks, hpattern] at h
  have hcount := length_of_fit? h
  rw [List.countP_append, List.countP_cons_of_pos (isHole_hole written), List.countP_nil] at hcount
  have hfront : front.countP PathPiece.isHole = 0 := by
    simpa using hcount.symm
  obtain ⟨s, rfl⟩ := exists_eq_map_char hfront
  obtain ⟨part, hpath, hpart⟩ := exists_of_fit?_chars_append h
  obtain ⟨_, hcaptures⟩ := exists_of_fit?_hole hpart
  obtain rfl : value = String.ofList part := by
    simpa using congrArg (List.map Prod.snd) hcaptures
  -- what is read of the base is shorter than it, so the rest of the base is part of what the hole stands for
  have hplain := countP_marks base
  have hshort : s.length ≤ base.length := by
    have hne : (marks base).countP Mark.isPlain ≠ base.length := fun heq => hbase (hplain.2 heq)
    rw [List.length_map, hfront] at hlength
    omega
  have hdrop : part = base.drop s.length ++ '/' :: rest := by
    rw [← List.drop_append_of_le_length hshort, hpath, List.drop_left]
  rw [String.toList_ofList, hdrop]
  exact List.mem_append_right _ List.mem_cons_self

end PathPattern

end RestTables
