import RestTables.Http.Link
import RestTables.Proofs.Number.Literal
import RestTables.Proofs.Text.Split
import RestTables.Query.Arguments

/-
Module: RestTables.Proofs.Query.Page
Purpose: Pages of a result. The pages from the first to the last hold every row once, and the arguments that ask for
  another page ask for the same rows in every other respect.
Main exports: Page.countOf, Page.status_of, Page.offset_of, Page.rowsOf_append, PageRequest.ofArguments_pageArguments,
  PageRequest.ofArguments_filter, Compiler.ofArguments_unpaged
-/

namespace RestTables

/-! ## Numbers -/

theorem trim_toString (n : Nat) : Text.trim (toString n).toList = (toString n).toList := by
  have hdigits : (toString n).toList = Nat.toDigits 10 n := Nat.toList_repr
  have hblank : ∀ c ∈ Nat.toDigits 10 n, Text.isBlank c = false := fun c hc =>
    Text.isBlank_of_isDigit (Number.isDigit_of_mem_toDigits hc)
  rw [hdigits, Text.trim_eq_self_iff]
  exact ⟨fun c hc => hblank c (List.mem_of_mem_head? hc), fun c hc => hblank c (List.mem_of_getLast? hc)⟩

theorem PageRequest.positive?_toString {n : Nat} (hpos : 0 < n) (h : n < twoTo 64) :
    positive? (toString n) = some n := by
  rw [positive?, trim_toString, Number.readNat?_toString h, Option.bind_some, if_neg (by omega)]

/-! ## Pages -/

namespace Page

/-- How many pages are visited: one for an empty result, or without a limit. -/
def countOf (limit : Option Nat) (total : Nat) : Nat :=
  match limit with
  | none => 1
  | some size => max 1 ((total + size - 1) / size)

/-- The rows of one page. -/
def rowsOf (limit : Option Nat) (rows : List α) (number : Nat) : List α :=
  match limit with
  | none => rows
  | some size => (rows.drop ((number - 1) * size)).take size

/-- The rows of a page and of all that follow. -/
def rowsFrom (limit : Option Nat) (rows : List α) (number : Nat) : List α :=
  rows.drop ((number - 1) * limit.getD 0)

section Position

variable {limit : Option Nat} {total number : Nat}

theorem countOf_pos (limit : Option Nat) (total : Nat) : 1 ≤ countOf limit total := by
  cases limit with
  | none => exact Nat.le_refl 1
  | some size => exact Nat.le_max_left ..

/-- The pages are counted alike, but for an empty result, of which no page is counted. -/
theorem max_count_of (hlimit : limit ≠ some 0) (total number : Nat) :
    max 1 (Page.of number limit total).count = countOf limit total := by
  cases limit with
  | none =>
    cases total with
    | zero => rfl
    | succ n => simp [Page.of, countOf]
  | some size =>
    have hsize : size ≠ 0 := fun h => hlimit (h ▸ rfl)
    simp [Page.of, countOf, hsize]

/-- Only pages that have room for rows are several. -/
theorem pos_of_one_lt_countOf {size : Nat} (h : 1 < countOf (some size) total) : 0 < size := by
  by_contra hzero
  have hzero : size = 0 := by omega
  subst hzero
  simp [countOf] at h

/-- A page has a row before it for every row on the pages before. -/
theorem lt_of_lt_countOf {size : Nat} (hnumber : 1 < number) (hlast : number ≤ countOf (some size) total) :
    (number - 1) * size < total := by
  have hcount : number ≤ (total + size - 1) / size := by
    simp only [countOf] at hlast
    omega
  have hsize : 0 < size := pos_of_one_lt_countOf (Nat.lt_of_lt_of_le hnumber hlast)
  have hmul : number * size ≤ total + size - 1 := (Nat.le_div_iff_mul_le hsize).mp hcount
  have hsplit : number * size = (number - 1) * size + size := by
    rw [← Nat.succ_mul]
    congr 1
    omega
  omega

theorem countOf_le (limit : Option Nat) (total : Nat) : countOf limit total ≤ max 1 total := by
  cases limit with
  | none => exact Nat.le_max_left ..
  | some size =>
    by_cases hone : 1 < countOf (some size) total
    · have hlt := lt_of_lt_countOf hone (Nat.le_refl _)
      have hsize : 0 < size := pos_of_one_lt_countOf hone
      have hle : countOf (some size) total - 1 ≤ (countOf (some size) total - 1) * size := Nat.le_mul_of_pos_right _ hsize
      omega
    · omega

/-- A page that is followed by another one is partial, and the last one is complete. -/
theorem status_of (hlimit : limit ≠ some 0) (hnumber : 1 ≤ number) (hlast : number ≤ countOf limit total) :
    (Page.of number limit total).status = if number < countOf limit total then .partly else .complete := by
  have hcount := max_count_of hlimit total number
  have hself : (Page.of number limit total).number = number := Nat.max_eq_left hnumber
  rw [status, hself, Nat.max_comm, hcount, if_neg (by omega)]
  congr 1
  rw [← hcount, eq_iff_iff]
  omega

theorem hasNext_of (hlimit : limit ≠ some 0) (hnumber : 1 ≤ number) :
    (Page.of number limit total).hasNext = decide (number < countOf limit total) := by
  have hcount := max_count_of hlimit total number
  have hself : (Page.of number limit total).number = number := Nat.max_eq_left hnumber
  rw [hasNext, hself, ← hcount, decide_eq_decide]
  omega

/-- Pages without rows are followed by none. -/
theorem limit_ne_of_hasNext (h : (Page.of number limit total).hasNext = true) : limit ≠ some 0 := by
  rintro rfl
  simp [hasNext, Page.of] at h

/-- The number of a page that follows another one fits 64 bits. -/
theorem succ_lt_of_lt_countOf (htotal : total < twoTo 63) (h : number < countOf limit total) :
    number + 1 < twoTo 64 := by
  have hcount := countOf_le limit total
  have hbound : twoTo 63 < twoTo 64 := by decide
  omega

/-- The rows before a page are counted exactly where there are fewer than 2^63 in all. -/
theorem offset_of (htotal : total < twoTo 63) (hnumber : 1 ≤ number) (hlast : number ≤ countOf limit total) :
    (Page.of number limit total).offset = (number - 1) * (Page.of number limit total).size := by
  have hself : (Page.of number limit total).number = number := Nat.max_eq_left hnumber
  have hbound : twoTo 63 ≤ countBound := by decide
  rw [offset, hself]
  apply Nat.min_eq_left
  -- on the first page the offset is zero, whatever the size; on a later one it is less than the number of rows
  by_cases hone : number = 1
  · subst hone
    simp
  · cases limit with
    | none => exact absurd hlast (by simp [countOf]; omega)
    | some size =>
      have hlt := lt_of_lt_countOf (show 1 < number by omega) hlast
      have hsize : (Page.of number (some size) total).size = size := rfl
      rw [hsize]
      omega

end Position

section Rows

variable {limit : Option Nat} {rows : List α} {number : Nat}

theorem rowsFrom_one (limit : Option Nat) (rows : List α) : rowsFrom limit rows 1 = rows := by
  simp [rowsFrom]

/-- The rows of a page come before those of the next one. -/
theorem rowsOf_append (hnumber : 1 ≤ number) (hnext : number < countOf limit rows.length) :
    rowsOf limit rows number ++ rowsFrom limit rows (number + 1) = rowsFrom limit rows number := by
  cases limit with
  | none => exact absurd hnext (by simp [countOf]; omega)
  | some size =>
    have hdrop : rowsFrom (some size) rows (number + 1) = (rows.drop ((number - 1) * size)).drop size := by
      have hsum : (number - 1) * size + size = number * size := by
        rw [← Nat.succ_mul]
        congr 1
        omega
      rw [rowsFrom, List.drop_drop, Option.getD_some, Nat.add_sub_cancel, hsum]
    rw [hdrop]
    exact List.take_append_drop size _

/-- The last page holds all the rows that are left. -/
theorem rowsOf_last (hlimit : limit ≠ some 0) : rowsOf limit rows (countOf limit rows.length) =
    rowsFrom limit rows (countOf limit rows.length) := by
  cases limit with
  | none => simp [rowsOf, rowsFrom]
  | some size =>
    have hsize : 0 < size := Nat.pos_of_ne_zero fun h => hlimit (h ▸ rfl)
    -- The pages are enough for all rows, so no row is left behind the last one.
    have hdiv : rows.length ≤ (rows.length + size - 1) / size * size := by
      have hlt := Nat.lt_mul_div_succ (rows.length + size - 1) hsize
      rw [Nat.mul_comm, Nat.succ_mul] at hlt
      omega
    have hle : rows.length ≤ countOf (some size) rows.length * size :=
      Nat.le_trans hdiv (Nat.mul_le_mul_right size (Nat.le_max_right ..))
    apply List.take_of_length_le
    have hsplit : countOf (some size) rows.length * size = (countOf (some size) rows.length - 1) * size + size := by
      rw [← Nat.succ_mul]
      congr 1
      have hpos := countOf_pos (some size) rows.length
      omega
    rw [List.length_drop]
    omega

end Rows

end Page

/-! ## Arguments -/

/-- Arguments of other names do not hide the first of a name. -/
theorem Arguments.first?_filter {p : String → Bool} {name : String} (hname : p name = true) (args : Arguments) :
    Arguments.first? (args.filter fun a => p a.1) name = args.first? name := by
  unfold Arguments.first?
  induction args with
  | nil => rfl
  | cons a args ih =>
    obtain ⟨key, value⟩ := a
    by_cases hkey : name = key
    · subst hkey
      simp [hname]
    · have hne : (name == key) = false := beq_eq_false_iff_ne.mpr hkey
      cases hp : p key with
      | true => simp only [List.filter_cons, hp, ↓reduceIte, List.lookup_cons, hne, ih]
      | false => simp only [List.filter_cons, hp, Bool.false_eq_true, ↓reduceIte, List.lookup_cons, hne, ih]

theorem Arguments.first?_filter_eq_none {p : String → Bool} {name : String} (hname : p name = false)
    (args : Arguments) : Arguments.first? (args.filter fun a => p a.1) name = none := by
  unfold Arguments.first?
  rw [List.lookup_eq_none_iff]
  intro a ha
  have hp : p a.1 = true := (List.mem_filter.mp ha).2
  rw [bne_iff_ne]
  rintro rfl
  rw [hname] at hp
  cases hp

/-- The arguments that say nothing of pages. -/
def Arguments.unpaged (args : Arguments) : Arguments :=
  args.filter fun a => !(({} : ArgumentNames).isPagination a.1)

/-- The names that say which page is meant, and the number after each. -/
def pageEntries (limit : Option Nat) (page : Nat) : Arguments :=
  (({} : ArgumentNames).page, toString page) ::
    (limit.map fun n => (({} : ArgumentNames).limit, toString n)).toList

theorem pageArguments_eq (args : Arguments) (limit : Option Nat) (page : Nat) :
    Link.pageArguments args {} limit page = args.unpaged ++ pageEntries limit page := by
  simp only [Link.pageArguments, Arguments.unpaged, pageEntries, List.append_assoc, List.singleton_append]

theorem unpaged_pageArguments (args : Arguments) (limit : Option Nat) (page : Nat) :
    Arguments.unpaged (Link.pageArguments args {} limit page) = args.unpaged := by
  have hentries : Arguments.unpaged (pageEntries limit page) = [] := by
    cases limit <;> rfl
  have hself : Arguments.unpaged args.unpaged = args.unpaged := by
    simp only [Arguments.unpaged, List.filter_filter, Bool.and_self]
  rw [pageArguments_eq, Arguments.unpaged, List.filter_append]
  exact (congrArg₂ (· ++ ·) hself hentries).trans (List.append_nil _)

/-- What stands behind the other arguments is found under the names of pages. -/
theorem first?_pageArguments {name : String} (hname : ({} : ArgumentNames).isPagination name = true) (args : Arguments)
    (limit : Option Nat) (page : Nat) :
    Arguments.first? (Link.pageArguments args {} limit page) name = (pageEntries limit page).first? name := by
  have hnone : List.lookup name args.unpaged = none :=
    Arguments.first?_filter_eq_none (p := fun k => !(({} : ArgumentNames).isPagination k)) (by rw [hname]; rfl) args
  rw [pageArguments_eq, Arguments.first?, List.lookup_append, hnone, Option.none_or, Arguments.first?]

namespace PageRequest

theorem clamp_clamp (requested max : Option Nat) : clamp (clamp requested max) max = clamp requested max := by
  cases requested <;> cases max <;> simp [clamp]

theorem positive?_lt {s : String} {n : Nat} (h : positive? s = some n) : n < twoTo 64 := by
  obtain ⟨k, hread, hk⟩ := Option.bind_eq_some_iff.mp h
  have hlt : k < twoTo 64 := by
    obtain ⟨j, -, hj⟩ := Option.bind_eq_some_iff.mp hread
    split at hj
    · cases hj
      assumption
    · cases hj
  split at hk
  · cases hk
  · cases hk
    exact hlt

/-- Pages are counted from one. -/
theorem one_le_page (names : ArgumentNames) (max : Option Nat) (args : Arguments) :
    1 ≤ (ofArguments names max args).page := by
  simp only [ofArguments]
  cases hpage : (args.first? names.page).bind positive? with
  | none => exact Nat.le_refl 1
  | some n =>
    obtain ⟨text, -, hread⟩ := Option.bind_eq_some_iff.mp hpage
    obtain ⟨k, -, hk⟩ := Option.bind_eq_some_iff.mp hread
    split at hk
    · cases hk
    · next hne =>
      cases hk
      exact Nat.pos_of_ne_zero hne

/-- Only the arguments that say which page is meant matter to that. -/
theorem ofArguments_filter (names : ArgumentNames) (max : Option Nat) (args : Arguments) :
    ofArguments names max (args.filter fun a => names.isPagination a.1) = ofArguments names max args := by
  have hnames : names.isPagination names.page = true ∧ names.isPagination names.limit = true := by
    simp [ArgumentNames.isPagination]
  have hpage := Arguments.first?_filter hnames.1 args
  have hlimit := Arguments.first?_filter hnames.2 args
  simp only [ofArguments, complaint, hpage, hlimit]

/-- A limit fits 64 bits when the largest one does. -/
theorem limit_lt {max : Option Nat} (hmax : ∀ n ∈ max, n < twoTo 64) {args : Arguments} {n : Nat}
    (h : (ofArguments {} max args).limit = some n) : n < twoTo 64 := by
  simp only [ofArguments] at h
  cases hrequested : (args.first? ({} : ArgumentNames).limit).bind positive? with
  | none =>
    rw [hrequested] at h
    cases max with
    | none => cases h
    | some m =>
      cases h
      exact hmax n rfl
  | some r =>
    rw [hrequested] at h
    obtain ⟨s, -, hr⟩ := Option.bind_eq_some_iff.mp hrequested
    have hlt := positive?_lt hr
    cases max with
    | none =>
      cases h
      exact hlt
    | some m =>
      cases h
      exact Nat.lt_of_le_of_lt (Nat.min_le_left ..) hlt

/-- The arguments for another page ask for that page, and for pages of the same size. -/
theorem ofArguments_pageArguments {max limit : Option Nat} (hclamp : clamp limit max = limit)
    (hlimit : ∀ n ∈ limit, 0 < n ∧ n < twoTo 64) {page : Nat} (hpage : 0 < page) (hfits : page < twoTo 64)
    (args : Arguments) : ofArguments {} max (Link.pageArguments args {} limit page) = ⟨page, limit, []⟩ := by
  -- The old arguments lose theirs, so the entries for the page and its size are found first.
  have hfirst : Arguments.first? (Link.pageArguments args {} limit page) ({} : ArgumentNames).page =
      some (toString page) := by
    rw [first?_pageArguments (by decide +kernel), Arguments.first?, pageEntries, List.lookup_cons_self]
  have hsecond : Arguments.first? (Link.pageArguments args {} limit page) ({} : ArgumentNames).limit =
      limit.map toString := by
    have hne : (({} : ArgumentNames).limit == ({} : ArgumentNames).page) = false := by decide +kernel
    rw [first?_pageArguments (by decide +kernel), Arguments.first?, pageEntries, List.lookup_cons, hne]
    cases limit with
    | none => rfl
    | some n => exact List.lookup_cons_self
  have hread : (limit.map toString).bind positive? = limit := by
    cases limit with
    | none => rfl
    | some n => rw [Option.map_some, Option.bind_some, positive?_toString (hlimit n rfl).1 (hlimit n rfl).2]
  have hpageOk : complaint (Link.pageArguments args {} limit page) ({} : ArgumentNames).page = [] := by
    rw [complaint, hfirst]
    simp only [positive?_toString hpage hfits, Option.isNone_some, Bool.false_eq_true, ↓reduceIte]
  have hlimitOk : complaint (Link.pageArguments args {} limit page) ({} : ArgumentNames).limit = [] := by
    rw [complaint, hsecond]
    cases limit with
    | none => rfl
    | some n =>
      simp only [Option.map_some, positive?_toString (hlimit n rfl).1 (hlimit n rfl).2, Option.isNone_some,
        Bool.false_eq_true, ↓reduceIte]
  rw [ofArguments, hpageOk, hlimitOk, hfirst, hsecond, hread, hclamp, Option.bind_some,
    positive?_toString hpage hfits]
  rfl

end PageRequest

/-! ## Queries -/

/-- The names that say which page is meant are no columns. -/
theorem isScalar_of_isPagination {key : String} (h : ({} : ArgumentNames).isPagination key = true) :
    ({} : ArgumentNames).isScalar key = true := by
  have hkey : key = ({} : ArgumentNames).page ∨ key = ({} : ArgumentNames).limit := by
    simpa [ArgumentNames.isPagination] using h
  rcases hkey with rfl | rfl <;> decide +kernel

/-- A query does not depend on the arguments that say which page is meant. -/
theorem Compiler.ofArguments_unpaged {c : Compiler} (hnames : c.names = {}) (args : Arguments) :
    c.ofArguments args.unpaged = c.ofArguments args := by
  -- A query is made of three readings of the arguments, none of which looks at those for pages.
  have hscalar : args.unpaged.filter (fun a => !c.names.isScalar a.1) = args.filter fun a => !c.names.isScalar a.1 := by
    rw [Arguments.unpaged, List.filter_filter]
    congr 1
    funext a
    rw [hnames, Bool.and_eq_left_iff_imp, Bool.not_eq_true', Bool.not_eq_true', ← Bool.not_eq_true,
      ← Bool.not_eq_true]
    exact mt isScalar_of_isPagination
  have hexpansion : c.expansion? args.unpaged = c.expansion? args := by
    rw [expansion?, expansion?, Arguments.unpaged, List.find?_filter]
    congr 2
    funext a
    rw [hnames, Bool.eq_iff_iff, decide_eq_true_iff, and_iff_right_iff_imp]
    intro h
    have hkey : a.1 = ({} : ArgumentNames).related ∨ a.1 = ({} : ArgumentNames).extended := by simpa using h
    rcases hkey with hkey | hkey <;> rw [hkey] <;> decide +kernel
  have hsearch : c.searchTerm? args.unpaged = c.searchTerm? args := by
    have hfirst : args.unpaged.first? ({} : ArgumentNames).search = args.first? ({} : ArgumentNames).search :=
      Arguments.first?_filter (p := fun k => !(({} : ArgumentNames).isPagination k)) (by decide +kernel) args
    rw [searchTerm?, searchTerm?, hnames, hfirst]
  simp only [ofArguments, hscalar, hexpansion, hsearch]

end RestTables
