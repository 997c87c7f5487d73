import RestTables.Proofs.Http.EntityTag
import RestTables.Proofs.Text.Split

/-
Module: RestTables.Proofs.Http.TagList
Purpose: Lists of entity tags as they are written. An entry may be weak, its tag may stand between quotes or not, and
  blanks may stand around it; it is read as what was written, so that a list matches a tag exactly when one of its
  entries does.
Main exports: EntityTag.Held, EntityTag.Form, EntityTag.Spaced, EntityTag.listText, EntityTag.entries_listText,
  EntityTag.lists_are_read_as_written
-/

namespace RestTables

namespace Text

/-- A text without the character is left as it is. -/
theorem trimOf_of_not_mem {q : Char} {s : List Char} (h : q ∉ s) : trimOf q s = s := by
  have hstart : ∀ t : List Char, q ∉ t → t.dropWhile (· == q) = t := by
    intro t ht
    cases t with
    | nil => rfl
    | cons c t =>
      have hc : c ≠ q := fun heq => ht (heq ▸ List.mem_cons_self)
      simp [hc]
  rw [trimOf, trimStartOf, hstart s h, trimEndOf, hstart s.reverse (by simpa using h), List.reverse_reverse]

end Text

namespace EntityTag

open Text

/-! ## Lists as they are written -/

/-- What a tag can hold where it need not stand between quotes. -/
structure Held where
  chars : List Char
  ne_nil : chars ≠ []
  comma_not_mem : ',' ∉ chars
  quote_not_mem : '"' ∉ chars
  trim_eq : trim chars = chars
  ne_any : chars ≠ ['*']
  not_weak : ∀ rest, chars ≠ 'W' :: '/' :: rest

/-- An entry of a list. -/
inductive Form where
  | any
  | tag (weak quoted : Bool) (held : Held)

namespace Form

/-- What stands for a tag that is not weak. -/
def tagText (quoted : Bool) (held : Held) : List Char := if quoted then '"' :: held.chars ++ ['"'] else held.chars

/-- The entry as it is written. -/
def text : Form → List Char
  | any => ['*']
  | tag weak quoted held => if weak then 'W' :: '/' :: tagText quoted held else tagText quoted held

/-- What is to be read of it. -/
def entry : Form → Entry
  | any => .any
  | tag weak _ held => .tag weak held.chars

end Form

/-- An entry with blanks around it. -/
structure Spaced where
  before : List Char
  form : Form
  after : List Char
  isBlank_before : ∀ c ∈ before, isBlank c = true
  isBlank_after : ∀ c ∈ after, isBlank c = true

/-- The entry with its blanks. -/
def Spaced.text (s : Spaced) : List Char := s.before ++ s.form.text ++ s.after

/-- Entries with commas between them. -/
def listText (list : List Spaced) : String := String.ofList ([','].intercalate (list.map Spaced.text))

/-! ## Reading -/

section Reading

variable (quoted : Bool) (held : Held)

theorem tagText_ne_nil : Form.tagText quoted held ≠ [] := by
  cases quoted with
  | true => exact List.cons_ne_nil _ _
  | false => exact held.ne_nil

theorem trim_tagText : trim (Form.tagText quoted held) = Form.tagText quoted held := by
  cases quoted with
  | true => exact trim_of_not_isBlank (by decide) (by decide)
  | false => exact held.trim_eq

theorem comma_not_mem_tagText : ',' ∉ Form.tagText quoted held := by
  cases quoted with
  | true => simp [Form.tagText, held.comma_not_mem]
  | false => exact held.comma_not_mem

/-- Quotes are taken off, if there are any. -/
theorem opaqueOf_tagText : opaqueOf (Form.tagText quoted held) = held.chars := by
  cases quoted with
  | true => exact trimOf_quoted fun c hc heq => held.quote_not_mem (heq ▸ hc)
  | false => exact trimOf_of_not_mem held.quote_not_mem

/-- A tag is not taken for any tag at all, and not for a weak one. -/
theorem tagText_ne : Form.tagText quoted held ≠ ['*'] ∧ after? ['W', '/'] (Form.tagText quoted held) = none := by
  cases quoted with
  | true => exact ⟨by simp [Form.tagText], rfl⟩
  | false =>
    refine ⟨held.ne_any, Option.eq_none_iff_forall_ne_some.mpr fun rest hrest => ?_⟩
    exact held.not_weak rest (after?_eq_some_iff.mp hrest)

end Reading

namespace Form

variable (form : Form)

theorem text_ne_nil : form.text ≠ [] := by
  cases form with
  | any => exact List.cons_ne_nil _ _
  | tag weak quoted held =>
    cases weak with
    | true => exact List.cons_ne_nil _ _
    | false => exact tagText_ne_nil quoted held

theorem trim_text : trim form.text = form.text := by
  cases form with
  | any => decide
  | tag weak quoted held =>
    cases weak with
    | true =>
      have hslash := trim_cons (c := '/') (by decide) (tagText_ne_nil quoted held) (trim_tagText quoted held)
      exact trim_cons (by decide) (List.cons_ne_nil _ _) hslash
    | false => exact trim_tagText quoted held

theorem comma_not_mem_text : ',' ∉ form.text := by
  cases form with
  | any => decide
  | tag weak quoted held =>
    cases weak with
    | true => simp [text, comma_not_mem_tagText]
    | false => exact comma_not_mem_tagText quoted held

/-- An entry is read as it is written, with any blanks around it. -/
theorem read_of_trim {part : List Char} (h : trim part = form.text) : Entry.read part = form.entry := by
  unfold Entry.read
  rw [h]
  cases form with
  | any => rfl
  | tag weak quoted held =>
    obtain ⟨hany, hweak⟩ := tagText_ne quoted held
    cases weak with
    | true =>
      have hrest : after? ['W', '/'] ('W' :: '/' :: tagText quoted held) = some (tagText quoted held) :=
        after?_eq_some_iff.mpr rfl
      simp only [text, if_true, List.cons.injEq, reduceCtorEq, and_false, if_false, hrest, opaqueOf_tagText, entry]
    | false =>
      simp only [text, Bool.false_eq_true, if_false, hany, hweak, opaqueOf_tagText, entry]

end Form

theorem Spaced.comma_not_mem_text (s : Spaced) : ',' ∉ s.text := by
  have hblank : ∀ blanks : List Char, (∀ c ∈ blanks, isBlank c = true) → ',' ∉ blanks := fun blanks hall hcomma =>
    absurd (hall _ hcomma) (by decide)
  simp [text, hblank _ s.isBlank_before, hblank _ s.isBlank_after, s.form.comma_not_mem_text]

theorem Spaced.read_text (s : Spaced) : Entry.read s.text = s.form.entry :=
  s.form.read_of_trim (trim_surrounded s.isBlank_before s.isBlank_after s.form.text_ne_nil s.form.trim_text)

/-- The entries of a list are read as they are written. -/
theorem entries_listText {list : List Spaced} (h : list ≠ []) : entries (listText list) = list.map (·.form.entry) := by
  have hsplit : split [','] ([','].intercalate (list.map Spaced.text)) = list.map Spaced.text :=
    split_intercalate (by simpa using h) (List.forall_mem_map.mpr fun s _ => s.comma_not_mem_text)
  rw [entries, listText, String.toList_ofList, hsplit, List.map_map]
  exact List.map_congr_left fun s _ => s.read_text

/-- An empty list is read as an empty tag, which is written nowhere. -/
theorem mem_entries_listText_iff {list : List Spaced} {e : Entry} (he : e ≠ .tag false []) :
    e ∈ entries (listText list) ↔ ∃ s ∈ list, s.form.entry = e := by
  cases list with
  | nil =>
    have hempty : entries (listText []) = [.tag false []] := by decide
    simpa [hempty] using he
  | cons s list => rw [entries_listText (List.cons_ne_nil s list), List.mem_map]

/-! ## Matching -/

theorem Form.entry_eq_any_iff {form : Form} : form.entry = .any ↔ form = .any := by
  cases form <;> simp [entry]

theorem Form.entry_eq_tag_iff {form : Form} {weak : Bool} {chars : List Char} :
    form.entry = .tag weak chars ↔ ∃ quoted held, form = .tag weak quoted held ∧ held.chars = chars := by
  cases form with
  | any => simp [entry]
  | tag w q x =>
    rw [entry, Entry.tag.injEq]
    constructor
    · rintro ⟨rfl, hchars⟩
      exact ⟨q, x, rfl, hchars⟩
    · rintro ⟨quoted, held, heq, rfl⟩
      cases heq
      exact ⟨rfl, rfl⟩

/-- The text has the form of the tag of a body: 64 hexadecimal digits between quotes, the letters small. -/
structure IsTag (tag : String) (digits : List Char) : Prop where
  toList_eq : tag.toList = '"' :: digits ++ ['"']
  length_eq : digits.length = 64
  mem_digits : ∀ c ∈ digits, c ∈ "0123456789abcdef".toList

theorem isTag_of (body : Json) : IsTag (EntityTag.of body) (Hex.encode (Sha256.hash body.bytes)) where
  toList_eq := toList_of body
  length_eq := by rw [Hex.length_encode, Sha256.hash_length]
  mem_digits := Hex.forall_mem_encode (by decide) _

/-- What such a tag holds between its quotes. -/
theorem IsTag.opaqueOf_eq {tag : String} {digits : List Char} (h : IsTag tag digits) : opaqueOf tag.toList = digits := by
  have hquote : '"' ∉ "0123456789abcdef".toList := by decide
  rw [h.toList_eq]
  exact trimOf_quoted fun c hc heq => hquote (heq ▸ h.mem_digits c hc)

/-- A list matches a tag when some entry is `*` or is that tag, weak or not and with or without quotes; strictly, the
entry must not be weak. Any list that matches strictly matches weakly too. -/
theorem lists_are_read_as_written {tag : String} {digits : List Char} (h : IsTag tag digits) (list : List Spaced) :
    (matchesWeak (listText list) tag = true ↔
      ∃ s ∈ list, s.form = .any ∨ ∃ weak quoted held, s.form = .tag weak quoted held ∧ held.chars = digits) ∧
    (matchesStrong (listText list) tag = true ↔
      ∃ s ∈ list, s.form = .any ∨ ∃ quoted held, s.form = .tag false quoted held ∧ held.chars = digits) ∧
    ∀ header current : String, matchesStrong header current = true → matchesWeak header current = true := by
  -- An empty entry is passed over, which a tag can not be taken for.
  have hne : digits ≠ [] := List.ne_nil_of_length_pos (by rw [h.length_eq]; decide)
  have hany : Entry.any ∈ entries (listText list) ↔ ∃ s ∈ list, s.form = .any := by
    rw [mem_entries_listText_iff (by simp)]
    simp only [Form.entry_eq_any_iff]
  have htag (weak : Bool) : Entry.tag weak digits ∈ entries (listText list) ↔
      ∃ s ∈ list, ∃ quoted held, s.form = .tag weak quoted held ∧ held.chars = digits := by
    rw [mem_entries_listText_iff (by simp [hne])]
    simp only [Form.entry_eq_tag_iff]
  refine ⟨?_, ?_, fun header current => matchesWeak_of_matchesStrong⟩
  · rw [matchesWeak_iff, h.opaqueOf_eq, hany]
    simp only [htag]
    constructor
    · rintro (⟨s, hs, hform⟩ | ⟨weak, s, hs, hform⟩)
      · exact ⟨s, hs, .inl hform⟩
      · exact ⟨s, hs, .inr ⟨weak, hform⟩⟩
    · rintro ⟨s, hs, hform | ⟨weak, hform⟩⟩
      · exact .inl ⟨s, hs, hform⟩
      · exact .inr ⟨weak, s, hs, hform⟩
  · rw [matchesStrong_iff, h.opaqueOf_eq, hany, htag]
    constructor
    · rintro (⟨s, hs, hform⟩ | ⟨s, hs, hform⟩)
      · exact ⟨s, hs, .inl hform⟩
      · exact ⟨s, hs, .inr hform⟩
    · rintro ⟨s, hs, hform | hform⟩
      · exact .inl ⟨s, hs, hform⟩
      · exact .inr ⟨s, hs, hform⟩

/-! ## A list of two tags -/

/-- What a tag holds. -/
def heldDigits : Held where
  chars := List.replicate 64 'a'
  ne_nil := by decide
  comma_not_mem h := absurd (List.eq_of_mem_replicate h) (by decide)
  quote_not_mem h := absurd (List.eq_of_mem_replicate h) (by decide)
  trim_eq := by decide
  ne_any := by decide
  not_weak _ h := by cases h

/-- A text that could be taken for a weak tag if it had a slash. -/
def heldWord : Held where
  chars := ['W', '1']
  ne_nil := by decide
  comma_not_mem := by decide
  quote_not_mem := by decide
  trim_eq := by decide
  ne_any := by decide
  not_weak _ h := by cases h

/-- A weak tag between quotes and another one without them, among blanks. -/
def twoTags : List Spaced :=
  [⟨[' '], .tag true true heldDigits, ['\t'], by simp [isBlank], by simp [isBlank]⟩,
    ⟨[], .tag false false heldWord, [' ', ' '], by simp, by simp [isBlank]⟩]

/-- The list matches the first of its tags, but not strictly. -/
theorem weak_tag_is_read :
    let tag := String.ofList ('"' :: List.replicate 64 'a' ++ ['"'])
    IsTag tag (List.replicate 64 'a') ∧ matchesWeak (listText twoTags) tag = true ∧
      matchesStrong (listText twoTags) tag = false := by
  intro tag
  have htag : IsTag tag (List.replicate 64 'a') := by
    refine ⟨String.toList_ofList, List.length_replicate, fun c hc => ?_⟩
    rw [List.eq_of_mem_replicate hc]
    decide
  obtain ⟨hweak, hstrong, -⟩ := lists_are_read_as_written htag twoTags
  refine ⟨htag, hweak.mpr ⟨_, List.mem_cons_self, .inr ⟨true, true, heldDigits, rfl, rfl⟩⟩, ?_⟩
  rw [Bool.eq_false_iff, ne_eq, hstrong]
  rintro ⟨s, hs, hform⟩
  rcases List.mem_pair.mp hs with rfl | rfl
  · rcases hform with hany | ⟨quoted, held, htext, -⟩
    · cases hany
    · cases htext
  · rcases hform with hany | ⟨quoted, held, htext, hchars⟩
    · cases hany
    · cases htext
      exact absurd hchars (by decide)

end EntityTag

end RestTables
