import RestTables.Http.EntityTag
import RestTables.Http.Header

/-
Module: RestTables.Proofs.Http.EntityTag
Purpose: What an entity tag says of a body: its hash and nothing else. Bodies with the same tag are the same
  where the hash does not collide, and only `*` and the tag itself, written as a strong one, match it strictly.
Main exports: EntityTag.opaqueOf_of, EntityTag.hash_eq_of_opaqueOf_eq,
  EntityTag.entries_of, EntityTag.matchesStrong_iff, EntityTag.matchesWeak_iff, EntityTag.matchesStrong_empty
-/

namespace RestTables

namespace Text

/-- Different bytes are written differently. -/
theorem Hex.encode_injective {a b : List UInt8} (h : Hex.encode a = Hex.encode b) : a = b := by
  have hdecode := congrArg Hex.decode? h
  simpa only [Hex.decode?_encode, Option.some.injEq] using hdecode

/-- Every digit that is written is that of a number below 16. -/
theorem Hex.forall_mem_encode {p : Char → Prop} (hp : ∀ n : Fin 16, p (Hex.digit n.val)) (bytes : List UInt8) :
    ∀ c ∈ Hex.encode bytes, p c := by
  intro c hc
  obtain ⟨b, -, hc⟩ := List.mem_flatMap.mp hc
  have hb : b.toNat < 256 := b.toNat_lt
  simp only [List.mem_cons, List.not_mem_nil, or_false] at hc
  rcases hc with rfl | rfl
  · exact hp ⟨b.toNat / 16, by omega⟩
  · exact hp ⟨b.toNat % 16, by omega⟩

theorem Hex.length_encode (bytes : List UInt8) : (Hex.encode bytes).length = 2 * bytes.length := by
  induction bytes with
  | nil => rfl
  | cons b bytes ih =>
    simp only [Hex.encode, List.flatMap_cons, List.length_append, List.length_cons, List.length_nil] at ih ⊢
    omega

/-- A text without the separator is one piece. -/
theorem split_of_not_mem {c : Char} {s : List Char} (h : c ∉ s) : split [c] s = [s] := by
  have hfrom : ∀ t : List Char, c ∉ t → splitFrom [c] 0 t = [t] := by
    intro t ht
    induction t with
    | nil => rfl
    | cons x t ih =>
      have hx : c ≠ x := fun heq => ht (heq ▸ List.mem_cons_self)
      have hrest := ih fun hmem => ht (List.mem_cons_of_mem _ hmem)
      simp [splitFrom, List.isPrefixOf, hx, hrest, pushHead]
  simpa [split] using hfrom s h

/-- A text that neither begins nor ends with a blank is left as it is. -/
theorem trim_of_not_isBlank {a b : Char} {s : List Char} (ha : isBlank a = false) (hb : isBlank b = false) :
    trim (a :: s ++ [b]) = a :: s ++ [b] := by
  simp [trim, trimStart, trimEnd, ha, hb]

/-- Quotes around a text without quotes are taken off again. -/
theorem trimOf_quoted {q : Char} {s : List Char} (h : ∀ c ∈ s, c ≠ q) : trimOf q (q :: s ++ [q]) = s := by
  have hstart : ∀ t : List Char, (∀ c ∈ t, c ≠ q) → (q :: t).dropWhile (· == q) = t := by
    intro t ht
    cases t with
    | nil => simp
    | cons c t => simp [ht c (by simp)]
  -- An empty text is special: both quotes are taken off from the front.
  have hfirst : (q :: s ++ [q]).dropWhile (· == q) = if s = [] then [] else s ++ [q] := by
    cases s with
    | nil => simp
    | cons c s => simp [h c (by simp)]
  unfold trimOf trimEndOf trimStartOf
  rw [hfirst]
  split
  · next hs => simp [hs]
  · rw [List.reverse_append, List.reverse_singleton, List.singleton_append,
      hstart s.reverse (fun c hc => h c (List.mem_reverse.mp hc)), List.reverse_reverse]

end Text

namespace EntityTag

open Text

theorem toList_of (body : Json) :
    (EntityTag.of body).toList = '"' :: Hex.encode (Sha256.hash body.bytes) ++ ['"'] := by
  simp [EntityTag.of, String.toList_append]

/-- Between its quotes a tag holds the hash. -/
theorem opaqueOf_of (body : Json) : opaqueOf (EntityTag.of body).toList = Hex.encode (Sha256.hash body.bytes) := by
  rw [toList_of, opaqueOf, trimOf_quoted (Hex.forall_mem_encode (by decide) _)]

/-- Bodies with the same tag have the same hash. -/
theorem hash_eq_of_opaqueOf_eq {a b : Json}
    (h : opaqueOf (EntityTag.of a).toList = opaqueOf (EntityTag.of b).toList) :
    Sha256.hash a.bytes = Sha256.hash b.bytes := by
  rw [opaqueOf_of, opaqueOf_of] at h
  exact Hex.encode_injective h

/-- A tag stands in its list without blanks around it. -/
theorem trim_of (body : Json) : trim (EntityTag.of body).toList = (EntityTag.of body).toList := by
  rw [toList_of, trim_of_not_isBlank (by decide) (by decide)]

/-- A tag with any blanks around it is read back as a strong tag. -/
theorem Entry.read_of {body : Json} {part : List Char} (h : trim part = (EntityTag.of body).toList) :
    Entry.read part = .tag false (opaqueOf (EntityTag.of body).toList) := by
  unfold Entry.read
  rw [h, toList_of]
  simp [after?]

/-- A tag as it is sent is one part. -/
theorem split_of (body : Json) : split [','] (EntityTag.of body).toList = [(EntityTag.of body).toList] := by
  have hdigits := Hex.forall_mem_encode (p := (· ≠ ',')) (by decide) (Sha256.hash body.bytes)
  apply split_of_not_mem
  rw [toList_of]
  simpa using fun h => hdigits _ h rfl

/-- A tag as it is sent is read back as one strong tag. -/
theorem entries_of (body : Json) :
    entries (EntityTag.of body) = [.tag false (opaqueOf (EntityTag.of body).toList)] := by
  rw [entries, split_of, List.map_singleton, Entry.read_of (trim_of body)]

/-- A tag can be sent in a header field and read as text. -/
theorem isReadable_of (body : Json) : Headers.isReadable (EntityTag.of body) = true := by
  have hdigits := Hex.forall_mem_encode (p := fun c => (c = '\t' || (32 ≤ c.toNat && c.toNat < 127)) = true)
    (by decide) (Sha256.hash body.bytes)
  unfold Headers.isReadable
  rw [toList_of, List.all_eq_true]
  intro c hc
  simp only [List.cons_append, List.mem_cons, List.mem_append, List.not_mem_nil, or_false] at hc
  rcases hc with rfl | hc | rfl
  · decide
  · exact hdigits c hc
  · decide

/-- Strictly, a tag is matched by `*` and by itself as a strong tag. -/
theorem matchesStrong_iff {header current : String} :
    matchesStrong header current = true ↔
      Entry.any ∈ entries header ∨ Entry.tag false (opaqueOf current.toList) ∈ entries header := by
  unfold matchesStrong
  rw [List.any_eq_true]
  constructor
  · rintro ⟨e, he, hm⟩
    cases e with
    | any => exact .inl he
    | tag weak t =>
      simp only [Entry.matches, Bool.false_or, Bool.and_eq_true, Bool.not_eq_eq_eq_not, Bool.not_true,
        beq_iff_eq] at hm
      obtain ⟨rfl, rfl⟩ := hm
      exact .inr he
  · rintro (he | he)
    · exact ⟨_, he, rfl⟩
    · exact ⟨_, he, by simp [Entry.matches]⟩

/-- Weakly, a tag is matched by `*` and by itself, weak or not. -/
theorem matchesWeak_iff {header current : String} :
    matchesWeak header current = true ↔
      Entry.any ∈ entries header ∨ ∃ weak, Entry.tag weak (opaqueOf current.toList) ∈ entries header := by
  unfold matchesWeak
  rw [List.any_eq_true]
  constructor
  · rintro ⟨e, he, hm⟩
    cases e with
    | any => exact .inl he
    | tag weak t =>
      simp only [Entry.matches, Bool.true_or, Bool.true_and, beq_iff_eq] at hm
      subst hm
      exact .inr ⟨weak, he⟩
  · rintro (he | ⟨weak, he⟩)
    · exact ⟨_, he, rfl⟩
    · exact ⟨_, he, by simp [Entry.matches]⟩

/-- An empty list matches nothing. -/
theorem matchesStrong_empty (body : Json) : matchesStrong "" (EntityTag.of body) = false := by
  have hentries : entries "" = [.tag false []] := by decide +kernel
  have hne : opaqueOf (EntityTag.of body).toList ≠ [] := by
    rw [opaqueOf_of]
    refine List.ne_nil_of_length_pos ?_
    rw [Hex.length_encode, Sha256.hash_length]
    omega
  rw [Bool.eq_false_iff, ne_eq, matchesStrong_iff, hentries]
  simpa using hne

end EntityTag

end RestTables
