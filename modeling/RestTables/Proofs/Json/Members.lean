import Mathlib.Data.List.Nodup
import Mathlib.Data.String.Basic
import RestTables.Json.Document

/-
Module: RestTables.Proofs.Json.Members
Purpose: The members of an object that was read from a text are in the order of their keys, so no key stands
  twice. What a reader yields has a property when every way in which it ends has.
Main exports: Object.sorted_ofMembers, Object.get?_eq_some_of_mem, Object.get?_insert_self,
  Object.get?_insert_of_ne, Object.get?_foldl_insert_of_notMem, Reader.Yields, Json.nodup_keys_of_parse
-/

namespace RestTables

/-- What is found by a key is an entry with it. -/
theorem mem_of_lookup {β : Type} {entries : List (String × β)} {key : String} {value : β}
    (h : entries.lookup key = some value) : (key, value) ∈ entries := by
  obtain ⟨front, back, rfl, -⟩ := List.lookup_eq_some_iff.mp h
  exact List.mem_append_right _ List.mem_cons_self

/-- Where no key stands twice, every entry is found by its key. -/
theorem lookup_eq_some_of_mem {β : Type} {entries : List (String × β)} (h : (entries.map (·.1)).Nodup) {key : String}
    {value : β} (hentry : (key, value) ∈ entries) : entries.lookup key = some value := by
  induction entries with
  | nil => cases hentry
  | cons entry rest ih =>
    obtain ⟨k, v⟩ := entry
    obtain ⟨hfirst, hrest⟩ := List.nodup_cons.mp h
    rcases List.mem_cons.mp hentry with heq | hentry
    · cases heq
      exact List.lookup_cons_self
    · have hkey : key ∈ rest.map (·.1) := List.mem_map.mpr ⟨_, hentry, rfl⟩
      have hne : (key == k) = false := by
        rw [beq_eq_false_iff_ne]
        rintro rfl
        exact hfirst hkey
      rw [List.lookup_cons, hne]
      exact ih hrest hentry

namespace Json

/-! ## Objects -/

namespace Object

variable {o : Object}

theorem mem_keys_insert {key k : String} {value : Json} (h : k ∈ (o.insert key value).keys) :
    k = key ∨ k ∈ o.keys := by
  induction o with
  | nil => simpa [insert, keys] using h
  | cons member rest ih =>
    obtain ⟨l, v⟩ := member
    simp only [keys, List.map_cons, List.mem_cons] at ih ⊢
    simp only [insert] at h
    split at h
    · simpa [keys] using h
    · split at h
      · next heq =>
        rcases List.mem_cons.mp h with hk | hk
        · exact .inl hk
        · exact .inr (.inr hk)
      · rcases List.mem_cons.mp h with hk | hk
        · exact .inr (.inl hk)
        · exact (ih hk).imp_right .inr

theorem mem_insert {key k : String} {value v : Json} (h : (k, v) ∈ o.insert key value) :
    (k, v) = (key, value) ∨ (k, v) ∈ o := by
  induction o with
  | nil => exact .inl (List.mem_singleton.mp h)
  | cons member rest ih =>
    simp only [insert] at h
    split at h
    · exact List.mem_cons.mp h
    · split at h
      · exact (List.mem_cons.mp h).imp_right (List.mem_cons_of_mem _)
      · rcases List.mem_cons.mp h with heq | h
        · exact .inr (heq ▸ List.mem_cons_self)
        · exact (ih h).imp_right (List.mem_cons_of_mem _)

theorem mem_insert_self (o : Object) (key : String) (value : Json) : (key, value) ∈ o.insert key value := by
  induction o with
  | nil => exact List.mem_singleton_self _
  | cons member rest ih =>
    simp only [insert]
    split
    · exact List.mem_cons_self
    · split
      · exact List.mem_cons_self
      · exact List.mem_cons_of_mem _ ih

theorem mem_insert_of_ne {key k : String} {v : Json} (h : (k, v) ∈ o) (hne : k ≠ key) (value : Json) :
    (k, v) ∈ o.insert key value := by
  induction o with
  | nil => cases h
  | cons member rest ih =>
    simp only [insert]
    split
    · exact List.mem_cons_of_mem _ h
    · split
      · next heq =>
        rcases List.mem_cons.mp h with hfirst | h
        · exact absurd ((congrArg Prod.fst hfirst).trans heq.symm) hne
        · exact List.mem_cons_of_mem _ h
      · rcases List.mem_cons.mp h with hfirst | h
        · exact hfirst ▸ List.mem_cons_self
        · exact List.mem_cons_of_mem _ (ih h)

/-- An object has no members but those it is made of. -/
theorem mem_of_mem_ofMembers {members : List (String × Json)} {member : String × Json}
    (h : member ∈ ofMembers members) : member ∈ members := by
  have hfold : ∀ o : Object, member ∈ members.foldl (fun o m => o.insert m.1 m.2) o →
      member ∈ o ∨ member ∈ members := by
    clear h
    induction members with
    | nil => exact fun o h => .inl h
    | cons first members ih =>
      intro o h
      rcases ih _ h with h | h
      · rcases mem_insert h with heq | h
        · exact .inr (List.mem_cons.mpr (.inl heq))
        · exact .inl h
      · exact .inr (List.mem_cons_of_mem _ h)
  exact (hfold [] h).resolve_left List.not_mem_nil

/-- It has all of them where no key stands twice. -/
theorem mem_ofMembers {members : List (String × Json)} (hnodup : (members.map (·.1)).Nodup)
    {member : String × Json} (h : member ∈ members) : member ∈ ofMembers members := by
  -- Later members have other keys, and setting them leaves this one.
  have hstays : ∀ (later : List (String × Json)) (o : Object), member ∈ o → (∀ m ∈ later, member.1 ≠ m.1) →
      member ∈ later.foldl (fun o m => o.insert m.1 m.2) o := by
    intro later
    induction later with
    | nil => exact fun o h _ => h
    | cons m later ih =>
      intro o h hne
      obtain ⟨hfirst, hrest⟩ := List.forall_mem_cons.mp hne
      exact ih _ (mem_insert_of_ne h hfirst m.2) hrest
  obtain ⟨before, later, rfl⟩ := List.append_of_mem h
  rw [List.map_append, List.map_cons, List.nodup_append] at hnodup
  obtain ⟨hnot, -⟩ := List.nodup_cons.mp hnodup.2.1
  rw [ofMembers, List.foldl_append, List.foldl_cons]
  refine hstays later _ (mem_insert_self _ _ _) fun m hm heq => hnot ?_
  rw [heq]
  exact List.mem_map_of_mem hm

/-- The first key is below all that follow. -/
theorem sorted_cons_iff {member : String × Json} :
    Sorted (member :: o) ↔ (∀ k ∈ o.keys, member.1 < k) ∧ Sorted o := by
  simp [Sorted, keys]

/-- The members stay in order when one is set. -/
theorem sorted_insert (h : o.Sorted) (key : String) (value : Json) : (o.insert key value).Sorted := by
  induction o with
  | nil => exact List.pairwise_singleton _ _
  | cons member rest ih =>
    obtain ⟨k, v⟩ := member
    obtain ⟨hfirst, hrest⟩ := sorted_cons_iff.mp h
    simp only [insert]
    -- The new member goes in front of the first greater one, takes the place of an equal one, or goes on.
    split
    · next hlt =>
      refine sorted_cons_iff.mpr ⟨?_, h⟩
      intro l hl
      rcases List.mem_cons.mp hl with rfl | hl
      · exact hlt
      · exact hlt.trans (hfirst l hl)
    · next hnotlt =>
      split
      · next heq => exact sorted_cons_iff.mpr ⟨heq ▸ hfirst, hrest⟩
      · next hne =>
        refine sorted_cons_iff.mpr ⟨?_, ih hrest⟩
        intro l hl
        rcases mem_keys_insert hl with rfl | hl
        · exact lt_of_le_of_ne (not_lt.mp hnotlt) (Ne.symm hne)
        · exact hfirst l hl

theorem sorted_ofMembers (members : List (String × Json)) : (ofMembers members).Sorted := by
  have hfold : ∀ o : Object, o.Sorted → (members.foldl (fun o m => o.insert m.1 m.2) o).Sorted := by
    induction members with
    | nil => exact fun o h => h
    | cons member members ih => exact fun o h => ih _ (sorted_insert h _ _)
  exact hfold [] List.Pairwise.nil

/-- Where no key stands twice, a member is what its key leads to. -/
theorem get?_eq_some_of_mem (h : o.keys.Nodup) {key : String} {value : Json} (hmember : (key, value) ∈ o) :
    o.get? key = some value := lookup_eq_some_of_mem h hmember

theorem get?_insert_self {key : String} {value : Json} (o : Object) : (o.insert key value).get? key = some value := by
  unfold get?
  induction o with
  | nil => exact List.lookup_cons_self
  | cons m o ih =>
    obtain ⟨k, v⟩ := m
    unfold insert
    split
    · exact List.lookup_cons_self
    · split
      · exact List.lookup_cons_self
      · next hne =>
        rw [List.lookup_cons, beq_eq_false_iff_ne.mpr hne]
        exact ih

theorem get?_insert_of_ne {key other : String} {value : Json} (hne : other ≠ key) (o : Object) :
    (o.insert key value).get? other = o.get? other := by
  have hother : (other == key) = false := beq_eq_false_iff_ne.mpr hne
  unfold get?
  induction o with
  | nil => rw [insert, List.lookup_cons, hother]
  | cons m o ih =>
    obtain ⟨k, v⟩ := m
    unfold insert
    split
    · rw [List.lookup_cons, hother]
    · split
      · next hkey =>
        subst hkey
        rw [List.lookup_cons, List.lookup_cons, hother]
      · rw [List.lookup_cons, List.lookup_cons, ih]

/-- Setting other members leaves what a key leads to as it was. -/
theorem get?_foldl_insert_of_notMem {members : List (String × Json)} {key : String} (h : key ∉ members.map (·.1))
    (o : Object) : (members.foldl (fun o m => o.insert m.1 m.2) o).get? key = o.get? key := by
  induction members generalizing o with
  | nil => rfl
  | cons m members ih =>
    rw [List.map_cons, List.mem_cons, not_or] at h
    rw [List.foldl_cons, ih h.2, get?_insert_of_ne h.1]

/-- No key stands twice where the members are in order. -/
theorem nodup_keys_of_sorted (h : o.Sorted) : o.keys.Nodup :=
  List.pairwise_map.mpr (h.imp ne_of_lt)

/-- Where no key stands twice, an object has the members that it is made of, in the order of their keys. -/
theorem ofMembers_perm {members : List (String × Json)} (hnodup : (members.map (·.1)).Nodup) :
    (ofMembers members).Perm members := by
  have hkeys := nodup_keys_of_sorted (sorted_ofMembers members)
  refine (List.perm_ext_iff_of_nodup (List.Nodup.of_map _ hkeys) (List.Nodup.of_map _ hnodup)).mpr fun member => ?_
  exact ⟨mem_of_mem_ofMembers, mem_ofMembers hnodup⟩

end Object

/-- An object has its members in the order of their keys. -/
def IsOrdered : Json → Prop
  | .obj members => Object.Sorted members
  | _ => True

/-! ## Readers -/

namespace Reader

variable {P : α → Prop}

/-- Whatever is read from any place on has a property. -/
def Yields (P : α → Prop) (r : Reader α) : Prop := ∀ c a, (r.runFrom c).1 = .ok a → P a

theorem yields_pure {a : α} (h : P a) : Yields P (pure a : Reader α) := by
  intro c b hb
  cases hb
  exact h

theorem runFrom_bind (x : Reader β) (f : β → Reader α) (c : Cursor) :
    (x >>= f).runFrom c = match x.runFrom c with
      | (.ok b, c') => (f b).runFrom c'
      | (.error e, c') => (.error e, c') := by
  simp only [runFrom, ExceptT.run_bind, StateT.run_bind]
  rcases (ExceptT.run x).run c with ⟨e | b, c'⟩ <;> rfl

/-- What is read last counts, and may rely on what was read before. -/
theorem Yields.bind {Q : β → Prop} {x : Reader β} {f : β → Reader α} (hx : Yields Q x)
    (hf : ∀ b, Q b → Yields P (f b)) : Yields P (x >>= f) := by
  intro c a h
  rw [runFrom_bind] at h
  rcases hrun : x.runFrom c with ⟨e | b, c'⟩
  · rw [hrun] at h
    cases h
  · rw [hrun] at h
    exact hf b (hx c b (by rw [hrun])) c' a h

theorem Yields.after {x : Reader β} {f : β → Reader α} (hf : ∀ b, Yields P (f b)) : Yields P (x >>= f) :=
  Yields.bind (Q := fun _ => True) (fun _ _ _ => trivial) fun b _ => hf b

theorem yields_throw (e : Failure) : Yields P (throw e : Reader α) := by
  intro c a h
  cases h

theorem yields_failAhead (cause : Cause) : Yields P (failAhead cause : Reader α) :=
  Yields.after fun _ => yields_throw _

/-- Between brackets stands what the inside yields. -/
theorem Yields.enclosed {inside : Reader α} (h : Yields P inside) (closing : Reader Unit) :
    Yields P (enclosed inside closing) := by
  apply Yields.after
  intro _
  have hinside : Yields (fun outcome : Except Failure α => ∀ a, outcome = .ok a → P a) (ExceptT.lift inside.run) := by
    intro c outcome houtcome a ha
    cases houtcome
    exact h c a ha
  refine Yields.bind hinside fun result hresult => Yields.after fun ending => ?_
  match result, ending with
  | .ok a, .ok () => exact yields_pure (hresult a rfl)
  | .ok _, .error e => exact yields_throw e
  | .error e, _ => exact yields_throw e

/-- A value that is no object has no members, so only objects need to have theirs in order. -/
theorem yields_valueWith {list object : Reader Json} (hlist : Yields IsOrdered list)
    (hobject : Yields IsOrdered object) : Yields IsOrdered (valueWith list object) := by
  apply Yields.after
  intro first
  cases first with
  | none => exact yields_failAhead _
  | some b =>
    dsimp only
    split_ifs
    · exact Yields.after fun _ => Yields.after fun _ => yields_pure trivial
    · exact Yields.after fun _ => Yields.after fun _ => yields_pure trivial
    · exact Yields.after fun _ => Yields.after fun _ => yields_pure trivial
    · exact Yields.after fun _ => yields_pure trivial
    · exact hlist
    · exact hobject
    · exact Yields.after fun _ => yields_pure trivial
    · exact yields_failAhead _

section Embedding

variable {embedded : List UInt8 → Except Failure Json}
  (hembedded : ∀ text v, embedded text = .ok v → v.IsOrdered)

include hembedded

theorem yields_objectInside (item : Reader Json) : Yields IsOrdered (objectInside embedded item) := by
  apply Yields.after
  intro hasFirst
  split
  · apply Yields.after
    intro key
    apply Yields.after
    intro _
    split
    · apply Yields.after
      intro inner c v hv
      exact hembedded _ v hv
    · apply Yields.after
      intro first
      apply Yields.after
      intro fuel
      apply Yields.after
      intro others
      exact yields_pure (Object.sorted_ofMembers ((key, first) :: others))
  · exact yields_pure List.Pairwise.nil

theorem yields_valueWithin (depth : Nat) : Yields IsOrdered (valueWithin embedded depth) := by
  cases depth with
  | zero => exact yields_valueWith (yields_failAhead _) (yields_failAhead _)
  | succ depth =>
    apply yields_valueWith
    · exact Yields.after fun _ => yields_pure trivial
    · exact Yields.enclosed (yields_objectInside hembedded _) _

end Embedding

/-- A whole text holds what its reader yields. -/
theorem Yields.of_document {r : Reader α} (h : Yields P r) {text : List UInt8} {a : α} (ha : document r text = .ok a) :
    P a := by
  unfold document at ha
  refine Yields.bind h (fun b hb => Yields.after fun ahead => ?_) _ a ha
  cases ahead with
  | none => exact yields_pure hb
  | some _ => exact yields_failAhead _

/-- Embedded texts hold ordered values, since the texts that they embed do. -/
theorem isOrdered_of_embeddedValue {levels : Nat} {text : List UInt8} {v : Json}
    (h : embeddedValue levels text = .ok v) : v.IsOrdered := by
  induction levels generalizing text v with
  | zero => cases h
  | succ levels ih => exact Yields.of_document (yields_valueWithin (fun _ _ => ih) depthLimit) h

end Reader

/-- No key stands twice in an object that was read. -/
theorem nodup_keys_of_parse {text : List UInt8} {members : Object} (h : parse text = .ok (.obj members)) :
    members.keys.Nodup := by
  have hvalue : Reader.Yields IsOrdered (Reader.value Reader.depthLimit) :=
    Reader.Yields.after fun _ => Reader.yields_valueWithin (fun _ _ => Reader.isOrdered_of_embeddedValue) _
  have hordered : (Json.obj members).IsOrdered := hvalue.of_document h
  exact Object.nodup_keys_of_sorted hordered

end Json

end RestTables
