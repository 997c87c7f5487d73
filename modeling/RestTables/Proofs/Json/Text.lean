import RestTables.Proofs.Number.Written
import RestTables.Proofs.Text.Utf8

/-
Module: RestTables.Proofs.Json.Text
Purpose: A JSON text tells all of the value that it was written for. Each value has an end that shows without what
  follows it, so that lists, objects and strings are told apart item by item.
Main exports: Json.IsPrintable, Json.escape_append_inj, Json.render_append_inj, Json.bytes_inj
-/

namespace RestTables.Json

open RestTables.Number (isNumeral)

/-! ## Strings -/

/-- The characters that are not written as they are. -/
def escaped : List Char := '"' :: '\\' :: (List.range 32).map Char.ofNat

/-- All others are. -/
theorem escape_of_not_mem {c : Char} (h : c ∉ escaped) : escape c = [c] := by
  have hcontrol : ¬ c.toNat < 32 := by
    intro hlt
    apply h
    refine List.mem_cons_of_mem _ (List.mem_cons_of_mem _ (List.mem_map.mpr ⟨c.toNat, List.mem_range.mpr hlt, ?_⟩))
    exact Char.ofNat_toNat c
  unfold escape
  split <;> first | exact absurd (by decide) h | exact if_neg hcontrol

/-- Escapes begin with a backslash, and none is the beginning of another. -/
theorem escape_of_mem : ∀ c ∈ escaped, (escape c).head? = some '\\' ∧
    ∀ d ∈ escaped, (escape c).isPrefixOf (escape d) = true → c = d := by
  have hall : (escaped.all fun c => (escape c).head? == some '\\' &&
      escaped.all fun d => !(escape c).isPrefixOf (escape d) || c == d) = true := by
    decide +kernel
  intro c hc
  have hone := List.all_eq_true.mp hall c hc
  rw [Bool.and_eq_true, beq_iff_eq] at hone
  refine ⟨hone.1, fun d hd hfront => ?_⟩
  have hboth := List.all_eq_true.mp hone.2 d hd
  rw [hfront, Bool.not_true, Bool.false_or, beq_iff_eq] at hboth
  exact hboth

variable {c d : Char} {s t rest rest' : List Char}

theorem eq_of_prefix (hc : c ∈ escaped) (hd : d ∈ escaped) (h : escape c ++ s = escape d ++ t) : c = d := by
  rcases List.prefix_or_prefix_of_prefix (h ▸ List.prefix_append (escape c) s) (List.prefix_append (escape d) t) with
    hfront | hfront
  · exact (escape_of_mem c hc).2 d hd (List.isPrefixOf_iff_prefix.mpr hfront)
  · exact ((escape_of_mem d hd).2 c hc (List.isPrefixOf_iff_prefix.mpr hfront)).symm

/-- A character is told from what it is written as, whatever follows. -/
theorem escape_append_inj (h : escape c ++ s = escape d ++ t) : c = d ∧ s = t := by
  -- Of the characters that stand for themselves none is the backslash, with which all others are written.
  have hbackslash : ∀ {a b : Char} {u v : List Char}, a ∉ escaped → b ∈ escaped → escape a ++ u ≠ escape b ++ v := by
    intro a b u v ha hb heq
    have hhead := congrArg List.head? heq
    rw [escape_of_not_mem ha, List.head?_append, List.head?_append, (escape_of_mem b hb).1] at hhead
    rw [Option.some.inj hhead] at ha
    exact ha (by decide)
  have hsame : c = d := by
    by_cases hc : c ∈ escaped
    · by_cases hd : d ∈ escaped
      · exact eq_of_prefix hc hd h
      · exact absurd h.symm (hbackslash hd hc)
    · by_cases hd : d ∈ escaped
      · exact absurd h (hbackslash hc hd)
      · rw [escape_of_not_mem hc, escape_of_not_mem hd] at h
        exact (List.cons.inj h).1
  subst hsame
  exact ⟨rfl, List.append_cancel_left h⟩

/-- Nothing that a character is written as begins with a quote. -/
theorem escape_append_ne_quote (c : Char) (s t : List Char) : escape c ++ s ≠ '"' :: t := by
  intro heq
  have hhead := congrArg List.head? heq
  rw [List.head?_append] at hhead
  by_cases hc : c ∈ escaped
  · rw [(escape_of_mem c hc).1] at hhead
    exact absurd (Option.some.inj hhead) (by decide)
  · rw [escape_of_not_mem hc] at hhead
    obtain rfl : c = '"' := Option.some.inj hhead
    exact hc (by decide)

theorem flatMap_escape_inj (h : s.flatMap escape ++ '"' :: rest = t.flatMap escape ++ '"' :: rest') :
    s = t ∧ rest = rest' := by
  induction s generalizing t with
  | nil =>
    cases t with
    | nil => exact ⟨rfl, (List.cons.inj h).2⟩
    | cons d t =>
      rw [List.flatMap_cons, List.append_assoc] at h
      exact absurd h.symm (escape_append_ne_quote _ _ _)
  | cons c s ih =>
    rw [List.flatMap_cons, List.append_assoc] at h
    cases t with
    | nil => exact absurd h (escape_append_ne_quote _ _ _)
    | cons d t =>
      rw [List.flatMap_cons, List.append_assoc] at h
      obtain ⟨rfl, hrest⟩ := escape_append_inj h
      obtain ⟨rfl, rfl⟩ := ih hrest
      exact ⟨rfl, rfl⟩

/-- A string ends at its second quote. -/
theorem renderString_append_inj {a b : String} (h : renderString a ++ rest = renderString b ++ rest') :
    a = b ∧ rest = rest' := by
  simp only [renderString, List.cons_append, List.append_assoc, List.nil_append, List.cons.injEq, true_and] at h
  obtain ⟨hlists, hrest⟩ := flatMap_escape_inj h
  exact ⟨String.toList_inj.mp hlists, hrest⟩

/-! ## Values -/

mutual

/-- Every number in the value has a text of its own. -/
def IsPrintable : Json → Prop
  | .num n => n.IsPrintable
  | .arr items => ArePrintable items
  | .obj members => HasPrintableMembers members
  | _ => True

/-- So has every number in a list of values. -/
def ArePrintable : List Json → Prop
  | [] => True
  | v :: rest => IsPrintable v ∧ ArePrintable rest

/-- And every number in the members of an object. -/
def HasPrintableMembers : List (String × Json) → Prop
  | [] => True
  | (_, v) :: rest => IsPrintable v ∧ HasPrintableMembers rest

end

theorem isPrintable_obj {members : List (String × Json)} : (obj members).IsPrintable ↔ HasPrintableMembers members :=
  Iff.rfl

/-- What follows a value cannot be taken for more of a number. -/
def Stops (rest : List Char) : Prop := ∀ c ∈ rest.head?, isNumeral c = false

/-- What a text of the value begins with; a zero stands for every beginning of a number. -/
def opening : Json → Char
  | .null => 'n'
  | .bool true => 't'
  | .bool false => 'f'
  | .num _ => '0'
  | .str _ => '"'
  | .arr _ => '['
  | .obj _ => '{'

/-- What kind of value a text with that first character is of. -/
def openingOf (c : Char) : Char := if isNumeral c then '0' else c

variable {v w : Json}

theorem exists_render_eq_cons (hv : v.IsPrintable) : ∃ c s, v.render = c :: s ∧ openingOf c = v.opening := by
  cases v with
  | null | str | arr | obj => exact ⟨_, _, by rw [render]; rfl, rfl⟩
  | bool b => cases b <;> exact ⟨_, _, by rw [render]; rfl, rfl⟩
  | num n =>
    obtain ⟨c, s, hs⟩ := List.exists_cons_of_ne_nil (Number.toList_text_ne_nil hv)
    refine ⟨c, s, by rw [render, hs], ?_⟩
    have hc := Number.isNumeral_of_mem_text hv (hs ▸ List.mem_cons_self)
    rw [openingOf, if_pos hc]
    rfl

/-- Values of one kind; a truth value is a kind of its own. -/
inductive Alike : Json → Json → Prop where
  | null : Alike .null .null
  | bool (b : Bool) : Alike (.bool b) (.bool b)
  | num (n k : Number) : Alike (.num n) (.num k)
  | str (a b : String) : Alike (.str a) (.str b)
  | arr (vs ws : List Json) : Alike (.arr vs) (.arr ws)
  | obj (ms ks : List (String × Json)) : Alike (.obj ms) (.obj ks)

theorem alike_of_opening (h : v.opening = w.opening) : Alike v w := by
  rcases v with _ | (_ | _) | _ | _ | _ | _ <;> rcases w with _ | (_ | _) | _ | _ | _ | _ <;>
    first | constructor | exact absurd h (by simp [opening])

/-- Texts that are equal as far as they go begin alike. -/
theorem alike_of_render (hv : v.IsPrintable) (hw : w.IsPrintable) (h : v.render ++ rest = w.render ++ rest') :
    Alike v w := by
  obtain ⟨c, s, hs, hc⟩ := exists_render_eq_cons hv
  obtain ⟨d, t, ht, hd⟩ := exists_render_eq_cons hw
  rw [hs, ht] at h
  apply alike_of_opening
  rw [← hc, ← hd, (List.cons.inj h).1]

/-- No value begins with what ends a list. -/
theorem render_append_ne (hv : v.IsPrintable) : v.render ++ rest ≠ ']' :: rest' := by
  intro heq
  obtain ⟨c, s, hs, hc⟩ := exists_render_eq_cons hv
  rw [hs] at heq
  rw [(List.cons.inj heq).1] at hc
  rcases v with _ | (_ | _) | _ | _ | _ | _ <;> exact absurd hc (by simp [opening, openingOf, isNumeral])

/-- What stands behind an item, with the items that are left and the end of the list. -/
def behindItem : List Json → List Char → List Char
  | [], rest => ']' :: rest
  | v :: vs, rest => ',' :: (renderItems (v :: vs) ++ ']' :: rest)

theorem renderItems_cons_append (v : Json) (vs : List Json) (rest : List Char) :
    renderItems (v :: vs) ++ ']' :: rest = v.render ++ behindItem vs rest := by
  cases vs <;> simp [renderItems, behindItem]

theorem stops_behindItem (vs : List Json) (rest : List Char) : Stops (behindItem vs rest) := by
  cases vs <;> rintro c ⟨⟩ <;> rfl

theorem renderItems_eq_of_behindItem {vs ws : List Json} (h : behindItem vs rest = behindItem ws rest') :
    renderItems vs ++ ']' :: rest = renderItems ws ++ ']' :: rest' := by
  cases vs <;> cases ws <;> simp_all [behindItem, renderItems]

/-- What stands behind a member, with the members that are left and the end of the object. -/
def behindMember : List (String × Json) → List Char → List Char
  | [], rest => '\x7d' :: rest
  | m :: ms, rest => ',' :: (renderMembers (m :: ms) ++ '\x7d' :: rest)

theorem renderMembers_cons_append (k : String) (v : Json) (ms : List (String × Json)) (rest : List Char) :
    renderMembers ((k, v) :: ms) ++ '\x7d' :: rest = renderString k ++ ':' :: (v.render ++ behindMember ms rest) := by
  cases ms <;> simp [renderMembers, behindMember]

theorem stops_behindMember (ms : List (String × Json)) (rest : List Char) : Stops (behindMember ms rest) := by
  cases ms <;> rintro c ⟨⟩ <;> rfl

theorem renderMembers_eq_of_behindMember {ms ks : List (String × Json)}
    (h : behindMember ms rest = behindMember ks rest') :
    renderMembers ms ++ '\x7d' :: rest = renderMembers ks ++ '\x7d' :: rest' := by
  cases ms <;> cases ks <;> simp_all [behindMember, renderMembers]

/-- A number ends at the first character that is in none. -/
theorem number_append_inj {n k : Number} (hn : n.IsPrintable) (hk : k.IsPrintable) (hrest : Stops rest)
    (hrest' : Stops rest') (h : n.text.toList ++ rest = k.text.toList ++ rest') : n = k ∧ rest = rest' := by
  have htake := congrArg (List.takeWhile isNumeral) h
  rw [Text.takeWhile_append_of_stop (fun c => Number.isNumeral_of_mem_text hn) hrest,
    Text.takeWhile_append_of_stop (fun c => Number.isNumeral_of_mem_text hk) hrest'] at htake
  rw [htake] at h
  exact ⟨Number.text_inj hn hk (String.toList_inj.mp htake), List.append_cancel_left h⟩

mutual

/-- A value is told from its text, whatever follows that cannot be taken for more of a number. -/
theorem render_append_inj : ∀ {v w : Json} {rest rest' : List Char}, v.IsPrintable → w.IsPrintable →
    Stops rest → Stops rest' → v.render ++ rest = w.render ++ rest' → v = w ∧ rest = rest'
  | .null, w, rest, rest', hv, hw, _, _, h => by
    cases alike_of_render hv hw h
    exact ⟨rfl, List.append_cancel_left h⟩
  | .bool a, w, rest, rest', hv, hw, _, _, h => by
    cases alike_of_render hv hw h
    exact ⟨rfl, List.append_cancel_left h⟩
  | .num n, w, rest, rest', hv, hw, hrest, hrest', h => by
    cases alike_of_render hv hw h
    rw [render, render] at h
    obtain ⟨rfl, hsame⟩ := number_append_inj hv hw hrest hrest' h
    exact ⟨rfl, hsame⟩
  | .str a, w, rest, rest', hv, hw, _, _, h => by
    cases alike_of_render hv hw h
    rw [render, render] at h
    obtain ⟨rfl, hsame⟩ := renderString_append_inj h
    exact ⟨rfl, hsame⟩
  | .arr items, w, rest, rest', hv, hw, _, _, h => by
    cases alike_of_render hv hw h
    simp only [render, List.cons_append, List.append_assoc, List.nil_append, List.cons.injEq, true_and] at h
    obtain ⟨rfl, hsame⟩ := renderItems_append_inj hv hw h
    exact ⟨rfl, hsame⟩
  | .obj members, w, rest, rest', hv, hw, _, _, h => by
    cases alike_of_render hv hw h
    simp only [render, List.cons_append, List.append_assoc, List.nil_append, List.cons.injEq, true_and] at h
    obtain ⟨rfl, hsame⟩ := renderMembers_append_inj hv hw h
    exact ⟨rfl, hsame⟩

/-- The items of a list are told one by one, up to its end. -/
theorem renderItems_append_inj : ∀ {vs ws : List Json} {rest rest' : List Char}, ArePrintable vs → ArePrintable ws →
    renderItems vs ++ ']' :: rest = renderItems ws ++ ']' :: rest' → vs = ws ∧ rest = rest'
  | [], [], _, _, _, _, h => ⟨rfl, (List.cons.inj h).2⟩
  | [], w :: ws, _, _, _, hws, h => by
    rw [renderItems_cons_append] at h
    exact absurd h.symm (render_append_ne hws.1)
  | v :: vs, [], _, _, hvs, _, h => by
    rw [renderItems_cons_append] at h
    exact absurd h (render_append_ne hvs.1)
  | v :: vs, w :: ws, _, _, hvs, hws, h => by
    rw [renderItems_cons_append, renderItems_cons_append] at h
    obtain ⟨rfl, hbehind⟩ := render_append_inj hvs.1 hws.1 (stops_behindItem _ _) (stops_behindItem _ _) h
    obtain ⟨rfl, hsame⟩ := renderItems_append_inj hvs.2 hws.2 (renderItems_eq_of_behindItem hbehind)
    exact ⟨rfl, hsame⟩

/-- So are the members of an object. -/
theorem renderMembers_append_inj : ∀ {ms ks : List (String × Json)} {rest rest' : List Char},
    HasPrintableMembers ms → HasPrintableMembers ks →
    renderMembers ms ++ '\x7d' :: rest = renderMembers ks ++ '\x7d' :: rest' → ms = ks ∧ rest = rest'
  | [], [], _, _, _, _, h => ⟨rfl, (List.cons.inj h).2⟩
  | [], (k, w) :: ks, _, _, _, _, h => by
    rw [renderMembers_cons_append] at h
    cases (List.cons.inj h).1
  | (k, v) :: ms, [], _, _, _, _, h => by
    rw [renderMembers_cons_append] at h
    cases (List.cons.inj h).1
  | (k, v) :: ms, (l, w) :: ks, _, _, hms, hks, h => by
    rw [renderMembers_cons_append, renderMembers_cons_append] at h
    obtain ⟨rfl, hcolon⟩ := renderString_append_inj h
    obtain ⟨rfl, hbehind⟩ := render_append_inj hms.1 hks.1 (stops_behindMember _ _) (stops_behindMember _ _)
      (List.cons.inj hcolon).2
    obtain ⟨rfl, hsame⟩ := renderMembers_append_inj hms.2 hks.2 (renderMembers_eq_of_behindMember hbehind)
    exact ⟨rfl, hsame⟩

end

/-- Different values have different bytes. -/
theorem bytes_inj (hv : v.IsPrintable) (hw : w.IsPrintable) (h : v.bytes = w.bytes) : v = w := by
  have htext : v.render = w.render := by
    rw [← Text.Utf8.decodeLossy_encode v.render, ← Text.Utf8.decodeLossy_encode w.render]
    exact congrArg Text.Utf8.decodeLossy h
  have hstops : Stops [] := nofun
  exact (render_append_inj hv hw hstops hstops (by rw [htext])).1

end RestTables.Json
