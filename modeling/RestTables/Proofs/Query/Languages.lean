import RestTables.Proofs.Text.Split
import RestTables.Query.Arguments
import RestTables.Query.Payload

/-
Module: RestTables.Proofs.Query.Languages
Purpose: The two languages of tests agree. A test can be written as a value of a query string, with marks around its
  operands, and as an operator with a JSON value; both mean the same, whatever the operands look like.
Main exports: Phrase, Phrase.token, Phrase.operator, Phrase.operand, Phrase.meaning?, Phrase.read_alike
-/

namespace RestTables

open Text

/-- A test with its operands as texts. -/
inductive Phrase where
  | gt (x : String)
  | ge (x : String)
  | lt (x : String)
  | le (x : String)
  | like (negated : Bool) (x : String)
  | between (negated : Bool) (x y : String)
  | eq (negated : Bool) (x : String)
  | isIn (negated : Bool) (x y : String) (more : List String)
  /-- What stands beside the operator does not matter. -/
  | null (negated : Bool) (beside : Json)

namespace Phrase

/-- The exclamation mark of what is denied. -/
def negation (negated : Bool) : String := if negated then "!" else ""

/-- The test as a value of a query string. An operand of an equality is escaped, so that it stands for itself. -/
def token : Phrase → String
  | gt x => "__gt__" ++ x
  | ge x => "__gte__" ++ x
  | lt x => "__lt__" ++ x
  | le x => "__lte__" ++ x
  | like negated x => negation negated ++ "%" ++ x
  | between negated x y => negation negated ++ "(" ++ x ++ ";" ++ y ++ ")"
  | eq negated x => negation negated ++ "\\" ++ x
  | isIn negated x y more => negation negated ++ "\\" ++ Text.join ";" (x :: y :: more)
  | null negated _ => negation negated ++ "null"

/-- The operator of the test in a body. -/
def operator : Phrase → Operator
  | gt _ => .gt
  | ge _ => .ge
  | lt _ => .lt
  | le _ => .le
  | like negated _ => if negated then .notLike else .like
  | between negated _ _ => if negated then .notBetween else .between
  | eq negated _ => if negated then .ne else .eq
  | isIn negated _ _ _ => if negated then .notIn else .isIn
  | null negated _ => if negated then .isNotNull else .isNull

/-- The operands. -/
def operands : Phrase → List String
  | gt x | ge x | lt x | le x | like _ x | eq _ x => [x]
  | between _ x y => [x, y]
  | isIn _ x y more => x :: y :: more
  | null _ _ => []

/-- The value of the test in a body: a string, or a list of strings. -/
def operand : Phrase → Json
  | gt x | ge x | lt x | le x | like _ x | eq _ x => .str x
  | between _ x y => .arr [.str x, .str y]
  | isIn _ x y more => .arr ((x :: y :: more).map .str)
  | null _ beside => beside

/-- What the test means for a column of a kind; none when an operand does not fit the kind. -/
def meaning? (kind : Kind) : Phrase → Option Predicate
  | gt x => (Value.ofText? kind x).map (.compare .gt)
  | ge x => (Value.ofText? kind x).map (.compare .ge)
  | lt x => (Value.ofText? kind x).map (.compare .lt)
  | le x => (Value.ofText? kind x).map (.compare .le)
  | like negated x => some (.like x negated)
  | between negated x y => do some (.range (← Value.ofText? kind x) (← Value.ofText? kind y) negated)
  | eq negated x => (Value.ofText? kind x).map (.compare (if negated then .ne else .eq))
  | isIn negated x y more => ((x :: y :: more).mapM (Value.ofText? kind)).map fun vs => .isIn vs negated
  | null negated _ => some (.null negated)

example : (isIn true "a" "(b" ["!c"]).token = "!\\a;(b;!c" := by decide +kernel

end Phrase

namespace Compiler

/-! ## Values of bodies -/

/-- A string in a body is read like a text in a query string, except for a JSON column. -/
theorem ofJson?_str {kind : Kind} (hkind : kind ≠ .json) (s : String) :
    Value.ofJson? kind (.str s) = Value.ofText? kind s := by
  cases kind with
  | json => exact absurd rfl hkind
  | integer | float | decimal | boolean | string | date | time | datetime | datetimeTz | uuid | binary => rfl

theorem operands?_map_str {kind : Kind} (hkind : kind ≠ .json) (xs : List String) :
    operands? kind (.arr (xs.map .str)) = xs.mapM (Value.ofText? kind) := by
  have hmap : operands? kind (.arr (xs.map .str)) = (xs.map Json.str).mapM (Value.ofJson? kind) := rfl
  rw [hmap, List.mapM_map]
  exact congrArg (List.mapM · xs) (funext (ofJson?_str hkind))

theorem value?_toList (kind : Kind) (x : String) : value? kind x.toList = Value.ofText? kind x := by
  rw [value?, String.ofList_toList]

theorem mapM_value?_map_toList (kind : Kind) (xs : List String) :
    (xs.map (·.toList)).mapM (value? kind) = xs.mapM (Value.ofText? kind) := by
  rw [List.mapM_map]
  exact congrArg (List.mapM · xs) (funext (value?_toList kind))

/-! ## Values of query strings

A value is looked at for a comparison first, then for a pattern, for a range, and for a list in the end. Each lemma
takes the stages before its own as passed over. -/

section Stages

variable {kind : Kind} {raw : String} {s : List Char}

theorem predicate?_of_comparison (hraw : raw.toList = s) (htrim : trim s = s) (hne : s ≠ []) {op : Operator}
    {rest : List Char} (h : comparison? {} s = some (op, rest)) :
    predicate? {} kind raw = (value? kind rest).map (.compare op) := by
  simp only [predicate?, hraw, htrim, List.isEmpty_iff, hne, ↓reduceIte, h]

theorem predicate?_of_pattern (hraw : raw.toList = s) (htrim : trim s = s) (hne : s ≠ [])
    (hcomparison : comparison? {} s = none) {rest : List Char} {negated : Bool}
    (h : pattern? {} s = some (rest, negated)) :
    predicate? {} kind raw = some (.like (String.ofList rest) negated) := by
  simp only [predicate?, hraw, htrim, List.isEmpty_iff, hne, ↓reduceIte, hcomparison, h]

theorem predicate?_of_range (hraw : raw.toList = s) (htrim : trim s = s) (hne : s ≠ [])
    (hcomparison : comparison? {} s = none) (hpattern : pattern? {} s = none) {inner : List Char} {negated : Bool}
    (h : range? {} s = some (inner, negated)) :
    predicate? {} kind raw = rangeOf? kind negated (({} : Grammar).items inner) := by
  simp only [predicate?, hraw, htrim, List.isEmpty_iff, hne, ↓reduceIte, hcomparison, hpattern, h]

theorem predicate?_of_items (hraw : raw.toList = s) (htrim : trim s = s) (hne : s ≠ [])
    (hcomparison : comparison? {} s = none) (hpattern : pattern? {} s = none) (hrange : range? {} s = none) :
    predicate? {} kind raw = membership? {} kind (({} : Grammar).items s) := by
  simp only [predicate?, hraw, htrim, List.isEmpty_iff, hne, ↓reduceIte, hcomparison, hpattern, hrange]

end Stages

/-- Only what begins with an underscore can be a comparison. -/
theorem comparison?_eq_none {c : Char} {s : List Char} (h : c ≠ '_') : comparison? {} (c :: s) = none := by
  have hafter : ∀ mark : List Char, after? ('_' :: mark) (c :: s) = none := by
    intro mark
    simp [after?, h.symm]
  have hgt : ({} : Grammar).gt.toList = '_' :: ['_', 'g', 't', '_', '_'] := rfl
  have hge : ({} : Grammar).gte.toList = '_' :: ['_', 'g', 't', 'e', '_', '_'] := rfl
  have hlt : ({} : Grammar).lt.toList = '_' :: ['_', 'l', 't', '_', '_'] := rfl
  have hle : ({} : Grammar).lte.toList = '_' :: ['_', 'l', 't', 'e', '_', '_'] := rfl
  simp [comparison?, comparisons, hgt, hge, hlt, hle, hafter]

theorem comparison?_gt (s : List Char) : comparison? {} ("__gt__".toList ++ s) = some (.gt, s) := rfl
theorem comparison?_ge (s : List Char) : comparison? {} ("__gte__".toList ++ s) = some (.ge, s) := rfl
theorem comparison?_lt (s : List Char) : comparison? {} ("__lt__".toList ++ s) = some (.lt, s) := rfl
theorem comparison?_le (s : List Char) : comparison? {} ("__lte__".toList ++ s) = some (.le, s) := rfl

/-- A text in round brackets is a range, denied or not, whatever stands inside. -/
theorem range?_brackets (negated : Bool) (inner : List Char) :
    range? {} ((Phrase.negation negated).toList ++ '(' :: (inner ++ [')'])) = some (inner, negated) := by
  have hbody : before? [')'] ((Phrase.negation negated).toList ++ '(' :: (inner ++ [')']))
      = some ((Phrase.negation negated).toList ++ '(' :: inner) :=
    before?_eq_some_iff.mpr (by simp)
  have hend : ({} : Grammar).rangeEnd.toList = [')'] := rfl
  rw [range?, hend, hbody]
  cases negated <;> rfl

/-- What does not begin with a bracket is no range. -/
theorem range?_eq_none {s : List Char} (hopen : ∀ rest, s ≠ '(' :: rest) (hdenied : ∀ rest, s ≠ '!' :: '(' :: rest) :
    range? {} s = none := by
  have hend : ({} : Grammar).rangeEnd.toList = [')'] := rfl
  have hstart : ({} : Grammar).rangeStart.toList = ['('] := rfl
  have hnot : ({} : Grammar).notRangeStart.toList = ['!', '('] := rfl
  rw [range?, hend, hstart, hnot]
  cases hbody : before? [')'] s with
  | none => rfl
  | some body =>
    have hs : s = body ++ [')'] := before?_eq_some_iff.mp hbody
    have hbracket : after? ['('] body = none :=
      Option.eq_none_iff_forall_ne_some.mpr fun r h => hopen (r ++ [')']) (by simp [hs, after?_eq_some_iff.mp h])
    have hmark : after? ['!', '('] body = none :=
      Option.eq_none_iff_forall_ne_some.mpr fun r h => hdenied (r ++ [')']) (by simp [hs, after?_eq_some_iff.mp h])
    simp [hbracket, hmark]

/-- The escape takes every other meaning from the operand behind it. -/
theorem membership?_escaped (kind : Kind) (negated : Bool) (x : String) (more : List String) :
    membership? {} kind (((Phrase.negation negated).toList ++ '\\' :: x.toList) :: more.map (·.toList)) =
      if more.isEmpty then (Value.ofText? kind x).map fun v => .compare (if negated then .ne else .eq) v
      else ((x :: more).mapM (Value.ofText? kind)).map fun vs => .isIn vs negated := by
  -- the first item carries the denial and the escape, in this order
  have hdenied : takeMark ({} : Grammar).negate.toList ((Phrase.negation negated).toList ++ '\\' :: x.toList)
      = (negated, '\\' :: x.toList) := by
    cases negated <;> rfl
  have hescaped : takeMark [({} : Grammar).escape] ('\\' :: x.toList) = (true, x.toList) := by
    simp [takeMark, after?]
  have hvalues : (x.toList :: more.map (·.toList)).mapM (value? kind) = (x :: more).mapM (Value.ofText? kind) :=
    mapM_value?_map_toList kind (x :: more)
  simp only [membership?, hdenied, hescaped, List.isEmpty_map, Bool.not_true, Bool.false_and, Bool.false_eq_true,
    ↓reduceIte, value?_toList, hvalues]

end Compiler

/-! ## The two languages -/

namespace Phrase

open Compiler

variable {kind : Kind}

/-- What an operator and a value in a body make of a test. -/
theorem test?_operand (hkind : kind ≠ .json) (p : Phrase) : test? kind p.operator p.operand = p.meaning? kind := by
  cases p with
  | gt x | ge x | lt x | le x => exact congrArg (Option.map _) (ofJson?_str hkind x)
  | like negated x => cases negated <;> rfl
  | eq negated x =>
    cases negated with
    | false => exact congrArg (Option.map _) (ofJson?_str hkind x)
    | true => exact congrArg (Option.map _) (ofJson?_str hkind x)
  | between negated x y =>
    have hoperands : operands? kind (.arr [.str x, .str y]) = [x, y].mapM (Value.ofText? kind) :=
      operands?_map_str hkind [x, y]
    cases hx : Value.ofText? kind x <;> cases hy : Value.ofText? kind y <;> cases negated <;>
      simp [test?, operator, operand, meaning?, hoperands, hx, hy]
  | isIn negated x y more =>
    have hoperands := operands?_map_str hkind (x :: y :: more)
    cases negated with
    | false => exact congrArg (Option.map _) hoperands
    | true => exact congrArg (Option.map _) hoperands
  | null negated beside => cases negated <;> rfl

theorem predicate?_order {op : Operator} {mark x : String} (hx : Grammar.IsItem x.toList)
    (hmark : mark.toList ≠ [] ∧ trim mark.toList = mark.toList)
    (h : comparison? {} (mark.toList ++ x.toList) = some (op, x.toList)) :
    predicate? {} kind (mark ++ x) = (Value.ofText? kind x).map (.compare op) := by
  have htrim := trim_append_append [] hmark.1 hx.ne_nil hmark.2 hx.trim_eq
  rw [List.append_nil] at htrim
  rw [predicate?_of_comparison String.toList_append htrim (by simp [hmark.1]) h, value?_toList]

theorem predicate?_like (negated : Bool) {x : String} (hx : Grammar.IsItem x.toList) :
    predicate? {} kind (like negated x).token = some (.like x negated) := by
  have htoken : (like negated x).token.toList = (negation negated).toList ++ '%' :: x.toList := by
    simp [token, String.toList_append]
  have hitem : Grammar.IsItem ('%' :: x.toList) := hx.cons (by decide) (by decide)
  cases negated with
  | false =>
    rw [predicate?_of_pattern htoken hitem.trim_eq hitem.ne_nil (comparison?_eq_none (by decide)) rfl,
      String.ofList_toList]
  | true =>
    have hdenied : Grammar.IsItem ('!' :: '%' :: x.toList) := hitem.cons (by decide) (by decide)
    rw [predicate?_of_pattern htoken hdenied.trim_eq hdenied.ne_nil (comparison?_eq_none (by decide)) rfl,
      String.ofList_toList]

theorem predicate?_between (negated : Bool) {x y : String} (hx : Grammar.IsItem x.toList)
    (hy : Grammar.IsItem y.toList) :
    predicate? {} kind (between negated x y).token = (between negated x y).meaning? kind := by
  let inner := x.toList ++ ';' :: y.toList
  have htoken : (between negated x y).token.toList = (negation negated).toList ++ '(' :: (inner ++ [')']) := by
    simp [token, String.toList_append, inner]
  -- The brackets keep blanks inside, where they belong to the items.
  have htrim : trim ((negation negated).toList ++ '(' :: (inner ++ [')']))
      = (negation negated).toList ++ '(' :: (inner ++ [')']) := by
    have hopen : trim ((negation negated).toList ++ ['(']) = (negation negated).toList ++ ['('] := by
      cases negated <;> decide
    simpa using trim_append_append inner (t := [')']) (by simp) (by simp) hopen (by decide)
  have hcomparison : comparison? {} ((negation negated).toList ++ '(' :: (inner ++ [')'])) = none := by
    cases negated <;> exact comparison?_eq_none (by decide)
  have hpattern : pattern? {} ((negation negated).toList ++ '(' :: (inner ++ [')'])) = none := by
    cases negated <;> rfl
  have hitems : ({} : Grammar).items inner = [x.toList, y.toList] := by
    have h : ({} : Grammar).items ([';'].intercalate [x.toList, y.toList]) = [x.toList, y.toList] :=
      Grammar.items_intercalate (by simp) (by simp [hx, hy])
    simpa [List.intercalate] using h
  rw [predicate?_of_range htoken htrim (by simp) hcomparison hpattern (range?_brackets negated inner), hitems, rangeOf?,
    value?_toList, value?_toList]
  rfl

/-- A list of which the first item is escaped. -/
theorem predicate?_escaped (negated : Bool) {x : String} {more : List String} (hx : Grammar.IsItem x.toList)
    (hmore : ∀ y ∈ more, Grammar.IsItem y.toList) :
    predicate? {} kind (negation negated ++ "\\" ++ Text.join ";" (x :: more)) =
      if more.isEmpty then (Value.ofText? kind x).map fun v => .compare (if negated then .ne else .eq) v
      else ((x :: more).mapM (Value.ofText? kind)).map fun vs => .isIn vs negated := by
  let items := ((negation negated).toList ++ '\\' :: x.toList) :: more.map (·.toList)
  have htoken : (negation negated ++ "\\" ++ Text.join ";" (x :: more)).toList = [';'].intercalate items := by
    rw [String.toList_append, toList_join]
    cases more <;> simp [items, List.intercalate]
  have hitems : ∀ s ∈ items, Grammar.IsItem s := by
    have hescaped : Grammar.IsItem ('\\' :: x.toList) := hx.cons (by decide) (by decide)
    have hfirst : Grammar.IsItem ((negation negated).toList ++ '\\' :: x.toList) := by
      cases negated with
      | false => exact hescaped
      | true => exact hescaped.cons (by decide) (by decide)
    simpa [items, hfirst] using hmore
  have htrim : trim ([';'].intercalate items) = [';'].intercalate items :=
    trim_intercalate fun s hs => ⟨(hitems s hs).ne_nil, (hitems s hs).trim_eq⟩
  obtain ⟨rest, hrest⟩ : ∃ rest, [';'].intercalate items = (negation negated).toList ++ '\\' :: rest := by
    cases more with
    | nil => exact ⟨x.toList, by simp [items, List.intercalate]⟩
    | cons y more => exact ⟨x.toList ++ ';' :: [';'].intercalate ((y :: more).map (·.toList)), by
        simp [items, List.intercalate]⟩
  -- The backslash stands where a comparison, a pattern or a range would show itself.
  have hcomparison : comparison? {} ([';'].intercalate items) = none := by
    rw [hrest]
    cases negated <;> exact comparison?_eq_none (by decide)
  have hpattern : pattern? {} ([';'].intercalate items) = none := by
    rw [hrest]
    cases negated <;> rfl
  have hrange : range? {} ([';'].intercalate items) = none := by
    rw [hrest]
    cases negated <;> exact range?_eq_none (by simp [negation]) (by simp [negation])
  have hne : [';'].intercalate items ≠ [] := by simp [hrest]
  rw [predicate?_of_items htoken htrim hne hcomparison hpattern hrange,
    Grammar.items_intercalate (List.cons_ne_nil _ _) hitems, membership?_escaped]

theorem predicate?_null (negated : Bool) (beside : Json) :
    predicate? {} kind (null negated beside).token = some (.null negated) := by
  let s := (negation negated).toList ++ "null".toList
  have htoken : (null negated beside).token.toList = s := by simp [token, String.toList_append, s]
  have hitem : Grammar.IsItem s := by
    cases negated <;> exact ⟨by decide, by decide, by decide⟩
  have hcomparison : comparison? {} s = none := by
    cases negated <;> exact comparison?_eq_none (by decide)
  have hpattern : pattern? {} s = none := by
    cases negated <;> rfl
  have hrange : range? {} s = none := by
    cases negated <;> rfl
  have hitems : ({} : Grammar).items s = [s] := by
    have h : ({} : Grammar).items ([';'].intercalate [s]) = [s] :=
      Grammar.items_intercalate (by simp) (by simp [hitem])
    simpa [List.intercalate] using h
  rw [predicate?_of_items htoken hitem.trim_eq hitem.ne_nil hcomparison hpattern hrange, hitems]
  cases negated <;> rfl

/-- What a value of a query string makes of a test. -/
theorem predicate?_token (p : Phrase) (hitems : ∀ x ∈ p.operands, Grammar.IsItem x.toList) :
    predicate? {} kind p.token = p.meaning? kind := by
  cases p with
  | gt x => exact predicate?_order (hitems x (by simp [operands])) (by decide) (comparison?_gt _)
  | ge x => exact predicate?_order (hitems x (by simp [operands])) (by decide) (comparison?_ge _)
  | lt x => exact predicate?_order (hitems x (by simp [operands])) (by decide) (comparison?_lt _)
  | le x => exact predicate?_order (hitems x (by simp [operands])) (by decide) (comparison?_le _)
  | like negated x => exact predicate?_like negated (hitems x (by simp [operands]))
  | between negated x y =>
    exact predicate?_between negated (hitems x (by simp [operands])) (hitems y (by simp [operands]))
  | eq negated x =>
    have hmore : ∀ z ∈ ([] : List String), Grammar.IsItem z.toList := nofun
    exact (predicate?_escaped negated (hitems x (by simp [operands])) hmore).trans (if_pos rfl)
  | isIn negated x y more =>
    have hmore : ∀ z ∈ y :: more, Grammar.IsItem z.toList := fun z hz => hitems z (List.mem_cons_of_mem x hz)
    exact predicate?_escaped negated (hitems x List.mem_cons_self) hmore
  | null negated beside => exact predicate?_null negated beside

/-- The two languages agree: whatever its operands look like, a test that is a value of a query string and the same
test in a body are read alike, namely as what they mean. -/
theorem read_alike (hkind : kind ≠ .json) (p : Phrase) (hitems : ∀ x ∈ p.operands, Grammar.IsItem x.toList) :
    predicate? {} kind p.token = test? kind p.operator p.operand ∧ test? kind p.operator p.operand = p.meaning? kind :=
  ⟨(predicate?_token p hitems).trans (test?_operand hkind p).symm, test?_operand hkind p⟩

/-- Operands that look like a range, the word for NULL, an escape and a mark of denial. -/
theorem read_alike_of_lookalikes :
    Kind.string ≠ .json ∧ Grammar.IsItem "!null".toList ∧
      predicate? {} .string "!\\(a);null;\\b;!null" =
        test? .string .notIn (.arr [.str "(a)", .str "null", .str "\\b", .str "!null"]) := by
  have hitems : ∀ x ∈ (isIn true "(a)" "null" ["\\b", "!null"]).operands, Grammar.IsItem x.toList := by
    simp only [operands, List.forall_mem_cons]
    exact ⟨⟨by decide, by decide, by decide⟩, ⟨by decide, by decide, by decide⟩, ⟨by decide, by decide, by decide⟩,
      ⟨by decide, by decide, by decide⟩, by simp⟩
  exact ⟨by decide, hitems "!null" (by decide), (read_alike (by decide) _ hitems).1⟩

end Phrase

end RestTables
