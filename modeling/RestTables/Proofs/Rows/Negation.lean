import RestTables.Proofs.Query.Operands
import RestTables.Proofs.Rows.Condition

/-
Module: RestTables.Proofs.Rows.Negation
Purpose: Tests of a body and their opposites. A test and its opposite are never both true of a row, and one of them is
  wherever the column is known, except where a NULL stands among what it is compared with: a list with a NULL has only
  the rows that equal one of its values, and a range with a NULL only those beyond its other end.
Main exports: Operator.opposite?, Predicate.Opposes, Engine.Orders, Predicate.Settles, Compiler.opposite_tests_split
-/

namespace RestTables

open Sql

/-! ## Opposites -/

/-- The operator that asks for the opposite. -/
def Operator.opposite? : Operator → Option Operator
  | .eq => some .ne
  | .like => some .notLike
  | .isIn => some .notIn
  | .isNull => some .isNotNull
  | .between => some .notBetween
  | .ne | .gt | .ge | .lt | .le | .notLike | .notIn | .isNotNull | .notBetween => none

/-- The one test asks for what the other one does not. -/
inductive Predicate.Opposes : Predicate → Predicate → Prop where
  | compare (w : Value) : Opposes (.compare .ne w) (.compare .eq w)
  | like (pattern : String) : Opposes (.like pattern true) (.like pattern false)
  | isIn (values : List Value) : Opposes (.isIn values true) (.isIn values false)
  | null : Opposes (.null true) (.null false)
  | range (low high : Value) : Opposes (.range low high true) (.range low high false)

namespace Compiler

variable {kind : Kind} {op op' : Operator} {v : Json} {p : Predicate}

/-- Where an operator and a value make a test, the opposite operator makes the opposite test. -/
theorem exists_opposite_test? (hop : op.opposite? = some op') (h : test? kind op v = some p) :
    ∃ p', test? kind op' v = some p' ∧ p'.Opposes p := by
  cases op with
  | eq =>
    cases hop
    simp only [test?] at h ⊢
    split at h
    · next hnull =>
      cases h
      exact ⟨.null true, if_pos hnull, .null⟩
    · next hnull =>
      obtain ⟨w, hw, rfl⟩ := Option.map_eq_some_iff.mp h
      exact ⟨.compare .ne w, by rw [if_neg hnull, hw]; rfl, .compare w⟩
  | like =>
    cases hop
    obtain ⟨pattern, hpattern, rfl⟩ := Option.map_eq_some_iff.mp h
    exact ⟨.like pattern true, Option.map_eq_some_iff.mpr ⟨pattern, hpattern, rfl⟩, .like pattern⟩
  | isIn =>
    cases hop
    obtain ⟨values, hvalues, rfl⟩ := Option.map_eq_some_iff.mp h
    exact ⟨.isIn values true, Option.map_eq_some_iff.mpr ⟨values, hvalues, rfl⟩, .isIn values⟩
  | isNull =>
    cases hop
    cases h
    exact ⟨.null true, rfl, .null⟩
  | between =>
    cases hop
    obtain ⟨values, hvalues, hrange⟩ := Option.bind_eq_some_iff.mp h
    split at hrange
    · next low high =>
      cases hrange
      exact ⟨.range low high true, Option.bind_eq_some_iff.mpr ⟨_, hvalues, rfl⟩, .range low high⟩
    · cases hrange
  | ne | gt | ge | lt | le | notLike | notIn | isNotNull | notBetween => cases hop

end Compiler

/-! ## Rows -/

/-- The engine orders the values of a kind: of two that are known, one is less exactly when it is not greater or
equal. The doubles are the kind that is not so ordered where NaN is one of them. -/
def Sql.Engine.Orders (E : Engine) (kind : Kind) : Prop :=
  ∀ a b : Value, a.IsKnown kind → b.IsKnown kind → E.less a b = !(E.less b a || E.equal a b)

/-- What a test is compared with settles whether a value meets it: nothing of it is NULL, or what is not NULL is
enough. -/
def Predicate.Settles (E : Engine) (x : Value) : Predicate → Prop
  | .compare _ w => w.isSqlNull = false
  | .isIn values _ => (∀ w ∈ values, w.isSqlNull = false) ∨ ∃ w ∈ values, E.Equal x w
  | .range low high _ => (low.isSqlNull = false ∧ high.isSqlNull = false) ∨ E.Less x low ∨ E.Less high x
  | .like .. | .null .. => True

/-- The plain engine orders whole numbers. -/
theorem Sql.Engine.orders_plain_integer (keys : List (String × List String)) :
    (Engine.plain keys).Orders .integer := by
  have hnumber : ∀ v : Value, v.IsKnown .integer → ∃ n, v = .bigInt (some n) := by
    rintro v ⟨hkind, hknown⟩
    cases v with
    | bigInt n => exact ⟨n.get (by simpa [Value.isSqlNull, Option.isSome_iff_ne_none] using hknown), by simp⟩
    | _ => cases hkind
  intro a b ha hb
  obtain ⟨x, rfl⟩ := hnumber a ha
  obtain ⟨y, rfl⟩ := hnumber b hb
  rw [Bool.eq_iff_iff]
  simp only [Engine.plain, decide_eq_true_eq, Bool.not_eq_true', Bool.or_eq_false_iff, decide_eq_false_iff_not,
    beq_eq_false_iff_ne, ne_eq, Value.bigInt.injEq, Option.some.injEq, Int64.lt_iff_toInt_lt, ← Int64.toInt_inj]
  omega

section Truth

variable {E : Engine} {x w : Value} {kind : Kind}

theorem Sql.Engine.equal_comm (a b : Value) : E.equal a b = E.equal b a :=
  Bool.eq_iff_iff.mpr ⟨E.equal_symm, E.equal_symm⟩

/-- A known value either equals another one or differs from it, if that is known as well. -/
theorem Sql.Engine.compare_ne_iff_not_eq (hx : x.isSqlNull = false) :
    (E.compare .ne x w = some true ↔ ¬ E.compare .eq x w = some true) ↔ w.isSqlNull = false := by
  unfold Engine.compare
  cases w.isSqlNull with
  | true => simp
  | false => simp [hx, Engine.decide]

/-- A known value is certainly one of a list or certainly none of it, if all of the list is known or it equals one of
them. -/
theorem Sql.Engine.member_eq_false_iff_not_true {values : List Value} (hx : x.isSqlNull = false) :
    (E.member x values = some false ↔ ¬ E.member x values = some true) ↔
      (∀ w ∈ values, w.isSqlNull = false) ∨ ∃ w ∈ values, E.Equal x w := by
  rw [Engine.member_eq_true_iff, Engine.member_eq_false_iff]
  constructor
  · intro hsplit
    by_cases hone : ∃ w ∈ values, E.Equal x w
    · exact .inr hone
    · exact .inl fun w hw => (Engine.compare_eq_false_iff.mp (hsplit.mpr hone w hw)).2.1
  · rintro (hknown | hone)
    · constructor
      · rintro hnone ⟨w, hw, hequal⟩
        exact absurd (Engine.compare_eq_iff.mpr hequal) (by rw [hnone w hw]; decide)
      · intro hnone w hw
        have hdiffer : E.equal x w ≠ true := fun hequal => hnone ⟨w, hw, hx, hknown w hw, hequal⟩
        exact Engine.compare_eq_false_iff.mpr ⟨hx, hknown w hw, Bool.eq_false_iff.mpr hdiffer⟩
    · refine ⟨fun hnone => ?_, fun hno => absurd hone hno⟩
      obtain ⟨w, hw, hequal⟩ := hone
      exact absurd (Engine.compare_eq_iff.mpr hequal) (by rw [hnone w hw]; decide)

/-- A known value is not less than another one exactly where it is greater or equal, if that is known. -/
theorem Sql.Engine.Orders.compare_ge_iff (h : E.Orders kind) (hx : x.IsKnown kind) (hw : w.IsKnown kind) :
    E.compare .ge x w = some true ↔ ¬ E.Less x w := by
  rw [Engine.compare_eq_true_iff]
  simp only [hx.2, hw.2, Engine.decide, Engine.Less, true_and, h x w hx hw, Bool.not_eq_true',
    Bool.not_eq_false]

/-- The same the other way. -/
theorem Sql.Engine.Orders.compare_le_iff (h : E.Orders kind) (hx : x.IsKnown kind) (hw : w.IsKnown kind) :
    E.compare .le x w = some true ↔ ¬ E.Less w x := by
  rw [Engine.compare_eq_true_iff]
  simp only [hx.2, hw.2, Engine.decide, Engine.Less, true_and, h w x hw hx, Bool.not_eq_true',
    Bool.not_eq_false, Engine.equal_comm w x]

/-- Nothing is known of a value and a NULL. -/
theorem Sql.Engine.not_compare_of_isSqlNull {op : Comparison} (hw : w.isSqlNull = true) :
    ¬ E.compare op x w = some true := by
  simp [Engine.compare, hw]

variable {db : Database} {σ : Scope} {column : Column} {p p' : Predicate} {escape : Char}

/-- A known value is within a range or beyond one of its ends, if both ends are known or it is beyond the one that
is. -/
theorem Predicate.range_split_iff {low high : Value} (h : E.Orders kind) (hx : (σ.value column).IsKnown kind)
    (hlow : low.hasKind kind = true) (hhigh : high.hasKind kind = true) :
    (((Predicate.range low high true).condition escape column).eval E db σ = some true ↔
        ¬ ((Predicate.range low high false).condition escape column).eval E db σ = some true) ↔
      (Predicate.range low high false).Settles E (σ.value column) := by
  have horder : ∀ (op : Operator) (w : Value), op.isOrder = true →
      (E.compare op.comparison (σ.value column) w = some true ↔ op.Holds E (σ.value column) w) :=
    fun op w hop => Operator.compare_comparison_iff hop
  have hbeyond : ((Predicate.range low high true).condition escape column).eval E db σ = some true ↔
      E.Less (σ.value column) low ∨ E.Less high (σ.value column) := by
    rw [condition, Condition.eval_any_iff]
    simp only [List.exists_mem_cons_iff, List.not_mem_nil, false_and, exists_false, or_false, Condition.eval_compare]
    exact or_congr (horder .lt low rfl) (horder .gt high rfl)
  have hwithin : ((Predicate.range low high false).condition escape column).eval E db σ = some true ↔
      E.compare .ge (σ.value column) low = some true ∧ E.compare .le (σ.value column) high = some true := by
    simp only [condition, Condition.eval, Truth.conj_eq_true_iff, List.forall_mem_cons, List.not_mem_nil,
      false_imp_iff, implies_true, and_true]
  rw [hbeyond, hwithin, Settles]
  -- A comparison with NULL is never true. Then the opposite is left with the other end of the range.
  cases hl : low.isSqlNull with
  | true =>
    have hge : ¬ E.compare .ge (σ.value column) low = some true := Engine.not_compare_of_isSqlNull hl
    simp [hge]
  | false =>
    have hge := h.compare_ge_iff hx ⟨hlow, hl⟩
    cases hh : high.isSqlNull with
    | true =>
      have hle : ¬ E.compare .le (σ.value column) high = some true := Engine.not_compare_of_isSqlNull hh
      simp [hle]
    | false =>
      have hle := h.compare_le_iff hx ⟨hhigh, hh⟩
      exact iff_of_true (by rw [hge, hle, not_and_or, not_not, not_not]) (.inl ⟨rfl, rfl⟩)

/-- A test is true of a row with a known column exactly where its opposite is not, if what it is compared with settles
that. Only ranges need the order of values. -/
theorem Predicate.Opposes.split_iff (h : p'.Opposes p) (hkind : p.HasKind kind) (hx : (σ.value column).IsKnown kind)
    (horders : (∃ low high, p = .range low high false) → E.Orders kind) :
    ((p'.condition escape column).eval E db σ = some true ↔
        ¬ (p.condition escape column).eval E db σ = some true) ↔
      p.Settles E (σ.value column) := by
  cases h with
  | compare w =>
    simp only [Predicate.condition, Condition.eval_compare, Predicate.Settles]
    exact Engine.compare_ne_iff_not_eq hx.2
  | like pattern =>
    simp only [Predicate.condition, Condition.eval, Predicate.Settles, iff_true, Engine.like, hx.2]
    cases likeHolds (· == ·) escape (pattern.toList.map E.upper) ((E.text (σ.value column)).map E.upper) <;>
      simp [Truth.opposite]
  | isIn values =>
    simp only [Predicate.condition, Condition.eval, Predicate.Settles, Truth.opposite_false,
      Truth.opposite_true_eq_true_iff]
    exact Engine.member_eq_false_iff_not_true hx.2
  | null => simp [Predicate.condition, Condition.eval, Predicate.Settles, hx.2]
  | range low high =>
    refine Predicate.range_split_iff (horders ⟨low, high, rfl⟩) hx (hkind low ?_) (hkind high ?_) <;>
      simp [Predicate.operands]

/-- A test and its opposite are never both true of a row with a known column. -/
theorem Predicate.Opposes.not_both (h : p'.Opposes p) (hkind : p.HasKind kind) (hx : (σ.value column).IsKnown kind)
    (horders : (∃ low high, p = .range low high false) → E.Orders kind) :
    ¬ ((p.condition escape column).eval E db σ = some true ∧ (p'.condition escape column).eval E db σ = some true) := by
  -- A settled test is split by its opposite. One that is not settled compares with a NULL, and is never true.
  by_cases hsettled : p.Settles E (σ.value column)
  · rintro ⟨hp, hp'⟩
    exact ((h.split_iff hkind hx horders).mpr hsettled).mp hp' hp
  · cases h with
    | compare w =>
      rintro ⟨hequal, -⟩
      simp only [Predicate.condition, Condition.eval_compare] at hequal
      exact hsettled (Engine.compare_eq_true_iff.mp hequal).2.1
    | isIn values =>
      rintro ⟨hone, -⟩
      simp only [Predicate.condition, Condition.eval, Truth.opposite_false] at hone
      exact hsettled (.inr (Engine.member_eq_true_iff.mp hone))
    | range low high =>
      rintro ⟨hwithin, -⟩
      simp only [Predicate.condition, Condition.eval, Truth.conj_eq_true_iff, List.forall_mem_cons] at hwithin
      exact hsettled (.inl ⟨(Engine.compare_eq_true_iff.mp hwithin.1).2.1,
        (Engine.compare_eq_true_iff.mp hwithin.2.1).2.1⟩)
    | like | null => exact absurd trivial hsettled

end Truth

/-! ## Bodies -/

/-- The body that asks for one test. -/
def Payload.asking (spec : Payload.FilterSpec) : Payload := { filters := [spec] }

/-- The same test by another operator. -/
def Payload.FilterSpec.withOp (spec : Payload.FilterSpec) (op : String) : Payload.FilterSpec := { spec with op }

/-- The condition of a query that has no other filter. -/
def Filter.alone (escape : Char) (table : String) (f : Filter) : Condition := .all [f.condition escape table]

/-- Exactly one of two conditions is true of a row of a table. -/
def Sql.Condition.Split (E : Engine) (db : Database) (table : String) (row : StoredRow) (c c' : Condition) : Prop :=
  c'.selects E db table row = !c.selects E db table row

theorem Query.condition_alone {g : Registry} {m : Model} {join : Join} {grammar : Grammar} {f : Filter}
    (h : f.relation = none) :
    Query.condition g m { filters := [f] } join grammar = .ok (f.alone grammar.escape m.table) := by
  have hfilter : Query.filterCondition g m grammar f = .ok (f.condition grammar.escape m.table) := by
    rw [filterCondition, h]
  cases join <;>
    simp only [condition, List.mapM_cons, List.mapM_nil, hfilter, joinConditions, searchCondition] <;> rfl

/-- A filter of one test that has no company is true of the rows that meet the test. -/
theorem Filter.selects_alone_iff {E : Engine} {db : Database} {escape : Char} {table field : String}
    {relation : Option String} {p : Predicate} {row : StoredRow} :
    (Filter.alone escape table ⟨relation, field, [p]⟩).selects E db table row = true ↔
      (p.condition escape ⟨table, field⟩).eval E db [(table, row)] = some true := by
  rw [Condition.selects_iff, alone, Condition.eval_all_iff, List.forall_mem_singleton, condition,
    Condition.eval_any_iff, List.map_singleton]
  simp only [List.mem_singleton, exists_eq_left]

namespace Compiler

variable {c : Compiler} {spec : Payload.FilterSpec} {op op' : Operator}

/-- A test in a body that is not reported is of a column that was found, and its value fits the column. -/
theorem exists_test_of_valid (hop : Operator.read? spec.op = some op)
    (hvalid : (c.ofPayload (.asking spec)).invalid = []) :
    ∃ relation column test, c.locate spec.model spec.field = .ok (relation, column) ∧
      test? column.kind op spec.value = some test := by
  have hone : (c.payloadFilter {} spec).invalid = [] := hvalid
  unfold payloadFilter at hone
  split at hone
  · cases hone
  · next relation column hlocated =>
    rw [hop] at hone
    simp only at hone
    split at hone
    · cases hone
    · next test htest => exact ⟨relation, column, test, hlocated, htest⟩

/-- What a body that asks for one test compiles to. -/
theorem ofPayload_asking {relation : Option String} {column : Field} {test : Predicate}
    (hlocated : c.locate spec.model spec.field = .ok (relation, column)) (hop : Operator.read? spec.op = some op)
    (htest : test? column.kind op spec.value = some test) :
    c.ofPayload (.asking spec) = { query := { filters := [⟨relation, column.name, [test]⟩] } } := by
  have hone : c.payloadFilter {} spec = { query := { filters := [⟨relation, column.name, [test]⟩] } } := by
    simp only [payloadFilter, hlocated, hop, htest]
    rfl
  exact hone

/-- A list without null becomes a list without NULL. -/
theorem isSqlNull_of_operands? {kind : Kind} {v : Json} {values : List Value} (h : operands? kind v = some values)
    (hv : ∀ items, v.items? = some items → Json.null ∉ items) : ∀ w ∈ values, w.isSqlNull = false := by
  obtain ⟨items, hitems, hread⟩ := Option.bind_eq_some_iff.mp h
  intro w hw
  obtain ⟨item, hitem, hvalue⟩ := exists_read_of_mem hread w hw
  refine Bool.eq_false_iff.mpr fun hnull => hv items hitems ?_
  rwa [← (Value.isSqlNull_iff_of_ofJson? hvalue).mp hnull]

/-- Only a null in a list leaves something open. -/
theorem settles_of_no_null {kind : Kind} {v : Json} {test : Predicate} {E : Engine} {x : Value}
    (hopposite : op.opposite? = some op') (htest : test? kind op v = some test)
    (hv : op = .isIn ∨ op = .between → ∀ items, v.items? = some items → Json.null ∉ items) : test.Settles E x := by
  cases op with
  | eq =>
    simp only [test?] at htest
    split at htest
    · cases htest
      trivial
    · next hnull =>
      obtain ⟨w, hw, rfl⟩ := Option.map_eq_some_iff.mp htest
      -- A null is not compared: it was made a test for NULL above.
      refine Bool.eq_false_iff.mpr fun he => hnull ?_
      rw [(Value.isSqlNull_iff_of_ofJson? hw).mp he]
      rfl
  | like =>
    obtain ⟨pattern, -, rfl⟩ := Option.map_eq_some_iff.mp htest
    trivial
  | isIn =>
    obtain ⟨values, hvalues, rfl⟩ := Option.map_eq_some_iff.mp htest
    exact .inl (isSqlNull_of_operands? hvalues (hv (.inl rfl)))
  | isNull =>
    cases htest
    trivial
  | between =>
    obtain ⟨values, hvalues, hrange⟩ := Option.bind_eq_some_iff.mp htest
    split at hrange
    · next low high =>
      cases hrange
      have hknown := isSqlNull_of_operands? hvalues (hv (.inr rfl))
      exact .inl ⟨hknown low (by simp), hknown high (by simp)⟩
    · cases hrange
  | ne | gt | ge | lt | le | notLike | notIn | isNotNull | notBetween => cases hopposite

/-- Only a range is made by the operator of ranges. -/
theorem eq_between_of_range {kind : Kind} {v : Json} {low high : Value} (hopposite : op.opposite? = some op')
    (htest : test? kind op v = some (.range low high false)) : op = .between := by
  cases op with
  | between => rfl
  | eq =>
    simp only [test?] at htest
    split at htest
    · cases htest
    · obtain ⟨w, -, hw⟩ := Option.map_eq_some_iff.mp htest
      cases hw
  | like | isIn =>
    obtain ⟨_, -, h⟩ := Option.map_eq_some_iff.mp htest
    cases h
  | isNull => cases htest
  | ne | gt | ge | lt | le | notLike | notIn | isNotNull | notBetween => cases hopposite

/-- A test of a body and its opposite. If the one fits its column so does the other, and both become filters of that
column, which for a column of the resource are all that is asked of its rows. Of a row whose column is known they are
never both true, and one of them is exactly where what the column is compared with settles it. That is so of every row
unless there is a null in a list that is compared with. -/
theorem opposite_tests_split {asked : String} (hop : Operator.read? spec.op = some op)
    (hopposite : op.opposite? = some op') (hasked : Operator.read? asked = some op')
    (hvalid : (c.ofPayload (.asking spec)).invalid = []) :
    ∃ relation column test f f',
      c.locate spec.model spec.field = .ok (relation, column) ∧ test? column.kind op spec.value = some test ∧
      c.ofPayload (.asking spec) = { query := { filters := [f] } } ∧
      c.ofPayload (.asking (spec.withOp asked)) = { query := { filters := [f'] } } ∧
      (relation = none → ∀ join,
        Query.condition c.registry c.model { filters := [f] } join c.grammar =
          .ok (f.alone c.grammar.escape c.model.table) ∧
        Query.condition c.registry c.model { filters := [f'] } join c.grammar =
          .ok (f'.alone c.grammar.escape c.model.table)) ∧
      ∀ (E : Engine) (db : Database) (table : String) (row : StoredRow),
        (row column.name).IsKnown column.kind → (op = .between → E.Orders column.kind) →
        let cond := f.alone c.grammar.escape table
        let cond' := f'.alone c.grammar.escape table
        ¬ (cond.selects E db table row = true ∧ cond'.selects E db table row = true) ∧
        (cond.Split E db table row cond' ↔ test.Settles E (row column.name)) ∧
        ((op = .isIn ∨ op = .between → ∀ items, spec.value.items? = some items → Json.null ∉ items) →
          cond.Split E db table row cond') := by
  obtain ⟨relation, column, test, hlocated, htest⟩ := exists_test_of_valid hop hvalid
  obtain ⟨test', htest', hopposes⟩ := exists_opposite_test? hopposite htest
  refine ⟨relation, column, test, ⟨relation, column.name, [test]⟩, ⟨relation, column.name, [test']⟩, hlocated, htest,
    ofPayload_asking hlocated hop htest, @ofPayload_asking c (spec.withOp asked) _ _ _ _ hlocated hasked htest', ?_, ?_⟩
  · intro hroot join
    exact ⟨Query.condition_alone hroot, Query.condition_alone hroot⟩
  · intro E db table row hknown horders cond cond'
    have hx : (Scope.value [(table, row)] ⟨table, column.name⟩).IsKnown column.kind := by
      rw [Scope.value_cons_self]
      exact hknown
    have hrange : (∃ low high, test = .range low high false) → E.Orders column.kind := by
      rintro ⟨low, high, rfl⟩
      exact horders (eq_between_of_range hopposite htest)
    have hsplit : cond.Split E db table row cond' ↔ test.Settles E (row column.name) := by
      rw [Condition.Split, Bool.eq_iff_iff, Bool.not_eq_true', ← Bool.not_eq_true, Filter.selects_alone_iff,
        Filter.selects_alone_iff, hopposes.split_iff (test?_hasKind htest) hx hrange, Scope.value_cons_self]
    refine ⟨?_, hsplit, fun hnull => hsplit.mpr (settles_of_no_null hopposite htest hnull)⟩
    rw [Filter.selects_alone_iff, Filter.selects_alone_iff]
    exact hopposes.not_both (test?_hasKind htest) hx hrange

/-- A test of the year of a book. -/
def yearSpec (op : String) (value : Json) : Payload.FilterSpec := ⟨none, "year", op, value⟩

/-- The book of 2001 is beyond the nineties, and not within them. -/
theorem nineties_split :
    ∃ f f', bookCompiler.ofPayload (.asking (yearSpec "between" (.arr [.int 1990, .int 1999]))) =
        { query := { filters := [f] } } ∧
      bookCompiler.ofPayload (.asking (yearSpec "not_between" (.arr [.int 1990, .int 1999]))) =
        { query := { filters := [f'] } } ∧
      (Filter.alone '\\' "book" f).Split (.plain []) libraryDb "book" bookRow (Filter.alone '\\' "book" f') := by
  obtain ⟨relation, column, test, f, f', hlocated, -, hf, hf', -, hrows⟩ :=
    @opposite_tests_split bookCompiler (yearSpec "between" (.arr [.int 1990, .int 1999])) .between .notBetween
      "not_between" (by decide +kernel) rfl (by decide +kernel) (by decide +kernel)
  have hcolumn : column = .new "year" .integer := by
    have hyear : bookCompiler.locate none "year" = .ok (none, .new "year" .integer) := by decide +kernel
    have hsame := hlocated.symm.trans hyear
    cases hsame
    rfl
  subst hcolumn
  obtain ⟨-, -, hsplit⟩ := hrows (.plain []) libraryDb "book" bookRow ⟨rfl, rfl⟩ fun _ => Engine.orders_plain_integer []
  refine ⟨f, f', hf, hf', hsplit ?_⟩
  rintro - items hitems
  cases hitems
  decide

/-- With a null in the list, the book of 2001 is neither one of the list nor none of it. -/
theorem null_in_list_loses_book :
    ∃ f f' cond cond',
      bookCompiler.ofPayload (.asking (yearSpec "in" (.arr [.int 1, .null]))) = { query := { filters := [f] } } ∧
      bookCompiler.ofPayload (.asking (yearSpec "not_in" (.arr [.int 1, .null]))) = { query := { filters := [f'] } } ∧
      Query.condition bookCompiler.registry bookModel { filters := [f] } .outer {} = .ok cond ∧
      Query.condition bookCompiler.registry bookModel { filters := [f'] } .outer {} = .ok cond' ∧
      (bookRow "year").isSqlNull = false ∧
      cond.selects (.plain []) libraryDb "book" bookRow = false ∧
      cond'.selects (.plain []) libraryDb "book" bookRow = false := by
  refine ⟨⟨none, "year", [.isIn [.bigInt (some 1), .bigInt none] false]⟩,
    ⟨none, "year", [.isIn [.bigInt (some 1), .bigInt none] true]⟩, _, _, by decide +kernel, by decide +kernel,
    Query.condition_alone rfl, Query.condition_alone rfl, rfl, by decide +kernel, by decide +kernel⟩

end Compiler

end RestTables
