import RestTables.Proofs.Sql.Like
import RestTables.Sql.Statement
import RestTables.Storage.Dialogue

/-
Module: RestTables.Proofs.Sql.Engine
Purpose: What conditions mean. A database holds rows in tables; an engine is what its makers decide: when two
  values are equal, which one is less, how a value is cast to text, what a capital is. Conditions have one of
  three truth values, and a row is selected only by a condition that is true of it.
Main exports: StoredRow, Database, Engine, Truth, Engine.compare, Engine.member, Condition.eval,
  Condition.eval_all_iff, Condition.eval_any_iff, Condition.eval_isInTable_some_iff
-/

namespace RestTables

/-- The value is the NULL of its type. -/
def Value.isSqlNull : Value → Bool
  | .bool v => v.isNone
  | .tinyInt v => v.isNone
  | .smallInt v => v.isNone
  | .int v => v.isNone
  | .bigInt v => v.isNone
  | .tinyUnsigned v => v.isNone
  | .smallUnsigned v => v.isNone
  | .unsigned v => v.isNone
  | .bigUnsigned v => v.isNone
  | .float v => v.isNone
  | .double v => v.isNone
  | .string v => v.isNone
  | .char v => v.isNone
  | .bytes v => v.isNone
  | .json v => v.isNone
  | .date v => v.isNone
  | .time v => v.isNone
  | .datetime v => v.isNone
  | .instant v => v.isNone
  | .zoned v => v.isNone
  | .uuid v => v.isNone
  | .decimal v => v.isNone

@[simp] theorem Value.isSqlNull_null (k : Kind) : (Value.null k).isSqlNull = true := by cases k <;> rfl

namespace Sql

/-! ## Databases -/

/-- A row as it is stored: the value of every column. -/
abbrev StoredRow := String → Value

/-- The rows of every table. -/
abbrev Database := String → List StoredRow

/-- What the makers of a database decide. -/
structure Engine where
  /-- Two values that are not NULL are equal. -/
  equal : Value → Value → Bool
  /-- Of two values that are not NULL, the first one is less. -/
  less : Value → Value → Bool
  /-- The capital of a character. -/
  upper : Char → Char
  /-- A value that is not NULL, cast to text. -/
  text : Value → List Char
  /-- The rows of a result in the order in which they are sent. -/
  arrange : Select → List StoredRow → List StoredRow
  /-- The row that an insert stores: the columns that it does not name get their defaults. -/
  complete : Database → String → List (String × Value) → StoredRow
  /-- What is answered to a question about the schema. -/
  catalog : Database → CatalogQuery → List (List (String × Value))
  /-- The number by which a new row is known. -/
  rowNumber : StoredRow → Nat
  /-- Why a database may not be left in a state: the constraint that is violated. -/
  refusal? : Database → Option StorageError
  equal_symm : ∀ {a b}, equal a b = true → equal b a = true
  equal_trans : ∀ {a b c}, equal a b = true → equal b c = true → equal a c = true
  /-- A string is its own text. -/
  text_string : ∀ s, text (.string (some s)) = s.toList
  arrange_perm : ∀ s rows, (arrange s rows).Perm rows

/-! ## Truth values -/

/-- A truth value; `none` is unknown. -/
abbrev Truth := Option Bool

namespace Truth

/-- All are true: one that is false decides, and otherwise one that is unknown. -/
def conj (ts : List Truth) : Truth :=
  if ts.contains (some false) then some false else if ts.contains none then none else some true

/-- One is true: one that is true decides, and otherwise one that is unknown. -/
def disj (ts : List Truth) : Truth :=
  if ts.contains (some true) then some true else if ts.contains none then none else some false

/-- The opposite, where it is asked for; the opposite of unknown is unknown. -/
def opposite (negated : Bool) (t : Truth) : Truth := t.map (· != negated)

/-- All have one value when none has the other and none is unknown. -/
theorem forall_eq_some_iff {ts : List Truth} {b : Bool} :
    (∀ t ∈ ts, t = some b) ↔ some (!b) ∉ ts ∧ none ∉ ts := by
  constructor
  · intro hall
    refine ⟨fun hmem => ?_, fun hmem => ?_⟩
    · simpa using hall _ hmem
    · simpa using hall _ hmem
  · rintro ⟨hother, hunknown⟩ t ht
    match t with
    | none => exact absurd ht hunknown
    | some c =>
      have hc : c ≠ !b := fun h => hother (h ▸ ht)
      simpa using hc

theorem conj_eq_true_iff {ts : List Truth} : conj ts = some true ↔ ∀ t ∈ ts, t = some true := by
  rw [forall_eq_some_iff]
  by_cases hother : some false ∈ ts <;> by_cases hunknown : none ∈ ts <;> simp [conj, hother, hunknown]

theorem disj_eq_true_iff {ts : List Truth} : disj ts = some true ↔ some true ∈ ts := by
  unfold disj
  split
  · next h => simpa using h
  · next h =>
    have hmem : some true ∉ ts := by simpa using h
    split <;> simp [hmem]

theorem disj_eq_false_iff {ts : List Truth} : disj ts = some false ↔ ∀ t ∈ ts, t = some false := by
  rw [forall_eq_some_iff]
  by_cases hother : some true ∈ ts <;> by_cases hunknown : none ∈ ts <;> simp [disj, hother, hunknown]

@[simp] theorem opposite_false (t : Truth) : opposite false t = t := by
  cases t with
  | none => rfl
  | some b => cases b <;> rfl

@[simp] theorem opposite_true_eq_true_iff {t : Truth} : opposite true t = some true ↔ t = some false := by
  cases t with
  | none => simp [opposite]
  | some b => cases b <;> simp [opposite]

end Truth

/-! ## Values -/

namespace Engine

/-- The outcome of a comparison of two values that are not NULL. -/
def decide (E : Engine) : Comparison → Value → Value → Bool
  | .eq, a, b => E.equal a b
  | .ne, a, b => !E.equal a b
  | .gt, a, b => E.less b a
  | .ge, a, b => E.less b a || E.equal a b
  | .lt, a, b => E.less a b
  | .le, a, b => E.less a b || E.equal a b

/-- A comparison; with a NULL its outcome is unknown. -/
def compare (E : Engine) (op : Comparison) (a b : Value) : Truth :=
  if a.isSqlNull || b.isSqlNull then none else some (E.decide op a b)

/-- A value is one of a list. -/
def member (E : Engine) (v : Value) (vs : List Value) : Truth := Truth.disj (vs.map (E.compare .eq v))

/-- A pattern matches the text of a value, both in capitals. -/
def like (E : Engine) (escape : Char) (pattern : String) (v : Value) : Truth :=
  if v.isSqlNull then none
  else some (likeHolds (· == ·) escape (pattern.toList.map E.upper) ((E.text v).map E.upper))

/-- Both values are known, and they are equal. -/
def Equal (E : Engine) (a b : Value) : Prop :=
  a.isSqlNull = false ∧ b.isSqlNull = false ∧ E.equal a b = true

theorem compare_eq_true_iff {E : Engine} {op : Comparison} {a b : Value} :
    E.compare op a b = some true ↔
      a.isSqlNull = false ∧ b.isSqlNull = false ∧ E.decide op a b = true := by
  unfold compare
  cases a.isSqlNull <;> cases b.isSqlNull <;> simp

theorem compare_eq_false_iff {E : Engine} {op : Comparison} {a b : Value} :
    E.compare op a b = some false ↔
      a.isSqlNull = false ∧ b.isSqlNull = false ∧ E.decide op a b = false := by
  unfold compare
  cases a.isSqlNull <;> cases b.isSqlNull <;> simp

/-- The sign of equality holds of known values that are equal. -/
theorem compare_eq_iff {E : Engine} {a b : Value} : E.compare .eq a b = some true ↔ E.Equal a b :=
  compare_eq_true_iff

theorem Equal.symm {E : Engine} {a b : Value} (h : E.Equal a b) : E.Equal b a :=
  ⟨h.2.1, h.1, E.equal_symm h.2.2⟩

theorem Equal.trans {E : Engine} {a b c : Value} (h : E.Equal a b) (h' : E.Equal b c) : E.Equal a c :=
  ⟨h.1, h'.2.1, E.equal_trans h.2.2 h'.2.2⟩

/-- A value is certainly one of a list when it equals one of them. -/
theorem member_eq_true_iff {E : Engine} {v : Value} {vs : List Value} :
    E.member v vs = some true ↔ ∃ x ∈ vs, E.Equal v x := by
  simp only [member, Truth.disj_eq_true_iff, List.mem_map, compare_eq_iff]

/-- A value is certainly none of a list when it is known to differ from each of them. -/
theorem member_eq_false_iff {E : Engine} {v : Value} {vs : List Value} :
    E.member v vs = some false ↔ ∀ x ∈ vs, E.compare .eq v x = some false := by
  simp only [member, Truth.disj_eq_false_iff, List.mem_map, forall_exists_index, and_imp,
    forall_apply_eq_imp_iff₂]

end Engine

/-! ## Conditions -/

/-- The rows that a name of a table stands for, the innermost first. -/
abbrev Scope := List (String × StoredRow)

/-- The value of a column; a column of no row in sight reads as NULL. -/
def Scope.value (σ : Scope) (c : Column) : Value :=
  match σ.lookup c.table with
  | some row => row c.name
  | none => default

@[simp] theorem Scope.value_cons_self (table name : String) (row : StoredRow) (σ : Scope) :
    Scope.value ((table, row) :: σ) ⟨table, name⟩ = row name := by
  simp [Scope.value]

section Eval

variable (E : Engine) (db : Database)

mutual

/-- The truth value of a condition where the names of tables stand for rows. -/
def Condition.eval : Condition → Scope → Truth
  | .compare column op v, σ => E.compare op (σ.value column) v
  | .like column pattern escape negated, σ =>
    Truth.opposite negated (E.like escape pattern (σ.value column))
  | .isIn column vs negated, σ => Truth.opposite negated (E.member (σ.value column) vs)
  | .isNull column negated, σ => some ((σ.value column).isSqlNull != negated)
  | .between column low high, σ =>
    Truth.conj [E.compare .ge (σ.value column) low, E.compare .le (σ.value column) high]
  | .isInTable column sub, σ => E.member (σ.value column) (sub.results σ)
  | .all parts, σ => Truth.conj (Condition.evalEach parts σ)
  | .any parts, σ => Truth.disj (Condition.evalEach parts σ)

/-- The truth values of the parts of a condition. -/
def Condition.evalEach : List Condition → Scope → List Truth
  | [], _ => []
  | c :: parts, σ => c.eval σ :: Condition.evalEach parts σ

/-- The values that a subquery gives: those of its column in the rows of its table that meet its condition,
the name for related rows standing for each of them in turn. -/
def Subquery.results : Subquery → Scope → List Value
  | .mk column table none, _ => (db table).map (· column)
  | .mk column table (some c), σ =>
    ((db table).filter fun row => c.eval ((relatedAlias, row) :: σ) == some true).map (· column)

end

/-- A condition is true of a row of a table. -/
def Condition.selects (c : Condition) (table : String) (row : StoredRow) : Bool :=
  c.eval E db [(table, row)] == some true

variable {E db} {σ : Scope}

theorem Condition.evalEach_eq_map (parts : List Condition) :
    Condition.evalEach E db parts σ = parts.map (·.eval E db σ) := by
  induction parts with
  | nil => rfl
  | cons c parts ih => simp only [Condition.evalEach, List.map_cons, ih]

theorem Condition.eval_all_iff {parts : List Condition} :
    (Condition.all parts).eval E db σ = some true ↔ ∀ c ∈ parts, c.eval E db σ = some true := by
  simp only [Condition.eval, Condition.evalEach_eq_map, Truth.conj_eq_true_iff, List.mem_map,
    forall_exists_index, and_imp, forall_apply_eq_imp_iff₂]

theorem Condition.eval_any_iff {parts : List Condition} :
    (Condition.any parts).eval E db σ = some true ↔ ∃ c ∈ parts, c.eval E db σ = some true := by
  simp only [Condition.eval, Condition.evalEach_eq_map, Truth.disj_eq_true_iff, List.mem_map]

theorem Condition.eval_compare {column : Column} {op : Comparison} {v : Value} :
    (Condition.compare column op v).eval E db σ = E.compare op (σ.value column) v := by
  simp only [Condition.eval]

/-- A column's value occurs in a table's column when it equals that of a row. -/
theorem Condition.eval_isInTable_none_iff {column : Column} {remote table : String} :
    (Condition.isInTable column (.mk remote table none)).eval E db σ = some true ↔
      ∃ row ∈ db table, E.Equal (σ.value column) (row remote) := by
  simp only [Condition.eval, Subquery.results, Engine.member_eq_true_iff, List.mem_map,
    exists_exists_and_eq_and]

/-- A column's value occurs in a restricted table's column when it equals that of a row that meets the
restriction. -/
theorem Condition.eval_isInTable_some_iff {column : Column} {remote table : String} {c : Condition} :
    (Condition.isInTable column (.mk remote table (some c))).eval E db σ = some true ↔
      ∃ row ∈ db table, c.eval E db ((relatedAlias, row) :: σ) = some true ∧
        E.Equal (σ.value column) (row remote) := by
  simp only [Condition.eval, Subquery.results, Engine.member_eq_true_iff, List.mem_map, List.mem_filter,
    beq_iff_eq]
  constructor
  · rintro ⟨_, ⟨row, ⟨hrow, hc⟩, rfl⟩, he⟩
    exact ⟨row, hrow, hc, he⟩
  · rintro ⟨row, hrow, hc, he⟩
    exact ⟨_, ⟨row, ⟨hrow, hc⟩, rfl⟩, he⟩

theorem Condition.selects_iff {c : Condition} {table : String} {row : StoredRow} :
    c.selects E db table row = true ↔ c.eval E db [(table, row)] = some true := by
  simp [Condition.selects]

end Eval

end Sql

end RestTables
