import Mathlib.Logic.Function.Basic
import RestTables.Proofs.Sql.Engine

/-
Module: RestTables.Proofs.Sql.Execution
Purpose: What statements do: the rows that they send, what they report, and the database that they leave. Only
  writes leave another one, and only one that violates no constraint.
Main exports: Engine.matching, Engine.selected, Engine.next, Engine.rows, Engine.effect, Engine.permits,
  OneRowChanged, Engine.oneRowChanged_of_matching
-/

namespace RestTables.Sql

/-- The database with other rows in a table. -/
def Database.set (db : Database) (table : String) (rows : List StoredRow) : Database :=
  Function.update db table rows

@[simp] theorem Database.set_self (db : Database) (table : String) (rows : List StoredRow) :
    db.set table rows table = rows := Function.update_self ..

@[simp] theorem Database.set_of_ne {db : Database} {table other : String} {rows : List StoredRow}
    (h : other ≠ table) : db.set table rows other = db other := Function.update_of_ne h ..

@[simp] theorem Database.set_eq_self (db : Database) (table : String) : db.set table (db table) = db :=
  Function.update_eq_self ..

namespace StoredRow

/-- The row with other values in some columns. -/
def assign (row : StoredRow) (changes : List (String × Value)) : StoredRow :=
  fun name => (changes.lookup name).getD (row name)

/-- Some columns of a row. -/
def cells (row : StoredRow) (columns : List String) : List (String × Value) := columns.map fun c => (c, row c)

end StoredRow

namespace Engine

section Statements

variable (E : Engine) (db : Database)

/-- The rows of a table of which a condition is true. -/
def matching (table : String) (c : Condition) : List StoredRow := (db table).filter (c.selects E db table)

/-- The rows that are asked for. -/
def selected (s : Select) : List StoredRow :=
  let rows := (E.arrange s (E.matching db s.table s.condition)).drop (s.offset.getD 0)
  match s.limit with
  | none => rows
  | some n => rows.take n

/-- The database that a statement leaves when it is not refused. -/
def next : Statement → Database
  | .insert table row _ => db.set table (db table ++ [E.complete db table row])
  | .update table changes c =>
    db.set table ((db table).map fun row => if c.selects E db table row then row.assign changes else row)
  | .delete table c => db.set table ((db table).filter fun row => !c.selects E db table row)
  | .select _ | .count .. | .catalog _ => db

/-- The rows that a statement sends. -/
def rows : Statement → List (List (String × Value))
  | .select s => (E.selected db s).map (·.cells s.columns)
  | .count table c => [[(countColumn, .bigInt (some (Int64.ofNat (E.matching db table c).length)))]]
  | .insert table row returning => [(E.complete db table row).cells returning]
  | .update .. | .delete .. => []
  | .catalog q => E.catalog db q

/-- What a statement reports. -/
def effect : Statement → Effect
  | .insert table row _ => ⟨E.rowNumber (E.complete db table row), 1⟩
  | .update table _ c | .delete table c => ⟨0, (E.matching db table c).length⟩
  | .select _ | .count .. | .catalog _ => ⟨0, 0⟩

/-- The database that a statement leaves violates no constraint. -/
def permits (s : Statement) : Prop := s.isWrite = true → E.refusal? (E.next db s) = none

end Statements

variable {E : Engine} {db : Database}

/-- Only writes leave another database. -/
theorem next_of_not_isWrite {s : Statement} (h : s.isWrite = false) : E.next db s = db := by
  cases s with
  | select s => rfl
  | count table c => rfl
  | insert table row returning => simp [Statement.isWrite] at h
  | update table changes c => simp [Statement.isWrite] at h
  | delete table c => simp [Statement.isWrite] at h
  | catalog q => rfl

theorem mem_matching {table : String} {c : Condition} {row : StoredRow} :
    row ∈ E.matching db table c ↔ row ∈ db table ∧ c.eval E db [(table, row)] = some true := by
  simp only [matching, List.mem_filter, Condition.selects_iff]

/-- What is asked for is among what meets the condition. -/
theorem mem_matching_of_mem_selected {s : Select} {row : StoredRow} (h : row ∈ E.selected db s) :
    row ∈ E.matching db s.table s.condition := by
  have hdrop : row ∈ (E.arrange s (E.matching db s.table s.condition)).drop (s.offset.getD 0) := by
    unfold selected at h
    split at h
    · exact h
    · exact List.mem_of_mem_take h
  exact (E.arrange_perm s _).mem_iff.mp (List.mem_of_mem_drop hdrop)

/-- Where no row meets the condition, none is sent. -/
theorem selected_of_matching_nil {s : Select} (h : E.matching db s.table s.condition = []) :
    E.selected db s = [] := by
  rw [List.eq_nil_iff_forall_not_mem]
  intro row hrow
  have := mem_matching_of_mem_selected hrow
  simp [h] at this

/-- A statement without a limit sends all rows that meet its condition. -/
theorem selected_of_unlimited {s : Select} (hlimit : s.limit = none) (hoffset : s.offset = none) :
    E.selected db s = E.arrange s (E.matching db s.table s.condition) := by
  simp only [selected, hlimit, hoffset, Option.getD_none, List.drop_zero]

/-- The only row that meets the condition is the one row that is sent. -/
theorem selected_of_matching_singleton {s : Select} {row : StoredRow}
    (h : E.matching db s.table s.condition = [row]) (hlimit : s.limit = some 1) (hoffset : s.offset = none) :
    E.selected db s = [row] := by
  have harrange : E.arrange s [row] = [row] := List.perm_singleton.mp (E.arrange_perm s [row])
  simp [selected, h, harrange, hlimit, hoffset]

end Engine

/-! ## One row -/

/-- A database differs from another one in no more than one row of a table, which has other values or is
gone. -/
def OneRowChanged (db db' : Database) (table : String) (row : StoredRow) : Prop :=
  ∃ front back kept, db table = front ++ row :: back ∧ db' = db.set table (front ++ Option.toList kept ++ back)

namespace Engine

variable {E : Engine} {db : Database} {table : String} {c : Condition}

theorem map_assign_eq_self {rows : List StoredRow} (h : ∀ row ∈ rows, c.selects E db table row = false)
    (changes : List (String × Value)) :
    (rows.map fun row => if c.selects E db table row then row.assign changes else row) = rows := by
  rw [List.map_congr_left (g := id) fun row hrow => by simp [h row hrow], List.map_id]

theorem filter_not_selects_eq_self {rows : List StoredRow} (h : ∀ row ∈ rows, c.selects E db table row = false) :
    (rows.filter fun row => !c.selects E db table row) = rows :=
  List.filter_eq_self.mpr fun row hrow => by simp [h row hrow]

/-- Where no row meets its condition, an update or a deletion does nothing. -/
theorem next_eq_of_matching_nil (h : E.matching db table c = []) (changes : List (String × Value)) :
    E.next db (.update table changes c) = db ∧ E.next db (.delete table c) = db := by
  have hnone : ∀ row ∈ db table, c.selects E db table row = false := by
    simpa [matching, List.filter_eq_nil_iff] using h
  constructor
  · simp only [next, map_assign_eq_self hnone, Database.set_eq_self]
  · simp only [next, filter_not_selects_eq_self hnone, Database.set_eq_self]

/-- Where every row meets its condition, an update changes every row and a deletion leaves none. -/
theorem next_of_matching_all (h : E.matching db table c = db table) (changes : List (String × Value)) :
    E.next db (.update table changes c) = db.set table ((db table).map (·.assign changes)) ∧
      E.next db (.delete table c) = db.set table [] := by
  have hall : ∀ row ∈ db table, c.selects E db table row = true := List.filter_eq_self.mp h
  constructor
  · have hmap : ((db table).map fun row => if c.selects E db table row then row.assign changes else row) =
        (db table).map (·.assign changes) := List.map_congr_left fun row hrow => by simp [hall row hrow]
    simp only [next, hmap]
  · have hfilter : ((db table).filter fun row => !c.selects E db table row) = [] :=
      List.filter_eq_nil_iff.mpr fun row hrow => by simp [hall row hrow]
    simp only [next, hfilter]

/-- Where one row meets its condition, an update or a deletion changes that row and no other. -/
theorem oneRowChanged_of_matching {row : StoredRow} (h : E.matching db table c = [row])
    (changes : List (String × Value)) :
    OneRowChanged db (E.next db (.update table changes c)) table row ∧
      OneRowChanged db (E.next db (.delete table c)) table row := by
  obtain ⟨front, back, hsplit, hfront, hrow, hback⟩ := List.filter_eq_cons_iff.mp h
  have hfront' : ∀ x ∈ front, c.selects E db table x = false := by simpa using hfront
  have hback' : ∀ x ∈ back, c.selects E db table x = false := by simpa [List.filter_eq_nil_iff] using hback
  constructor
  · refine ⟨front, back, some (row.assign changes), hsplit, ?_⟩
    simp [next, hsplit, hrow, map_assign_eq_self hfront', map_assign_eq_self hback']
  · refine ⟨front, back, none, hsplit, ?_⟩
    simp [next, hsplit, hrow, filter_not_selects_eq_self hfront', filter_not_selects_eq_self hback']

end Engine

/-! ## Keys -/

namespace Engine

/-- No two rows are equal in all of these columns. A NULL is equal to nothing. -/
def KeyDistinct (E : Engine) (names : List String) (rows : List StoredRow) : Prop :=
  rows.Pairwise fun a b => ¬ ∀ name ∈ names, E.Equal (a name) (b name)

variable {E : Engine} {db : Database} {table name : String} {key : Value}

/-- The condition that a column has a value holds of the rows that have it. -/
theorem eval_keyCondition_iff {row : StoredRow} :
    (Condition.all [.compare ⟨table, name⟩ .eq key]).eval E db [(table, row)] = some true ↔
      E.Equal (row name) key := by
  rw [Condition.eval_all_iff]
  simp [Condition.eval_compare, Engine.compare_eq_iff]

/-- One column that tells the rows of a table apart has a value in one row, or in none. -/
theorem matching_of_keyDistinct {names : List String} (hnames : ∀ n ∈ names, n = name)
    (h : E.KeyDistinct names (db table)) :
    E.matching db table (.all [.compare ⟨table, name⟩ .eq key]) = [] ∨
      ∃ row, E.matching db table (.all [.compare ⟨table, name⟩ .eq key]) = [row] := by
  have hequal : ∀ row ∈ E.matching db table (.all [.compare ⟨table, name⟩ .eq key]), E.Equal (row name) key :=
    fun row hrow => eval_keyCondition_iff.mp (mem_matching.mp hrow).2
  have hdistinct : E.KeyDistinct names (E.matching db table (.all [.compare ⟨table, name⟩ .eq key])) :=
    h.sublist List.filter_sublist
  generalize E.matching db table (.all [.compare ⟨table, name⟩ .eq key]) = rows at hequal hdistinct ⊢
  match rows, hequal, hdistinct with
  | [], _, _ => exact .inl rfl
  | [row], _, _ => exact .inr ⟨row, rfl⟩
  | a :: b :: rows, hequal, hdistinct =>
    refine absurd (fun n hn => ?_) (List.rel_of_pairwise_cons hdistinct List.mem_cons_self)
    rw [hnames n hn]
    exact (hequal a (by simp)).trans (hequal b (by simp)).symm

/-! ## A plain engine -/

instance (E : Engine) (a b : Value) : Decidable (E.Equal a b) :=
  inferInstanceAs (Decidable (_ ∧ _ ∧ _))

/-- Two values that are not NULL are the same. -/
def same (a b : Value) : Prop := a.isSqlNull = false ∧ b.isSqlNull = false ∧ a = b

instance (a b : Value) : Decidable (same a b) := inferInstanceAs (Decidable (_ ∧ _ ∧ _))

/-- The tables keep their keys: no two rows are the same in all columns of a key. -/
def keepsKeys (keys : List (String × List String)) (db : Database) : Bool :=
  keys.all fun (table, names) => Decidable.decide ((db table).Pairwise fun a b => ¬ ∀ n ∈ names, same (a n) (b n))

/-- An engine that compares whole numbers and texts as they are, sends rows in the order in which they are
stored, gives no defaults and enforces keys. -/
def plain (keys : List (String × List String)) : Engine where
  equal a b := a == b
  less a b :=
    match a, b with
    | .bigInt (some a), .bigInt (some b) => a < b
    | .string (some a), .string (some b) => a < b
    | _, _ => false
  upper c := c.toUpper
  text v := (v.keyText.getD "").toList
  arrange _ rows := rows
  complete _ _ row name := (row.lookup name).getD default
  catalog _ _ := []
  rowNumber _ := 0
  refusal? db := if keepsKeys keys db then none else some (.violation .primaryKey "")
  equal_symm h := beq_iff_eq.mpr (beq_iff_eq.mp h).symm
  equal_trans h h' := beq_iff_eq.mpr ((beq_iff_eq.mp h).trans (beq_iff_eq.mp h'))
  text_string _ := rfl
  arrange_perm _ rows := .refl rows

variable {keys : List (String × List String)}

/-- Only small letters have other capitals, and only capital letters are their capitals. -/
theorem toUpper_eq_iff {d : Char} (hcapital : d.toNat < 65 ∨ 90 < d.toNat) (hsmall : d.toNat < 97 ∨ 122 < d.toNat)
    (c : Char) : c.toUpper = d ↔ c = d := by
  unfold Char.toUpper
  split
  · next h =>
    have hlow : 97 ≤ c.toNat := h.1
    have hhigh : c.toNat ≤ 122 := h.2
    constructor
    · intro he
      have hval : d.toNat = (c.val + ('A'.val - 'a'.val)).toNat := by rw [← he]; rfl
      -- the sum wraps around, which takes 32 away
      have hadd : (c.val + ('A'.val - 'a'.val)).toNat = (c.toNat + 4294967264) % 4294967296 :=
        UInt32.toNat_add _ _
      omega
    · rintro rfl
      omega
  · rfl

/-- The capitals of the plain engine leave the marks of patterns alone. -/
theorem folding_plain : Folding (plain keys).upper '\\' where
  percent := toUpper_eq_iff (by decide) (by decide)
  underscore := toUpper_eq_iff (by decide) (by decide)
  escape := toUpper_eq_iff (by decide) (by decide)

theorem plain_equal_iff {a b : Value} : (plain keys).Equal a b ↔ same a b := by
  simp [Equal, same, plain]

/-- All rows of a table meet the condition that a column has a value, if that is the value in all of them. -/
theorem plain_matching_eq_self {table name : String} {key : Value} (h : ∀ row ∈ db table, same (row name) key) :
    (plain keys).matching db table (.all [.compare ⟨table, name⟩ .eq key]) = db table := by
  apply List.filter_eq_self.mpr
  intro row hrow
  have hequal : (plain keys).Equal (row name) key := plain_equal_iff.mpr (h row hrow)
  exact Condition.selects_iff.mpr (eval_keyCondition_iff.mpr hequal)

theorem plain_refusal?_eq_none_iff :
    (plain keys).refusal? db = none ↔
      ∀ key ∈ keys, (db key.1).Pairwise fun a b => ¬ ∀ n ∈ key.2, same (a n) (b n) := by
  have hkeeps : (plain keys).refusal? db = none ↔ keepsKeys keys db = true := by
    simp only [plain]
    split <;> simp_all
  rw [hkeeps, keepsKeys, List.all_eq_true]
  exact forall₂_congr fun key _ => decide_eq_true_iff

/-- The keys of the plain engine are keys. -/
theorem plain_enforces {table : String} {names : List String} (h : (table, names) ∈ keys) :
    ∀ db, (plain keys).refusal? db = none → (plain keys).KeyDistinct names (db table) := by
  intro db hdb
  have hkeeps := plain_refusal?_eq_none_iff.mp hdb (table, names) h
  simpa only [KeyDistinct, plain_equal_iff] using hkeeps

end Engine

end RestTables.Sql
