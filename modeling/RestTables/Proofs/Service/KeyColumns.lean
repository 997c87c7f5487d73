import RestTables.Proofs.Model.Build
import RestTables.Proofs.Service.Precondition

/-
Module: RestTables.Proofs.Service.KeyColumns
Purpose: How many rows a write to one row changes. Rows are known by the first column of their key alone. If
  the key has no other column, a write changes no row but the one that was found and checked; if it has one,
  there are tables in which the same write changes two.
Main exports: ItemRequest.ChangesCheckedRow, Model.WritesTwoRows,
  Model.item_write_changes_one_row_iff_one_key_column
-/

namespace RestTables

open Sql Dialogue

/-! ## Keys of one column -/

/-- What a request changes is the row that it has found and checked in the same transaction, or nothing. -/
def ItemRequest.ChangesCheckedRow (E : Engine) (s : Service) (q : ItemRequest) (db : Database) : Prop :=
  ∀ pre x post a now after, Says (q.handler s).run (.mark .begin :: pre ++ x :: post) a → x.isRewrite = true →
    E.History db pre now → E.Answers now x after →
    after = db ∨ ∃ row cells more key, OneRowChanged db after s.model.table row ∧
      s.model.keyValue? q.id = some key ∧
      pre = [.query (Rows.keyStatement s.model key) (.ok (cells :: more))] ∧
      Rows.ofCells s.model.columns cells = s.model.recordOf row ∧
      s.checkPrecondition q.headers (s.model.recordOf row) = .ok ()

/-- A request that has found the only row with its key changes that row. -/
theorem ItemRequest.changesCheckedRow {E : Engine} {s : Service} (q : ItemRequest) {db : Database}
    {names : List String} (hnames : ∀ n ∈ names, n = s.model.keyField.name)
    (distinct : E.KeyDistinct names (db s.model.table)) : q.ChangesCheckedRow E s db := by
  intro pre x post a now after hs hrewrite hpre hx
  obtain ⟨key, cells, more, hkey, hcheck, hlog, ⟨statement, r, rfl, hwrite⟩, -⟩ :=
    exists_of_isRewrite hs hrewrite
  obtain ⟨-, rfl⟩ := List.cons.inj hlog
  obtain ⟨mid, hfind, rfl⟩ := hpre
  obtain ⟨rfl, row, hone, hrecord⟩ := Rows.matching_of_answers hnames distinct hfind
  rw [hrecord] at hcheck
  rcases hx.next_or_same with ⟨s', hs', -, -, rfl⟩ | ⟨-, rfl⟩
  · obtain rfl : statement = s' := Option.some.inj hs'
    exact .inr ⟨row, cells, more, key, hwrite.oneRowChanged hone, hkey, rfl, hrecord, hcheck⟩
  · exact .inl rfl

/-! ## Keys of more columns -/

/-- Two texts that stand for different values of a kind. -/
def Kind.sampleText : Kind → Bool → String
  | .integer, b | .float, b | .decimal, b | .json, b | .string, b | .boolean, b => if b then "1" else "0"
  | .date, b => if b then "2000-01-02" else "2000-01-01"
  | .time, b => if b then "00:00:01" else "00:00:00"
  | .datetime, b | .datetimeTz, b => if b then "2000-01-02T00:00:00" else "2000-01-01T00:00:00"
  | .uuid, b => if b then "00000000-0000-0000-0000-000000000001" else "00000000-0000-0000-0000-000000000000"
  | .binary, b => if b then "01" else "00"

/-- Two different values of a kind. -/
def Kind.sample (k : Kind) (b : Bool) : Value := (Value.ofText? k (k.sampleText b)).getD default

theorem Kind.sample_spec (k : Kind) (b : Bool) :
    Value.ofText? k (k.sampleText b) = some (k.sample b) ∧ (k.sample b).isSqlNull = false ∧
      (k.sample b).hasKind k = true ∧ k.sample false ≠ k.sample true := by
  cases k <;> cases b <;> decide +kernel

namespace Model

variable {d : Declaration} {m : Model}

/-- The kind of a column. -/
def kindOf (m : Model) (name : String) : Kind := ((m.column? name).map Field.kind).getD .string

/-- Two rows that differ in one column only. -/
def twin (m : Model) (other : String) (b : Bool) : StoredRow := fun name =>
  (m.kindOf name).sample (b && name == other)

/-- A database with two rows that differ in one column only. -/
def twins (m : Model) (other : String) : Database := fun table =>
  if table = m.table then [m.twin other false, m.twin other true] else []

theorem kindOf_of_mem (h : d.build = .ok m) {f : Field} (hf : f ∈ m.columns) : m.kindOf f.name = f.kind := by
  simp [kindOf, column?_eq_some_of_mem (nodup_columns_of_build h) hf]

/-- The twins have values of the kinds of their columns. -/
theorem hasKind_twin (h : d.build = .ok m) {other : String} {b : Bool} {f : Field} (hf : f ∈ m.columns) :
    (m.twin other b f.name).hasKind f.kind = true := by
  unfold twin
  rw [kindOf_of_mem h hf]
  exact (Kind.sample_spec f.kind _).2.2.1

/-- The twins have the same value in every other column. -/
theorem twin_of_ne {other name : String} {b : Bool} (hne : name ≠ other) :
    m.twin other b name = (m.kindOf name).sample false := by
  simp only [twin, beq_false_of_ne hne, Bool.and_false]

/-- The twins have different values in the one column. -/
theorem twin_self_ne (m : Model) (other : String) : m.twin other false other ≠ m.twin other true other := by
  simpa [twin] using (Kind.sample_spec (m.kindOf other) false).2.2.2

/-- Rows that have the values of the twins in the key's columns have different keys. -/
theorem keepsKeys_twins {other : String} {names : List String} {a b : StoredRow} (hother : other ∈ names)
    (ha : a other = m.twin other false other) (hb : b other = m.twin other true other) :
    [a, b].Pairwise fun a b => ¬ ∀ n ∈ names, Engine.same (a n) (b n) := by
  refine List.pairwise_pair.mpr fun hsame => m.twin_self_ne other ?_
  rw [← ha, ← hb]
  exact (hsame other hother).2.2

/-- Both twins have the key. -/
theorem matching_twins (h : d.build = .ok m) {other : String} (hother : other ≠ m.keyField.name)
    (keys : List (String × List String)) :
    (Engine.plain keys).matching (m.twins other) m.table
        (.all [m.keyCondition (m.keyField.kind.sample false)]) = m.twins other m.table := by
  have hkind : m.kindOf m.keyField.name = m.keyField.kind := kindOf_of_mem h (keyField_mem_of_build h)
  have hkey : ∀ b, m.twin other b m.keyField.name = m.keyField.kind.sample false := by
    intro b
    rw [twin_of_ne (Ne.symm hother), hkind]
  have hknown := (Kind.sample_spec m.keyField.kind false).2.1
  apply Engine.plain_matching_eq_self
  intro row hrow
  simp only [twins, ↓reduceIte, List.mem_cons, List.not_mem_nil, or_false] at hrow
  rcases hrow with rfl | rfl
  · exact ⟨by rw [hkey, hknown], hknown, hkey false⟩
  · exact ⟨by rw [hkey, hknown], hknown, hkey true⟩

/-- What is written under a key goes to two rows: a deletion removes both of them, and an update that leaves the
columns of the whole key alone changes both. -/
def WritesTwoRows (E : Engine) (m : Model) (names : List String) (key : Value) (db : Database) : Prop :=
  ∃ a b, db m.table = [a, b] ∧
    (∃ log, Says (Rows.delete m key).run log (.ok 2) ∧ E.History db log (db.set m.table [])) ∧
    ∀ changes, changes ≠ [] → (∀ n ∈ names, changes.lookup n = none) →
      ∃ log, Says (Rows.update m key changes).run log (.ok ()) ∧
        E.History db log (db.set m.table [a.assign changes, b.assign changes])

/-- A second key column lets a table have two rows that are both written under the first one. -/
theorem writesTwoRows_twins (h : d.build = .ok m) {other : String} {names : List String} (hmem : other ∈ names)
    (hother : other ≠ m.keyField.name) :
    WritesTwoRows (.plain [(m.table, names)]) m names (m.keyField.kind.sample false) (m.twins other) := by
  have hall := matching_twins h hother [(m.table, names)]
  have htwins : m.twins other m.table = [m.twin other false, m.twin other true] := if_pos rfl
  -- The twins differ in the other column, which the changes leave alone, so the key over both permits them.
  have hpermits : ∀ a b : StoredRow, a other = m.twin other false other → b other = m.twin other true other →
      (Engine.plain [(m.table, names)]).refusal? ((m.twins other).set m.table [a, b]) = none := by
    intro a b ha hb
    apply Engine.plain_refusal?_eq_none_iff.mpr
    intro key hkey
    obtain rfl := List.mem_singleton.mp hkey
    simpa using keepsKeys_twins hmem ha hb
  refine ⟨_, _, htwins, ?_, fun changes hchanges hnames => ?_⟩
  · refine ⟨[.execute (.delete m.table (.all [m.keyCondition (m.keyField.kind.sample false)]))
      (.ok ⟨0, 2⟩)], Rows.says_delete_iff.mpr ⟨_, rfl, rfl⟩, _, Engine.answers_execute ?_ ?_ ?_, rfl⟩
    · apply Engine.plain_refusal?_eq_none_iff.mpr
      intro key hkey
      obtain rfl := List.mem_singleton.mp hkey
      simp
    · simp [Engine.effect, hall, htwins]
    · exact (Engine.next_of_matching_all hall []).2
  · refine ⟨[.execute (.update m.table changes (.all [m.keyCondition (m.keyField.kind.sample false)]))
      (.ok ⟨0, 2⟩)], Rows.says_update_iff.mpr (.inr ⟨hchanges, _, rfl, rfl⟩), _,
      Engine.answers_execute ?_ ?_ ?_, rfl⟩
    · refine hpermits _ _ ?_ ?_
      · simp [StoredRow.assign, hnames other hmem]
      · simp [StoredRow.assign, hnames other hmem]
    · simp [Engine.effect, hall, htwins]
    · rw [(Engine.next_of_matching_all hall changes).1, htwins]
      rfl

/-- Where the key has one column, what is written to a row changes no row but the one that is found by its id
and checked in the same transaction. Where it has more, there are well typed tables, without two rows of one key,
in which what is written to one row changes two. -/
theorem item_write_changes_one_row_iff_one_key_column (h : d.build = .ok m) :
    ((∀ n ∈ d.keyNames, n = m.keyField.name) →
      ∀ (E : Engine) (db : Database), E.KeyDistinct d.keyNames (db m.table) →
        (∀ id key, m.keyValue? id = some key →
          (∀ changes log a db', Says (Rows.update m key changes).run log a → E.History db log db' →
            Rows.OnlyFoundRow E m id db db') ∧
          ∀ log a db', Says (Rows.delete m key).run log a → E.History db log db' →
            Rows.OnlyFoundRow E m id db db') ∧
        ∀ (s : Service) (q : ItemRequest), s.model = m → q.ChangesCheckedRow E s db) ∧
    ((∃ n ∈ d.keyNames, n ≠ m.keyField.name) →
      ∃ (E : Engine) (db : Database) (id : String) (key : Value),
        E.KeyDistinct d.keyNames (db m.table) ∧
        (∀ row ∈ db m.table, ∀ f ∈ m.columns, (row f.name).hasKind f.kind = true) ∧
        m.keyValue? id = some key ∧ WritesTwoRows E m d.keyNames key db) := by
  constructor
  · intro hnames E db distinct
    refine ⟨fun id key hkey => ⟨?_, ?_⟩, ?_⟩
    · intro changes log a db' hrun hhistory
      exact Rows.onlyFoundRow_of_update hkey hnames distinct hrun hhistory
    · intro log a db' hrun hhistory
      exact Rows.onlyFoundRow_of_delete hkey hnames distinct hrun hhistory
    · rintro s q rfl
      exact q.changesCheckedRow hnames distinct
  · rintro ⟨other, hmem, hother⟩
    refine ⟨.plain [(m.table, d.keyNames)], m.twins other, m.keyField.kind.sampleText false,
      m.keyField.kind.sample false, ?_, ?_, (Kind.sample_spec m.keyField.kind false).1,
      writesTwoRows_twins h hmem hother⟩
    · have hkeeps := keepsKeys_twins hmem (a := m.twin other false) (b := m.twin other true) rfl rfl
      simpa only [Engine.KeyDistinct, Engine.plain_equal_iff, twins, ↓reduceIte] using hkeeps
    · intro row hrow f hf
      simp only [twins, ↓reduceIte, List.mem_cons, List.not_mem_nil, or_false] at hrow
      rcases hrow with rfl | rfl
      · exact hasKind_twin h hf
      · exact hasKind_twin h hf

/-- The lines of orders, known by their order and their place in it. -/
def lines : Declaration :=
  { name := "Line"
    table := "line"
    fields := [(Field.new "order" .integer).primaryKey, (Field.new "place" .integer).primaryKey] }

/-- The orders, known by their number. -/
def orders : Declaration :=
  { name := "Order", table := "order", fields := [(Field.new "number" .integer).primaryKey] }

/-- The model of a declaration that is known to be right. -/
def Declaration.built (d : Declaration) : Model :=
  match d.build with
  | .ok m => m
  | .error _ => default

theorem build_lines : lines.build = .ok lines.built := by rfl

theorem build_orders : orders.build = .ok orders.built := by rfl

/-- An order has one line with each place, but all lines of an order are written under its number; a deletion of
one order's number removes no other order. -/
theorem item_write_changes_one_row_of_orders :
    (Engine.KeyDistinct (.plain []) orders.keyNames [fun _ => .bigInt (some 7)] ∧
      ∀ (s : Service) (q : ItemRequest), s.model = orders.built →
        q.ChangesCheckedRow (.plain []) s fun _ => [fun _ => .bigInt (some 7)]) ∧
    ∃ (E : Engine) (db : Database) (id : String) (key : Value),
      E.KeyDistinct lines.keyNames (db lines.built.table) ∧
      (∀ row ∈ db lines.built.table, ∀ f ∈ lines.built.columns, (row f.name).hasKind f.kind = true) ∧
      lines.built.keyValue? id = some key ∧ WritesTwoRows E lines.built lines.keyNames key db := by
  have hdistinct : Engine.KeyDistinct (.plain []) orders.keyNames [fun _ => .bigInt (some 7)] :=
    List.pairwise_singleton _ _
  refine ⟨⟨hdistinct, ?_⟩, ?_⟩
  · exact ((item_write_changes_one_row_iff_one_key_column build_orders).1 (by decide) (.plain [])
      (fun _ => [fun _ => .bigInt (some 7)]) hdistinct).2
  · exact (item_write_changes_one_row_iff_one_key_column build_lines).2 ⟨"place", by decide, by decide⟩

/-- Two lines of one order. -/
def twoLines : Database := fun _ =>
  [fun _ => .bigInt (some 1), fun name => .bigInt (some (if name = "place" then 2 else 1))]

/-- The lines have different keys, and yet the deletion of the row with the id 1 removes both. -/
theorem deletion_removes_both_lines :
    lines.build = .ok lines.built ∧ lines.keyNames = ["order", "place"] ∧
    Engine.KeyDistinct (.plain []) lines.keyNames (twoLines "line") ∧
    lines.built.keyValue? "1" = some (.bigInt (some 1)) ∧
    ∃ log, Says (Rows.delete lines.built (.bigInt (some 1))).run log (.ok 2) ∧
      (Engine.plain []).History twoLines log (twoLines.set "line" []) := by
  have hall : (Engine.plain []).matching twoLines "line"
      (.all [lines.built.keyCondition (.bigInt (some 1))]) = twoLines "line" := by
    apply Engine.plain_matching_eq_self
    intro row hrow
    simp only [twoLines, List.mem_cons, List.not_mem_nil, or_false] at hrow
    rcases hrow with rfl | rfl <;> decide
  have hdistinct : Engine.KeyDistinct (.plain []) lines.keyNames (twoLines "line") :=
    List.pairwise_pair.mpr (by decide)
  refine ⟨build_lines, by decide, hdistinct, by decide +kernel, _,
    Rows.says_delete_iff.mpr ⟨.ok ⟨0, 2⟩, rfl, rfl⟩, _, Engine.answers_execute rfl ?_ ?_, rfl⟩
  · exact congrArg (fun rows => (⟨0, rows.length⟩ : Effect)) hall
  · exact (Engine.next_of_matching_all hall []).2

end Model

end RestTables
