import RestTables.Sql.Printer

/-
Module: RestTables.Proofs.Sql.Mentions
Purpose: The names in a statement, each with the table that it is a name of, and what else its text is made of:
  words that are always the same, and places for values. So a text holds nothing but words and names.
Main exports: Mention, Statement.mentions, Spelled, Statement.spelled_text
-/

namespace RestTables.Sql

/-! ## Names -/

/-- Whose row a name is about: that of the statement's own table, or that of the table in a subquery. -/
inductive Source where
  | own (table : String)
  | related (table : String)
deriving Repr, DecidableEq

/-- The table. -/
def Source.table : Source → String
  | own table | related table => table

/-- What a statement names. -/
inductive Mention where
  | table (source : Source)
  | column (source : Source) (name : String)
  /-- The character that escapes in a pattern; it is written out and not bound. -/
  | escape (c : Char)
  /-- A question about the schema. -/
  | schema (q : CatalogQuery)
deriving Repr, DecidableEq

/-- What the tables' names mean within a subquery: its alias is the table that it selects from, all others are
what they are outside. -/
def within (table : String) (outside : String → Source) (name : String) : Source :=
  if name = relatedAlias then .related table else outside name

mutual

/-- What a condition names, for what the names of tables mean around it. -/
def Condition.mentions (names : String → Source) : Condition → List Mention
  | .compare c _ _ | .isIn c _ _ | .isNull c _ | .between c _ _ => [.column (names c.table) c.name]
  | .like c _ escape _ => [.column (names c.table) c.name, .escape escape]
  | .isInTable c sub => .column (names c.table) c.name :: sub.mentions names
  | .all parts | .any parts => mentionsOf names parts

/-- What the parts of a condition name. -/
def mentionsOf (names : String → Source) : List Condition → List Mention
  | [] => []
  | c :: rest => c.mentions names ++ mentionsOf names rest

/-- What a subquery names. -/
def Subquery.mentions (names : String → Source) : Subquery → List Mention
  | .mk column table none => [.table (.related table), .column (.related table) column]
  | .mk column table (some c) =>
    .table (.related table) :: .column (.related table) column :: c.mentions (within table names)

end

/-- What a part of an order names. The local key is a column of the row that is sorted. -/
def SortItem.mentions (item : SortItem) : List Mention :=
  match item.key with
  | .column c => [.column (.own c.table) c.name]
  | .related field remoteKey table localKey =>
    [.table (.related table), .column (.related table) field, .column (.related table) remoteKey,
      .column (.own localKey.table) localKey.name]

/-- What a statement names. -/
def Statement.mentions : Statement → List Mention
  | .select s =>
    .table (.own s.table) :: s.columns.map (.column (.own s.table)) ++ s.condition.mentions .own ++
      s.order.flatMap SortItem.mentions
  | .count table c | .delete table c => .table (.own table) :: c.mentions .own
  | .insert table row returning =>
    .table (.own table) :: (row.map (·.1) ++ returning).map (.column (.own table))
  | .update table changes c =>
    .table (.own table) :: changes.map (.column (.own table) ·.1) ++ c.mentions .own
  | .catalog q => [.schema q]

theorem mem_mentionsOf {names : String → Source} {x : Mention} {parts : List Condition} :
    x ∈ mentionsOf names parts ↔ ∃ c ∈ parts, x ∈ c.mentions names := by
  induction parts with
  | nil => simp [mentionsOf]
  | cons c parts ih => simp [mentionsOf, ih]

/-! ## Texts -/

/-- The words of statements, which are the same whatever is asked. -/
def words (b : Backend) : List String :=
  ["", " ", ".", ", ", "(", ")", " (", "=", "<>", ">", ">=", "<", "<=", " = ", " NOT ", "LIKE", "IN",
    "UPPER(CAST(", " AS TEXT))", " UPPER(", ") ESCAPE ", b.escapeLiteral '\\', " IS NOT NULL", " IS NULL",
    " BETWEEN ", " AND ", " OR ", " IN (", "TRUE", "FALSE", "SELECT ", " FROM ", " AS ", " WHERE ", " ASC", " DESC",
    "(SELECT ", "MIN", "MAX", ") FROM ", " ORDER BY ", " LIMIT ", " OFFSET ", "SELECT COUNT(*) AS ",
    "INSERT INTO ", ") VALUES (", b.defaultRow, " RETURNING ", "UPDATE ", " SET ", "DELETE FROM "]

/-- A text of words, of places for values, and of certain names in quotes. -/
inductive Spelled (b : Backend) (N : String → Prop) : String → Prop where
  | word {s : String} (h : s ∈ words b) : Spelled b N s
  | place (number : Nat) : Spelled b N (b.placeholder number)
  | name {s : String} (h : N s) : Spelled b N (nameText b s)
  | append {s t : String} (hs : Spelled b N s) (ht : Spelled b N t) : Spelled b N (s ++ t)

/-- The texts among pieces are spelled so. -/
def AllSpelled (b : Backend) (N : String → Prop) (pieces : List Piece) : Prop :=
  ∀ s, Piece.text s ∈ pieces → Spelled b N s

/-- A mention names only what is among certain names. -/
def Mention.Within (N : String → Prop) : Mention → Prop
  | .table source => N source.table
  | .column source name => N source.table ∧ N name
  | .escape c => c = '\\'
  | .schema _ => False

variable {b : Backend} {N : String → Prop}

theorem Spelled.empty : Spelled b N "" := .word (by simp [words])

theorem Spelled.join {separator : String} (hseparator : Spelled b N separator) {parts : List String}
    (h : ∀ s ∈ parts, Spelled b N s) : Spelled b N (Text.join separator parts) := by
  induction parts with
  | nil => exact .empty
  | cons s parts ih =>
    obtain ⟨hs, hparts⟩ := List.forall_mem_cons.mp h
    cases parts with
    | nil => exact hs
    | cons t parts => exact .append (.append hs hseparator) (ih hparts)

theorem Spelled.column {c : Column} (htable : N c.table) (hname : N c.name) : Spelled b N (columnText b c) :=
  .append (.append (.name htable) (.word (by simp [words]))) (.name hname)

theorem Spelled.nameList {names : List String} (h : ∀ n ∈ names, N n) : Spelled b N (nameList b names) := by
  apply Spelled.join (.word (by simp [words]))
  rw [List.forall_mem_map]
  exact fun n hn => .name (h n hn)

/-- Pieces whose texts are spelled so make such a text. -/
theorem spelled_render {pieces : List Piece} (h : AllSpelled b N pieces) (number : Nat) :
    Spelled b N (Piece.render b number pieces) := by
  induction pieces generalizing number with
  | nil => exact .empty
  | cons p pieces ih =>
    have hrest : AllSpelled b N pieces := fun s hs => h s (List.mem_cons_of_mem p hs)
    cases p with
    | text s => exact .append (h s List.mem_cons_self) (ih hrest number)
    | value v => exact .append (.place number) (ih hrest (number + 1))

/-! ### Pieces -/

theorem AllSpelled.nil : AllSpelled b N [] := by simp [AllSpelled]

theorem AllSpelled.text {s : String} {pieces : List Piece} (hs : Spelled b N s) (h : AllSpelled b N pieces) :
    AllSpelled b N (.text s :: pieces) := by
  intro t ht
  rcases List.mem_cons.mp ht with heq | ht
  · cases heq
    exact hs
  · exact h t ht

theorem AllSpelled.value {v : Value} {pieces : List Piece} (h : AllSpelled b N pieces) :
    AllSpelled b N (.value v :: pieces) := by
  intro t ht
  rcases List.mem_cons.mp ht with heq | ht
  · cases heq
  · exact h t ht

theorem AllSpelled.append {p q : List Piece} (hp : AllSpelled b N p) (hq : AllSpelled b N q) :
    AllSpelled b N (p ++ q) := by
  intro t ht
  exact (List.mem_append.mp ht).elim (hp t) (hq t)

theorem AllSpelled.joinPieces {separator : String} (hseparator : Spelled b N separator) {parts : List (List Piece)}
    (h : ∀ p ∈ parts, AllSpelled b N p) : AllSpelled b N (joinPieces separator parts) := by
  induction parts with
  | nil => exact .nil
  | cons p parts ih =>
    obtain ⟨hp, hparts⟩ := List.forall_mem_cons.mp h
    cases parts with
    | nil => exact hp
    | cons q parts => exact hp.append (.text hseparator (ih hparts))

theorem AllSpelled.word {s : String} {pieces : List Piece} (hs : s ∈ words b) (h : AllSpelled b N pieces) :
    AllSpelled b N (.text s :: pieces) := .text (.word hs) h

theorem allSpelled_valueList (values : List Value) : AllSpelled b N (valueList values) := by
  apply AllSpelled.joinPieces (.word (by simp [words]))
  rw [List.forall_mem_map]
  exact fun v _ => .value .nil

theorem AllSpelled.parenthesized {pieces : List Piece} (h : AllSpelled b N pieces) :
    AllSpelled b N (parenthesized pieces) :=
  .word (by simp [words]) (h.append (.word (by simp [words]) .nil))

theorem spelled_negatable (negated : Bool) {w : String} (hw : w ∈ words b) : Spelled b N (negatable negated w) := by
  cases negated with
  | false => exact .append (.word (by simp [words])) (.word hw)
  | true => exact .append (.word (by simp [words])) (.word hw)

theorem spelled_sign (op : Comparison) : Spelled b N op.sign := by
  cases op <;> exact .word (by simp [Comparison.sign, words])

/-! ### Conditions -/

/-- The alias of subqueries is among certain names, and so is whatever stands for a table that is. -/
structure Faithful (N : String → Prop) (names : String → Source) : Prop where
  related : N relatedAlias
  leads : ∀ name, N (names name).table → N name

theorem faithful_own (h : N relatedAlias) : Faithful N .own := ⟨h, fun _ hname => hname⟩

theorem Faithful.within {names : String → Source} (h : Faithful N names) (table : String) :
    Faithful N (within table names) := by
  refine ⟨h.related, fun name hname => ?_⟩
  by_cases heq : name = relatedAlias
  · exact heq ▸ h.related
  · exact h.leads name (by simpa [Sql.within, heq] using hname)

theorem Faithful.spelled_column {names : String → Source} (h : Faithful N names) {c : Column}
    (hc : (Mention.column (names c.table) c.name).Within N) : Spelled b N (columnText b c) :=
  .column (h.leads c.table hc.1) hc.2

/-- What a subquery selects, in front of its condition. -/
theorem Faithful.spelled_subquery {names : String → Source} (h : Faithful N names) {column table : String}
    (hcolumn : N column) (htable : N table) :
    Spelled b N ("SELECT " ++ columnText b ⟨relatedAlias, column⟩ ++ " FROM " ++ nameText b table ++ " AS " ++
      nameText b relatedAlias) := by
  have hselect : Spelled b N ("SELECT " ++ columnText b ⟨relatedAlias, column⟩) :=
    .append (.word (by simp [words])) (.column h.related hcolumn)
  have hfrom : Spelled b N (" FROM " ++ nameText b table) := .append (.word (by simp [words])) (.name htable)
  have halias : Spelled b N (" AS " ++ nameText b relatedAlias) :=
    .append (.word (by simp [words])) (.name h.related)
  simpa only [String.append_assoc] using hselect.append (hfrom.append halias)

theorem allSpelled_asFirst (joined inner : Binding) {pieces : List Piece} (h : AllSpelled b N pieces) :
    AllSpelled b N (asFirst joined inner pieces) := by
  unfold asFirst
  split
  · exact h
  · exact h.parenthesized

theorem allSpelled_asNext (inner : Binding) {pieces : List Piece} (h : AllSpelled b N pieces) :
    AllSpelled b N (asNext inner pieces) := by
  unfold asNext
  split
  · exact h
  · exact h.parenthesized

mutual

theorem allSpelled_conditionPieces {names : String → Source} (hnames : Faithful N names) :
    ∀ c : Condition, (∀ x ∈ c.mentions names, x.Within N) → AllSpelled b N (conditionPieces b c)
  | .compare column op value, h => by
    have hcolumn : Spelled b N (columnText b column) := hnames.spelled_column (h _ List.mem_cons_self)
    have hblank : Spelled b N " " := .word (by simp [words])
    exact .text (((hcolumn.append hblank).append (spelled_sign op)).append hblank) (.value .nil)
  | .like column pattern escape negated, h => by
    have hcolumn : Spelled b N (columnText b column) := hnames.spelled_column (h _ List.mem_cons_self)
    have hescape : escape = '\\' := h (.escape escape) (by simp [Condition.mentions])
    have hcast : Spelled b N ("UPPER(CAST(" ++ columnText b column ++ " AS TEXT))") :=
      .append (.append (.word (by simp [words])) hcolumn) (.word (by simp [words]))
    have hlike : Spelled b N (negatable negated "LIKE" ++ " UPPER(") :=
      .append (spelled_negatable negated (by simp [words])) (.word (by simp [words]))
    -- the escape is the one character of a condition that is written out
    have hclose : Spelled b N (") ESCAPE " ++ b.escapeLiteral escape) := by
      rw [hescape]
      exact .append (.word (by simp [words])) (.word (by simp [words]))
    have hopen := hcast.append hlike
    rw [← String.append_assoc] at hopen
    exact .text hopen (.value (.text hclose .nil))
  | .isIn column values negated, h => by
    have hcolumn : Spelled b N (columnText b column) := hnames.spelled_column (h _ List.mem_cons_self)
    rw [conditionPieces]
    split
    · exact .value (.word (by simp [words]) (.value .nil))
    · have hopen : Spelled b N (columnText b column ++ negatable negated "IN" ++ " (") :=
        .append (hcolumn.append (spelled_negatable negated (by simp [words]))) (.word (by simp [words]))
      exact .text hopen ((allSpelled_valueList values).append (.word (by simp [words]) .nil))
  | .isNull column negated, h => by
    have hcolumn : Spelled b N (columnText b column) := hnames.spelled_column (h _ List.mem_cons_self)
    refine .text (hcolumn.append ?_) .nil
    cases negated <;> exact .word (by simp [words])
  | .between column low high, h => by
    have hcolumn : Spelled b N (columnText b column) := hnames.spelled_column (h _ List.mem_cons_self)
    exact .text (hcolumn.append (.word (by simp [words]))) (.value (.word (by simp [words]) (.value .nil)))
  | .isInTable column sub, h => by
    have hcolumn : Spelled b N (columnText b column) := hnames.spelled_column (h _ List.mem_cons_self)
    have hsub := allSpelled_subqueryPieces hnames sub fun x hx => h x (List.mem_cons_of_mem _ hx)
    exact .text (hcolumn.append (.word (by simp [words]))) (hsub.append (.word (by simp [words]) .nil))
  | .all parts, h => by
    rw [conditionPieces]
    split
    · exact .word (by simp [words]) .nil
    · exact allSpelled_firstPieces hnames .and parts h
  | .any parts, h => by
    rw [conditionPieces]
    split
    · exact .word (by simp [words]) .nil
    · exact allSpelled_firstPieces hnames .or parts h

theorem allSpelled_firstPieces {names : String → Source} (hnames : Faithful N names) (joined : Binding) :
    ∀ parts : List Condition, (∀ x ∈ mentionsOf names parts, x.Within N) →
      AllSpelled b N (firstPieces b joined parts)
  | [], _ => .nil
  | [c], h => allSpelled_conditionPieces hnames c (by simpa [mentionsOf] using h)
  | c :: d :: rest, h => by
    obtain ⟨hc, hrest⟩ := List.forall_mem_append.mp h
    exact (allSpelled_asFirst joined _ (allSpelled_conditionPieces hnames c hc)).append
      (allSpelled_nextPieces hnames joined (d :: rest) hrest)

theorem allSpelled_nextPieces {names : String → Source} (hnames : Faithful N names) (joined : Binding) :
    ∀ parts : List Condition, (∀ x ∈ mentionsOf names parts, x.Within N) →
      AllSpelled b N (nextPieces b joined parts)
  | [], _ => .nil
  | c :: rest, h => by
    obtain ⟨hc, hrest⟩ := List.forall_mem_append.mp h
    have hword : Spelled b N (if joined = .and then " AND " else " OR ") := by
      split <;> exact .word (by simp [words])
    exact .append (.text hword (allSpelled_asNext _ (allSpelled_conditionPieces hnames c hc)))
      (allSpelled_nextPieces hnames joined rest hrest)

theorem allSpelled_subqueryPieces {names : String → Source} (hnames : Faithful N names) :
    ∀ sub : Subquery, (∀ x ∈ sub.mentions names, x.Within N) → AllSpelled b N (subqueryPieces b sub)
  | .mk column table none, h => by
    have htable : N table := h (.table (.related table)) (by simp [Subquery.mentions])
    have hcolumn := (h (.column (.related table) column) (by simp [Subquery.mentions])).2
    exact .text (hnames.spelled_subquery hcolumn htable) .nil
  | .mk column table (some c), h => by
    have htable : N table := h (.table (.related table)) (by simp [Subquery.mentions])
    have hcolumn := (h (.column (.related table) column) (by simp [Subquery.mentions])).2
    have hc : ∀ x ∈ c.mentions (within table names), x.Within N := fun x hx =>
      h x (List.mem_cons_of_mem _ (List.mem_cons_of_mem _ hx))
    exact .text (hnames.spelled_subquery hcolumn htable)
      (.word (by simp [words]) (allSpelled_conditionPieces (hnames.within table) c hc))

end

/-! ### Statements -/

theorem allSpelled_wherePieces (halias : N relatedAlias) {c : Condition} (h : ∀ x ∈ c.mentions .own, x.Within N) :
    AllSpelled b N (wherePieces b c) :=
  .word (by simp [words]) (allSpelled_conditionPieces (faithful_own halias) c h)

theorem spelled_sortText (halias : N relatedAlias) {item : SortItem} (h : ∀ x ∈ item.mentions, x.Within N) :
    Spelled b N (sortText b item) := by
  obtain ⟨key, descending⟩ := item
  have hdirection : Spelled b N (if descending then " DESC" else " ASC") := by
    cases descending <;> exact .word (by simp [words])
  cases key with
  | column c => exact .append (.column (h _ List.mem_cons_self).1 (h _ List.mem_cons_self).2) hdirection
  | related field remoteKey table localKey =>
    simp only [SortItem.mentions, List.forall_mem_cons] at h
    obtain ⟨htable, hfield, hremote, hlocal, -⟩ := h
    have hgreatest : Spelled b N (if descending then "MAX" else "MIN") := by
      cases descending <;> exact .word (by simp [words])
    have hselect : Spelled b N ("(SELECT " ++ (if descending then "MAX" else "MIN") ++ "(" ++
        columnText b ⟨relatedAlias, field⟩) :=
      .append (.append (.append (.word (by simp [words])) hgreatest) (.word (by simp [words])))
        (.column halias hfield.2)
    have hfrom : Spelled b N (") FROM " ++ nameText b table ++ " AS " ++ nameText b relatedAlias) :=
      .append (.append (.append (.word (by simp [words])) (.name htable)) (.word (by simp [words]))) (.name halias)
    have hwhere : Spelled b N (" WHERE " ++ columnText b ⟨relatedAlias, remoteKey⟩ ++ " = " ++
        columnText b localKey ++ ")") :=
      .append (.append (.append (.append (.word (by simp [words])) (.column halias hremote.2))
        (.word (by simp [words]))) (.column hlocal.1 hlocal.2)) (.word (by simp [words]))
    have htext := (hselect.append (hfrom.append hwhere)).append hdirection
    simpa only [sortText, String.append_assoc] using htext

theorem allSpelled_orderPieces (halias : N relatedAlias) {order : List SortItem}
    (h : ∀ x ∈ order.flatMap SortItem.mentions, x.Within N) : AllSpelled b N (orderPieces b order) := by
  unfold orderPieces
  split
  · exact .nil
  · have hitems : ∀ s ∈ order.map (sortText b), Spelled b N s := by
      intro s hs
      obtain ⟨item, hitem, rfl⟩ := List.mem_map.mp hs
      exact spelled_sortText halias fun x hx => h x (List.mem_flatMap.mpr ⟨item, hitem, hx⟩)
    exact .text (.append (.word (by simp [words])) (.join (.word (by simp [words])) hitems)) .nil

theorem allSpelled_boundPieces {w : String} (hw : w ∈ words b) (bound : Option Nat) :
    AllSpelled b N (boundPieces w bound) := by
  cases bound with
  | none => exact .nil
  | some n => exact .word hw (.value .nil)

theorem allSpelled_select (halias : N relatedAlias) {s : Select}
    (h : ∀ x ∈ (Statement.select s).mentions, x.Within N) : AllSpelled b N (s.pieces b) := by
  simp only [Statement.mentions, List.cons_append, List.forall_mem_cons, List.forall_mem_append, List.forall_mem_map]
    at h
  obtain ⟨htable, ⟨hcolumns, hcondition⟩, horder⟩ := h
  have hlist : ∀ t ∈ s.columns.map fun c => columnText b ⟨s.table, c⟩, Spelled b N t := by
    rw [List.forall_mem_map]
    exact fun c hc => .column htable (hcolumns c hc).2
  have hselect : Spelled b N ("SELECT " ++ Text.join ", " (s.columns.map fun c => columnText b ⟨s.table, c⟩) ++
      " FROM " ++ nameText b s.table) :=
    .append (.append (.append (.word (by simp [words])) (.join (.word (by simp [words])) hlist))
      (.word (by simp [words]))) (.name htable)
  have hrows := (AllSpelled.text hselect (allSpelled_wherePieces halias hcondition)).append
    (allSpelled_orderPieces halias horder)
  exact (hrows.append (allSpelled_boundPieces (by simp [words]) _)).append
    (allSpelled_boundPieces (by simp [words]) _)

theorem allSpelled_insert {table : String} {row : List (String × Value)} {returning : List String}
    (h : ∀ x ∈ (Statement.insert table row returning).mentions, x.Within N) :
    AllSpelled b N (insertPieces b table row returning) := by
  simp only [Statement.mentions, List.map_append, List.forall_mem_cons, List.forall_mem_append, List.forall_mem_map]
    at h
  obtain ⟨htable, hrow, hreturning⟩ := h
  have hinto : Spelled b N ("INSERT INTO " ++ nameText b table ++ " ") :=
    .append (.append (.word (by simp [words])) (.name htable)) (.word (by simp [words]))
  -- A row without values is written as the one of the defaults.
  have hvalues : AllSpelled b N (if row.isEmpty then [.text b.defaultRow]
      else .text ("(" ++ nameList b (row.map (·.1)) ++ ") VALUES (") :: valueList (row.map (·.2)) ++
        [.text ")"]) := by
    split
    · exact .word (by simp [words]) .nil
    · have hnames : ∀ n ∈ row.map (·.1), N n := by
        rw [List.forall_mem_map]
        exact fun e he => (hrow e he).2
      have hlist : Spelled b N ("(" ++ nameList b (row.map (·.1)) ++ ") VALUES (") :=
        .append (.append (.word (by simp [words])) (.nameList hnames)) (.word (by simp [words]))
      exact .text hlist ((allSpelled_valueList _).append (.word (by simp [words]) .nil))
  have hback : AllSpelled b N (if b.returnsRows then [.text (" RETURNING " ++ nameList b returning)] else []) := by
    split
    · exact .text (.append (.word (by simp [words])) (.nameList fun n hn => (hreturning n hn).2)) .nil
    · exact .nil
  exact (AllSpelled.text hinto hvalues).append hback

theorem allSpelled_update (halias : N relatedAlias) {table : String} {changes : List (String × Value)} {c : Condition}
    (h : ∀ x ∈ (Statement.update table changes c).mentions, x.Within N) :
    AllSpelled b N (updatePieces b table changes c) := by
  simp only [Statement.mentions, List.cons_append, List.forall_mem_cons, List.forall_mem_append, List.forall_mem_map]
    at h
  obtain ⟨htable, hchanges, hcondition⟩ := h
  have hset : Spelled b N ("UPDATE " ++ nameText b table ++ " SET ") :=
    .append (.append (.word (by simp [words])) (.name htable)) (.word (by simp [words]))
  have hpieces : AllSpelled b N (joinPieces ", " (changes.map fun e =>
      [.text (nameText b e.1 ++ " = "), .value e.2])) := by
    apply AllSpelled.joinPieces (.word (by simp [words]))
    rw [List.forall_mem_map]
    exact fun e he => .text (.append (.name (hchanges e he).2) (.word (by simp [words]))) (.value .nil)
  exact (AllSpelled.text hset hpieces).append (allSpelled_wherePieces halias hcondition)

/-- A text holds nothing but fixed words, places for values, and the names that its statement mentions; the two
names that are always the same are the alias of subqueries and the column of a count. -/
theorem Statement.spelled_text (halias : N relatedAlias) (hcount : N countColumn) {s : Statement}
    (h : ∀ x ∈ s.mentions, x.Within N) : Spelled b N (s.text b) := by
  apply spelled_render
  cases s with
  | select s => exact allSpelled_select halias h
  | insert table row returning => exact allSpelled_insert h
  | update table changes c => exact allSpelled_update halias h
  | count table c =>
    obtain ⟨htable, hcondition⟩ := List.forall_mem_cons.mp h
    have hselect : Spelled b N ("SELECT COUNT(*) AS " ++ nameText b countColumn ++ " FROM " ++ nameText b table) :=
      .append (.append (.append (.word (by simp [words])) (.name hcount)) (.word (by simp [words]))) (.name htable)
    exact .text hselect (allSpelled_wherePieces halias hcondition)
  | delete table c =>
    obtain ⟨htable, hcondition⟩ := List.forall_mem_cons.mp h
    exact .text (.append (.word (by simp [words])) (.name htable)) (allSpelled_wherePieces halias hcondition)
  | catalog q => exact absurd (h (.schema q) List.mem_cons_self) id

end RestTables.Sql
