import RestTables.Proofs.Router.Statements
import RestTables.Proofs.Service.Mentions

/-
Module: RestTables.Proofs.Router.Names
Purpose: Where the names in statements come from. Whatever is asked, a text that is sent holds fixed words, places
  for values, and names of tables and columns that models show. Where relations of one name have one target, each
  column is one of the table that is named along with it.
Main exports: Registry.Named, Model.Knows, Model.NamesAgree, App.only_known_names, App.hidden_column_is_filtered
-/

namespace RestTables

open Sql (Statement Mention Spelled)

/-! ## Names of a registry -/

/-- The names that models show, and the two that are always the same. -/
inductive Registry.Named (g : Registry) : String → Prop where
  | related : Named g Sql.relatedAlias
  | count : Named g Sql.countColumn
  | table {m : Model} (hm : m ∈ g.models) : Named g m.table
  | column {m : Model} {f : Field} (hm : m ∈ g.models) (hf : f ∈ m.columns) : Named g f.name

/-- What a statement about a model may name: the model's table and columns, and the tables and columns of the
targets of its relations. -/
def Model.Knows (g : Registry) (m : Model) : Mention → Prop
  | .table (.own table) => table = m.table
  | .table (.related table) => ∃ r ∈ m.relations, ∃ t, g.get? r.target = some t ∧ t.table = table
  | .column (.own table) name => table = m.table ∧ (m.column? name).isSome
  | .column (.related table) name =>
    ∃ r ∈ m.relations, ∃ t, g.get? r.target = some t ∧ t.table = table ∧ (t.column? name).isSome
  | .escape c => c = '\\'
  | .schema _ => False

/-- Relations of one name, whatever the case, lead to one target. -/
def Model.NamesAgree (g : Registry) (m : Model) : Prop :=
  ∀ r ∈ m.relations, ∀ s ∈ m.relations, Text.sameFold r.name s.name = true → g.get? r.target = g.get? s.target

section Grants

variable {g : Registry} {m : Model}

theorem Registry.named_of_column? {name : String} (hm : m ∈ g.models) (h : (m.column? name).isSome) :
    g.Named name := by
  obtain ⟨f, hf⟩ := Option.isSome_iff_exists.mp h
  have hname : f.name = name := Compiler.name_of_column? hf
  exact hname ▸ .column hm (List.mem_of_find?_eq_some hf)

/-- Whatever a model needs to name is shown by some model. -/
theorem Model.grants_named (hclosed : g.IsClosed) (hm : m ∈ g.models) : m.Grants g (Mention.Within g.Named) where
  table := .table hm
  column _ h := ⟨.table hm, Registry.named_of_column? hm h⟩
  target r hr t ht := by
    obtain ⟨t', ht', -, hremote⟩ := hclosed.relation m hm r hr
    rw [ht] at ht'
    cases ht'
    have htMem := Registry.mem_models_of_get? ht
    exact ⟨.table htMem, .table htMem, Registry.named_of_column? htMem hremote⟩
  found _ field r t hfinds htarget := by
    obtain ⟨-, s, -, -, t', ht', hcolumn⟩ := hfinds
    have ht := Registry.mem_models_of_get? (Registry.relationTarget_eq_ok htarget).2
    have hcolumn := Registry.named_of_column? (Registry.mem_models_of_get? ht') (Option.isSome_of_eq_some hcolumn)
    exact ⟨.table ht, hcolumn⟩
  escape := rfl

theorem sameFold_trans {a b c : String} (hab : Text.sameFold a b = true) (hcb : Text.sameFold c b = true) :
    Text.sameFold a c = true := by
  simp only [Text.sameFold, Text.equalFold, beq_iff_eq] at *
  rw [hab, hcb]

/-- Where relations of one name have one target, a column that was found behind a name is one of the table to
which the name leads. -/
theorem Model.grants_knows (hclosed : g.IsClosed) (hm : m ∈ g.models) (hagree : m.NamesAgree g) :
    m.Grants g (m.Knows g) where
  table := rfl
  column _ h := ⟨rfl, h⟩
  target r hr t ht := by
    obtain ⟨t', ht', -, hremote⟩ := hclosed.relation m hm r hr
    rw [ht] at ht'
    cases ht'
    exact ⟨⟨r, hr, t, ht, rfl⟩, r, hr, t, ht, rfl, hremote⟩
  found name field r t hfinds htarget := by
    obtain ⟨⟨o, ho, rfl⟩, s, hs, hnamed, t', ht', hcolumn⟩ := hfinds
    obtain ⟨hrelated, ht⟩ := Registry.relationTarget_eq_ok htarget
    -- the relation that the name leads along is named so, as is the one behind which the column was found
    obtain ⟨r', hr', hrelated', hnamed'⟩ := Model.exists_related?_of_mem ho
    rw [hrelated] at hrelated'
    cases hrelated'
    have htargets := hagree r hr' s hs (sameFold_trans hnamed' hnamed)
    have hsame : t = t' := Option.some.inj ((ht.symm.trans htargets).trans ht')
    rw [← hsame] at hcolumn
    exact ⟨r, hr', t, ht, rfl, Option.isSome_of_eq_some hcolumn⟩
  escape := rfl

end Grants

/-! ## Declarations -/

/-- The declaration makes one of the models that a registry is built from. -/
def Registry.Declares (declared : List Model) (tables : List Table) (d : Model.Declaration) : Prop :=
  (∃ m ∈ declared, d.build = .ok m) ∨ ∃ t ∈ tables, d = Registry.declaration t

/-- A registered model has the columns that its declaration neither hides nor names like a private one. -/
theorem Registry.exists_declaration {declared : List Model} {tables : List Table} {config : Config} {g : Registry}
    {m : Model} (h : Registry.build declared tables config = .ok g)
    (hdeclared : ∀ o ∈ declared, ∃ d : Model.Declaration, d.build = .ok o) (hm : m ∈ g.models) :
    ∃ d, Registry.Declares declared tables d ∧ m.table = d.table ∧
      ∀ f ∈ m.columns, f ∈ d.fields ∧ f.name.toList.head? ≠ some '_' ∧ f.name ∉ d.hidden := by
  obtain ⟨origin, horigin, hstems⟩ := exists_origin h hm
  have hdeclaration : ∃ d, Registry.Declares declared tables d ∧ d.build = .ok origin := by
    rcases horigin with horigin | ⟨t, ht, hbuild⟩
    · obtain ⟨d, hbuild⟩ := hdeclared origin horigin
      exact ⟨d, .inl ⟨origin, horigin, hbuild⟩, hbuild⟩
    · exact ⟨declaration t, .inr ⟨t, ht, rfl⟩, hbuild⟩
  obtain ⟨d, hd, hbuild⟩ := hdeclaration
  refine ⟨d, hd, hstems.table_eq.trans (Model.eq_of_build hbuild).1, fun f hf => ?_⟩
  rw [hstems.columns_eq] at hf
  exact (Model.mem_columns_iff_of_build hbuild).mp hf

/-! ## Logs -/

/-- The event is that of the statement: its text, with its values beside it. -/
def Event.IsOf (b : Backend) (s : Statement) : Event → Prop
  | .query text values | .execute text values => text = s.text b ∧ values = s.values b
  | .mark _ => False

theorem Exchange.isOf_event {x : Exchange} {s : Statement} (h : x.statement? = some s) (b : Backend) :
    (x.event b).IsOf b s := by
  cases x with
  | query s' r | execute s' r =>
    cases h
    exact ⟨rfl, rfl⟩
  | mark m => cases h

/-- Everything that is sent for a request is a mark of a transaction or a statement. The text of a statement holds
fixed words, places for values, and names that registered models show, so that what the client wrote can only be
among the values beside it. Where relations of one name have one target, each statement is about one registered
model: each table is its own or that of a target of its relations, and each column is one that the model of its
table shows. And what a model shows, its declaration neither hides nor names like a private one. -/
theorem App.only_known_names {declared : List Model} {tables : List Table} {config : Config} {g : Registry}
    (h : Registry.build declared tables config = .ok g)
    (hdeclared : ∀ o ∈ declared, ∃ d : Model.Declaration, d.build = .ok o) (settings : Config) (b : Backend)
    (r : Request) (script : Script) :
    (∀ e ∈ (script.run b (App.respond ⟨g, settings, b⟩ r)).2,
      (∃ m, e = .mark m) ∨
      ∃ s : Statement, e.IsOf b s ∧ Spelled b g.Named (s.text b) ∧
        ((∀ m ∈ g.models, m.NamesAgree g) → ∃ m ∈ g.models, ∀ x ∈ s.mentions, m.Knows g x)) ∧
    ∀ m ∈ g.models, ∃ d, Registry.Declares declared tables d ∧ m.table = d.table ∧
      ∀ f ∈ m.columns, f ∈ d.fields ∧ f.name.toList.head? ≠ some '_' ∧ f.name ∉ d.hidden := by
  have hclosed := Registry.isClosed_of_build h hdeclared
  refine ⟨fun e he => ?_, fun m hm => Registry.exists_declaration h hdeclared hm⟩
  obtain ⟨x, hx, rfl⟩ := Script.forall_mem_log (App.only_respond ⟨g, settings, b⟩ r) b script e he
  cases hstatement : x.statement? with
  | none =>
    cases x with
    | query | execute => cases hstatement
    | mark m => exact .inl ⟨m, rfl⟩
  | some s =>
    obtain ⟨served, hserved, hutters⟩ := hx s hstatement
    -- A statement names whatever its model grants, so what is granted is chosen twice: the names that are shown
    -- anywhere, and those that the model knows.
    obtain ⟨m, hm, hgrants⟩ := Service.exists_grants_of_utters (s := App.serviceOf ⟨g, settings, b⟩ served) hclosed
      hserved hutters
    have hspelled : Spelled b g.Named (s.text b) :=
      Statement.spelled_text .related .count (hgrants _ (Model.grants_named hclosed hm))
    exact .inr ⟨s, Exchange.isOf_event hstatement b, hspelled, fun hagree =>
      ⟨m, hm, hgrants _ (Model.grants_knows hclosed hm (hagree m hm))⟩⟩

/-! ## Signed books -/

/-- Books that are signed by people. -/
def bookDeclaration (relations : List Relation) : Model.Declaration :=
  { name := "Book", table := "book", relations
    fields := [(Field.new "id" .integer).primaryKey, .new "author_id" .integer, .new "editor_id" .integer] }

/-- Authors, whose secret is hidden. -/
def authorDeclaration : Model.Declaration :=
  { name := "Author", table := "author", hidden := ["secret"]
    fields := [(Field.new "id" .integer).primaryKey, .new "name" .string, .new "secret" .string] }

/-- Editors, whose secret is none. -/
def editorDeclaration : Model.Declaration :=
  { name := "Editor", table := "editor"
    fields := [(Field.new "id" .integer).primaryKey, .new "secret" .string] }

/-- The models of books, of authors and of editors. -/
def signedModels (relations : List Relation) : List Model :=
  [bookDeclaration relations, authorDeclaration, editorDeclaration].filterMap (·.build.toOption)

theorem exists_build_of_mem_signedModels (relations : List Relation) :
    ∀ o ∈ signedModels relations, ∃ d : Model.Declaration, d.build = .ok o := by
  intro o ho
  obtain ⟨d, -, hd⟩ := List.mem_filterMap.mp ho
  refine ⟨d, ?_⟩
  cases hbuild : d.build with
  | error e =>
    rw [hbuild] at hd
    cases hd
  | ok m =>
    rw [hbuild] at hd
    cases hd
    rfl

/-- A book is signed by its author. -/
def signedByAuthor : List Relation := [.scalar "by" "Author" "author_id" "id"]

/-- A book is signed by its author and by its editor. -/
def signedByBoth : List Relation := [.scalar "By" "Author" "author_id" "id", .scalar "by" "Editor" "editor_id" "id"]

/-- Books by an author, the last one first. -/
def booksByAuthor : Request := ⟨"GET", ⟨"/book", some "by.name=x&_sort=-by.name&_related=by"⟩, [], []⟩

/-- Each of the two statements names what the books know. -/
theorem App.only_known_names_of_books :
    Registry.build (signedModels signedByAuthor) [] {} = .ok ⟨signedModels signedByAuthor⟩ ∧
    (∀ o ∈ signedModels signedByAuthor, ∃ d : Model.Declaration, d.build = .ok o) ∧
    let log := (Script.run .sqlite [.success [[(Sql.countColumn, .bigInt (some 1))]] default, .success [] default]
      (App.respond ⟨⟨signedModels signedByAuthor⟩, {}, .sqlite⟩ booksByAuthor)).2
    log.length = 2 ∧ ∀ e ∈ log, (∃ m, e = .mark m) ∨ ∃ s : Statement, e.IsOf .sqlite s ∧
      ∃ m ∈ signedModels signedByAuthor, ∀ x ∈ s.mentions, m.Knows ⟨signedModels signedByAuthor⟩ x := by
  have hbuild : Registry.build (signedModels signedByAuthor) [] {} = .ok ⟨signedModels signedByAuthor⟩ := by
    decide +kernel
  have hdeclared := exists_build_of_mem_signedModels signedByAuthor
  have hagree : ∀ m ∈ signedModels signedByAuthor, m.NamesAgree ⟨signedModels signedByAuthor⟩ := by
    unfold Model.NamesAgree
    decide +kernel
  refine ⟨hbuild, hdeclared, by decide +kernel, fun e he => ?_⟩
  rcases (App.only_known_names hbuild hdeclared {} .sqlite booksByAuthor _).1 e he with hmark | ⟨s, hs, -, hknown⟩
  · exact .inl hmark
  · exact .inr ⟨s, hs, hknown hagree⟩

/-- The books whose editor has a secret. -/
def booksByEditor : Request := ⟨"GET", ⟨"/book", some "Editor.secret=x"⟩, [], []⟩

/-- The statement that counts the rows of a table whose author has a secret. -/
def secretCount : Statement :=
  .count "book" (.all [.isInTable ⟨"book", "author_id"⟩ (.mk "id" "author"
    (some (.any [.compare ⟨Sql.relatedAlias, "secret"⟩ .eq (.string (some "x"))])))])

/-- Where two relations have one name but for the case, a filter on a column of the second one's target becomes a
filter on a hidden column of the first one's target. -/
theorem App.hidden_column_is_filtered :
    Registry.build (signedModels signedByBoth) [] {} = .ok ⟨signedModels signedByBoth⟩ ∧
    (Script.run .sqlite [] (App.respond ⟨⟨signedModels signedByBoth⟩, {}, .sqlite⟩ booksByEditor)).2 =
      [.query (secretCount.text .sqlite) [.string (some "x")]] ∧
    .column (.related "author") "secret" ∈ secretCount.mentions ∧
    authorDeclaration.table = "author" ∧ "secret" ∈ authorDeclaration.hidden ∧
    ∀ m ∈ signedModels signedByBoth, m.table = "author" → m.column? "secret" = none := by
  refine ⟨by decide +kernel, by decide +kernel, ?_, rfl, List.mem_cons_self, by decide +kernel⟩
  simp [secretCount, Sql.Statement.mentions, Sql.Condition.mentions, Sql.mentionsOf, Sql.Subquery.mentions, Sql.within]

end RestTables
