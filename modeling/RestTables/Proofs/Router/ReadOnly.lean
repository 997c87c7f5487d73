import RestTables.Proofs.Registry.Origin
import RestTables.Proofs.Router.Statements

/-
Module: RestTables.Proofs.Router.ReadOnly
Purpose: What a service that may change nothing says to its database: over any requests it only selects. The same
  holds of a request by any method but the four writing ones, whatever its header fields and arguments ask for.
Main exports: App.respondAll, Event.isSelect, App.only_selects
-/

namespace RestTables

open Sql (Statement)
open Dialogue

/-! ## Statements that select -/

/-- The statement selects rows, or counts them. -/
def Sql.Statement.isSelect : Statement → Bool
  | .select _ | .count .. => true
  | _ => false

/-- Rows were asked for, and the statement begins with the word SELECT. -/
def Event.isSelect : Event → Bool
  | .query text _ => Sql.firstWord text == ['S', 'E', 'L', 'E', 'C', 'T']
  | _ => false

theorem Event.isSelect_query {s : Statement} (h : s.isSelect = true) (b : Backend) (values : List Value) :
    (Event.query (s.text b) values).isSelect = true := by
  cases s with
  | select s => simp [Event.isSelect, Statement.firstWord_text, Statement.verb]
  | count table c => simp [Event.isSelect, Statement.firstWord_text, Statement.verb]
  | insert | update | delete | catalog => cases h

theorem Service.Reads.isSelect {s : Service} {statement : Statement} (h : s.Reads statement) :
    statement.isSelect = true := by
  cases h with
  | key | count | page | related => rfl

/-- A run of a dialogue that only reads leaves a log of selections. -/
theorem Script.isSelect_of_only {a : App} {d : Dialogue α} (h : d.Only (Exchange.Queries a.Reads)) (b : Backend)
    (script : Script) : ∀ e ∈ (script.run b d).2, e.isSelect = true := by
  intro e he
  obtain ⟨_, ⟨s, r, rfl, m, -, hs⟩, rfl⟩ := Script.forall_mem_log h b script e he
  exact Event.isSelect_query hs.isSelect b _

/-! ## Methods -/

namespace Verb

/-- What a method is made of is not blank. -/
theorem isBlank_of_isTokenChar {c : Char} (h : isTokenChar c = true) : Text.isBlank c = false := by
  have hvisible : 33 ≤ c.toNat ∧ c.toNat ≤ 126 := by
    unfold isTokenChar at h
    rcases Bool.or_eq_true_iff.mp h with halnum | hmark
    · rcases Bool.or_eq_true_iff.mp halnum with halpha | hdigit
      · rcases Bool.or_eq_true_iff.mp halpha with hupper | hlower
        · have hrange : 65 ≤ c.toNat ∧ c.toNat ≤ 90 := of_decide_eq_true hupper
          omega
        · obtain ⟨hlow, hhigh⟩ := Bool.and_eq_true_iff.mp hlower
          have hlow : 97 ≤ c.toNat := of_decide_eq_true hlow
          have hhigh : c.toNat ≤ 122 := of_decide_eq_true hhigh
          omega
      · have hrange : 48 ≤ c.toNat ∧ c.toNat ≤ 57 := Char.isDigit_iff_toNat.mp hdigit
        omega
    · have hmarks : ("!#$%&'*+-.^_`|~".toList.all fun d => decide (33 ≤ d.toNat ∧ d.toNat ≤ 126)) = true := by decide
      exact of_decide_eq_true (List.all_eq_true.mp hmarks c (by simpa using hmark))
  simp only [Text.isBlank, Bool.or_eq_false_iff, Bool.and_eq_false_iff, decide_eq_false_iff_not, beq_eq_false_iff_ne]
  omega

theorem trim_of_isMethod {method : String} (h : isMethod method = true) :
    Text.trim method.toList = method.toList := by
  have hall : ∀ c ∈ method.toList, Text.isBlank c = false := by
    intro c hc
    have htoken : ∀ c ∈ method.toList, isTokenChar c = true := by
      simpa using (Bool.and_eq_true_iff.mp h).2
    exact isBlank_of_isTokenChar (htoken c hc)
  have hdrop : ∀ s : List Char, (∀ c ∈ s, Text.isBlank c = false) → s.dropWhile Text.isBlank = s := by
    intro s hs
    cases s with
    | nil => rfl
    | cons c s => simp [hs c List.mem_cons_self]
  unfold Text.trim Text.trimStart Text.trimEnd
  rw [hdrop _ hall, hdrop _ (by simpa using hall), List.reverse_reverse]

/-- A method that means a verb is its name, whatever the case. -/
theorem sameFold_name_of_read? {method : String} {verb : Verb} (hmethod : isMethod method = true)
    (h : read? method = some verb) : Text.sameFold verb.name method = true := by
  have hfold := List.find?_some h
  rwa [trim_of_isMethod hmethod] at hfold

/-- The names of the methods by which rows may be changed. -/
def writingMethods : List String := (all.filter isMutating).map (·.name)

example : writingMethods = ["POST", "PUT", "PATCH", "DELETE"] := rfl

end Verb

namespace App

variable {r : Request}

/-- A method that is none of the writing ones means no verb that changes rows, whatever a request asks for
besides. -/
theorem isMutating_of_verb? (hmethod : Verb.isMethod r.method = true)
    (hname : ∀ name ∈ Verb.writingMethods, Text.sameFold name r.method = false) {verb : Verb}
    (h : verb? r = some verb) : verb.isMutating = false := by
  by_contra hmutating
  have hmutates : verb.isMutating = true := by simpa using hmutating
  have hread : Verb.read? r.method = some verb := Verb.isMutating_of_resolve? h hmutates
  have hwriting : verb.name ∈ Verb.writingMethods :=
    List.mem_map.mpr ⟨verb, List.mem_filter.mpr ⟨Verb.mem_all verb, hmutates⟩, rfl⟩
  have hsame := Verb.sameFold_name_of_read? hmethod hread
  rw [hname _ hwriting] at hsame
  cases hsame

/-- The replies to requests, one after the other. -/
def respondAll (a : App) (rs : List Request) : Dialogue (List Response) := rs.mapM a.respond

/-- Where nothing may be changed, any requests one after the other only read. -/
theorem only_respondAll_reads {declared : List Model} {tables : List Table} {config : Config} {g : Registry}
    (h : Registry.build declared tables config = .ok g) (hread : config.readOnly = true) (b : Backend)
    (rs : List Request) :
    (respondAll ⟨g, config, b⟩ rs).Only (Exchange.Queries (App.Reads ⟨g, config, b⟩)) := by
  apply only_mapM
  intro r
  apply only_respond_reads
  intro m hm verb _ hallows
  exact Registry.isMutating_of_allows h hread hm hallows

/-- A service whose settings say that nothing may be changed says nothing but selections to its database, over any
sequence of requests and whatever the database answers. And whatever the settings, a request by another method than
POST, PUT, PATCH and DELETE means no verb that changes rows, and it is answered by selections alone. -/
theorem only_selects :
    (∀ (declared : List Model) (tables : List Table) (config : Config) (g : Registry),
      Registry.build declared tables config = .ok g → config.readOnly = true →
      ∀ (b : Backend) (rs : List Request) (script : Script),
        ∀ e ∈ (script.run b (respondAll ⟨g, config, b⟩ rs)).2, e.isSelect = true) ∧
    ∀ (a : App) (r : Request), Verb.isMethod r.method = true →
      (∀ name ∈ ["POST", "PUT", "PATCH", "DELETE"], Text.sameFold name r.method = false) →
      (∀ verb, verb? r = some verb → verb.isMutating = false) ∧
      ∀ script : Script, ∀ e ∈ (script.run a.backend (a.respond r)).2, e.isSelect = true := by
  constructor
  · intro declared tables config g h hread b rs script
    exact Script.isSelect_of_only (only_respondAll_reads h hread b rs) b script
  · intro a r hmethod hname
    have hverb : ∀ verb, verb? r = some verb → verb.isMutating = false :=
      fun verb => isMutating_of_verb? hmethod hname
    exact ⟨hverb, Script.isSelect_of_only (only_respond_reads fun _ _ verb hv _ => hverb verb hv) a.backend⟩

/-! ## Two requests to an archive -/

/-- The notes of an archive, declared with all verbs. -/
def archivedNotes : Model :=
  { name := "Note", table := "note", url := "/note", description := none, collectionSuffix := "List"
    columns := [(Field.new "id" .integer).primaryKey], keyField := (Field.new "id" .integer).primaryKey
    relations := [], methods := Verb.all }

/-- The settings of an archive. -/
def archiveConfig : Config := { readOnly := true }

/-- An archive of notes. -/
def archive : App := ⟨⟨[archivedNotes.restrict true true]⟩, archiveConfig, .sqlite⟩

/-- A deletion, and a request for all notes that asks for a deletion besides. -/
def archiveRequests : List Request :=
  [⟨"DELETE", ⟨"/note/1", none⟩, [], []⟩,
   ⟨"GET", ⟨"/note", some "_method=DELETE"⟩, [(Verb.overrideHeader, "DELETE")], []⟩]

/-- There is one note. -/
def archiveScript : Script :=
  [.success [[(Sql.countColumn, .bigInt (some 1))]] default, .success [[("id", .bigInt (some 1))]] default]

/-- The deletion says nothing, and the list takes two selections. -/
theorem only_selects_of_archive :
    Registry.build [archivedNotes] [] archiveConfig = .ok archive.registry ∧ archiveConfig.readOnly = true ∧
    (archiveScript.run .sqlite (archive.respondAll archiveRequests)).2.length = 2 ∧
    (∀ e ∈ (archiveScript.run .sqlite (archive.respondAll archiveRequests)).2, e.isSelect = true) ∧
    ∀ verb, verb? archiveRequests[1] = some verb → verb.isMutating = false := by
  have hbuild : Registry.build [archivedNotes] [] archiveConfig = .ok archive.registry := by decide +kernel
  refine ⟨hbuild, rfl, by decide +kernel, ?_, ?_⟩
  · exact only_selects.1 [archivedNotes] [] archiveConfig archive.registry hbuild rfl .sqlite archiveRequests
      archiveScript
  · exact (only_selects.2 archive archiveRequests[1] (by decide +kernel) (by decide +kernel)).1

end App

end RestTables
