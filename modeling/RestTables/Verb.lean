import RestTables.Text.Blank
import RestTables.Text.Letter

/-
Module: RestTables.Verb
Purpose: What a request can ask of a resource. A POST may stand for FETCH, for clients that cannot send
  methods of their own.
Main exports: Verb, Verb.read?, Verb.isMutating, Verb.resolve?
-/

namespace RestTables

/-- The verbs a resource can answer. -/
inductive Verb where
  | get
  | head
  | post
  | put
  | patch
  | delete
  | fetch
  | options
deriving Repr, DecidableEq, Inhabited

namespace Verb

/-- All verbs, in the order in which they are listed. -/
def all : List Verb := [get, head, post, put, patch, delete, fetch, options]

/-- The verb's method. -/
def name : Verb → String
  | get => "GET"
  | head => "HEAD"
  | post => "POST"
  | put => "PUT"
  | patch => "PATCH"
  | delete => "DELETE"
  | fetch => "FETCH"
  | options => "OPTIONS"

/-- The verb may change rows. -/
def isMutating : Verb → Bool
  | post | put | patch | delete => true
  | _ => false

/-- The verb of a method, ignoring case and blanks around it. -/
def read? (s : String) : Option Verb :=
  all.find? fun v => Text.equalFold v.name.toList (Text.trim s.toList)

/-- The message for a method that is no verb. -/
def unsupported (s : String) : String := s!"unsupported method '{s}'"

/-- The header that asks for another verb. -/
def overrideHeader : String := "x-http-method-override"

/-- The verb of a request. Only a POST may ask for another verb, and only for FETCH. -/
def resolve? (method : String) (requested : Option String) : Option Verb :=
  match read? method with
  | some post => if requested.bind read? = some fetch then some fetch else some post
  | verb => verb

/-- A byte that a method may hold. -/
def isTokenChar (c : Char) : Bool :=
  c.isAlphanum || "!#$%&'*+-.^_`|~".toList.contains c

/-- A method is one or more such bytes. -/
def isMethod (s : String) : Bool := !s.isEmpty && s.toList.all isTokenChar

theorem mem_all (v : Verb) : v ∈ all := by cases v <;> decide

theorem read?_name (v : Verb) : read? v.name = some v := by cases v <;> decide +kernel

/-- Nothing but one of the four writing methods makes a verb that may change rows. -/
theorem isMutating_of_resolve? {method : String} {requested : Option String} {v : Verb}
    (h : resolve? method requested = some v) (hm : v.isMutating = true) : read? method = some v := by
  unfold resolve? at h
  split at h
  · next hp =>
    split at h
    · cases h
      simp [isMutating] at hm
    · cases h
      exact hp
  · exact h

example : read? " fetch " = some fetch ∧ read? "TRACE" = none := by decide +kernel
example : resolve? "POST" (some "delete") = some post := by decide +kernel

end Verb

end RestTables
