import Mathlib.Data.List.Perm.Basic
import Mathlib.Data.List.Forall2
import RestTables.Query.Arguments
import RestTables.Query.Payload

/-
Module: RestTables.Proofs.Query.Parts
Purpose: The parts of a request that are read one by one, and what each of them becomes: one entry of the query, or
  one of the list of what was not understood.
Main exports: Entry, Compiled.enter, Compiled.foldl_enter, Compiler.argumentEntries, Compiler.payloadEntries,
  Compiler.clauseOf?, Compiler.grouped_eq
-/

namespace RestTables

/-! ## Lists without repetition -/

section EraseDups

variable {α : Type} [DecidableEq α]

theorem eraseDups_filter (p : α → Bool) (l : List α) : (l.filter p).eraseDups = l.eraseDups.filter p := by
  cases l with
  | nil => rfl
  | cons a l =>
    have ih := eraseDups_filter p (l.filter fun b => !b == a)
    rw [List.eraseDups_cons, List.filter_cons, List.filter_cons, ← ih, List.filter_filter]
    split
    · rw [List.eraseDups_cons, List.filter_filter]
      simp only [Bool.and_comm]
    · next ha =>
      congr 1
      apply List.filter_congr
      intro b _
      by_cases hb : b = a
      · rw [hb]
        simpa using ha
      · simp [hb]
  termination_by l.length
  decreasing_by
    have := List.length_filter_le (fun b => !b == a) l
    simp only [List.length_cons]
    omega

theorem nodup_eraseDups (l : List α) : l.eraseDups.Nodup := by
  cases l with
  | nil => exact .nil
  | cons a l =>
    rw [List.eraseDups_cons, List.nodup_cons]
    exact ⟨by simp, nodup_eraseDups _⟩
  termination_by l.length
  decreasing_by
    have := List.length_filter_le (fun b => !b == a) l
    simp only [List.length_cons]
    omega

theorem perm_eraseDups {l l' : List α} (h : l.Perm l') : l.eraseDups.Perm l'.eraseDups := by
  rw [List.perm_ext_iff_of_nodup (nodup_eraseDups l) (nodup_eraseDups l')]
  intro a
  rw [List.mem_eraseDups, List.mem_eraseDups]
  exact h.mem_iff

end EraseDups

/-! ## Entries -/

/-- What one part of a request becomes. -/
inductive Entry where
  /-- A column to show. -/
  | field (name : String)
  /-- A column to sort by. -/
  | order (o : Order)
  /-- A filter with one test. -/
  | test (f : Filter)
  /-- A relation to read. -/
  | load (l : Load)
  /-- A part that was not understood. -/
  | invalid (part : String)

namespace Entry

/-- The column to show. -/
def field? : Entry → Option String
  | field name => some name
  | _ => none

/-- The column to sort by. -/
def order? : Entry → Option Order
  | order o => some o
  | _ => none

/-- The filter. -/
def test? : Entry → Option Filter
  | test f => some f
  | _ => none

/-- The relation to read. -/
def load? : Entry → Option Load
  | load l => some l
  | _ => none

/-- The part that was not understood. -/
def invalid? : Entry → Option String
  | invalid part => some part
  | _ => none

end Entry

/-- The filter's tests, each on its own. -/
def Filter.tests (f : Filter) : List Filter := f.alternatives.map fun p => ⟨f.relation, f.field, [p]⟩

namespace Compiled

/-- What has been read, with one more entry. -/
def enter (acc : Compiled) : Entry → Compiled
  | .field name => acc.addField name
  | .order o => acc.addOrder o
  | .test f => acc.addFilter f
  | .load l => acc.addLoad l
  | .invalid part => acc.reject part

/-- Every entry is put at the end of one list. -/
theorem foldl_enter (entries : List Entry) (acc : Compiled) :
    entries.foldl enter acc =
      { query :=
          { fields := acc.query.fields ++ entries.filterMap Entry.field?
            filters := acc.query.filters ++ entries.filterMap Entry.test?
            orders := acc.query.orders ++ entries.filterMap Entry.order?
            related := acc.query.related ++ entries.filterMap Entry.load?
            search := acc.query.search }
        invalid := acc.invalid ++ entries.filterMap Entry.invalid? } := by
  induction entries generalizing acc with
  | nil => simp
  | cons entry entries ih =>
    rw [List.foldl_cons, ih]
    cases entry <;>
      simp [enter, addField, addOrder, addFilter, addLoad, reject, List.filterMap_cons, Entry.field?, Entry.order?,
        Entry.test?, Entry.load?, Entry.invalid?]

/-- The entries are what there is: each is in one of the lists, in the order in which they were made. -/
structure Holds (out : Compiled) (entries : List Entry) : Prop where
  fields : out.query.fields = entries.filterMap Entry.field?
  orders : out.query.orders = entries.filterMap Entry.order?
  tests : out.query.filters.flatMap Filter.tests = entries.filterMap Entry.test?
  related : out.query.related = entries.filterMap Entry.load?
  invalid : out.invalid = entries.filterMap Entry.invalid?

/-- So no entry is lost, and none is there twice. -/
theorem Holds.length_eq {out : Compiled} {entries : List Entry} (h : out.Holds entries) :
    out.query.fields.length + out.query.orders.length + (out.query.filters.flatMap Filter.tests).length +
      out.query.related.length + out.invalid.length = entries.length := by
  rw [h.fields, h.orders, h.tests, h.related, h.invalid]
  clear h
  induction entries with
  | nil => rfl
  | cons entry entries ih =>
    cases entry <;>
      simp only [List.filterMap_cons, Entry.field?, Entry.order?, Entry.test?, Entry.load?, Entry.invalid?,
        List.length_cons] <;>
      omega

end Compiled

/-! ## Query strings -/

/-- The values of a name. -/
def Arguments.valuesOf (args : Arguments) (key : String) : List String := (args.filter (·.1 == key)).map (·.2)

namespace Compiler

open Arguments

/-- What an item of the list of columns to show becomes. -/
def fieldEntry (c : Compiler) (item : String) : Entry :=
  if (c.model.column? item).isSome then .field item else .invalid item

/-- What an item of the list of columns to sort by becomes. -/
def orderEntry (c : Compiler) (item : String) : Entry :=
  let (descending, name) := takeMark c.grammar.reverse.toList item.toList
  match c.resolve? (String.ofList name) with
  | some (relation, field) => .order ⟨relation, field.name, descending⟩
  | none => .invalid item

/-- What a value of a column becomes. -/
def valueEntry (c : Compiler) (relation : Option String) (field : Field) (key value : String) : Entry :=
  match predicate? c.grammar field.kind value with
  | some test => .test ⟨relation, field.name, [test]⟩
  | none => .invalid (key ++ "=" ++ value)

/-- What a name with its values becomes: an entry for each value of a column, and a single one for a name that is
none. -/
def keyEntries (c : Compiler) (key : String) (values : List String) : List Entry :=
  match c.resolve? key with
  | none => [.invalid key]
  | some (relation, field) => values.map (c.valueEntry relation field key)

/-- What a name in the list of relations to read becomes. -/
def loadEntry (c : Compiler) (name : String) : Entry :=
  match c.model.related? name with
  | some relation => .load ⟨relation.name, none⟩
  | none => .invalid name

/-- What the list of relations to read becomes. -/
def expansionEntries (c : Compiler) : Option String → List Entry
  | none => []
  | some value =>
    let items := c.itemsOf value
    if items.isEmpty || items == ["*"] then c.model.relations.map fun r => .load ⟨r.name, none⟩
    else items.map c.loadEntry

/-- What an argument about sorting or projection becomes: an entry for each of its items. -/
def directiveEntries (c : Compiler) (arg : String × String) : List Entry :=
  if c.names.isScalar arg.1 then []
  else if arg.1 == c.names.sort then (c.itemsOf arg.2).map c.orderEntry
  else if arg.1 == c.names.fields then (c.itemsOf arg.2).map c.fieldEntry
  else []

/-- The names that should be columns, in the order in which they come first. -/
def keysOf (c : Compiler) (args : Arguments) : List String :=
  ((args.map (·.1)).filter fun key => !c.names.isReserved key).eraseDups

/-- What a query string becomes, part by part. -/
def argumentEntries (c : Compiler) (args : Arguments) : List Entry :=
  args.flatMap c.directiveEntries ++ (c.keysOf args).flatMap (fun key => c.keyEntries key (args.valuesOf key)) ++
    c.expansionEntries (c.expansion? args)

/-- The filter on a column, if one of its values is a test. -/
def clauseOf? (c : Compiler) (key : String) (values : List String) : Option Filter :=
  match c.resolve? key with
  | none => none
  | some (relation, field) =>
    let tests := values.filterMap (predicate? c.grammar field.kind)
    if tests.isEmpty then none else some ⟨relation, field.name, tests⟩

/-! ### Groups -/

theorem valuesOf_cons_self (key value : String) (args : Arguments) :
    valuesOf ((key, value) :: args) key = value :: valuesOf args key := by
  simp [valuesOf]

theorem valuesOf_cons_of_ne {key other value : String} (args : Arguments) (h : other ≠ key) :
    valuesOf ((other, value) :: args) key = valuesOf args key := by
  simp [valuesOf, h]

theorem valuesOf_filter {p : String × String → Bool} {key : String} (args : Arguments)
    (h : ∀ value, p (key, value) = true) : valuesOf (args.filter p) key = valuesOf args key := by
  have hsame : (fun arg : String × String => (arg.1 == key) && p arg) = fun arg => arg.1 == key := by
    funext arg
    cases hkey : arg.1 == key with
    | false => rfl
    | true =>
      obtain rfl : arg.1 = key := by simpa using hkey
      exact h arg.2
  simp only [valuesOf, List.filter_filter, hsame]

theorem lookup_groups (keys : List String) (key : String) (f : String → List String)
    (hnone : key ∉ keys → f key = []) :
    ((keys.map fun k => (k, f k)).lookup key).getD [] = f key := by
  induction keys with
  | nil => exact (hnone List.not_mem_nil).symm
  | cons k keys ih =>
    rw [List.map_cons, List.lookup_cons]
    by_cases hk : key = k
    · simp [hk]
    · have hbeq : (key == k) = false := by simpa using hk
      rw [hbeq]
      exact ih fun hmem => hnone (List.not_mem_cons_of_ne_of_not_mem hk hmem)

/-- Each name is in one group, with all its values. -/
theorem grouped_eq (args : Arguments) :
    grouped args = (args.map (·.1)).eraseDups.map fun key => (key, args.valuesOf key) := by
  induction args with
  | nil => rfl
  | cons arg args ih =>
    obtain ⟨key, value⟩ := arg
    have hnone : key ∉ (args.map (·.1)).eraseDups → valuesOf args key = [] := by
      intro hnot
      simp only [valuesOf, List.map_eq_nil_iff, List.filter_eq_nil_iff, beq_iff_eq]
      intro arg harg hkey
      exact hnot (List.mem_eraseDups.mpr (hkey ▸ List.mem_map_of_mem harg))
    -- The first name has its group in front, and leaves the groups of the others.
    have hfirst := lookup_groups (args.map (·.1)).eraseDups key (valuesOf args) hnone
    rw [grouped, ih, hfirst, List.map_cons, List.eraseDups_cons, List.map_cons, valuesOf_cons_self,
      eraseDups_filter, List.filter_map]
    congr 1
    apply List.map_congr_left
    intro other hother
    have hne : key ≠ other := by
      rintro rfl
      simp at hother
    rw [valuesOf_cons_of_ne args hne]

/-- The groups of the names that should be columns. -/
theorem grouped_filter_eq (c : Compiler) (args : Arguments) :
    grouped ((args.filter fun (k, _) => !c.names.isScalar k).filter fun (k, _) =>
        k != c.names.sort && k != c.names.fields) =
      (c.keysOf args).map fun key => (key, args.valuesOf key) := by
  have hfilter : (fun arg : String × String =>
      (arg.1 != c.names.sort && arg.1 != c.names.fields) && !c.names.isScalar arg.1) =
        (fun key => !c.names.isReserved key) ∘ (·.1) := by
    funext arg
    simp only [ArgumentNames.isReserved, Function.comp_apply, bne, Bool.not_or]
    cases arg.1 == c.names.sort <;> cases arg.1 == c.names.fields <;> cases c.names.isScalar arg.1 <;> rfl
  rw [grouped_eq, List.filter_filter, hfilter, keysOf, List.filter_map]
  apply List.map_congr_left
  intro key hkey
  have hopen : (!c.names.isReserved key) = true := by
    obtain ⟨arg, harg, rfl⟩ := List.mem_map.mp (List.mem_eraseDups.mp hkey)
    exact (List.mem_filter.mp harg).2
  rw [valuesOf_filter args fun _ => hopen]

end Compiler

/-! ## Bodies -/

namespace Compiler

/-- What a relation to read becomes: an entry that reads it, or one for everything about it that is wrong. -/
def payloadLoadEntries (c : Compiler) (entry : String × Payload.Columns) : List Entry :=
  match c.model.related? entry.1 with
  | none => [.invalid entry.1]
  | some relation =>
    match entry.2 with
    | .word w => if w = "*" then [.load ⟨relation.name, none⟩] else [.invalid (entry.1 ++ "." ++ w)]
    | .list names =>
      match c.target? relation with
      | none => [.invalid entry.1]
      | some target =>
        let unknown := names.filter fun column => (target.column? column).isNone
        if unknown.isEmpty then [.load ⟨relation.name, some names⟩]
        else unknown.map fun column => .invalid (entry.1 ++ "." ++ column)

/-- What a test of a body becomes. -/
def payloadFilterEntry (c : Compiler) (spec : Payload.FilterSpec) : Entry :=
  match c.locate spec.model spec.field with
  | .error part => .invalid part
  | .ok (relation, field) =>
    match Operator.read? spec.op with
    | none => .invalid ("op=" ++ spec.op)
    | some op =>
      match test? field.kind op spec.value with
      | none => .invalid (spec.field ++ "=" ++ spec.value.text)
      | some test => .test ⟨relation, field.name, [test]⟩

/-- What a column to sort by becomes. -/
def payloadOrderEntry (c : Compiler) (spec : Payload.SortSpec) : Entry :=
  match c.locate spec.model spec.field with
  | .error part => .invalid part
  | .ok (relation, field) =>
    let direction := Text.lowerText spec.direction
    if direction = "asc" then .order ⟨relation, field.name, false⟩
    else if direction = "desc" then .order ⟨relation, field.name, true⟩
    else .invalid ("direction=" ++ spec.direction)

/-- What a body becomes, part by part. -/
def payloadEntries (c : Compiler) (p : Payload) : List Entry :=
  p.fields.map c.fieldEntry ++ p.related.flatMap c.payloadLoadEntries ++ p.filters.map c.payloadFilterEntry ++
    p.sorting.map c.payloadOrderEntry

end Compiler

end RestTables
