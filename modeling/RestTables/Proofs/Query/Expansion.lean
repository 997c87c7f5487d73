import RestTables.Proofs.Query.Conservation

/-
Module: RestTables.Proofs.Query.Expansion
Purpose: Which relations are read along. Of the arguments that ask for relations the first one is read and no other, so
  every name in them is answered for just where the later ones ask for nothing new, and the order of the arguments does
  not matter just where all of them ask for the same.
Main exports: Compiler.expansions, Compiler.relationsIn, Compiler.AnswersFor, Compiler.related_ofArguments,
  Compiler.invalid_ofArguments, Compiler.first_expansion_is_read
-/

namespace RestTables.Compiler

section Names

variable (c : Compiler)

/-- The name of an argument that asks for relations. -/
def isExpansion (key : String) : Bool := key == c.names.related || key == c.names.extended

/-- The values of the arguments that ask for relations. -/
def expansions (args : Arguments) : List String := (args.filter fun arg => c.isExpansion arg.1).map (·.2)

/-- The arguments about anything else. -/
def others (args : Arguments) : Arguments := args.filter fun arg => !c.isExpansion arg.1

/-- The value asks for every relation and names none. -/
def asksForAll (value : String) : Bool := (c.itemsOf value).isEmpty || c.itemsOf value == ["*"]

/-- The names in a value. -/
def namesIn (value : String) : List String := if c.asksForAll value then [] else c.itemsOf value

/-- The names in a value that lead to no relation. -/
def unknownIn (value : String) : List String := (c.namesIn value).filter fun name => (c.model.related? name).isNone

/-- The relations that a value asks for. -/
def relationsIn (value : String) : List String :=
  if c.asksForAll value then c.model.relations.map (·.name)
  else (c.itemsOf value).filterMap fun name => (c.model.related? name).map (·.name)

/-- The relations that the first of the arguments asks for. -/
def firstRelations (args : Arguments) : List String := ((c.expansions args).take 1).flatMap c.relationsIn

/-- The names in the first of the arguments that lead to no relation. -/
def firstUnknown (args : Arguments) : List String := ((c.expansions args).take 1).flatMap c.unknownIn

/-- The relation of a name is read, or the name is reported. -/
def AnswersFor (out : Compiled) (name : String) : Prop :=
  (∃ r, c.model.related? name = some r ∧ ∃ l ∈ out.query.related, l.relation = r.name) ∨ name ∈ out.invalid

end Names

variable {c : Compiler} {args args' : Arguments}

/-! ## One argument -/

theorem expansion?_eq_head? (c : Compiler) (args : Arguments) : c.expansion? args = (c.expansions args).head? := by
  unfold expansion? expansions isExpansion
  rw [List.head?_map, List.head?_filter]

theorem expansionEntries_some (c : Compiler) (value : String) :
    c.expansionEntries (some value) =
      if c.asksForAll value then c.model.relations.map fun r => .load ⟨r.name, none⟩
      else (c.itemsOf value).map c.loadEntry := rfl

theorem load?_expansionEntries (c : Compiler) (value : String) :
    (c.expansionEntries (some value)).filterMap Entry.load? = (c.relationsIn value).map fun name => ⟨name, none⟩ := by
  rw [expansionEntries_some, relationsIn]
  split
  · simp [List.filterMap_map, Function.comp_def, Entry.load?]
  · rw [List.filterMap_map, List.map_filterMap]
    apply List.filterMap_congr
    intro name _
    simp only [Function.comp_apply, loadEntry]
    cases c.model.related? name <;> rfl

theorem invalid?_expansionEntries (c : Compiler) (value : String) :
    (c.expansionEntries (some value)).filterMap Entry.invalid? = c.unknownIn value := by
  rw [expansionEntries_some, unknownIn, namesIn]
  split
  · simp [List.filterMap_map, Function.comp_def, Entry.invalid?]
  · rw [List.filterMap_map, ← List.filterMap_eq_filter]
    apply List.filterMap_congr
    intro name _
    simp only [Function.comp_apply, loadEntry]
    cases hname : c.model.related? name <;> simp [Entry.invalid?, hname, Option.guard]

/-- The relation of a name in a value is asked for, or the name leads to none. -/
theorem mem_relationsIn_or_unknownIn {value name : String} (h : name ∈ c.namesIn value) :
    (∃ r, c.model.related? name = some r ∧ r.name ∈ c.relationsIn value) ∨ name ∈ c.unknownIn value := by
  have hnot : c.asksForAll value = false := by
    by_contra hall
    simp [namesIn, hall] at h
  have hitem : name ∈ c.itemsOf value := by simpa [namesIn, hnot] using h
  cases hname : c.model.related? name with
  | none => exact .inr (List.mem_filter.mpr ⟨h, by simp [hname]⟩)
  | some r =>
    refine .inl ⟨r, rfl, ?_⟩
    simp only [relationsIn, hnot, Bool.false_eq_true, if_false, List.mem_filterMap]
    exact ⟨name, hitem, by simp [hname]⟩

/-! ## All arguments -/

/-- The relations that are read are those that the first argument asks for. -/
theorem related_ofArguments (c : Compiler) (args : Arguments) :
    (c.ofArguments args).query.related = (c.firstRelations args).map fun name => ⟨name, none⟩ := by
  rw [ofArguments_eq, expansion?_eq_head?, firstRelations]
  cases c.expansions args with
  | nil => rfl
  | cons first later => simp [load?_expansionEntries]

theorem mem_related_iff {name : String} :
    (∃ l ∈ (c.ofArguments args).query.related, l.relation = name) ↔ name ∈ c.firstRelations args := by
  rw [related_ofArguments]
  simp

/-- Arguments that ask for relations have nothing to do with columns. -/
theorem columnEntries_others (c : Compiler) (args : Arguments) :
    (c.others args).flatMap c.directiveEntries = args.flatMap c.directiveEntries ∧
      ((c.keysOf (c.others args)).flatMap fun key => c.keyEntries key ((c.others args).valuesOf key)) =
        (c.keysOf args).flatMap fun key => c.keyEntries key (args.valuesOf key) := by
  have hscalar : ∀ key, c.isExpansion key = true → c.names.isScalar key = true := by
    intro key hkey
    simp only [isExpansion, Bool.or_eq_true, beq_iff_eq] at hkey
    rcases hkey with rfl | rfl <;> simp [ArgumentNames.isScalar]
  have hkeys : c.keysOf (c.others args) = c.keysOf args := by
    -- Keys that ask for relations are reserved already, so keeping them out changes nothing.
    have hfilter : (fun key => !c.names.isReserved key && !c.isExpansion key) = fun key => !c.names.isReserved key := by
      funext key
      cases hkey : c.isExpansion key with
      | false => simp
      | true => simp [ArgumentNames.isReserved, hscalar key hkey]
    have hmap : (c.others args).map (·.1) = (args.map (·.1)).filter fun key => !c.isExpansion key := by
      rw [List.filter_map]
      rfl
    rw [keysOf, keysOf, hmap, List.filter_filter, hfilter]
  constructor
  · refine (flatMap_eq_flatMap_filter fun arg _ harg => ?_).symm
    rw [directiveEntries, if_pos (hscalar arg.1 (by simpa using harg))]
  · rw [hkeys]
    apply List.flatMap_congr
    intro key hkey
    have hopen : c.names.isReserved key = false := by
      simpa using (List.mem_filter.mp (List.mem_eraseDups.mp hkey)).2
    have hother : c.isExpansion key = false := by
      by_contra h
      simp [ArgumentNames.isReserved, hscalar key (by simpa using h)] at hopen
    rw [others, valuesOf_filter args fun value => by simp [hother]]

/-- What is reported is about other arguments, or a name in the first one. -/
theorem invalid_ofArguments (c : Compiler) (args : Arguments) :
    (c.ofArguments args).invalid = (c.ofArguments (c.others args)).invalid ++ c.firstUnknown args := by
  obtain ⟨hdirectives, hkeys⟩ := c.columnEntries_others args
  have hnone : c.expansions (c.others args) = [] := by
    simp only [expansions, others, List.filter_filter, List.map_eq_nil_iff, List.filter_eq_nil_iff]
    simp
  have hfirst : (c.expansionEntries (c.expansions args).head?).filterMap Entry.invalid? = c.firstUnknown args := by
    rw [firstUnknown]
    cases c.expansions args with
    | nil => rfl
    | cons first later => simp [invalid?_expansionEntries]
  rw [ofArguments_eq, ofArguments_eq]
  simp only [argumentEntries, hdirectives, hkeys, expansion?_eq_head?, hnone, List.filterMap_append, hfirst]
  simp [expansionEntries]

theorem answersFor_iff {name : String} :
    c.AnswersFor (c.ofArguments args) name ↔
      (∃ r, c.model.related? name = some r ∧ r.name ∈ c.firstRelations args) ∨
        name ∈ (c.ofArguments (c.others args)).invalid ∨ name ∈ c.firstUnknown args := by
  simp only [AnswersFor, mem_related_iff, invalid_ofArguments c args, List.mem_append]

/-- The names in the first argument are answered for. -/
theorem answersFor_of_mem_first {first name : String} {later : List String}
    (h : c.expansions args = first :: later) (hname : name ∈ c.namesIn first) :
    c.AnswersFor (c.ofArguments args) name := by
  rw [answersFor_iff, firstRelations, firstUnknown, h]
  simp only [List.take_succ_cons, List.take_zero, List.flatMap_singleton]
  exact (mem_relationsIn_or_unknownIn hname).imp_right .inr

theorem expansions_perm (h : args.Perm args') : (c.expansions args).Perm (c.expansions args') := (h.filter _).map _

/-- Any of the arguments can be the first. -/
theorem exists_perm_first {value : String} (h : value ∈ c.expansions args) :
    ∃ args', args'.Perm args ∧ c.firstRelations args' = c.relationsIn value := by
  obtain ⟨arg, harg, rfl⟩ := List.mem_map.mp h
  obtain ⟨hmem, hexpansion⟩ := List.mem_filter.mp harg
  obtain ⟨front, back, rfl⟩ := List.append_of_mem hmem
  refine ⟨arg :: (front ++ back), List.perm_middle.symm, ?_⟩
  simp [firstRelations, expansions, hexpansion]

/-- The relations that are read do not depend on the order of the arguments just where all of them ask for the same. -/
theorem forall_perm_related_iff :
    (∀ args', args'.Perm args → ∀ name, name ∈ c.firstRelations args' ↔ name ∈ c.firstRelations args) ↔
      ∀ value ∈ c.expansions args, ∀ value' ∈ c.expansions args,
        ∀ name, name ∈ c.relationsIn value ↔ name ∈ c.relationsIn value' := by
  constructor
  · -- Any of the values can be brought to the front.
    intro h value hvalue value' hvalue' name
    obtain ⟨args₁, hperm, hfirst⟩ := exists_perm_first hvalue
    obtain ⟨args₂, hperm', hfirst'⟩ := exists_perm_first hvalue'
    rw [← hfirst, ← hfirst', h args₁ hperm, h args₂ hperm']
  · intro h args' hperm name
    have hvalues := expansions_perm (c := c) hperm
    cases hfirst : c.expansions args with
    | nil =>
      have hnone : c.expansions args' = [] := by rwa [hfirst, List.perm_nil] at hvalues
      simp [firstRelations, hfirst, hnone]
    | cons first later =>
      cases hfirst' : c.expansions args' with
      | nil =>
        rw [hfirst', hfirst, List.nil_perm] at hvalues
        cases hvalues
      | cons first' later' =>
        have hmem : first ∈ c.expansions args := hfirst ▸ List.mem_cons_self
        have hmem' : first' ∈ c.expansions args := hvalues.mem_iff.mp (hfirst' ▸ List.mem_cons_self)
        simp only [firstRelations, hfirst, hfirst', List.take_succ_cons, List.take_zero, List.flatMap_singleton]
        exact h first' hmem' first hmem name

/-- Of the arguments that ask for relations the first one is read: its relations are read along and its other names are
reported, and whatever else is reported is about other arguments. So every name in any of them is answered for where
each name in a later one leads to a relation that the first asks for, or is reported anyway, and only there; and the
order of the arguments does not matter where all of them ask for the same relations, and only there. -/
theorem first_expansion_is_read (c : Compiler) (args : Arguments) :
    ((c.ofArguments args).query.related = (c.firstRelations args).map fun name => ⟨name, none⟩) ∧
    (c.ofArguments args).invalid = (c.ofArguments (c.others args)).invalid ++ c.firstUnknown args ∧
    ((∀ value ∈ c.expansions args, ∀ name ∈ c.namesIn value, c.AnswersFor (c.ofArguments args) name) ↔
      ∀ value ∈ (c.expansions args).tail, ∀ name ∈ c.namesIn value,
        (∃ r, c.model.related? name = some r ∧ r.name ∈ c.firstRelations args) ∨
          name ∈ (c.ofArguments (c.others args)).invalid ∨ name ∈ c.firstUnknown args) ∧
    ((∀ args', args'.Perm args → ∀ name, (∃ l ∈ (c.ofArguments args').query.related, l.relation = name) ↔
        ∃ l ∈ (c.ofArguments args).query.related, l.relation = name) ↔
      ∀ value ∈ c.expansions args, ∀ value' ∈ c.expansions args,
        ∀ name, name ∈ c.relationsIn value ↔ name ∈ c.relationsIn value') := by
  refine ⟨c.related_ofArguments args, c.invalid_ofArguments args, ?_, ?_⟩
  · cases hfirst : c.expansions args with
    | nil => simp
    | cons first later =>
      rw [List.forall_mem_cons, List.tail_cons]
      simp only [answersFor_iff]
      refine and_iff_right fun name hname => ?_
      exact answersFor_iff.mp (answersFor_of_mem_first hfirst hname)
  · simp only [mem_related_iff]
    exact forall_perm_related_iff

/-- Books with an author and an editor. -/
def anthologyModel : Model :=
  { bookModel with
    columns := bookModel.columns ++ [.new "editor_id" .integer]
    relations := bookModel.relations ++ [.scalar "editor" "Author" "editor_id" "id"] }

/-- Asked for in an argument of its own, the editor is neither read nor reported, and the other way round it is the
author who is not. -/
theorem second_expansion_is_lost :
    let c : Compiler := { registry := ⟨[anthologyModel, authorModel]⟩, model := anthologyModel }
    Registry.build [anthologyModel, authorModel] [] {} = .ok c.registry ∧
      c.ofArguments [("_related", "author"), ("_extended", "editor")] = { query := { related := [⟨"author", none⟩] } } ∧
      c.ofArguments [("_extended", "editor"), ("_related", "author")] = { query := { related := [⟨"editor", none⟩] } } ∧
      ¬c.AnswersFor (c.ofArguments [("_related", "author"), ("_extended", "editor")]) "editor" := by
  intro c
  have hout : c.ofArguments [("_related", "author"), ("_extended", "editor")] =
      { query := { related := [⟨"author", none⟩] } } := by decide +kernel
  have hname : (c.model.related? "editor").map (·.name) ≠ some "author" := by decide +kernel
  refine ⟨by decide +kernel, hout, by decide +kernel, ?_⟩
  rw [hout]
  rintro (⟨r, hr, l, hl, heq⟩ | hinvalid)
  · rw [List.mem_singleton.mp hl] at heq
    exact hname (by rw [hr, Option.map_some, ← heq])
  · cases hinvalid

end RestTables.Compiler
