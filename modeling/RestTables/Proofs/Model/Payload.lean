import Mathlib.Logic.Basic
import RestTables.Proofs.Rows.SentBack
import RestTables.Proofs.Service.Nulls

/-
Module: RestTables.Proofs.Model.Payload
Purpose: A declaration is built exactly where its visible fields have different names and one of them is a key, and
  a body fits the model exactly where its names do. The columns that clients may set are the needed ones and the
  others, and each member of a body whose names are known is either bound or reported.
Main exports: Declaration.visible, exists_build_iff, settable, required_append_optional_perm, Provides,
  isValid_validate_iff, Reports, AccountsFor, build_and_bodies_are_exact
-/

namespace RestTables.Model

/-! ## Declarations -/

/-- The fields that are neither hidden nor named with an underscore in front. -/
def Declaration.visible (d : Declaration) : List Field :=
  d.fields.filter fun f => f.name ∉ d.hidden ∧ f.name.toList.head? ≠ some '_'

section Build

variable {d : Declaration} {m : Model}

theorem Declaration.exposed_eq_visible (d : Declaration) : d.exposed = d.visible := by
  refine List.filter_congr fun f _ => ?_
  rw [Bool.eq_iff_iff, decide_eq_true_iff, exposes_iff, and_comm]

/-- A declaration is built exactly where its visible fields have different names and one of them is a key. -/
theorem exists_build_iff :
    (∃ m, d.build = .ok m) ↔ (d.visible.map (·.name)).Nodup ∧ ∃ f ∈ d.visible, f.isPrimary = true := by
  rw [← d.exposed_eq_visible]
  constructor
  · rintro ⟨m, hm⟩
    obtain ⟨-, hcolumns, -, hkey, -⟩ := eq_of_build hm
    exact ⟨hcolumns ▸ nodup_columns_of_build hm, m.keyField, List.mem_of_find?_eq_some hkey, List.find?_some hkey⟩
  · rintro ⟨hnodup, f, hf, hprimary⟩
    have hrepeated : Declaration.repeated? [] d.exposed = none :=
      Declaration.repeated?_eq_none_iff.mpr ⟨hnodup, fun _ _ => List.not_mem_nil⟩
    obtain ⟨k, hk⟩ := Option.isSome_iff_exists.mp (List.find?_isSome.mpr ⟨f, hf, hprimary⟩)
    exact ⟨_, by rw [Declaration.build, hrepeated, hk]⟩

/-- The key of a model is the first of its columns that is one. -/
theorem exists_columns_eq_of_build (h : d.build = .ok m) :
    ∃ before after, m.columns = before ++ m.keyField :: after ∧ m.keyField.isPrimary = true ∧
      ∀ f ∈ before, f.isPrimary = false := by
  obtain ⟨-, hcolumns, -, hkey, -⟩ := eq_of_build h
  rw [← hcolumns] at hkey
  obtain ⟨hprimary, before, after, heq, hbefore⟩ := List.find?_eq_some_iff_append.mp hkey
  exact ⟨before, after, heq, hprimary, fun f hf => by simpa using hbefore f hf⟩

end Build

/-! ## Columns that clients may set -/

section Columns

variable {m : Model} {name : String}

/-- The names of the columns that clients may set: all but the keys that the database numbers. -/
def settable (m : Model) : List String :=
  (m.columns.filter fun f => ¬(f.isPrimary = true ∧ f.autoIncrement = true)).map (·.name)

theorem settable_eq : m.settable = (m.columns.filter (·.isWritable)).map (·.name) := by
  refine congrArg (List.map _) (List.filter_congr fun f _ => ?_)
  rw [Bool.eq_iff_iff, decide_eq_true_iff, Field.isWritable, Bool.not_eq_true', Bool.and_eq_false_iff,
    Decidable.not_and_iff_or_not, Bool.not_eq_true, Bool.not_eq_true]

/-- Every needed column may be set. -/
theorem required_eq : m.required = ((m.columns.filter (·.isWritable)).filter (·.isRequired)).map (·.name) := by
  rw [required, List.filter_filter]
  refine congrArg (List.map _) (List.filter_congr fun f _ => ?_)
  cases h : f.isWritable <;> simp [Field.isRequired, h]

theorem optional_eq : m.optional = ((m.columns.filter (·.isWritable)).filter (!·.isRequired)).map (·.name) := by
  rw [optional, List.filter_filter]
  refine congrArg (List.map _) (List.filter_congr fun f _ => Bool.and_comm ..)

theorem required_sublist_settable : m.required.Sublist m.settable := by
  rw [required_eq, settable_eq]
  exact List.filter_sublist.map _

theorem optional_sublist_settable : m.optional.Sublist m.settable := by
  rw [optional_eq, settable_eq]
  exact List.filter_sublist.map _

/-- The needed columns and the others are together the columns that clients may set. -/
theorem required_append_optional_perm : (m.required ++ m.optional).Perm m.settable := by
  rw [required_eq, optional_eq, settable_eq, ← List.map_append]
  exact (List.filter_append_perm Field.isRequired _).map _

theorem mem_settable_iff : name ∈ m.settable ↔ name ∈ m.required ∨ name ∈ m.optional := by
  rw [← required_append_optional_perm.mem_iff, List.mem_append]

/-- A column is needed where clients may set it, it is never NULL and nothing else fills it. -/
theorem mem_required_iff_settable (h : (m.columns.map (·.name)).Nodup) {f : Field} (hf : f ∈ m.columns) :
    f.name ∈ m.required ↔ f.name ∈ m.settable ∧ f.nullable = false ∧ f.hasDefault = false := by
  rw [mem_settable_iff, mem_required_iff h hf, mem_optional_iff h hf]
  cases hwritable : f.isWritable <;> simp [Field.isRequired, hwritable]

/-- No column is needed and not needed. -/
theorem disjoint_required_optional (h : (m.columns.map (·.name)).Nodup) : m.required.Disjoint m.optional := by
  have hnodup : (m.required ++ m.optional).Nodup := by
    rw [required_append_optional_perm.nodup_iff]
    exact h.sublist (List.filter_sublist.map _)
  exact List.disjoint_of_nodup_append hnodup

end Columns

/-! ## Bodies -/

section Bodies

variable {m : Model} {data : Json.Object} {name : String}

/-- A body gives a value that is not null. -/
def Provides (data : Json.Object) (name : String) : Prop := ∃ v, data.get? name = some v ∧ v ≠ .null

theorem isNull_getD_iff_not_provides :
    ((data.get? name).map Json.isNull).getD true = true ↔ ¬ Provides data name := by
  unfold Provides
  cases data.get? name with
  | none => simp
  | some v => cases v <;> simp [Json.isNull]

theorem mem_missing_iff : name ∈ (m.validate data).missing ↔ name ∈ m.required ∧ ¬ Provides data name := by
  rw [validate, List.mem_filter, isNull_getD_iff_not_provides]

theorem mem_unknown_iff : name ∈ (m.validate data).unknown ↔ name ∈ data.keys ∧ name ∉ m.settable := by
  simp only [validate, List.mem_filter, Bool.and_eq_true, Bool.not_eq_true', List.contains_eq_mem,
    decide_eq_false_iff_not, mem_settable_iff, not_or]

/-- A body fits exactly where clients may set all that it names, and it gives all that is needed. -/
theorem isValid_validate_iff : (m.validate data).isValid = true ↔
    (∀ key ∈ data.keys, key ∈ m.settable) ∧ ∀ name ∈ m.required, Provides data name := by
  rw [Validation.isValid, Bool.and_eq_true, List.isEmpty_iff, List.isEmpty_iff, List.eq_nil_iff_forall_not_mem,
    List.eq_nil_iff_forall_not_mem, and_comm]
  simp only [mem_missing_iff, mem_unknown_iff, not_and_not_right]

/-- A member of a body goes to the column of its name: the value that is read from it is bound, and where none can be
read the name is reported. -/
def Tells (m : Model) (b : Bound) (member : String × Json) : Prop :=
  ∃ f, m.column? member.1 = some f ∧
    (∀ v, (member.1, v) ∈ b.values ↔ Value.ofJson? f.kind member.2 = some v) ∧
    (member.1 ∈ b.invalid ↔ Value.ofJson? f.kind member.2 = none)

theorem isSome_column?_of_mem_settable (h : name ∈ m.settable) : (m.column? name).isSome = true := by
  obtain ⟨f, hf, rfl⟩ := List.mem_map.mp h
  exact List.find?_isSome.mpr ⟨f, List.mem_of_mem_filter hf, beq_self_eq_true _⟩

theorem tells_bind_of_mem (hkeys : data.keys.Nodup) {member : String × Json} (hmember : member ∈ data)
    (hcolumn : (m.column? member.1).isSome = true) : m.Tells (m.bind data) member := by
  obtain ⟨key, j⟩ := member
  obtain ⟨f, hf⟩ := Option.isSome_iff_exists.mp hcolumn
  -- the column and the member of a name are the only ones of that name
  have honly : ∀ (P : Option Value → Prop),
      (∃ f' j', m.column? key = some f' ∧ (key, j') ∈ data ∧ P (Value.ofJson? f'.kind j')) ↔
        P (Value.ofJson? f.kind j) := by
    intro P
    constructor
    · rintro ⟨f', j', hf', hmember', hP⟩
      have hj := (Json.Object.get?_eq_some_of_mem hkeys hmember).symm.trans
        (Json.Object.get?_eq_some_of_mem hkeys hmember')
      cases hf.symm.trans hf'
      cases hj
      exact hP
    · exact fun hP => ⟨f, j, hf, hmember, hP⟩
  exact ⟨f, hf, fun v => mem_bind_iff.trans (honly (· = some v)), mem_bind_invalid_iff.trans (honly (· = none))⟩

/-- Each name of a body is bound or reported, and none is both. -/
theorem Tells.xor {b : Bound} {member : String × Json} (h : m.Tells b member) :
    Xor (∃ v, (member.1, v) ∈ b.values) (member.1 ∈ b.invalid) := by
  obtain ⟨f, -, hbound, hreported⟩ := h
  simp only [hbound, hreported]
  cases Value.ofJson? f.kind member.2 with
  | none => exact .inr ⟨rfl, fun ⟨_, hv⟩ => nomatch hv⟩
  | some v => exact .inl ⟨⟨v, rfl⟩, nofun⟩

/-- The columns that are bound and those that are reported are together the names of a body, none of them twice, where
each of these is the name of a column. -/
theorem keys_bind_perm (h : ∀ key ∈ data.keys, (m.column? key).isSome = true) :
    ((m.bind data).values.map (·.1) ++ (m.bind data).invalid).Perm data.keys := by
  induction data with
  | nil => exact .nil
  | cons member rest ih =>
    obtain ⟨key, j⟩ := member
    obtain ⟨hkey, hrest⟩ := List.forall_mem_cons.mp h
    obtain ⟨f, hf⟩ := Option.isSome_iff_exists.mp hkey
    have hbind : m.bindMember? (key, j) = some (key, Value.ofJson? f.kind j) := by
      rw [bindMember?, hf, Option.map_some]
    have hperm := ih hrest
    simp only [bind, List.filterMap_cons, hbind] at hperm ⊢
    cases Value.ofJson? f.kind j with
    | some v => exact hperm.cons key
    | none => exact List.perm_middle.trans (hperm.cons key)

/-- A validation names what is wrong with a body and nothing else: the needed columns to which it gives nothing, in
their order, and the names in it that clients may not set, in the order of the body. -/
structure Reports (m : Model) (data : Json.Object) (v : Validation) : Prop where
  missing {name : String} : name ∈ v.missing ↔ name ∈ m.required ∧ ¬ Provides data name
  unknown {key : String} : key ∈ v.unknown ↔ key ∈ data.keys ∧ key ∉ m.settable
  missing_sublist : v.missing.Sublist m.required
  unknown_sublist : v.unknown.Sublist data.keys

theorem reports_validate (m : Model) (data : Json.Object) : m.Reports data (m.validate data) where
  missing := mem_missing_iff
  unknown := mem_unknown_iff
  missing_sublist := List.filter_sublist
  unknown_sublist := List.filter_sublist

/-- The values and names that a body is made into tell of each of its members, and of each once. -/
structure AccountsFor (m : Model) (data : Json.Object) (b : Bound) : Prop where
  member {member : String × Json} (h : member ∈ data) : m.Tells b member
  xor {key : String} (h : key ∈ data.keys) : Xor (∃ v, (key, v) ∈ b.values) (key ∈ b.invalid)
  perm : (b.values.map (·.1) ++ b.invalid).Perm data.keys

theorem accountsFor_bind (hkeys : data.keys.Nodup) (hunknown : (m.validate data).unknown = []) :
    m.AccountsFor data (m.bind data) := by
  have hcolumn : ∀ key ∈ data.keys, (m.column? key).isSome = true := by
    intro key hkey
    by_contra hnone
    have hmem : key ∈ (m.validate data).unknown :=
      mem_unknown_iff.mpr ⟨hkey, fun hsettable => hnone (isSome_column?_of_mem_settable hsettable)⟩
    rw [hunknown] at hmem
    cases hmem
  have hmember : ∀ member ∈ data, m.Tells (m.bind data) member := fun member hmember =>
    tells_bind_of_mem hkeys hmember (hcolumn _ (List.mem_map_of_mem hmember))
  refine ⟨hmember _, fun {key} hkey => ?_, keys_bind_perm hcolumn⟩
  obtain ⟨member, hmem, rfl⟩ := List.mem_map.mp hkey
  exact (hmember member hmem).xor

end Bodies

/-- A declaration is built exactly where its visible fields have different names and one of them is a key. The model
has these fields as its columns, and the first key among them as its own. Its needed columns and the others that clients
may set are different ones and together all that they may set, in the order of the declaration; needed are those that
are never NULL and that nothing else fills. A body fits the model exactly where clients may set all that it names and it
gives all that is needed; otherwise what is wrong is reported and nothing else. Where it names nothing twice and nothing
unknown, each of its members is bound or reported, and none is both. -/
theorem build_and_bodies_are_exact (d : Declaration) :
    ((∃ m, d.build = .ok m) ↔ (d.visible.map (·.name)).Nodup ∧ ∃ f ∈ d.visible, f.isPrimary = true) ∧
      ∀ m, d.build = .ok m →
        m.columns = d.visible ∧
        (∃ before after, m.columns = before ++ m.keyField :: after ∧ m.keyField.isPrimary = true ∧
          ∀ f ∈ before, f.isPrimary = false) ∧
        (∀ f ∈ m.columns, f.name ∈ m.required ↔ f.name ∈ m.settable ∧ f.nullable = false ∧ f.hasDefault = false) ∧
        m.required.Disjoint m.optional ∧
        (∀ name, name ∈ m.settable ↔ name ∈ m.required ∨ name ∈ m.optional) ∧
        m.required.Sublist m.settable ∧ m.optional.Sublist m.settable ∧
        ∀ data : Json.Object,
          ((m.validate data).isValid = true ↔
            (∀ key ∈ data.keys, key ∈ m.settable) ∧ ∀ name ∈ m.required, Provides data name) ∧
          m.Reports data (m.validate data) ∧
          (data.keys.Nodup → (m.validate data).unknown = [] → m.AccountsFor data (m.bind data)) := by
  refine ⟨exists_build_iff, fun m hm => ?_⟩
  have hcolumns : m.columns = d.visible := (eq_of_build hm).2.1.trans d.exposed_eq_visible
  have hnodup := nodup_columns_of_build hm
  refine ⟨hcolumns, exists_columns_eq_of_build hm, fun f hf => mem_required_iff_settable hnodup hf,
    disjoint_required_optional hnodup, fun name => mem_settable_iff, required_sublist_settable,
    optional_sublist_settable, fun data => ?_⟩
  exact ⟨isValid_validate_iff, reports_validate m data, accountsFor_bind⟩

/-- Tracks, with a number from the database, a private column and a hidden one. -/
def trackDeclaration : Declaration :=
  { name := "Track"
    table := "track"
    fields := [(Field.new "TrackId" .integer).primaryKey.autoIncremented, (Field.new "Name" .string).notNull,
      .new "AlbumId" .integer, (Field.new "Added" .datetime).notNull.withDefault, .new "_secret" .string,
      .new "Internal" .string]
    hidden := ["Internal"] }

/-- A track whose album is no number. -/
def trackBody : Json.Object := [("AlbumId", .str "x"), ("Name", .str "a")]

/-- The body fits, its name is bound, and its album is reported and not bound. -/
theorem track_with_bad_album :
    ∃ m, trackDeclaration.build = .ok m ∧ (m.validate trackBody).isValid = true ∧
      ("Name", .string (some "a")) ∈ (m.bind trackBody).values ∧ "Name" ∉ (m.bind trackBody).invalid ∧
      "AlbumId" ∈ (m.bind trackBody).invalid ∧ ∀ v, ("AlbumId", v) ∉ (m.bind trackBody).values := by
  have hexact := build_and_bodies_are_exact trackDeclaration
  obtain ⟨m, hm⟩ := hexact.1.mpr (by decide)
  obtain ⟨hcolumns, -, -, -, -, -, -, hbodies⟩ := hexact.2 m hm
  obtain ⟨hvalid, -, hbound⟩ := hbodies trackBody
  have hsettable : m.settable = ["Name", "AlbumId", "Added"] := by
    rw [settable, hcolumns]
    decide
  have hrequired : m.required = ["Name"] := by
    rw [required, hcolumns]
    decide
  have hunknown : (m.validate trackBody).unknown = [] := by
    rw [validate, required, optional, hcolumns]
    decide
  -- Nothing in the body is unknown, so each member is bound by its column or reported.
  have haccounts := hbound (by decide) hunknown
  have halbum : m.Tells (m.bind trackBody) ("AlbumId", .str "x") := haccounts.member (by simp [trackBody])
  have hname : m.Tells (m.bind trackBody) ("Name", .str "a") := haccounts.member (by simp [trackBody])
  obtain ⟨f, hf, hvalues, hinvalid⟩ := halbum
  obtain ⟨g, hg, hvalues', hinvalid'⟩ := hname
  rw [column?, hcolumns] at hf hg
  obtain rfl : f = .new "AlbumId" .integer := Option.some.inj (hf.symm.trans (by decide))
  obtain rfl : g = (Field.new "Name" .string).notNull := Option.some.inj (hg.symm.trans (by decide))
  have hfits : (∀ key ∈ trackBody.keys, key ∈ m.settable) ∧ ∀ name ∈ m.required, Provides trackBody name := by
    rw [hsettable, hrequired]
    exact ⟨by decide, List.forall_mem_singleton.mpr ⟨.str "a", by decide, by simp⟩⟩
  have hnone : Value.ofJson? .integer (.str "x") = none := by decide
  refine ⟨m, hm, hvalid.mpr hfits, (hvalues' _).mpr (by decide), fun hname => ?_, hinvalid.mpr hnone, fun v hv => ?_⟩
  · exact absurd (hinvalid'.mp hname) (by decide)
  · cases hnone.symm.trans ((hvalues v).mp hv)

end RestTables.Model
