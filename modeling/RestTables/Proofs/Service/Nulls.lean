import RestTables.Proofs.Json.Members
import RestTables.Proofs.Registry.Origin
import RestTables.Proofs.Service.Statements
import RestTables.Proofs.Value.Coerce

/-
Module: RestTables.Proofs.Service.Nulls
Purpose: Which nulls of a body come to a column that is never NULL. A null for a column that a new row needs is
  reported as missing. One for a column with a default is not, and in a part of a row none is.
Main exports: Model.exists_null_bound_iff, WriteRequest.members, WriteRequest.Overlooks,
  WriteRequest.binds_null_iff_overlooked
-/

namespace RestTables

open Sql (Statement)
open Dialogue

/-! ## Bodies -/

namespace Model

variable {m : Model} {data : Json.Object} {f : Field} {name : String}

/-- A column is bound to NULL exactly where the body says null. -/
theorem exists_null_bound_iff (hf : m.column? name = some f) :
    (∃ v, (name, v) ∈ (m.bind data).values ∧ v.isSqlNull = true) ↔ (name, Json.null) ∈ data := by
  constructor
  · rintro ⟨v, hv, hnull⟩
    obtain ⟨_, j, -, hmember, hw⟩ := mem_bind_iff.mp hv
    rwa [(Value.isSqlNull_iff_of_ofJson? hw).mp hnull] at hmember
  · intro hmember
    exact ⟨.null f.kind, mem_bind_iff.mpr ⟨f, .null, hf, hmember, by simp [Value.ofJson?]⟩, by simp⟩

variable (hnames : (m.columns.map (·.name)).Nodup) (hf : f ∈ m.columns)

include hnames hf

theorem mem_required_iff : f.name ∈ m.required ↔ f.isRequired = true := by
  simp only [required, List.mem_map, List.mem_filter]
  constructor
  · rintro ⟨column, ⟨hcolumn, hrequired⟩, hname⟩
    rwa [← List.inj_on_of_nodup_map hnames hcolumn hf hname]
  · exact fun hrequired => ⟨f, ⟨hf, hrequired⟩, rfl⟩

theorem mem_optional_iff : f.name ∈ m.optional ↔ f.isWritable = true ∧ f.isRequired = false := by
  simp only [optional, List.mem_map, List.mem_filter, Bool.and_eq_true, Bool.not_eq_true']
  constructor
  · rintro ⟨column, ⟨hcolumn, hoptional⟩, hname⟩
    rwa [← List.inj_on_of_nodup_map hnames hcolumn hf hname]
  · exact fun hoptional => ⟨f, ⟨hf, hoptional⟩, rfl⟩

/-- A column that clients may not set is unknown to them. -/
theorem mem_unknown_of_mem {j : Json} (hmember : (f.name, j) ∈ data) :
    f.name ∈ (m.validate data).unknown ↔ f.isWritable = false := by
  have hkey : f.name ∈ data.keys := List.mem_map.mpr ⟨_, hmember, rfl⟩
  simp only [validate, List.mem_filter, hkey, true_and, List.contains_eq_mem, Bool.and_eq_true, Bool.not_eq_true',
    decide_eq_false_iff_not, mem_required_iff hnames hf, mem_optional_iff hnames hf]
  cases hwritable : f.isWritable <;> simp [Field.isRequired, hwritable]

theorem isWritable_of_known {j : Json} (hunknown : (m.validate data).unknown = []) (hmember : (f.name, j) ∈ data) :
    f.isWritable = true := by
  rw [← Bool.not_eq_false, ← mem_unknown_of_mem hnames hf hmember, hunknown]
  exact List.not_mem_nil

/-- A column that a new row needs is missing where the body says null. -/
theorem mem_missing_of_null (hkeys : data.keys.Nodup) (hmember : (f.name, Json.null) ∈ data) :
    f.name ∈ (m.validate data).missing ↔ f.isRequired = true := by
  have hget : data.get? f.name = some .null := Json.Object.get?_eq_some_of_mem hkeys hmember
  simp only [validate, List.mem_filter, hget, Option.map_some, Json.isNull, Option.getD_some, and_true,
    mem_required_iff hnames hf]

end Model

/-! ## What is taken and what is reported -/

namespace Service

variable {s : Service} {data : Json.Object} {mayLack : List String} {row : List (String × Value)} {f : Field}

theorem nodup_keys_of_bodyObject {body : List UInt8} (h : bodyObject body = .ok data) : data.keys.Nodup := by
  unfold bodyObject at h
  split at h
  · cases h
  · split at h
    · cases h
    · next hparse =>
      cases h
      exact Json.nodup_keys_of_parse hparse
    · cases h
    · cases h

/-- The members of a body; none where it holds no object. -/
def bodyMembers (body : List UInt8) : Json.Object := (bodyObject body).toOption.getD []

theorem bodyMembers_eq {body : List UInt8} (h : bodyObject body = .ok data) : bodyMembers body = data := by
  rw [bodyMembers, h]
  rfl

theorem bodyObject_of_mem {body : List UInt8} {member : String × Json} (h : member ∈ bodyMembers body) :
    bodyObject body = .ok (bodyMembers body) := by
  unfold bodyMembers at h ⊢
  cases hbody : bodyObject body with
  | error e =>
    rw [hbody] at h
    cases h
  | ok data => rfl

variable (hnames : (s.model.columns.map (·.name)).Nodup) (hf : f ∈ s.model.columns)

include hnames hf

/-- In a part of a row every column that clients may set can be bound to NULL. -/
theorem null_bound_iff_of_bindPartial (h : s.bindPartial data = .ok row) :
    (∃ v, (f.name, v) ∈ row ∧ v.isSqlNull = true) ↔ (f.name, Json.null) ∈ data ∧ f.isWritable = true := by
  obtain ⟨hunknown, -, rfl⟩ := bindPartial_eq_ok_iff.mp h
  rw [Model.exists_null_bound_iff (Model.column?_eq_some_of_mem hnames hf), iff_self_and]
  exact Model.isWritable_of_known hnames hf hunknown

theorem reported_of_bindPartial (hmember : (f.name, Json.null) ∈ data) (hwritable : f.isWritable = false) :
    ∃ missing unknown invalid, s.bindPartial data = .error (.validationFailed missing unknown invalid) ∧
      (f.name ∈ missing ∨ f.name ∈ unknown) := by
  have hname := (Model.mem_unknown_of_mem hnames hf hmember).mpr hwritable
  cases hrow : s.bindPartial data with
  | ok row =>
    obtain ⟨hunknown, -⟩ := bindPartial_eq_ok_iff.mp hrow
    rw [hunknown] at hname
    cases hname
  | error e => exact ⟨_, _, _, congrArg _ (bindPartial_eq_error hrow), .inr hname⟩

variable (hnull : f.nullable = false) (hkeys : data.keys.Nodup)
  (hlack : f.name ∈ mayLack → ∀ j, (f.name, j) ∉ data)

include hnull hkeys hlack

/-- In a whole row a column that is never NULL is bound to NULL only where it has a default. -/
theorem null_bound_iff_of_bindComplete (h : s.bindComplete data mayLack = .ok row) :
    (∃ v, (f.name, v) ∈ row ∧ v.isSqlNull = true) ↔
      (f.name, Json.null) ∈ data ∧ f.isWritable = true ∧ f.hasDefault = true := by
  obtain ⟨hmissing, hunknown, -, rfl⟩ := bindComplete_eq_ok_iff.mp h
  rw [Model.exists_null_bound_iff (Model.column?_eq_some_of_mem hnames hf), iff_self_and]
  intro hmember
  have hwritable : f.isWritable = true := Model.isWritable_of_known hnames hf hunknown hmember
  refine ⟨hwritable, ?_⟩
  cases hdefault : f.hasDefault with
  | true => rfl
  | false =>
    have hrequired : f.isRequired = true := by simp [Field.isRequired, hwritable, hnull, hdefault]
    have hname := (Model.mem_missing_of_null hnames hf hkeys hmember).mpr hrequired
    exact absurd hmember (hlack (hmissing _ hname) _)

theorem reported_of_bindComplete (hmember : (f.name, Json.null) ∈ data)
    (hnot : ¬(f.isWritable = true ∧ f.hasDefault = true)) :
    ∃ missing unknown invalid, s.bindComplete data mayLack = .error (.validationFailed missing unknown invalid) ∧
      (f.name ∈ missing ∨ f.name ∈ unknown) := by
  cases hrow : s.bindComplete data mayLack with
  | ok row =>
    obtain ⟨-, -, -, hvalues⟩ := bindComplete_eq_ok_iff.mp hrow
    have hbound := (Model.exists_null_bound_iff (Model.column?_eq_some_of_mem hnames hf)).mpr hmember
    rw [hvalues, null_bound_iff_of_bindComplete hnames hf hnull hkeys hlack hrow] at hbound
    exact absurd hbound.2 hnot
  | error e =>
    refine ⟨_, _, _, congrArg _ (bindComplete_eq_error hrow), ?_⟩
    -- It is unknown as a column that may not be written, and else missing as one that must be given.
    cases hwritable : f.isWritable with
    | false => exact .inr ((Model.mem_unknown_of_mem hnames hf hmember).mpr hwritable)
    | true =>
      have hdefault : f.hasDefault = false := by simpa [hwritable] using hnot
      have hrequired : f.isRequired = true := by simp [Field.isRequired, hwritable, hnull, hdefault]
      have hname := (Model.mem_missing_of_null hnames hf hkeys hmember).mpr hrequired
      have hnotLack : f.name ∉ mayLack := fun hlacked => hlack hlacked _ hmember
      exact .inl (List.mem_filter.mpr ⟨hname, by simpa using hnotLack⟩)

end Service

/-! ## Requests -/

/-- The statement gives values to columns. -/
def Sql.Statement.binds : Statement → Bool
  | .insert .. | .update .. => true
  | _ => false

/-- The statement gives the value NULL to a column. -/
def Sql.Statement.BindsNull (name : String) : Statement → Prop
  | .insert _ row _ => ∃ v, (name, v) ∈ row ∧ v.isSqlNull = true
  | .update _ changes _ => ∃ v, (name, v) ∈ changes ∧ v.isSqlNull = true
  | _ => False

namespace WriteRequest

/-- The members of a body that the request gives to columns. The key of a row that is there is in the path. -/
def members (m : Model) : WriteRequest → Json.Object
  | .create body => Service.bodyMembers body
  | .item (.replace _ _ body) | .item (.modify _ _ body) =>
    (Service.bodyMembers body).filter (·.1 != m.keyField.name)
  | .item (.delete ..) => []

/-- The request gives only a part of a row. -/
def isPartial : WriteRequest → Bool
  | .item (.modify ..) => true
  | _ => false

/-- The path, where there is one, holds a key. -/
def HasKey (s : Service) : WriteRequest → Prop
  | .create _ => True
  | .item q => (s.model.keyValue? q.id).isSome

/-- The request gives null to the column, and this is not looked at: it gives only a part of a row, or the column has
a default. -/
def Overlooks (q : WriteRequest) (m : Model) (f : Field) : Prop :=
  (f.name, Json.null) ∈ q.members m ∧ f.isWritable = true ∧ (q.isPartial = true ∨ f.hasDefault = true)

section Columns

variable {s : Service} {f : Field} (hnames : (s.model.columns.map (·.name)).Nodup) (hf : f ∈ s.model.columns)
  (hnull : f.nullable = false)

/-- A body without the key has no member for it. -/
theorem not_mem_of_mem_key {m : Model} {data : Json.Object} {name : String} (h : name ∈ [m.keyField.name])
    (j : Json) : (name, j) ∉ data.filter (·.1 != m.keyField.name) := by
  intro hmember
  have hne := (List.mem_filter.mp hmember).2
  rw [List.mem_singleton.mp h] at hne
  simp at hne

theorem nodup_keys_filter {data : Json.Object} (h : data.keys.Nodup) (p : String × Json → Bool) :
    Json.Object.keys (data.filter p) |>.Nodup :=
  h.sublist (List.filter_sublist.map _)

/-- The key that a path holds is no NULL. -/
theorem isSqlNull_of_requireKey {id : String} {key : Value} (h : s.requireKey id = .ok key) :
    key.isSqlNull = false :=
  (Value.isKnown_of_ofText? (Service.requireKey_eq_ok_iff.mp h)).2

/-- A key at the end of a row adds no NULL. -/
theorem exists_null_append_iff {row : List (String × Value)} {name keyName : String} {key : Value}
    (hkey : key.isSqlNull = false) :
    (∃ v, (name, v) ∈ row ++ [(keyName, key)] ∧ v.isSqlNull = true) ↔
      ∃ v, (name, v) ∈ row ∧ v.isSqlNull = true := by
  constructor
  · rintro ⟨v, hmem, hv⟩
    rcases List.mem_append.mp hmem with hmem | hmem
    · exact ⟨v, hmem, hv⟩
    · cases List.mem_singleton.mp hmem
      rw [hkey] at hv
      cases hv
  · rintro ⟨v, hmem, hv⟩
    exact ⟨v, List.mem_append_left _ hmem, hv⟩

variable {data : Json.Object} {id : String} {headers : Headers} {body : List UInt8}

theorem overlooks_create_iff (hdata : Service.bodyObject body = .ok data) :
    (WriteRequest.create body).Overlooks s.model f ↔
      (f.name, Json.null) ∈ data ∧ f.isWritable = true ∧ f.hasDefault = true := by
  simp [Overlooks, members, isPartial, Service.bodyMembers_eq hdata]

theorem overlooks_replace_iff (hdata : Service.bodyObject body = .ok data) :
    (WriteRequest.item (.replace id headers body)).Overlooks s.model f ↔
      (f.name, Json.null) ∈ data.filter (·.1 != s.model.keyField.name) ∧ f.isWritable = true ∧
        f.hasDefault = true := by
  simp [Overlooks, members, isPartial, Service.bodyMembers_eq hdata]

theorem overlooks_modify_iff (hdata : Service.bodyObject body = .ok data) :
    (WriteRequest.item (.modify id headers body)).Overlooks s.model f ↔
      (f.name, Json.null) ∈ data.filter (·.1 != s.model.keyField.name) ∧ f.isWritable = true := by
  simp [Overlooks, members, isPartial, Service.bodyMembers_eq hdata]

include hnames hf hnull

/-- Statements give NULL to the column exactly where the request gives it null unseen. -/
theorem only_binds_null_iff (q : WriteRequest) :
    Only (Exchange.Sends fun st => st.binds = true → (st.BindsNull f.name ↔ q.Overlooks s.model f))
      (q.handler s).run := by
  match q with
  | .create body =>
    refine Service.only_create_of (fun _ => nofun) fun data row hdata hrow => ⟨nofun, fun _ => ?_⟩
    have hkeys := Service.nodup_keys_of_bodyObject hdata
    exact (Service.null_bound_iff_of_bindComplete hnames hf hnull hkeys
      (fun hlack => absurd hlack List.not_mem_nil) hrow).trans (overlooks_create_iff hdata).symm
  | .item (.replace id headers body) =>
    refine Service.only_replace_of (fun _ => nofun) (fun key data row hid hdata hrow => ?_) headers
    have hkeys := nodup_keys_filter (Service.nodup_keys_of_bodyObject hdata) (·.1 != s.model.keyField.name)
    have hbound := Service.null_bound_iff_of_bindComplete hnames hf hnull hkeys not_mem_of_mem_key hrow
    have hiff : _ ↔ (WriteRequest.item (.replace id headers body)).Overlooks s.model f :=
      hbound.trans (overlooks_replace_iff hdata).symm
    exact ⟨fun _ => (exists_null_append_iff (isSqlNull_of_requireKey hid)).trans hiff, fun _ _ => hiff⟩
  | .item (.modify id headers body) =>
    refine Service.only_modify_of (fun _ => nofun) (fun key data changes _ hdata hchanges _ _ => ?_) headers
    exact (Service.null_bound_iff_of_bindPartial hnames hf hchanges).trans (overlooks_modify_iff hdata).symm
  | .item (.delete id headers) => exact Service.only_delete_of (fun _ => nofun) (fun _ _ => nofun) headers

/-- A null that is looked at is reported, and nothing is said. -/
theorem reported_of_not_overlooks (q : WriteRequest) (hkey : q.HasKey s)
    (hmember : (f.name, Json.null) ∈ q.members s.model) (hnot : ¬q.Overlooks s.model f) :
    ∃ missing unknown invalid,
      (q.handler s).run = .done (.error (.validationFailed missing unknown invalid)) ∧
        (f.name ∈ missing ∨ f.name ∈ unknown) := by
  match q with
  | .create body =>
    have hdata := Service.bodyObject_of_mem hmember
    rw [overlooks_create_iff hdata] at hnot
    -- No column is left out of a body that makes a row.
    have hlack : f.name ∈ ([] : List String) → ∀ j, (f.name, j) ∉ Service.bodyMembers body := nofun
    obtain ⟨missing, unknown, invalid, hrow, hreported⟩ := Service.reported_of_bindComplete hnames hf hnull
      (Service.nodup_keys_of_bodyObject hdata) hlack hmember fun h => hnot ⟨hmember, h⟩
    refine ⟨missing, unknown, invalid, ?_, hreported⟩
    simp only [handler, Service.create, hdata, hrow, Handler.run_ofExcept_ok_bind, Handler.run_ofExcept_error_bind]
  | .item (.replace id headers body) =>
    obtain ⟨key, hkey⟩ := Option.isSome_iff_exists.mp hkey
    have hid : s.requireKey id = .ok key := Service.requireKey_eq_ok_iff.mpr hkey
    have hdata := Service.bodyObject_of_mem (List.mem_of_mem_filter hmember)
    rw [overlooks_replace_iff hdata] at hnot
    obtain ⟨missing, unknown, invalid, hrow, hreported⟩ := Service.reported_of_bindComplete hnames hf hnull
      (nodup_keys_filter (Service.nodup_keys_of_bodyObject hdata) _) not_mem_of_mem_key hmember
      fun h => hnot ⟨hmember, h⟩
    refine ⟨missing, unknown, invalid, ?_, hreported⟩
    simp only [handler, ItemRequest.handler, Service.replace, hid, hdata, hrow, Handler.run_ofExcept_ok_bind,
      Handler.run_ofExcept_error_bind]
  | .item (.modify id headers body) =>
    obtain ⟨key, hkey⟩ := Option.isSome_iff_exists.mp hkey
    have hid : s.requireKey id = .ok key := Service.requireKey_eq_ok_iff.mpr hkey
    have hdata := Service.bodyObject_of_mem (List.mem_of_mem_filter hmember)
    rw [overlooks_modify_iff hdata] at hnot
    -- A body that changes a row may leave columns out, so the null is reported only as one that may not be written.
    have hwritable : f.isWritable = false := Bool.eq_false_iff.mpr fun h => hnot ⟨hmember, h⟩
    have hdropped : (f.name, Json.null) ∈ (Service.bodyMembers body).filter (·.1 != s.model.keyField.name) := hmember
    obtain ⟨missing, unknown, invalid, hrow, hreported⟩ :=
      Service.reported_of_bindPartial hnames hf hdropped hwritable
    refine ⟨missing, unknown, invalid, ?_, hreported⟩
    simp only [handler, ItemRequest.handler, Service.modify, hid, hdata, hrow, Handler.run_ofExcept_ok_bind,
      Handler.run_ofExcept_error_bind]
  | .item (.delete id headers) => cases hmember

end Columns

/-- A statement that gives values to columns gives NULL to a column that is never NULL exactly where the request
gives it null in a part of a row, or where the column has a default. Every other null for such a column is reported
before anything is said to the database. -/
theorem binds_null_iff_overlooked {declared : List Model} {tables : List Table} {config : Config} {s : Service}
    (h : Registry.build declared tables config = .ok s.registry)
    (hdeclared : ∀ o ∈ declared, ∃ d : Model.Declaration, d.build = .ok o) (hm : s.model ∈ s.registry.models)
    {f : Field} (hf : f ∈ s.model.columns) (hnull : f.nullable = false) (q : WriteRequest) :
    Only (Exchange.Sends fun st => st.binds = true → (st.BindsNull f.name ↔ q.Overlooks s.model f))
      (q.handler s).run ∧
    (q.HasKey s → (f.name, Json.null) ∈ q.members s.model → ¬q.Overlooks s.model f →
      ∃ missing unknown invalid,
        (q.handler s).run = .done (.error (.validationFailed missing unknown invalid)) ∧
          (f.name ∈ missing ∨ f.name ∈ unknown)) := by
  have hnames := Registry.nodup_columns h hdeclared hm
  exact ⟨only_binds_null_iff hnames hf hnull q, reported_of_not_overlooks hnames hf hnull q⟩

/-! ### Drafts -/

/-- Drafts have a number, a text and a state. The database knows the number and the state of a new one. -/
def draftDeclaration : Model.Declaration :=
  { name := "Draft", table := "draft"
    fields := [(Field.new "id" .integer).primaryKey.autoIncremented, (Field.new "text" .string).notNull,
      (Field.new "state" .string).notNull.withDefault] }

/-- The model of drafts. -/
def draftModel : Model := (draftDeclaration.build.toOption).getD default

/-- The service of drafts. -/
def draftService : Service :=
  { registry := ⟨[draftModel]⟩, config := { conditionalRequestEnabled := false }, backend := .sqlite
    model := draftModel }

/-- A body that gives null as the text. -/
def textlessBody : List UInt8 := Text.Utf8.encode "\x7b\"state\":\"new\",\"text\":null\x7d".toList

/-- A body that gives null as the state. -/
def statelessBody : List UInt8 := Text.Utf8.encode "\x7b\"state\":null,\"text\":\"new\"\x7d".toList

theorem build_draft : draftDeclaration.build = .ok draftModel := by rfl

/-- A new draft without a text is refused, and with a text its state is not looked at. -/
theorem binds_null_iff_overlooked_of_drafts :
    (∃ missing unknown invalid,
      ((WriteRequest.create textlessBody).handler draftService).run =
          .done (.error (.validationFailed missing unknown invalid)) ∧
        ("text" ∈ missing ∨ "text" ∈ unknown)) ∧
    Only (Exchange.Sends fun st => st.binds = true → st.BindsNull "state")
      ((WriteRequest.create statelessBody).handler draftService).run := by
  have hbuild : Registry.build [draftModel] [] {} = .ok draftService.registry := by decide +kernel
  have hdeclared : ∀ o ∈ [draftModel], ∃ d : Model.Declaration, d.build = .ok o :=
    List.forall_mem_singleton.mpr ⟨draftDeclaration, build_draft⟩
  constructor
  · refine (binds_null_iff_overlooked (f := (Field.new "text" .string).notNull) hbuild hdeclared
      (List.mem_singleton_self _) (by decide +kernel) rfl (.create textlessBody)).2 trivial (by decide +kernel) ?_
    rintro ⟨-, -, hpartial | hdefault⟩
    · cases hpartial
    · cases hdefault
  · have hoverlooks : (WriteRequest.create statelessBody).Overlooks draftModel
        (Field.new "state" .string).notNull.withDefault :=
      ⟨by decide +kernel, rfl, .inr rfl⟩
    have honly := (binds_null_iff_overlooked (f := (Field.new "state" .string).notNull.withDefault) hbuild hdeclared
      (List.mem_singleton_self _) (by decide +kernel) rfl (.create statelessBody)).1
    exact honly.mono fun x hx st hst hbinds => (hx st hst hbinds).mpr hoverlooks

/-- No column of a draft is ever NULL, and yet one request sets the text to NULL and another one the state. -/
theorem null_comes_to_drafts :
    (∀ f ∈ draftModel.columns, f.nullable = false) ∧
    .execute "UPDATE \"draft\" SET \"state\" = ?, \"text\" = ? WHERE \"draft\".\"id\" = ?"
        [.string (some "new"), .string none, .bigInt (some 1)] ∈
      (Script.run .sqlite [.success [[("id", .bigInt (some 1))]] default]
        ((WriteRequest.item (.modify "1" [] textlessBody)).handler draftService).run).2 ∧
    .execute "INSERT INTO \"draft\" (\"state\", \"text\") VALUES (?, ?)" [.string none, .string (some "new")] ∈
      (Script.run .sqlite [.success [] default] ((WriteRequest.create statelessBody).handler draftService).run).2 := by
  decide +kernel

end WriteRequest

end RestTables
