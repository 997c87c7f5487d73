import RestTables.Proofs.Rows.Condition
import RestTables.Proofs.Rows.Shown
import RestTables.Proofs.Service.Statements
import RestTables.Proofs.Value.RoundTrip

/-
Module: RestTables.Proofs.Rows.SentBack
Purpose: Rows that clients send back as they were shown. Every column whose value is told in full, or is NULL, gets
  that value again, and the path of a row leads to the key that it was made of.
Main exports: Model.mem_bind_invalid_iff, Rows.mem_bind_render_iff, Rows.exists_recordUri,
  Rows.legible_values_come_back
-/

namespace RestTables

/-- A column is reported when its member of the body cannot be read. -/
theorem Model.mem_bind_invalid_iff {m : Model} {data : Json.Object} {name : String} :
    name ∈ (m.bind data).invalid ↔
      ∃ f j, m.column? name = some f ∧ (name, j) ∈ data ∧ Value.ofJson? f.kind j = none := by
  simp only [Model.bind, List.mem_map, List.mem_filter, List.mem_filterMap, Model.bindMember?]
  constructor
  · rintro ⟨⟨_, _⟩, ⟨⟨⟨key, j⟩, hmember, hcolumn⟩, hnone⟩, rfl⟩
    obtain ⟨f, hf, heq⟩ := Option.map_eq_some_iff.mp hcolumn
    cases heq
    exact ⟨f, j, hf, hmember, Option.isNone_iff_eq_none.mp hnone⟩
  · rintro ⟨f, j, hf, hmember, hnone⟩
    exact ⟨(name, none), ⟨⟨(name, j), hmember, by simp [hf, hnone]⟩, rfl⟩, rfl⟩

namespace Rows

variable {g : Registry} {m : Model} {r : Record} {withLinks : Bool} {f : Field} {v : Value}

/-- A value comes back from what it is shown as. -/
def ComesBack (kind : Kind) (v : Value) : Prop := v.IsLegible kind ∨ v = .null kind

theorem ComesBack.ofJson?_toJson (h : ComesBack f.kind v) : Value.ofJson? f.kind v.toJson = some v := by
  rcases h with hlegible | rfl
  · exact Value.ofJson?_toJson hlegible
  · cases f.kind <;> rfl

/-- When a record is sent back as it was shown, a column is given the value that it has. -/
theorem mem_bind_render_iff (hm : m.HasPublicColumns) (hr : IsFull m r) (hf : f ∈ m.columns)
    (hv : (f.name, v) ∈ r.values) (hback : ComesBack f.kind v) {w : Value} :
    (f.name, w) ∈ (m.bind (g.render m r false withLinks)).values ↔ w = v := by
  have hcolumn : m.column? f.name = some f := Model.column?_eq_some_of_mem hm.nodup hf
  rw [Model.mem_bind_iff]
  constructor
  · rintro ⟨f', j, hf', hmember, hread⟩
    obtain rfl : f = f' := Option.some.inj (hcolumn.symm.trans hf')
    rw [(mem_render_iff_eq hm hr hf hv).mp hmember, hback.ofJson?_toJson] at hread
    exact (Option.some.inj hread).symm
  · rintro rfl
    exact ⟨f, w.toJson, hcolumn, (mem_render_iff_eq hm hr hf hv).mpr rfl, hback.ofJson?_toJson⟩

/-- And it is not reported. -/
theorem not_mem_bind_render_invalid (hm : m.HasPublicColumns) (hr : IsFull m r) (hf : f ∈ m.columns)
    (hv : (f.name, v) ∈ r.values) (hback : ComesBack f.kind v) :
    f.name ∉ (m.bind (g.render m r false withLinks)).invalid := by
  intro hinvalid
  obtain ⟨f', j, hf', hmember, hnone⟩ := Model.mem_bind_invalid_iff.mp hinvalid
  have hcolumn : m.column? f.name = some f := Model.column?_eq_some_of_mem hm.nodup hf
  obtain rfl : f = f' := Option.some.inj (hcolumn.symm.trans hf')
  rw [(mem_render_iff_eq hm hr hf hv).mp hmember, hback.ofJson?_toJson] at hnone
  cases hnone

/-- The end of a row's path stands for the key of the row. -/
theorem exists_recordUri {row : Row} {key : Value} (hkey : row.get? m.keyField.name = some key)
    (hlegible : key.IsLegible m.keyField.kind) (hkind : m.keyField.kind ≠ .json) :
    ∃ id, m.recordUri row = some (m.rowUri id) ∧ m.keyValue? id = some key := by
  obtain ⟨id, hid, hread⟩ := Value.exists_keyText hlegible hkind
  refine ⟨id, ?_, hread⟩
  rw [Model.recordUri, Row.keyText, hkey, Option.bind_some, hid, Option.map_some]

/-- A value that is told in full is read back from what it is shown as, and from its plain text unless it is a
document. So a column that is sent back as it was shown is given the value that it has, and the path of a row stands
for the key that it was made of. -/
theorem legible_values_come_back {declared : List Model} {tables : List Table} {config : Config}
    (hbuild : Registry.build declared tables config = .ok g)
    (hdeclared : ∀ o ∈ declared, ∃ d : Model.Declaration, d.build = .ok o) (hm : m ∈ g.models) :
    (∀ (kind : Kind) (v : Value), v.IsLegible kind →
      Value.ofJson? kind v.toJson = some v ∧
        (kind ≠ .json → ∃ s, v.keyText = some s ∧ Value.ofText? kind s = some v)) ∧
    ∀ r : Record, IsFull m r →
      (∀ (withLinks : Bool), ∀ f ∈ m.columns, ∀ v, (f.name, v) ∈ r.values → ComesBack f.kind v →
        (∀ w, (f.name, w) ∈ (m.bind (g.render m r false withLinks)).values ↔ w = v) ∧
          f.name ∉ (m.bind (g.render m r false withLinks)).invalid) ∧
      ∀ key, r.get? m.keyField.name = some key → key.IsLegible m.keyField.kind → m.keyField.kind ≠ .json →
        ∃ id, m.recordUri r.toRow = some (m.rowUri id) ∧ m.keyValue? id = some key := by
  have hpublic := Registry.hasPublicColumns hbuild hdeclared hm
  refine ⟨fun kind v hv => ⟨Value.ofJson?_toJson hv, Value.exists_keyText hv⟩, fun r hr => ⟨?_, ?_⟩⟩
  · intro withLinks f hf v hv hback
    exact ⟨fun w => mem_bind_render_iff hpublic hr hf hv hback, not_mem_bind_render_invalid hpublic hr hf hv hback⟩
  · exact fun key => exists_recordUri

/-! ### A leap second -/

/-- Readings of an instrument, each with its instant as the key. -/
def readingModel : Model :=
  { (default : Model) with
    name := "Reading"
    table := "reading"
    url := "/reading"
    columns := [(Field.new "taken" .datetimeTz).primaryKey, .new "raw" .binary]
    keyField := (Field.new "taken" .datetimeTz).primaryKey }

/-- The middle of the last leap second. -/
def leapInstant : DateTime :=
  ⟨⟨2016, 12, 31, by decide⟩, ⟨23, 59, 59, 1500000000, by decide, by decide, by decide, by decide⟩⟩

/-- What was read in that second. -/
def leapReading : Record :=
  { values := [("taken", .instant (some leapInstant)), ("raw", .bytes (some [0, 255]))]
    projection := none
    related := [] }

/-- Readings can be declared. -/
theorem exists_declaration_of_readings : ∀ o ∈ [readingModel], ∃ d : Model.Declaration, d.build = .ok o := by
  intro o ho
  obtain rfl := List.mem_singleton.mp ho
  exact ⟨readingModel.toDeclaration, by decide +kernel⟩

theorem isFull_leapReading : IsFull readingModel leapReading where
  names := by decide
  shown := rfl
  kinds {f v} hf hv := by
    simp only [readingModel, leapReading, List.mem_cons, List.not_mem_nil, or_false, Prod.mk.injEq] at hf hv
    rcases hf with rfl | rfl <;> rcases hv with ⟨hname, rfl⟩ | ⟨hname, rfl⟩ <;>
      first | rfl | exact absurd hname (by decide)

/-- The second is written as the sixtieth, and neither it nor the bytes are lost on the way. -/
theorem legible_values_come_back_of_leapReading :
    (∀ w, ("taken", w) ∈ (readingModel.bind ((Registry.mk [readingModel]).render readingModel leapReading false
      true)).values ↔ w = .instant (some leapInstant)) ∧
    ∃ id, readingModel.recordUri leapReading.toRow = some (readingModel.rowUri id) ∧
      readingModel.keyValue? id = some (.instant (some leapInstant)) := by
  have hbuild : Registry.build [readingModel] [] {} = .ok ⟨[readingModel]⟩ := by decide +kernel
  have hlegible : (Value.instant (some leapInstant)).IsLegible .datetimeTz := by
    refine ⟨⟨rfl, rfl⟩, by decide, by decide, ?_⟩
    rintro t ht
    cases ht
    decide
  obtain ⟨hvalues, hkey⟩ := (legible_values_come_back hbuild exists_declaration_of_readings List.mem_cons_self).2
    leapReading isFull_leapReading
  exact ⟨(hvalues true readingModel.keyField List.mem_cons_self _ List.mem_cons_self (.inl hlegible)).1,
    hkey _ rfl hlegible (by decide)⟩

end Rows

end RestTables
