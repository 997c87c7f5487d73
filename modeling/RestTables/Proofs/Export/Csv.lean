import Mathlib.Data.List.Basic
import RestTables.Proofs.Http.PathPart
import RestTables.Proofs.Service.Retry

/-
Module: RestTables.Proofs.Export.Csv
Purpose: What a reader of separated cells finds in a file of rows: a line with the columns, which are the keys of all
  rows in the order in which they come first, and a record for each row. The reader takes a file character by
  character; cells may stand between quotes, and a line may end with a carriage return, a line feed or both.
Main exports: Csv.Reading, Csv.step, Csv.read?, Csv.columns_eq_eraseDups, Csv.run_line, Csv.read?_render?,
  Reply.file_reads_back
-/

namespace RestTables

open Json Text

namespace Csv

/-! ## A reader -/

/-- Where in a file a reader stands. -/
inductive Place where
  /-- In front of a cell. -/
  | start
  /-- Behind a carriage return, which a line feed may follow. -/
  | afterReturn
  /-- In a cell without quotes. -/
  | plain
  /-- Between quotes. -/
  | quoted
  /-- Behind a quote that ends the cell, or is the first one of two. -/
  | closed
deriving Repr, DecidableEq

/-- What has been read of a file: of the cell, of its record, and the records in front. -/
structure Reading where
  place : Place := .start
  cell : List Char := []
  cells : List (List Char) := []
  records : List (List (List Char)) := []
deriving Repr, DecidableEq

namespace Reading

/-- One more character of the cell. -/
def add (r : Reading) (place : Place) (c : Char) : Reading := { r with place, cell := r.cell ++ [c] }

/-- The record as it is when the cell ends. -/
def record (r : Reading) : List (List Char) := r.cells ++ [r.cell]

/-- The cell ends. -/
def endCell (r : Reading) : Reading := { r with place := .start, cell := [], cells := r.record }

/-- The cell and its record end. -/
def endRecord (r : Reading) (place : Place) : Reading := ⟨place, [], [], r.records ++ [r.record]⟩

/-- A character that ends the cell. -/
def ending? (delimiter : Char) (r : Reading) (c : Char) : Option Reading :=
  if c = delimiter then some r.endCell
  else if c = '\n' then some (r.endRecord .start)
  else if c = '\r' then some (r.endRecord .afterReturn)
  else none

/-- The first character of a cell. -/
def opening (delimiter : Char) (r : Reading) (c : Char) : Reading :=
  if c = '"' then { r with place := .quoted } else (r.ending? delimiter c).getD (r.add .plain c)

end Reading

/-- One more character. Behind a quote that ends a cell there is nothing but what ends it. -/
def step (delimiter : Char) (r : Reading) (c : Char) : Option Reading :=
  match r.place with
  | .start => some (r.opening delimiter c)
  | .afterReturn => some (if c = '\n' then { r with place := .start } else r.opening delimiter c)
  | .plain => some ((r.ending? delimiter c).getD (r.add .plain c))
  | .quoted => some (if c = '"' then { r with place := .closed } else r.add .quoted c)
  | .closed => if c = '"' then some (r.add .quoted c) else r.ending? delimiter c

/-- The records at the end of a file: the last one needs no end of line, but no quote may stand open. -/
def Reading.finish? (r : Reading) : Option (List (List (List Char))) :=
  match r.place with
  | .start => some (if r.cells = [] then r.records else r.records ++ [r.record])
  | .afterReturn => some r.records
  | .plain | .closed => some (r.records ++ [r.record])
  | .quoted => none

/-- The records of a file. -/
def read? (delimiter : Char) (bytes : List UInt8) : Option (List (List String)) := do
  let text ← Utf8.decode? bytes
  let r ← text.foldlM (step delimiter) {}
  let records ← r.finish?
  return records.map (·.map String.ofList)

example : read? ';' (Utf8.encode "a;\"b;\"\"\"\r\n;c".toList) = some [["a", "b;\""], ["", "c"]] := by decide +kernel

/-! ## Lines -/

/-- A text with every quote in it written twice. -/
def doubled (s : List Char) : List Char := s.flatMap fun c => if c = '"' then ['"', '"'] else [c]

/-- A cell between quotes, as text. -/
def quoteText (s : List Char) : List Char := '"' :: doubled s ++ ['"']

/-- A line of cells, as text. -/
def lineText (delimiter : Char) (cells : List (List Char)) : List Char :=
  [delimiter].intercalate (cells.map quoteText) ++ ['\n']

section Lines

variable {d : Char}

/-- Between quotes all characters of a cell are read, and each pair of quotes as one. -/
theorem run_doubled (s : List Char) {r : Reading} (h : r.place = .quoted) :
    (doubled s).foldlM (step d) r = some { r with cell := r.cell ++ s } := by
  unfold doubled
  induction s generalizing r with
  | nil => simp
  | cons c s ih =>
    have hadd : (r.add .quoted c).place = .quoted := rfl
    have hone : (if c = '"' then ['"', '"'] else [c]).foldlM (step d) r = some (r.add .quoted c) := by
      split
      · next hc => simp [step, h, hc, Reading.add]
      · next hc => simp [step, h, hc]
    rw [List.flatMap_cons, List.foldlM_append, hone, Option.bind_eq_bind, Option.bind_some, ih hadd]
    simp [Reading.add, h]

/-- A quoted cell is read up to the quote that ends it. -/
theorem run_quoteText (s : List Char) {r : Reading} (h : r.place = .start) (hcell : r.cell = []) :
    (quoteText s).foldlM (step d) r = some { r with place := .closed, cell := s } := by
  have hopen : step d r '"' = some { r with place := .quoted } := by simp [step, h, Reading.opening]
  rw [quoteText, List.cons_append, List.foldlM_cons, hopen, Option.bind_eq_bind, Option.bind_some, List.foldlM_append,
    run_doubled s rfl, Option.bind_eq_bind, Option.bind_some]
  simp [step, hcell]

variable (hquote : d ≠ '"') (hline : d ≠ '\n')

include hquote hline

/-- A line that is written is read as one record. -/
theorem run_line {cells : List (List Char)} (hcells : cells ≠ []) (before : List (List Char))
    (records : List (List (List Char))) :
    (lineText d cells).foldlM (step d) ⟨.start, [], before, records⟩ =
      some ⟨.start, [], [], records ++ [before ++ cells]⟩ := by
  induction cells generalizing before with
  | nil => exact absurd rfl hcells
  | cons s cells ih =>
    cases cells with
    | nil =>
      rw [lineText, List.map_singleton, List.intercalate_singleton, List.foldlM_append, run_quoteText s rfl rfl]
      simp [step, Reading.ending?, hline.symm, Reading.endRecord, Reading.record]
    | cons t cells =>
      have hsplit : lineText d (s :: t :: cells) = quoteText s ++ d :: lineText d (t :: cells) := by
        simp [lineText, List.intercalate_cons_cons]
      have hcell : step d ⟨.closed, s, before, records⟩ d = some ⟨.start, [], before ++ [s], records⟩ := by
        simp [step, Reading.ending?, hquote, Reading.endCell, Reading.record]
      rw [hsplit, List.foldlM_append, run_quoteText s rfl rfl, Option.bind_eq_bind, Option.bind_some, List.foldlM_cons,
        hcell, Option.bind_eq_bind, Option.bind_some, ih (List.cons_ne_nil _ _), List.append_assoc,
        List.singleton_append]

/-- Lines that are written are read as so many records. -/
theorem run_lines {table : List (List (List Char))} (htable : ∀ cells ∈ table, cells ≠ [])
    (records : List (List (List Char))) :
    (table.flatMap (lineText d)).foldlM (step d) ⟨.start, [], [], records⟩ =
      some ⟨.start, [], [], records ++ table⟩ := by
  induction table generalizing records with
  | nil => simp
  | cons cells table ih =>
    obtain ⟨hcells, htable⟩ := List.forall_mem_cons.mp htable
    rw [List.flatMap_cons, List.foldlM_append, run_line hquote hline hcells, Option.bind_eq_bind, Option.bind_some,
      ih htable, List.nil_append, List.append_assoc, List.singleton_append]

end Lines

/-! ## Bytes -/

theorem encode_append (s t : List Char) : Utf8.encode (s ++ t) = Utf8.encode s ++ Utf8.encode t := List.flatMap_append

/-- An ASCII character is one byte. -/
theorem encode_ascii {c : Char} (h : c.toNat < 128) : Utf8.encode [c] = [UInt8.ofNat c.toNat] := by
  have hone : c.val.toNat ≤ 0x7f := Nat.le_of_lt_succ h
  rw [Utf8.encode, List.flatMap_singleton, String.utf8EncodeChar]
  exact if_pos hone

theorem quoteCell_eq_encode (s : String) : quoteCell s = Utf8.encode (quoteText s.toList) := rfl

/-- Cells with a separator between them are the bytes of their text. -/
theorem joinCells_eq_encode {d : Char} (hascii : d.toNat < 128) (cells : List String) :
    joinCells (UInt8.ofNat d.toNat) (cells.map quoteCell) =
      Utf8.encode ([d].intercalate (cells.map fun s => quoteText s.toList)) := by
  induction cells with
  | nil => rfl
  | cons s cells ih =>
    cases cells with
    | nil => simp [joinCells, quoteCell_eq_encode]
    | cons t cells =>
      simp only [List.map_cons, joinCells, List.intercalate_cons_cons, encode_append] at ih ⊢
      rw [ih, encode_ascii hascii, quoteCell_eq_encode, List.append_assoc, List.singleton_append]

/-- A line is the bytes of its text. -/
theorem line_eq_encode {d : Char} (hascii : d.toNat < 128) {cells : List String} (h : cells ≠ []) :
    line (UInt8.ofNat d.toNat) cells = Utf8.encode (lineText d (cells.map String.toList)) := by
  have hfeed : Utf8.encode ['\n'] = [10] := encode_ascii (by decide)
  rw [line, List.isEmpty_eq_false_iff.mpr h, if_neg Bool.false_ne_true, joinCells_eq_encode hascii, lineText,
    encode_append, hfeed, List.map_map]
  rfl

/-- So are all lines of a table. -/
theorem flatMap_line_eq_encode {d : Char} (hascii : d.toNat < 128) {table : List (List String)}
    (h : ∀ cells ∈ table, cells ≠ []) :
    table.flatMap (line (UInt8.ofNat d.toNat)) =
      Utf8.encode ((table.map (·.map String.toList)).flatMap (lineText d)) := by
  induction table with
  | nil => rfl
  | cons cells table ih =>
    obtain ⟨hcells, htable⟩ := List.forall_mem_cons.mp h
    rw [List.flatMap_cons, line_eq_encode hascii hcells, ih htable, List.map_cons, List.flatMap_cons, encode_append]

/-! ## Columns -/

theorem foldl_note (seen keys : List String) :
    keys.foldl (fun seen key => if seen.contains key then seen else seen ++ [key]) seen =
      seen ++ (keys.filter fun key => !seen.contains key).eraseDups := by
  induction keys generalizing seen with
  | nil => simp
  | cons key keys ih =>
    rw [List.foldl_cons, ih, List.filter_cons]
    cases seen.contains key with
    | true => simp
    | false =>
      have hlater : (keys.filter fun k => !(seen ++ [key]).contains k) =
          (keys.filter fun k => !seen.contains k).filter fun k => !k == key := by
        rw [List.filter_filter]
        refine List.filter_congr fun k _ => ?_
        rw [List.contains_append, Bool.not_or, Bool.and_comm, List.contains_cons, List.contains_nil, Bool.or_false]
      simp only [hlater, Bool.false_eq_true, ↓reduceIte, Bool.not_false, List.eraseDups_cons, List.append_assoc,
        List.singleton_append]

/-- The columns are the keys of all rows in the order in which they come first, none of them twice. -/
theorem columns_eq_eraseDups (rows : List Object) : columns rows = (rows.flatMap Object.keys).eraseDups := by
  have hone : columns rows = (rows.flatMap Object.keys).foldl
      (fun seen key => if seen.contains key then seen else seen ++ [key]) [] := List.foldl_flatMap.symm
  rw [hone, foldl_note]
  simp

/-! ## Files -/

/-- A file of rows that have any keys is read as a record of the columns and one of the cells of each row. -/
theorem read?_render? {d : Char} (hascii : d.toNat < 128) (hquote : d ≠ '"') (hline : d ≠ '\n') {rows : List Object}
    (hkeys : columns rows ≠ []) :
    ∃ bytes, render? rows d = some (bytes, (columns rows).length) ∧
      read? d bytes = some (columns rows :: rows.map (rowCells (columns rows))) := by
  have htable : ∀ cells ∈ columns rows :: rows.map (rowCells (columns rows)), cells ≠ [] := by
    refine List.forall_mem_cons.mpr ⟨hkeys, List.forall_mem_map.mpr fun row _ => ?_⟩
    rw [rowCells, ne_eq, List.map_eq_nil_iff]
    exact hkeys
  generalize htext : columns rows :: rows.map (rowCells (columns rows)) = table at htable ⊢
  have hrender : render? rows d = some (table.flatMap (line (UInt8.ofNat d.toNat)), (columns rows).length) := by
    rw [← htext, List.flatMap_cons, List.flatMap_map]
    exact if_pos (hascii.trans (by decide))
  have hlines : ∀ cells ∈ table.map (·.map String.toList), cells ≠ [] :=
    List.forall_mem_map.mpr fun cells hcells => by simpa using htable cells hcells
  refine ⟨_, hrender, ?_⟩
  rw [flatMap_line_eq_encode hascii htable, read?, Utf8.decode?_encode, Option.bind_eq_bind, Option.bind_some,
    run_lines hquote hline hlines, Option.bind_eq_bind, Option.bind_some, List.nil_append]
  simp [Reading.finish?, Function.comp_def]

end Csv

namespace Reply

/-- A number can be sent in a header field. -/
theorem isValue_toString (n : Nat) : Headers.isValue (toString n) = true := by
  have hdigits : (toString n).toList = Nat.toDigits 10 n := Nat.toList_repr
  refine List.all_eq_true.mpr fun c hc => ?_
  rw [hdigits] at hc
  have hdigit := Number.isDigit_of_mem_toDigits hc
  simp only [Char.isDigit, Bool.and_eq_true, decide_eq_true_eq, ge_iff_le, UInt32.le_iff_toNat_le] at hdigit
  have hlow : 48 ≤ c.toNat := hdigit.1
  have hhigh : c.toNat ≤ 57 := hdigit.2
  simp only [Headers.isValueChar, Bool.or_eq_true, Bool.and_eq_true, decide_eq_true_eq, bne_iff_ne]
  omega

/-- Rows that have any keys are sent as a file that is read back. Its first record holds the keys of all rows in the
order in which they come first, none of them twice; then comes one record for each row, in order, with the cell of the
row under each key, or an empty one where the row lacks the key. The numbers of these records and of their cells are
sent along. -/
theorem file_reads_back (rows : List Object) (filename : String) {d : Char} (hascii : d.toNat < 128)
    (hquote : d ≠ '"') (hline : d ≠ '\n') (hkeys : ∃ row ∈ rows, row ≠ []) :
    let header := (rows.flatMap Object.keys).eraseDups
    let records := rows.map fun row => header.map fun c => ((row.get? c).map Csv.cell).getD ""
    ∃ bytes reply,
      Csv.render? rows d = some (bytes, header.length) ∧ Csv.read? d bytes = some (header :: records) ∧
      (∀ record ∈ records, record.length = header.length) ∧
      ofCsv rows filename d = .ok reply ∧ reply.send.body = bytes ∧
      reply.send.headers.get? "total-rows" = some (toString records.length) ∧
      reply.send.headers.get? "total-columns" = some (toString header.length) := by
  intro header records
  have hheader : Csv.columns rows = header := Csv.columns_eq_eraseDups rows
  have hne : Csv.columns rows ≠ [] := by
    obtain ⟨row, hrow, hmember⟩ := hkeys
    obtain ⟨member, hmem⟩ := List.exists_mem_of_ne_nil row hmember
    have hkey : member.1 ∈ header :=
      List.mem_eraseDups.mpr (List.mem_flatMap.mpr ⟨row, hrow, List.mem_map_of_mem hmem⟩)
    rw [hheader]
    exact List.ne_nil_of_mem hkey
  obtain ⟨bytes, hrender, hread⟩ := Csv.read?_render? hascii hquote hline hne
  rw [hheader] at hrender hread
  refine ⟨bytes, _, hrender, hread, List.forall_mem_map.mpr fun row _ => List.length_map _, by rw [ofCsv, hrender],
    rfl, ?_, ?_⟩
  · refine (Headers.get?_extend_typeHeader _ (by decide)).trans ?_
    refine (Headers.get?_trySet_of_ne _ _ (by decide)).trans ((Headers.get?_trySet _ _ _).trans ?_)
    rw [if_pos (isValue_toString _), List.length_map]
  · refine (Headers.get?_extend_typeHeader _ (by decide)).trans ((Headers.get?_trySet _ _ _).trans ?_)
    rw [if_pos (isValue_toString _)]

/-- Two rows with different keys, one of them with a quote, a separator and the end of a line in a cell. -/
def raggedRows : List Object := [[("a", .str "x\";\n"), ("b", .null)], [("a", .bool true), ("c", .int 2)]]

/-- They are read back under three columns. -/
theorem raggedRows_read_back :
    ∃ bytes, Csv.render? raggedRows ';' = some (bytes, 3) ∧
      Csv.read? ';' bytes = some [["a", "b", "c"], ["x\";\n", "", ""], ["true", "", "2"]] := by
  obtain ⟨bytes, -, hrender, hread, -⟩ := @file_reads_back raggedRows "" ';' (by decide) (by decide) (by decide)
    ⟨_, List.mem_cons_self, List.cons_ne_nil _ _⟩
  have hheader : (raggedRows.flatMap Object.keys).eraseDups = ["a", "b", "c"] := by decide +kernel
  rw [hheader] at hrender hread
  exact ⟨bytes, hrender, hread.trans (by decide +kernel)⟩

end Reply

end RestTables
