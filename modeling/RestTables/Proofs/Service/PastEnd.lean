import RestTables.Proofs.Export.Flatten
import RestTables.Proofs.Registry.Relations
import RestTables.Proofs.Service.Walk

/-
Module: RestTables.Proofs.Service.PastEnd
Purpose: Pages behind the last one. With a limit they hold no row, as items and as a file. Without one the statement
  for a page is not bounded: as items such a page is not there, while its file holds every row of the result.
Main exports: Page.IsPastEnd, Reply.HoldsNoRow, Rows.cutFor_of_isPastEnd, Service.replies_past_end,
  Service.file_past_end
-/

namespace RestTables

open Dialogue

/-! ## Files -/

namespace Csv

theorem two_le_length_quoteCell (s : String) : 2 ≤ (quoteCell s).length := by
  rw [quoteCell, Text.Utf8.encode, List.flatMap_append, List.flatMap_cons]
  simp only [List.length_append, List.flatMap_singleton]
  have hquote : (String.utf8EncodeChar '"').length = 1 := by decide
  omega

/-- The least that a line can be is one empty cell between quotes, and its end. -/
theorem three_le_length_line (delimiter : UInt8) (cells : List String) : 3 ≤ (line delimiter cells).length := by
  -- A delimiter only adds to the length, so one cell is enough.
  have hjoin : ∀ parts : List (List UInt8), (∀ c ∈ parts, 2 ≤ c.length) → parts ≠ [] →
      2 ≤ (joinCells delimiter parts).length := by
    intro parts hparts hne
    match parts with
    | [] => exact absurd rfl hne
    | [c] => exact hparts c List.mem_cons_self
    | c :: d :: rest =>
      have hc := hparts c List.mem_cons_self
      rw [joinCells, List.length_append]
      · omega
      · exact nofun
  rw [line, List.length_append, List.length_singleton]
  refine Nat.succ_le_succ (hjoin _ ?_ ?_)
  · intro c hc
    obtain ⟨s, -, rfl⟩ := List.mem_map.mp hc
    exact two_le_length_quoteCell s
  · cases cells <;> simp

/-- A file is that of no rows only where it has none. -/
theorem eq_nil_of_render?_eq_render?_nil {rows : List Json.Object} {delimiter : Char}
    (hbyte : delimiter.toNat < 256)
    (h : (render? rows delimiter).map (·.1) = (render? [] delimiter).map (·.1)) : rows = [] := by
  cases rows with
  | nil => rfl
  | cons row rows =>
    simp only [render?, if_pos hbyte, Option.map_some, Option.some.injEq] at h
    have hhead := three_le_length_line (UInt8.ofNat delimiter.toNat) (columns (row :: rows))
    have hrow := three_le_length_line (UInt8.ofNat delimiter.toNat) (rowCells (columns (row :: rows)) row)
    have hnone : (line (UInt8.ofNat delimiter.toNat) (columns [])).length = 3 := rfl
    have hlength := congrArg List.length h
    simp only [List.flatMap_cons, List.length_append, List.flatMap_nil, List.length_nil] at hlength
    omega

end Csv

namespace Reply

/-- The reply holds no row: nothing at all, or the file of no rows. -/
def HoldsNoRow (r : Reply) (delimiter : Char) : Prop :=
  match r.body with
  | .empty => True
  | .json _ => False
  | .csv bytes => some bytes = (Csv.render? [] delimiter).map (·.1)

theorem holdsNoRow_ofCsv_iff (rows : List Json.Object) (filename : String) {delimiter : Char}
    (hbyte : delimiter.toNat < 256) (more : Headers) :
    ∃ reply, ofCsv rows filename delimiter = .ok reply ∧
      ((reply.addHeaders more).HoldsNoRow delimiter ↔ rows = []) := by
  obtain ⟨⟨bytes, columns⟩, hrender⟩ : ∃ file, Csv.render? rows delimiter = some file := ⟨_, if_pos hbyte⟩
  refine ⟨_, by rw [ofCsv, hrender], ?_⟩
  have hbytes : some bytes = (Csv.render? rows delimiter).map (·.1) := by rw [hrender, Option.map_some]
  constructor
  · intro h
    exact Csv.eq_nil_of_render?_eq_render?_nil hbyte (hbytes.symm.trans h)
  · rintro rfl
    exact hbytes

end Reply

/-! ## Pages -/

namespace Page

/-- The page lies behind the last one; an empty result has one page. -/
def IsPastEnd (p : Page) : Prop := max 1 p.count < p.number

instance (p : Page) : Decidable p.IsPastEnd := inferInstanceAs (Decidable (_ < _))

theorem status_eq_beyond_iff {p : Page} : p.status = .beyond ↔ p.IsPastEnd := by
  unfold status IsPastEnd
  rw [Nat.max_comm]
  split
  · exact iff_of_true rfl ‹_›
  · refine iff_of_false ?_ ‹_›
    split <;> exact nofun

/-- No row is left behind the last page. -/
theorem total_le_offset {number size total : Nat} (hsize : size ≠ 0) (htotal : total < twoTo 63)
    (hpast : (Page.of number (some size) total).IsPastEnd) :
    total ≤ (Page.of number (some size) total).offset := by
  have hcount : (Page.of number (some size) total).count = (total + size - 1) / size := if_neg hsize
  have hself : (Page.of number (some size) total).size = size := rfl
  rw [IsPastEnd, hcount] at hpast
  -- the pages that are counted have room for all rows
  have hroom : total ≤ (total + size - 1) / size * size := by
    have hlt := Nat.lt_mul_div_succ (total + size - 1) (Nat.pos_of_ne_zero hsize)
    rw [Nat.mul_comm, Nat.succ_mul] at hlt
    omega
  have hbefore : (total + size - 1) / size * size ≤ ((Page.of number (some size) total).number - 1) * size :=
    Nat.mul_le_mul_right size (by omega)
  have hbound : twoTo 63 ≤ countBound := by decide
  rw [offset, hself]
  exact Nat.le_min.mpr ⟨hroom.trans hbefore, by omega⟩

end Page

/-- With a limit the statement for a page behind the last one asks for no row, and without one for all of them. -/
theorem Rows.cutFor_of_isPastEnd {limit : Option Nat} {number : Nat} {rows : List α} (hrows : rows.length < twoTo 63)
    (hpast : (Page.of number limit rows.length).IsPastEnd) :
    cutFor limit (Page.of number limit rows.length) rows = if limit.isSome then [] else rows := by
  cases limit with
  | none => rfl
  | some size =>
    by_cases hsize : size = 0
    · subst hsize
      simp [cutFor, cut, Page.of]
    · have hdrop : rows.drop (Page.of number (some size) rows.length).offset = [] :=
        List.drop_eq_nil_of_le (Page.total_le_offset hsize hrows hpast)
      simp only [cutFor, cut, Option.isSome_some, ↓reduceIte, Option.getD_some, hdrop, List.take_nil]

namespace Service

/-! ## Replies -/

section Replies

variable {s : Service} {m : Model} {result : Rows.PageResult} {expand : Bool} {path : String} {args : Arguments}
  {limit : Option Nat} {headers : Headers}

/-- As items, a page behind the last one is not there, whatever was read. -/
theorem renderList_of_isPastEnd (hexports : (s.listOptions args).exports = none) (hpast : result.page.IsPastEnd) :
    s.renderList m result expand path args limit headers =
      .ok ((Reply.empty 204).addHeaders result.page.headers) := by
  have hstatus := Page.status_eq_beyond_iff.mpr hpast
  simp only [renderList, hexports, hstatus, ↓reduceIte, PageStatus.code]

/-- As a file, it holds what was read. -/
theorem renderList_of_exports {filename : String} (hexports : (s.listOptions args).exports = some filename) :
    s.renderList m result expand path args limit headers =
      s.renderFile (result.records.map fun r => s.registry.render m r expand false) filename result.page := by
  simp only [renderList, hexports, Option.isNone_some, Bool.and_false, Bool.false_and]

/-- Where cells can be separated by one byte there is a file, and every item has a row in it. -/
theorem exists_renderFile (hbyte : s.config.csvDelimiter.toNat < 256) (items : List Json.Object) (filename : String)
    (page : Page) :
    ∃ reply, s.renderFile items filename page = .ok reply ∧
      (reply.HoldsNoRow s.config.csvDelimiter ↔ items = []) := by
  obtain ⟨reply, hreply, hholds⟩ := Reply.holdsNoRow_ofCsv_iff (items.flatMap Export.flatten) filename hbyte
    page.headers
  refine ⟨reply.addHeaders page.headers, ?_, hholds.trans Export.flatMap_flatten_eq_nil_iff⟩
  rw [renderFile, hreply]
  rfl

end Replies

/-- What is replied to a request for a page behind the last one. As items the page is not there. Its file holds no row
where a limit bounds the statement for the page or the result is empty, and only there: without a limit all rows of the
result are read, and the file holds them. The database may answer as it likes, so long as it counts the rows that meet
the condition, cuts pages out of one order of them, and answers what is read along. -/
theorem replies_past_end {declared : List Model} {tables : List Table} {config : Config} {g : Registry}
    (h : Registry.build declared tables config = .ok g) {m : Model} (hm : m ∈ g.models) (settings : Config) (b : Backend)
    (names : ArgumentNames) {args : Arguments} {q : Query} {request : PageRequest}
    (hcompiled : (⟨g, settings, b, m, names⟩ : Service).compileQuery m args = .ok (q, request)) (headers : Headers) :
    ∃ c order, q.condition g m settings.join {} = .ok c ∧ Query.order g m q.orders = .ok order ∧
      ∀ (answers : Answers) (rows : List Cells), rows.length < twoTo 63 → Rows.Pages answers g m q c order rows →
        (Page.of request.page request.limit rows.length).IsPastEnd →
        let s : Service := ⟨g, settings, b, m, names⟩
        let page := Page.of request.page request.limit rows.length
        let replied := resultOf answers (s.list args headers).run
        match (s.listOptions args).exports with
        | none => replied = .ok ((Reply.empty 204).addHeaders page.headers)
        | some filename => ∃ records : List Record,
          records.map (·.toRow) = (if request.limit.isSome then [] else rows).map (Rows.shownRow m q) ∧
          replied = s.renderFile (records.map fun r => g.render m r (!q.related.isEmpty) false) filename page ∧
          (settings.csvDelimiter.toNat < 256 → ∃ reply, replied = .ok reply ∧
            (reply.HoldsNoRow settings.csvDelimiter ↔ request.limit.isSome = true ∨ rows = [])) := by
  have hexecutable : q.Executable g m :=
    Query.executable_of_build (c := { registry := g, model := m }) h hm (compileQuery_produces hcompiled)
  obtain ⟨c, hc⟩ := hexecutable.condition settings.join {}
  obtain ⟨order, horder⟩ := hexecutable.order
  refine ⟨c, order, hc, horder, fun answers rows hrows hpages hpast => ?_⟩
  intro s page replied
  obtain ⟨records, hpage, htoRow⟩ := Rows.resultOf_selectPage_cutFor (s.plan q request) hc horder hpages
    hexecutable.related hrows
  have hread : records.map (·.toRow) = (if request.limit.isSome then [] else rows).map (Rows.shownRow m q) := by
    rw [← Rows.cutFor_of_isPastEnd hrows hpast]
    exact htoRow
  have hreplied : replied = s.renderList m ⟨records, page⟩ (!q.related.isEmpty) m.url args request.limit headers :=
    resultOf_list_of_page hcompiled (Handler.resultOf_ofSession hpage) headers
  split
  · next hexports => exact hreplied.trans (renderList_of_isPastEnd hexports hpast)
  · next filename hexports =>
    have hfile := hreplied.trans (renderList_of_exports hexports)
    refine ⟨records, hread, hfile, fun hbyte => ?_⟩
    obtain ⟨reply, hreply, hholds⟩ := exists_renderFile (s := s) hbyte
      (records.map fun r => g.render m r (!q.related.isEmpty) false) filename page
    refine ⟨reply, hfile.trans hreply, hholds.trans ?_⟩
    -- The file has no row where no record was read, and records are as many as the rows that were read.
    rw [List.map_eq_nil_iff, ← List.map_eq_nil_iff (f := fun r : Record => r.toRow), hread, List.map_eq_nil_iff]
    cases request.limit.isSome <;> simp

/-- Of two books, the file of the second page holds both without a limit, and that of the third page holds none where
one book fits on a page. -/
theorem replies_past_end_of_two_books :
    (∃ reply, resultOf (shelfAnswers 2)
        (({ shelf "Book" "List" "/book" with config := { maxLimit := none } } : Service).list
          [("_page", "2"), ("_export", "")] []).run = .ok reply ∧ ¬reply.HoldsNoRow ',') ∧
    ∃ reply, resultOf (shelfAnswers 2)
        ((shelf "Book" "List" "/book").list [("_page", "3"), ("_limit", "1"), ("_export", "")] []).run = .ok reply ∧
      reply.HoldsNoRow ',' := by
  -- All rows are one page without a limit, so that the second page is behind it.
  have hbuild : Registry.build [(shelf "Book" "List" "/book").model] [] {} =
      .ok (shelf "Book" "List" "/book").registry := by decide +kernel
  constructor
  · have hcompiled : ({ shelf "Book" "List" "/book" with config := { maxLimit := none } } : Service).compileQuery
        (shelf "Book" "List" "/book").model [("_page", "2"), ("_export", "")] = .ok ({}, ⟨2, none, []⟩) := by
      decide +kernel
    obtain ⟨c, order, -, -, hreplies⟩ := replies_past_end hbuild List.mem_cons_self { maxLimit := none } .sqlite {}
      hcompiled []
    obtain ⟨-, -, -, hfile⟩ := hreplies (shelfAnswers 2) (books 2) (by decide) (pages_shelfAnswers ..)
      (by decide +kernel)
    obtain ⟨reply, hreply, hholds⟩ := hfile (by decide)
    exact ⟨reply, hreply, fun h => absurd (hholds.mp h) (by decide)⟩
  · have hcompiled : (shelf "Book" "List" "/book").compileQuery (shelf "Book" "List" "/book").model
        [("_page", "3"), ("_limit", "1"), ("_export", "")] = .ok ({}, ⟨3, some 1, []⟩) := by decide +kernel
    obtain ⟨c, order, -, -, hreplies⟩ := replies_past_end hbuild List.mem_cons_self {} .sqlite {} hcompiled []
    obtain ⟨-, -, -, hfile⟩ := hreplies (shelfAnswers 2) (books 2) (by decide) (pages_shelfAnswers ..)
      (by decide +kernel)
    obtain ⟨reply, hreply, hholds⟩ := hfile (by decide)
    exact ⟨reply, hreply, hholds.mpr (.inl rfl)⟩

/-- Without a limit the second page of two books is not there as items, and its file holds both. -/
theorem file_past_end :
    let s : Service := { shelf "Book" "List" "/book" with config := { maxLimit := none } }
    Registry.build [s.model] [] {} = .ok s.registry ∧
    s.compileQuery s.model [("_page", "2")] = .ok ({}, ⟨2, none, []⟩) ∧
    s.compileQuery s.model [("_page", "2"), ("_export", "")] = .ok ({}, ⟨2, none, []⟩) ∧
    (∃ c order, ({} : Query).condition s.registry s.model s.config.join {} = .ok c ∧
      Query.order s.registry s.model [] = .ok order ∧
      Rows.Pages (shelfAnswers 2) s.registry s.model {} c order (books 2)) ∧
    max 1 (Page.of 2 none (books 2).length).count < 2 ∧
    (resultOf (shelfAnswers 2) (s.list [("_page", "2")] []).run).map (fun reply => (reply.status, reply.body)) =
      .ok (204, .empty) ∧
    (resultOf (shelfAnswers 2) (s.list [("_page", "2"), ("_export", "")] []).run).map (fun reply => reply.body) =
      .ok (.csv (Text.Utf8.encode "\"id\"\n\"0\"\n\"1\"\n".toList)) := by
  refine ⟨by decide +kernel, by decide +kernel, by decide +kernel, ⟨_, _, rfl, rfl, pages_shelfAnswers ..⟩,
    by decide +kernel, by decide +kernel, by decide +kernel⟩

end Service

end RestTables
