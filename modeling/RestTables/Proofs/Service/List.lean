import RestTables.Proofs.Http.Link
import RestTables.Proofs.Query.Page
import RestTables.Proofs.Rows.Page

/-
Module: RestTables.Proofs.Service.List
Purpose: The reply to a request for one page of a collection: its status, the rows that it lists, and the address of
  the next page. The arguments in that address ask for the same query, one page further.
Main exports: Arguments.IsPlain, Service.compileQuery_eq_ok_iff, Service.compileQuery_pageArguments,
  Service.Shows, Service.resultOf_list_of_page, Service.resultOf_list
-/

namespace RestTables

open Dialogue

/-! ## Arguments -/

/-- The arguments ask for a list with all its links: for no file, no table, and no list without links. -/
def Arguments.IsPlain (args : Arguments) : Prop :=
  ∀ a ∈ args, a.1 ≠ "_export" ∧ a.1 ≠ "_as_table" ∧ a.1 ≠ "_no_links"

/-- The names of the arguments for another page are those of the others, and the two that say which page is meant. -/
theorem forall_mem_pageArguments {P : String → Prop} (hpage : P "_page") (hlimit : P "_limit") {args : Arguments}
    (h : ∀ a ∈ args, P a.1) (limit : Option Nat) (page : Nat) : ∀ a ∈ Link.pageArguments args {} limit page, P a.1 := by
  intro a ha
  rw [pageArguments_eq] at ha
  rcases List.mem_append.mp ha with hold | hnew
  · exact h a (List.mem_filter.mp hold).1
  · rcases List.mem_cons.mp hnew with rfl | hlimited
    · exact hpage
    · rw [Option.mem_toList, Option.map_eq_some_iff] at hlimited
      obtain ⟨n, -, rfl⟩ := hlimited
      exact hlimit

theorem Arguments.IsPlain.pageArguments {args : Arguments} (h : args.IsPlain) (limit : Option Nat) (page : Nat) :
    Arguments.IsPlain (Link.pageArguments args {} limit page) :=
  forall_mem_pageArguments (P := fun name => name ≠ "_export" ∧ name ≠ "_as_table" ∧ name ≠ "_no_links")
    (by decide) (by decide) h limit page

namespace Service

variable {s : Service} {m : Model} {args : Arguments} {q : Query} {request : PageRequest}

/-- What is not asked for by its name is not done. -/
theorem any_name_eq_false {name : String} (h : ∀ a ∈ args, a.1 ≠ name) : (args.any fun a => a.1 == name) = false := by
  rw [List.any_eq_false]
  intro a ha
  rw [beq_iff_eq]
  exact h a ha

/-- A list is shown as items where neither a file nor a table is asked for. -/
theorem listOptions_of_items (h : ∀ a ∈ args, a.1 ≠ s.names.exports ∧ a.1 ≠ s.names.asTable) :
    s.listOptions args =
      { exports := none, asTable := false, noLinks := args.any fun a => a.1 == s.names.noLinks } := by
  have hexports : (args.filter fun a => a.1 == s.names.exports) = [] := by
    rw [List.filter_eq_nil_iff]
    intro a ha
    rw [beq_iff_eq]
    exact (h a ha).1
  simp only [listOptions, hexports, any_name_eq_false fun a ha => (h a ha).2, List.getLast?_nil, Option.map_none,
    ite_self]

theorem listOptions_of_isPlain (hnames : s.names = {}) (h : args.IsPlain) :
    s.listOptions args = { exports := none, asTable := false, noLinks := false } := by
  rw [listOptions_of_items, any_name_eq_false]
  · intro a ha
    rw [hnames]
    exact (h a ha).2.2
  · intro a ha
    rw [hnames]
    exact ⟨(h a ha).1, (h a ha).2.1⟩

theorem rejectInvalid_eq_ok_iff {invalid : List String} : rejectInvalid invalid = .ok () ↔ invalid = [] := by
  cases invalid <;> simp [rejectInvalid]

/-- What was compiled is handed on when nothing in it was reported. -/
theorem ok_of_rejectInvalid_iff {invalid : List String} {compiled : Compiled} {asked : PageRequest}
    (hinvalid : invalid = [] ↔ asked.invalid = [] ∧ compiled.invalid = []) :
    (rejectInvalid invalid >>= fun _ => pure (compiled.query, asked)) =
        (.ok (q, request) : Except ApiError (Query × PageRequest)) ↔
      asked = request ∧ request.invalid = [] ∧ compiled = ⟨q, []⟩ := by
  constructor
  · intro h
    obtain ⟨_, hr, h⟩ := exists_of_bind_eq_ok h
    obtain ⟨hasked, hcompiled⟩ := hinvalid.mp (rejectInvalid_eq_ok_iff.mp hr)
    cases h
    exact ⟨rfl, hasked, by rw [← hcompiled]⟩
  · rintro ⟨rfl, hasked, rfl⟩
    rw [hinvalid.mpr ⟨hasked, rfl⟩]
    rfl

/-- Arguments are compiled when every part of them was understood. -/
theorem compileQuery_eq_ok_iff : s.compileQuery m args = .ok (q, request) ↔
    PageRequest.ofArguments s.names s.config.maxLimit args = request ∧ request.invalid = [] ∧
      ({ registry := s.registry, model := m } : Compiler).ofArguments (s.queryArguments args) = ⟨q, []⟩ :=
  ok_of_rejectInvalid_iff List.append_eq_nil_iff

theorem unpaged_queryArguments (args : Arguments) :
    Arguments.unpaged (s.queryArguments args) = s.queryArguments args.unpaged := by
  unfold queryArguments Arguments.unpaged
  split
  · rfl
  · rw [List.filter_filter, List.filter_filter]
    congr 1
    funext a
    exact Bool.and_comm ..

/-- The arguments for another page compile to the same query, and to pages of the same size. -/
theorem compileQuery_pageArguments (hnames : s.names = {}) (hmax : ∀ n ∈ s.config.maxLimit, n < twoTo 64)
    (h : s.compileQuery m args = .ok (q, request)) (hlimit : request.limit ≠ some 0) {page : Nat} (hpage : 0 < page)
    (hfits : page < twoTo 64) :
    s.compileQuery m (Link.pageArguments args {} request.limit page) = .ok (q, ⟨page, request.limit, []⟩) := by
  obtain ⟨rfl, -, hquery⟩ := compileQuery_eq_ok_iff.mp h
  rw [hnames] at hlimit ⊢
  refine compileQuery_eq_ok_iff.mpr ⟨?_, rfl, ?_⟩
  · rw [hnames]
    apply PageRequest.ofArguments_pageArguments (PageRequest.clamp_clamp _ _) ?_ hpage hfits
    intro n hn
    exact ⟨Nat.pos_of_ne_zero fun hzero => hlimit (hzero ▸ hn), PageRequest.limit_lt hmax hn⟩
  · -- without what they say of pages, the arguments are the same as before
    rw [← Compiler.ofArguments_unpaged rfl, unpaged_queryArguments, unpaged_pageArguments, ← unpaged_queryArguments,
      Compiler.ofArguments_unpaged rfl]
    exact hquery

/-! ## Replies -/

/-- A reply shows a page: in its status, in the rows that it lists, and in the address of the next page, which is
null on the last one. -/
structure Shows (s : Service) (m : Model) (args : Arguments) (limit : Option Nat) (expand : Bool)
    (result : Rows.PageResult) (reply : Reply) : Prop where
  status : reply.status = result.page.status.code
  listed : reply.listed m.collectionKey =
    result.records.map fun r => Json.obj (s.registry.render m r expand true)
  next : reply.next? = some
    (if result.page.hasNext then Link.pageUrl m.url args s.names limit (result.page.number + 1) else .null)

/-- Where the client has no reply from before, the entity tag changes neither the status nor the body. -/
theorem conditionalRead_of_text?_eq_none {headers : Headers} (h : headers.text? "if-none-match" = none)
    (reply : Reply) :
    (s.conditionalRead headers reply).status = reply.status ∧ (s.conditionalRead headers reply).body = reply.body := by
  unfold conditionalRead
  split
  · exact ⟨rfl, rfl⟩
  · split
    · simp only [h, Option.map_none, Option.getD_none, Bool.false_eq_true, ↓reduceIte, Reply.status_header,
        Reply.body_header, and_self]
    · exact ⟨rfl, rfl⟩

theorem shows_of_renderList (hnames : s.names = {}) (hkey : m.collectionKey ≠ "_meta") (hplain : args.IsPlain)
    {headers : Headers} (hfresh : headers.text? "if-none-match" = none) {result : Rows.PageResult}
    (hthere : result.page.status ≠ .beyond) (expand : Bool) (limit : Option Nat) :
    ∃ reply, s.renderList m result expand m.url args limit headers = .ok reply ∧
      s.Shows m args limit expand result reply := by
  have hoptions := listOptions_of_isPlain hnames hplain
  have hlist : ∃ items, s.renderList m result expand m.url args limit headers = .ok (s.conditionalRead headers
        (s.renderItems m items m.url args ⟨none, false, false⟩ result.page limit)) ∧
      items = result.records.map fun r => s.registry.render m r expand true := by
    refine ⟨_, ?_, rfl⟩
    simp only [renderList, hoptions, if_neg hthere]
    rfl
  obtain ⟨items, hlist, hitems⟩ := hlist
  obtain ⟨hstatus, hbody⟩ := conditionalRead_of_text?_eq_none (s := s) hfresh
    (s.renderItems m items m.url args ⟨none, false, false⟩ result.page limit)
  have hmember : ∀ key, (s.conditionalRead headers
      (s.renderItems m items m.url args ⟨none, false, false⟩ result.page limit)).member? key =
        Json.Object.get? ((Json.Object.insert m.collectionKey (.arr (items.map .obj)) []).insert "_meta"
          (.obj (Link.navigation m.url args s.names result.page limit))) key := by
    intro key
    rw [Reply.member?, hbody]
    rfl
  refine ⟨_, hlist, hstatus, ?_, ?_⟩
  · rw [Reply.listed, hmember, Json.Object.get?_insert_of_ne hkey, Json.Object.get?_insert_self, hitems]
    simp only [Option.bind_some, Json.items?, Option.getD_some, List.map_map]
    rfl
  · rw [Reply.next?, hmember, Json.Object.get?_insert_self]
    rfl

end Service

/-! ## Answers -/

section Answers

variable {answers : Answers}

theorem Handler.resultOf_ofSession {d : Session α} {a : α} (h : resultOf answers d.run = .ok a) :
    resultOf answers (Handler.ofSession d).run = .ok a := by
  have hrun : (Handler.ofSession d).run =
      Dialogue.bind d.run fun r => .done (r.mapError ApiError.ofStorage) := rfl
  rw [hrun, resultOf_bind, h]
  rfl

/-- What was decided beforehand needs no answer. -/
theorem Handler.resultOf_ofExcept_bind {e : Except ApiError α} {a : α} (h : e = .ok a) (f : α → Handler β) :
    resultOf answers (Handler.ofExcept e >>= f).run = resultOf answers (f a).run := by
  subst h
  rfl

/-- Once the page has been read, the reply is decided. -/
theorem Service.resultOf_list_of_page {s : Service} {args : Arguments} {q : Query} {request : PageRequest}
    {result : Rows.PageResult} (hcompiled : s.compileQuery s.model args = .ok (q, request))
    (hpage : resultOf answers (s.page s.model q request).run = .ok result) (headers : Headers) :
    resultOf answers (s.list args headers).run =
      s.renderList s.model result (!q.related.isEmpty) s.model.url args request.limit headers := by
  rw [list, Handler.resultOf_ofExcept_bind hcompiled, resultOf_except_bind hpage]
  rfl

/-- The reply to a request for a page that is there. -/
theorem Service.resultOf_list {s : Service} {args : Arguments} {q : Query} {request : PageRequest}
    {result : Rows.PageResult} (hnames : s.names = {}) (hkey : s.model.collectionKey ≠ "_meta")
    (hcompiled : s.compileQuery s.model args = .ok (q, request)) (hplain : args.IsPlain) {headers : Headers}
    (hfresh : headers.text? "if-none-match" = none)
    (hpage : resultOf answers (s.page s.model q request).run = .ok result) (hthere : result.page.status ≠ .beyond) :
    ∃ reply, resultOf answers (s.list args headers).run = .ok reply ∧
      s.Shows s.model args request.limit (!q.related.isEmpty) result reply := by
  obtain ⟨reply, hreply, hshows⟩ := shows_of_renderList (s := s) hnames hkey hplain hfresh hthere
    (!q.related.isEmpty) request.limit
  exact ⟨reply, (resultOf_list_of_page hcompiled hpage headers).trans hreply, hshows⟩

end Answers

end RestTables
