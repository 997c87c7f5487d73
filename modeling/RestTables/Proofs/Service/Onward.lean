import RestTables.Proofs.Service.Walk

/-
Module: RestTables.Proofs.Service.Onward
Purpose: A client that asks with a body and follows the addresses of next pages, sending the same body to each. The
  address says which page is meant, and so does the body if it speaks of pages at all. The body is then believed, and
  every address leads to the page that the client has already.
Main exports: Service.compilePayload_pageArguments, Service.exists_of_next?_fetch, Service.FetchWalk,
  Service.ReachesLastPage, Service.leads_onward_iff
-/

namespace RestTables

open Dialogue

/-! ## Replies -/

/-- Neither a file nor a list without links is asked for. -/
def Arguments.AsksForLinks (args : Arguments) : Prop := ∀ a ∈ args, a.1 ≠ "_export" ∧ a.1 ≠ "_no_links"

theorem Arguments.AsksForLinks.pageArguments {args : Arguments} (h : args.AsksForLinks) (limit : Option Nat)
    (page : Nat) : Arguments.AsksForLinks (Link.pageArguments args {} limit page) :=
  forall_mem_pageArguments (P := fun name => name ≠ "_export" ∧ name ≠ "_no_links") (by decide) (by decide) h limit page

/-- What is said of the next page is in the body. -/
theorem Reply.next?_congr {r r' : Reply} (h : r.body = r'.body) : r.next? = r'.next? := by
  simp only [next?, member?, h]

namespace Service

section Replies

variable {s : Service} {m : Model} {result : Rows.PageResult} {expand : Bool} {path : String} {args : Arguments}
  {limit : Option Nat} {headers : Headers} {reply : Reply} {next : Json}

/-- A list has the address of the next page, unless it has no links at all. -/
theorem next?_renderItems (items : List Json.Object) (options : ListOptions) (page : Page) :
    (s.renderItems m items path args options page limit).next? = if options.noLinks then none else
      some (if page.hasNext then Link.pageUrl path args s.names limit (page.number + 1) else .null) := by
  unfold renderItems
  cases options.noLinks with
  | false =>
    simp only [Bool.false_eq_true, ↓reduceIte, Reply.next?, Reply.member?, Json.Object.get?_insert_self]
    rfl
  | true =>
    simp only [↓reduceIte, Reply.next?, Reply.member?]
    by_cases hkey : "_meta" = m.collectionKey
    · rw [hkey, Json.Object.get?_insert_self]
    · rw [Json.Object.get?_insert_of_ne hkey]
      rfl

theorem next?_of_conditionalRead (h : (s.conditionalRead headers reply).next? = some next) :
    reply.next? = some next := by
  unfold conditionalRead at h
  split at h
  · exact h
  · split at h
    · dsimp only at h
      split at h
      · cases h
      · rwa [Reply.next?_congr (Reply.body_header ..)] at h
    · exact h

/-- Whatever is said of the next page is its address, or that there is none. -/
theorem eq_of_next?_renderList (h : s.renderList m result expand path args limit headers = .ok reply)
    (hnext : reply.next? = some next) :
    next = if result.page.hasNext then Link.pageUrl path args s.names limit (result.page.number + 1) else .null := by
  unfold renderList at h
  -- Neither a file nor an empty reply says anything of a next page.
  cases hexports : (s.listOptions args).exports with
  | some filename =>
    simp only [hexports] at h
    obtain ⟨file, hfile, h⟩ := exists_of_bind_eq_ok h
    cases h
    unfold Reply.ofCsv at hfile
    split at hfile
    · cases hfile
    · cases hfile
      cases hnext
  | none =>
    simp only [hexports] at h
    split at h
    · cases h
      cases hnext
    · cases h
      have hitems := next?_of_conditionalRead hnext
      rw [next?_renderItems] at hitems
      split at hitems
      · cases hitems
      · exact (Option.some.inj hitems).symm

theorem listOptions_of_asksForLinks (hnames : s.names = {}) (h : args.AsksForLinks) :
    (s.listOptions args).exports = none ∧ (s.listOptions args).noLinks = false := by
  have hexports : (args.filter fun a => a.1 == s.names.exports) = [] := by
    rw [List.filter_eq_nil_iff, hnames]
    exact fun a ha => by simpa using (h a ha).1
  constructor
  · simp only [listOptions, hexports, List.getLast?_nil, Option.map_none, ite_self]
  · rw [listOptions, hnames]
    exact any_name_eq_false fun a ha => (h a ha).2

/-- And it is said wherever the page is there and a list with links is asked for. -/
theorem exists_next?_renderList (hnames : s.names = {}) (hlinks : args.AsksForLinks)
    (hfresh : headers.text? "if-none-match" = none) (hthere : result.page.status ≠ .beyond) :
    ∃ reply, s.renderList m result expand path args limit headers = .ok reply ∧ reply.next? = some
      (if result.page.hasNext then Link.pageUrl path args s.names limit (result.page.number + 1) else .null) := by
  obtain ⟨hexports, hlinks⟩ := listOptions_of_asksForLinks hnames hlinks
  obtain ⟨items, hlist⟩ : ∃ items, s.renderList m result expand path args limit headers = .ok
      (s.conditionalRead headers (s.renderItems m items path args (s.listOptions args) result.page limit)) :=
    ⟨_, by simp only [renderList, hexports, if_neg hthere]; rfl⟩
  refine ⟨_, hlist, ?_⟩
  rw [Reply.next?_congr (conditionalRead_of_text?_eq_none hfresh _).2, next?_renderItems, hlinks]
  rfl

end Replies

/-! ## Requests -/

section Requests

variable {s : Service} {p : Payload} {args : Arguments} {q : Query} {request : PageRequest}

/-- A body and arguments are compiled when every part of both was understood. -/
theorem compilePayload_eq_ok_iff : s.compilePayload p args = .ok (q, request) ↔
    PageRequest.ofArguments s.names s.config.maxLimit (s.pageArguments p args) = request ∧ request.invalid = [] ∧
      ({ registry := s.registry, model := s.model } : Compiler).ofPayload p = ⟨q, []⟩ :=
  ok_of_rejectInvalid_iff (List.append_eq_nil_iff.trans and_comm)

theorem one_le_page_of_compilePayload (h : s.compilePayload p args = .ok (q, request)) : 1 ≤ request.page := by
  obtain ⟨rfl, -⟩ := compilePayload_eq_ok_iff.mp h
  exact PageRequest.one_le_page ..

/-- Where the body speaks of pages, the address is not heard. -/
theorem compilePayload_of_isSome (hpages : p.pagination.isSome) (args args' : Arguments) :
    s.compilePayload p args = s.compilePayload p args' := by
  obtain ⟨spec, hspec⟩ := Option.isSome_iff_exists.mp hpages
  simp only [compilePayload, pageArguments, hspec]

/-- Where it does not, the arguments for another page compile to the same query, and to pages of the same size. -/
theorem compilePayload_pageArguments (hnames : s.names = {}) (hmax : ∀ n ∈ s.config.maxLimit, n < twoTo 64)
    (hpages : p.pagination = none) (h : s.compilePayload p args = .ok (q, request)) (hlimit : request.limit ≠ some 0)
    {page : Nat} (hpage : 0 < page) (hfits : page < twoTo 64) (others : Arguments) :
    s.compilePayload p (Link.pageArguments others {} request.limit page) = .ok (q, ⟨page, request.limit, []⟩) := by
  obtain ⟨rfl, -, hquery⟩ := compilePayload_eq_ok_iff.mp h
  simp only [pageArguments, hpages, hnames, PageRequest.ofArguments_filter] at hlimit ⊢
  refine compilePayload_eq_ok_iff.mpr ⟨?_, rfl, hquery⟩
  simp only [pageArguments, hpages, hnames, PageRequest.ofArguments_filter]
  apply PageRequest.ofArguments_pageArguments (PageRequest.clamp_clamp _ _) ?_ hpage hfits
  intro n hn
  exact ⟨Nat.pos_of_ne_zero fun hzero => hlimit (hzero ▸ hn), PageRequest.limit_lt hmax hn⟩

variable {answers : Answers} {headers : Headers} {body : List UInt8} {reply : Reply} {result : Rows.PageResult}

/-- Once the page has been read, the reply is decided. -/
theorem resultOf_fetch_of_page (hbody : payloadOf body = .ok p) (hcompiled : s.compilePayload p args = .ok (q, request))
    (hpage : resultOf answers (s.page s.model q request).run = .ok result) (headers : Headers) :
    resultOf answers (s.fetch args headers body).run =
      s.renderList s.model result (!q.related.isEmpty) s.model.url args request.limit headers := by
  rw [fetch, Handler.resultOf_ofExcept_bind hbody, Handler.resultOf_ofExcept_bind hcompiled,
    resultOf_except_bind hpage]
  rfl

/-- A reply shows a page that was read for the body and the arguments. -/
theorem exists_of_resultOf_fetch (h : resultOf answers (s.fetch args headers body).run = .ok reply) :
    ∃ p q request result, payloadOf body = .ok p ∧ s.compilePayload p args = .ok (q, request) ∧
      resultOf answers (s.page s.model q request).run = .ok result ∧
      s.renderList s.model result (!q.related.isEmpty) s.model.url args request.limit headers = .ok reply := by
  obtain ⟨p, hp, h⟩ := exists_of_resultOf_bind h
  obtain ⟨⟨q, request⟩, hcompiled, h⟩ := exists_of_resultOf_bind h
  obtain ⟨result, hpage, h⟩ := exists_of_resultOf_bind h
  exact ⟨p, q, request, result, hp, hcompiled, hpage, h⟩

/-- A page that was read is one of those that so many rows fill. -/
theorem exists_total_of_page {m : Model} (h : resultOf answers (s.page m q request).run = .ok result) :
    ∃ total < twoTo 63, result.page = Page.of request.page request.limit total := by
  have hrun : (s.page m q request).run = Dialogue.bind (Rows.selectPage s.registry m (s.plan q request)).run
      fun r => .done (r.mapError ApiError.ofStorage) := rfl
  rw [hrun, resultOf_bind] at h
  cases hread : resultOf answers (Rows.selectPage s.registry m (s.plan q request)).run with
  | error e =>
    rw [hread] at h
    cases h
  | ok found =>
    rw [hread] at h
    cases h
    exact Rows.exists_total_of_selectPage hread

/-- The address of a next page, if a reply has one. -/
theorem exists_of_next?_fetch (hbody : payloadOf body = .ok p)
    (h : resultOf answers (s.fetch args headers body).run = .ok reply) {next : Json} (hnext : reply.next? = some next)
    (hnull : next ≠ .null) :
    ∃ q request, s.compilePayload p args = .ok (q, request) ∧ request.limit ≠ some 0 ∧
      request.page + 1 < twoTo 64 ∧ next = Link.pageUrl s.model.url args s.names request.limit (request.page + 1) := by
  obtain ⟨p', q, request, result, hp, hcompiled, hread, hlist⟩ := exists_of_resultOf_fetch h
  cases hbody.symm.trans hp
  obtain ⟨total, htotal, hpage⟩ := exists_total_of_page hread
  have hone := one_le_page_of_compilePayload hcompiled
  have hnumber : (Page.of request.page request.limit total).number = request.page := Nat.max_eq_left hone
  have heq := eq_of_next?_renderList hlist hnext
  rw [hpage, hnumber] at heq
  split at heq
  · next hmore =>
    have hlimit := Page.limit_ne_of_hasNext hmore
    rw [Page.hasNext_of hlimit hone, decide_eq_true_eq] at hmore
    exact ⟨q, request, hcompiled, hlimit, Page.succ_lt_of_lt_countOf htotal hmore, heq⟩
  · exact absurd heq hnull

end Requests

/-! ## Walks -/

/-- The requests of a client that sends one body and follows the addresses of next pages until there is none, counted
from some number on. Each request has its own answers from the database. -/
inductive FetchWalk (s : Service) (answers : Nat → Answers) (headers : Headers) (body : List UInt8) :
    Nat → Arguments → List Visit → Prop where
  | last {n : Nat} {args : Arguments} {reply : Reply}
    (replied : resultOf (answers n) (s.fetch args headers body).run = .ok reply) (next_eq : reply.next? = some .null) :
    FetchWalk s answers headers body n args [⟨args, reply⟩]
  | onward {n : Nat} {args : Arguments} {reply : Reply} {url : String} {visits : List Visit}
    (replied : resultOf (answers n) (s.fetch args headers body).run = .ok reply)
    (next_eq : reply.next? = some (.str url))
    (rest : FetchWalk s answers headers body (n + 1) (Link.argumentsOf url) visits) :
    FetchWalk s answers headers body n args (⟨args, reply⟩ :: visits)

/-- Every page up to the last can be read, and the rows are the same number each time. -/
def ReadsPages (s : Service) (answers : Nat → Answers) (q : Query) (limit : Option Nat) (total : Nat) : Prop :=
  ∀ number, 1 ≤ number → number ≤ Page.countOf limit total →
    ∃ records, resultOf (answers number) (s.page s.model q ⟨number, limit, []⟩).run =
      .ok ⟨records, Page.of number limit total⟩

/-- A walk from some arguments on ends at the last page, and each of its visits is to the page that comes next. -/
def ReachesLastPage (s : Service) (answers : Nat → Answers) (headers : Headers) (body : List UInt8) (p : Payload)
    (args : Arguments) (q : Query) (limit : Option Nat) (total : Nat) : Prop :=
  ∃ visits, s.FetchWalk answers headers body 1 args visits ∧ visits.length = Page.countOf limit total ∧
    ∀ i (hi : i < visits.length), s.compilePayload p visits[i].args = .ok (q, ⟨i + 1, limit, []⟩)

section Walks

variable {s : Service} {answers : Nat → Answers} {headers : Headers} {body : List UInt8} {p : Payload} {q : Query}
  {limit : Option Nat} {total : Nat} (hnames : s.names = {}) (hmax : ∀ n ∈ s.config.maxLimit, n < twoTo 64)
  (hurl : '?' ∉ s.model.url.toList ∧ '#' ∉ s.model.url.toList) (hbody : payloadOf body = .ok p)
  (hfresh : headers.text? "if-none-match" = none) (hlimit : limit ≠ some 0) (htotal : total < twoTo 63)
  (hreads : s.ReadsPages answers q limit total)

include hnames hbody hfresh hlimit hreads

/-- One request, for a page that is there. -/
theorem exists_reply_to_fetch {number : Nat} (hnumber : 1 ≤ number) (hlast : number ≤ Page.countOf limit total)
    {args : Arguments} (hlinks : args.AsksForLinks)
    (hcompiled : s.compilePayload p args = .ok (q, ⟨number, limit, []⟩)) :
    ∃ reply, resultOf (answers number) (s.fetch args headers body).run = .ok reply ∧
      reply.next? = some (if number < Page.countOf limit total then
        Link.pageUrl s.model.url args {} limit (number + 1) else .null) := by
  obtain ⟨records, hpage⟩ := hreads number hnumber hlast
  have hthere : (Page.of number limit total).status ≠ .beyond := by
    rw [Page.status_of hlimit hnumber hlast]
    split <;> exact nofun
  obtain ⟨reply, hreply, hnext⟩ : ∃ reply, s.renderList s.model ⟨records, Page.of number limit total⟩
      (!q.related.isEmpty) s.model.url args limit headers = .ok reply ∧ _ :=
    exists_next?_renderList hnames hlinks hfresh hthere
  have hself : (Page.of number limit total).number = number := Nat.max_eq_left hnumber
  refine ⟨reply, (resultOf_fetch_of_page hbody hcompiled hpage headers).trans hreply, ?_⟩
  rw [hnext, hself, hnames]
  simp only [Page.hasNext_of hlimit hnumber, decide_eq_true_eq]

include hmax hurl htotal

/-- From a page on, the walk goes through that page and all that follow. The induction is on the number of pages that
follow. -/
theorem exists_fetchWalk (hpages : p.pagination = none) {left number : Nat}
    (hleft : number + left = Page.countOf limit total) (hnumber : 1 ≤ number) {args : Arguments}
    (hlinks : args.AsksForLinks) (hcompiled : s.compilePayload p args = .ok (q, ⟨number, limit, []⟩)) :
    ∃ visits, s.FetchWalk answers headers body number args visits ∧ visits.length = left + 1 ∧
      ∀ i (hi : i < visits.length), s.compilePayload p visits[i].args = .ok (q, ⟨number + i, limit, []⟩) := by
  induction left generalizing number args with
  | zero =>
    obtain ⟨reply, hreply, hnext⟩ := exists_reply_to_fetch hnames hbody hfresh hlimit hreads hnumber
      (Nat.le_of_eq hleft) hlinks hcompiled
    rw [if_neg (by omega)] at hnext
    refine ⟨[⟨args, reply⟩], .last hreply hnext, rfl, fun i hi => ?_⟩
    obtain rfl : i = 0 := by simpa using hi
    exact hcompiled
  | succ left ih =>
    have hmore : number < Page.countOf limit total := by omega
    obtain ⟨reply, hreply, hnext⟩ := exists_reply_to_fetch hnames hbody hfresh hlimit hreads hnumber
      (Nat.le_of_lt hmore) hlinks hcompiled
    rw [if_pos hmore] at hnext
    obtain ⟨url, hnextUrl, hargs⟩ := Link.exists_pageUrl hurl args {} limit (number + 1)
    -- The address of the next page compiles to the same query, for a page that leaves one less to follow.
    have hcompiled' := compilePayload_pageArguments hnames hmax hpages hcompiled hlimit (Nat.succ_pos number)
      (Page.succ_lt_of_lt_countOf htotal hmore) args
    have hlinks' := hlinks.pageArguments limit (number + 1)
    rw [hnextUrl] at hnext
    rw [← hargs] at hcompiled' hlinks'
    obtain ⟨visits, hwalk, hlength, hvisits⟩ := ih (by omega) (Nat.succ_pos number) hlinks' hcompiled'
    refine ⟨⟨args, reply⟩ :: visits, .onward hreply hnext hwalk, by rw [List.length_cons, hlength], fun i hi => ?_⟩
    cases i with
    | zero => exact hcompiled
    | succ i =>
      have hshift : number + (i + 1) = number + 1 + i := by omega
      rw [hshift]
      exact hvisits i (Nat.lt_of_succ_lt_succ hi)

/-- A walk from the first page on gets to the last one where the body does not speak of pages, and otherwise only where
the first page is the last. -/
theorem reachesLastPage_iff {args : Arguments} (hlinks : args.AsksForLinks)
    (hcompiled : s.compilePayload p args = .ok (q, ⟨1, limit, []⟩)) :
    s.ReachesLastPage answers headers body p args q limit total ↔
      p.pagination = none ∨ Page.countOf limit total = 1 := by
  have hcount := Page.countOf_pos limit total
  constructor
  · rintro ⟨visits, -, hlength, hvisits⟩
    by_contra hnot
    obtain ⟨hpages, hone⟩ := not_or.mp hnot
    -- A body that speaks of pages says which page it is, whatever the address says, so the second visit is to the first
    -- page.
    have hsecond := hvisits 1 (by omega)
    rw [compilePayload_of_isSome (Option.isSome_iff_ne_none.mpr hpages) _ args, hcompiled] at hsecond
    cases hsecond
  · rintro (hpages | hone)
    · obtain ⟨visits, hwalk, hlength, hvisits⟩ := exists_fetchWalk hnames hmax hurl hbody hfresh hlimit htotal hreads
        hpages (Nat.add_sub_cancel' hcount) (Nat.le_refl 1) hlinks hcompiled
      refine ⟨visits, hwalk, by omega, fun i hi => ?_⟩
      rw [Nat.add_comm i 1]
      exact hvisits i hi
    · obtain ⟨reply, hreply, hnext⟩ := exists_reply_to_fetch hnames hbody hfresh hlimit hreads (Nat.le_refl 1) hcount
        hlinks hcompiled
      rw [if_neg (by omega)] at hnext
      refine ⟨[⟨args, reply⟩], .last hreply hnext, hone.symm, fun i hi => ?_⟩
      obtain rfl : i = 0 := by simpa using hi
      exact hcompiled

end Walks

/-- Where a client is led that sends one body along and follows the addresses of next pages, for every model whose path
can stand in front of a query. The arguments of each address are answered with the next page of the same query, of the
same size, exactly where the body does not speak of pages; and from the first page on the client comes to the last one
exactly where it does not, or where there is one page. -/
theorem leads_onward_iff {s : Service} (hnames : s.names = {}) (hmax : ∀ n ∈ s.config.maxLimit, n < twoTo 64)
    (hurl : '?' ∉ s.model.url.toList ∧ '#' ∉ s.model.url.toList) {body : List UInt8} {p : Payload}
    (hbody : payloadOf body = .ok p) :
    (∀ (answers : Answers) (headers : Headers) (args : Arguments) (reply : Reply) (next : Json),
      resultOf answers (s.fetch args headers body).run = .ok reply → reply.next? = some next → next ≠ .null →
      ∃ url q request, next = .str url ∧ s.compilePayload p args = .ok (q, request) ∧
        (s.compilePayload p (Link.argumentsOf url) = .ok (q, ⟨request.page + 1, request.limit, []⟩) ↔
          p.pagination = none)) ∧
    ∀ (answers : Nat → Answers) (headers : Headers) (args : Arguments) (q : Query) (limit : Option Nat) (total : Nat),
      headers.text? "if-none-match" = none → args.AsksForLinks → limit ≠ some 0 → total < twoTo 63 →
      s.compilePayload p args = .ok (q, ⟨1, limit, []⟩) → s.ReadsPages answers q limit total →
      (s.ReachesLastPage answers headers body p args q limit total ↔
        p.pagination = none ∨ Page.countOf limit total = 1) := by
  constructor
  · intro answers headers args reply next hreply hnext hnull
    obtain ⟨q, request, hcompiled, hlimit, hfits, heq⟩ := exists_of_next?_fetch hbody hreply hnext hnull
    obtain ⟨url, hurl, hargs⟩ := Link.exists_pageUrl hurl args {} request.limit (request.page + 1)
    rw [hnames, hurl] at heq
    refine ⟨url, q, request, heq, hcompiled, fun hnextPage => ?_, fun hpages => ?_⟩
    · by_contra hpages
      rw [compilePayload_of_isSome (Option.isSome_iff_ne_none.mpr hpages) _ args, hcompiled] at hnextPage
      have hpage := congrArg (fun found => found.2.page) (Except.ok.inj hnextPage)
      exact absurd hpage (by simp)
    · rw [hargs]
      exact compilePayload_pageArguments hnames hmax hpages hcompiled hlimit (Nat.succ_pos _) hfits args
  · intro answers headers args q limit total hfresh hlinks hlimit htotal hcompiled hreads
    exact reachesLastPage_iff hnames hmax hurl hbody hfresh hlimit htotal hreads hlinks hcompiled

/-! ## Two books -/

/-- A body that asks for the first page, with one book on each. -/
def firstPageBody : List UInt8 :=
  Text.Utf8.encode "\x7b\"pagination\":\x7b\"page\":1,\"limit\":1\x7d\x7d".toList

/-- What that body says. -/
def firstPagePayload : Payload := { pagination := some ⟨some 1, some 1⟩ }

theorem payloadOf_firstPageBody : payloadOf firstPageBody = .ok firstPagePayload := by decide +kernel

theorem readsPages_shelf (name suffix url : String) :
    (shelf name suffix url).ReadsPages (fun _ => shelfAnswers 2) {} (some 1) 2 := by
  intro number hnumber hlast
  have hpages : ∀ (g : Registry) (m : Model) (q : Query) (c : Sql.Condition) (order : List Sql.SortItem) (_ : Nat),
      Rows.Pages (shelfAnswers 2) g m q c order (books 2) := fun g m q c order _ => pages_shelfAnswers 2 g m q c order
  obtain ⟨records, hpage, -⟩ := resultOf_page (s := shelf name suffix url) (q := {}) rfl rfl nofun (by decide)
    (hpages _ _ _ _ _) hnumber hlast
  exact ⟨records, hpage⟩

/-- With an empty body one comes from the first book to the second, and not with a body that asks for the first page. -/
theorem leads_onward_to_second_book :
    let s := shelf "Book" "List" "/book"
    payloadOf [] = .ok {} ∧
    s.ReachesLastPage (fun _ => shelfAnswers 2) [] [] {} [("_limit", "1")] {} (some 1) 2 ∧
    ¬s.ReachesLastPage (fun _ => shelfAnswers 2) [] firstPageBody firstPagePayload [] {} (some 1) 2 := by
  intro s
  have hempty : payloadOf [] = .ok {} := rfl
  have hreads : s.ReadsPages (fun _ => shelfAnswers 2) {} (some 1) 2 := readsPages_shelf "Book" "List" "/book"
  have hurl : '?' ∉ s.model.url.toList ∧ '#' ∉ s.model.url.toList := by decide +kernel
  refine ⟨hempty, ?_, ?_⟩
  · have hwalks := (leads_onward_iff (s := s) rfl (by decide) hurl hempty).2
    refine (hwalks (fun _ => shelfAnswers 2) [] [("_limit", "1")] {} (some 1) 2 rfl ?_ (by decide) (by decide)
      (by decide +kernel) hreads).mpr (.inl rfl)
    unfold Arguments.AsksForLinks
    decide +kernel
  · have hwalks := (leads_onward_iff (s := s) rfl (by decide) hurl payloadOf_firstPageBody).2
    refine (hwalks (fun _ => shelfAnswers 2) [] [] {} (some 1) 2 rfl nofun (by decide) (by decide)
      (by decide +kernel) hreads).not.mpr ?_
    decide

/-- The address of the second book leads back to the first one: with a body that asks for the first page, and with an
empty body behind a path that holds a question mark. -/
theorem fetch_stays :
    let s := shelf "Book" "List" "/book"
    let t := shelf "Book" "List" "/a?b"
    (Registry.build [s.model] [] {} = .ok s.registry ∧ payloadOf firstPageBody = .ok firstPagePayload ∧
      s.compilePayload firstPagePayload [] = .ok ({}, ⟨1, some 1, []⟩) ∧
      (resultOf (shelfAnswers 2) (s.fetch [] [] firstPageBody).run).toOption.bind Reply.next? =
        some (.str "/book?_page=2&_limit=1") ∧
      s.compilePayload firstPagePayload (Link.argumentsOf "/book?_page=2&_limit=1") = .ok ({}, ⟨1, some 1, []⟩) ∧
      (resultOf (shelfAnswers 2) (s.fetch (Link.argumentsOf "/book?_page=2&_limit=1") [] firstPageBody).run).map
        (·.body) = (resultOf (shelfAnswers 2) (s.fetch [] [] firstPageBody).run).map (·.body)) ∧
    Registry.build [t.model] [] {} = .ok t.registry ∧
      t.compilePayload {} [("_limit", "1")] = .ok ({}, ⟨1, some 1, []⟩) ∧
      (resultOf (shelfAnswers 2) (t.fetch [("_limit", "1")] [] []).run).toOption.bind Reply.next? =
        some (.str "/a?b?_page=2&_limit=1") ∧
      t.compilePayload {} (Link.argumentsOf "/a?b?_page=2&_limit=1") = .ok ({}, ⟨1, some 1, []⟩) := by
  refine ⟨⟨?_, ?_, ?_, ?_, ?_, ?_⟩, ?_, ?_, ?_, ?_⟩ <;> decide +kernel

end Service

end RestTables
