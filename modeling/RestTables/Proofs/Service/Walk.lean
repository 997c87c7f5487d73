import RestTables.Proofs.Registry.Relations
import RestTables.Proofs.Service.List
import RestTables.Proofs.Service.Statements

/-
Module: RestTables.Proofs.Service.Walk
Purpose: A client that follows the addresses of next pages from the first page on. It sees every row of the result
  once and in order, and comes to an end at the last page.
Main exports: Service.Walk, Service.Walk.unique, Service.WalksThrough, Service.walksThrough_of_build,
  Service.walk_goes_astray
-/

namespace RestTables

open Dialogue

/-- A request for a page, and the reply to it. -/
structure Visit where
  args : Arguments
  reply : Reply

namespace Service

/-- The requests of a client that follows the addresses of next pages until there is none, counted from some number
on. Each request has its own answers from the database. -/
inductive Walk (s : Service) (answers : Nat → Answers) (headers : Headers) : Nat → Arguments → List Visit → Prop where
  | last {n : Nat} {args : Arguments} {reply : Reply}
    (replied : resultOf (answers n) (s.list args headers).run = .ok reply) (next_eq : reply.next? = some .null) :
    Walk s answers headers n args [⟨args, reply⟩]
  | onward {n : Nat} {args : Arguments} {reply : Reply} {url : String} {visits : List Visit}
    (replied : resultOf (answers n) (s.list args headers).run = .ok reply) (next_eq : reply.next? = some (.str url))
    (rest : Walk s answers headers (n + 1) (Link.argumentsOf url) visits) :
    Walk s answers headers n args (⟨args, reply⟩ :: visits)

/-- There is one way to go. -/
theorem Walk.unique {s : Service} {answers : Nat → Answers} {headers : Headers} {n : Nat} {args : Arguments}
    {visits visits' : List Visit} (h : s.Walk answers headers n args visits)
    (h' : s.Walk answers headers n args visits') : visits = visits' := by
  -- The reply decides where to go on, and whether.
  induction h generalizing visits' with
  | last hreply hnext =>
    cases h' with
    | last hreply' hnext' =>
      rw [hreply] at hreply'
      cases hreply'
      rfl
    | onward hreply' hnext' _ =>
      rw [hreply] at hreply'
      cases hreply'
      rw [hnext] at hnext'
      cases hnext'
  | onward hreply hnext _ ih =>
    cases h' with
    | last hreply' hnext' =>
      rw [hreply] at hreply'
      cases hreply'
      rw [hnext] at hnext'
      cases hnext'
    | onward hreply' hnext' hrest' =>
      rw [hreply] at hreply'
      cases hreply'
      rw [hnext] at hnext'
      cases hnext'
      rw [ih hrest']

/-- A visit is one to the page of a number: its arguments compile to the query and to that page, the status tells
whether more pages follow, and the page lies where the pages before it end. -/
structure IsVisitTo (s : Service) (answers : Answers) (q : Query) (limit : Option Nat) (total number : Nat)
    (v : Visit) : Prop where
  compiled : s.compileQuery s.model v.args = .ok (q, ⟨number, limit, []⟩)
  status : v.reply.status = if number < Page.countOf limit total then 206 else 200
  offset : ∃ result, resultOf answers (s.page s.model q ⟨number, limit, []⟩).run = .ok result ∧
    result.page.offset = (number - 1) * result.page.size

/-- The one walk from some arguments on ends at the last page, each of its visits is to the page that comes next,
and what is listed on the way are the rows, each once and in order. -/
def WalksThrough (s : Service) (answers : Nat → Answers) (headers : Headers) (args : Arguments) (q : Query)
    (limit : Option Nat) (rows : List Cells) : Prop :=
  ∃ (visits : List Visit) (records : List Record),
    s.Walk answers headers 1 args visits ∧
    (∀ visits', s.Walk answers headers 1 args visits' → visits' = visits) ∧
    visits.length = Page.countOf limit rows.length ∧
    (∀ i (hi : i < visits.length), s.IsVisitTo (answers (i + 1)) q limit rows.length (i + 1) visits[i]) ∧
    (visits.flatMap fun v => v.reply.listed s.model.collectionKey) =
      records.map (fun r => Json.obj (s.registry.render s.model r (!q.related.isEmpty) true)) ∧
    records.map (·.toRow) = rows.map (Rows.shownRow s.model q)

section Pages

variable {s : Service} {answers : Nat → Answers} {headers : Headers} {q : Query} {limit : Option Nat}
  {c : Sql.Condition} {order : List Sql.SortItem} {rows : List Cells}
  (hnames : s.names = {}) (hmax : ∀ n ∈ s.config.maxLimit, n < twoTo 64)
  (hurl : '?' ∉ s.model.url.toList ∧ '#' ∉ s.model.url.toList) (hkey : s.model.collectionKey ≠ "_meta")
  (hfresh : headers.text? "if-none-match" = none) (hlimit : limit ≠ some 0)
  (hc : q.condition s.registry s.model s.config.join {} = .ok c)
  (horder : Query.order s.registry s.model q.orders = .ok order)
  (hloads : ∀ load ∈ q.related, ∃ found : Relation × Model,
    s.registry.relationTarget s.model load.relation = .ok found)
  (hrows : rows.length < twoTo 63)
  (hpages : ∀ n, Rows.Pages (answers n) s.registry s.model q c order rows)

include hc horder hloads hrows hpages in
/-- What the database answers for a page that is there. -/
theorem resultOf_page {number : Nat} (hnumber : 1 ≤ number) (hlast : number ≤ Page.countOf limit rows.length) :
    ∃ records, resultOf (answers number) (s.page s.model q ⟨number, limit, []⟩).run =
        .ok ⟨records, Page.of number limit rows.length⟩ ∧
      records.map (·.toRow) = (Page.rowsOf limit rows number).map (Rows.shownRow s.model q) := by
  obtain ⟨records, hrecords, htoRow⟩ := Rows.resultOf_selectPage (s.plan q ⟨number, limit, []⟩) hc horder
    (hpages number) hloads hrows hnumber hlast
  exact ⟨records, Handler.resultOf_ofSession hrecords, htoRow⟩

include hnames hkey hfresh hlimit hc horder hloads hrows hpages

/-- One request, for a page that is there. -/
theorem exists_reply {number : Nat} (hnumber : 1 ≤ number) (hlast : number ≤ Page.countOf limit rows.length)
    {args : Arguments} (hplain : args.IsPlain)
    (hcompiled : s.compileQuery s.model args = .ok (q, ⟨number, limit, []⟩)) :
    ∃ (reply : Reply) (records : List Record),
      resultOf (answers number) (s.list args headers).run = .ok reply ∧
      s.IsVisitTo (answers number) q limit rows.length number ⟨args, reply⟩ ∧
      reply.listed s.model.collectionKey =
        records.map (fun r => Json.obj (s.registry.render s.model r (!q.related.isEmpty) true)) ∧
      records.map (·.toRow) = (Page.rowsOf limit rows number).map (Rows.shownRow s.model q) ∧
      reply.next? = some (if number < Page.countOf limit rows.length then
        Link.pageUrl s.model.url args {} limit (number + 1) else .null) := by
  obtain ⟨records, hpage, htoRow⟩ := resultOf_page hc horder hloads hrows hpages hnumber hlast
  have hstatus := Page.status_of hlimit hnumber hlast
  have hthere : (Page.of number limit rows.length).status ≠ .beyond := by
    rw [hstatus]
    split <;> exact nofun
  obtain ⟨reply, hreply, hshows⟩ := resultOf_list hnames hkey hcompiled hplain hfresh hpage hthere
  have hself : (Page.of number limit rows.length).number = number := Nat.max_eq_left hnumber
  refine ⟨reply, records, hreply, ⟨hcompiled, ?_, _, hpage, Page.offset_of hrows hnumber hlast⟩, hshows.listed,
    htoRow, ?_⟩
  · rw [hshows.status, hstatus]
    split <;> rfl
  · rw [hshows.next, Page.hasNext_of hlimit hnumber, hself, hnames]
    simp only [decide_eq_true_eq]

include hmax hurl

/-- From a page on, the walk sees the rows of that page and of all that follow. The induction is on the number of
pages that follow. -/
theorem exists_walk {left number : Nat} (hleft : number + left = Page.countOf limit rows.length)
    (hnumber : 1 ≤ number) {args : Arguments} (hplain : args.IsPlain)
    (hcompiled : s.compileQuery s.model args = .ok (q, ⟨number, limit, []⟩)) :
    ∃ (visits : List Visit) (records : List Record),
      s.Walk answers headers number args visits ∧
      visits.length = left + 1 ∧
      (∀ i (hi : i < visits.length),
        s.IsVisitTo (answers (number + i)) q limit rows.length (number + i) visits[i]) ∧
      (visits.flatMap fun v => v.reply.listed s.model.collectionKey) =
        records.map (fun r => Json.obj (s.registry.render s.model r (!q.related.isEmpty) true)) ∧
      records.map (·.toRow) = (Page.rowsFrom limit rows number).map (Rows.shownRow s.model q) := by
  induction left generalizing number args with
  | zero =>
    obtain ⟨reply, records, hreply, hvisit, hlisted, htoRow, hnext⟩ := exists_reply hnames hkey hfresh hlimit hc horder
      hloads hrows hpages hnumber (Nat.le_of_eq hleft) hplain hcompiled
    have hlast : number = Page.countOf limit rows.length := hleft
    rw [if_neg (by omega)] at hnext
    refine ⟨[⟨args, reply⟩], records, .last hreply hnext, rfl, ?_, ?_, ?_⟩
    · intro i hi
      obtain rfl : i = 0 := by simpa using hi
      exact hvisit
    · rw [List.flatMap_singleton, hlisted]
    · rw [htoRow, hlast, Page.rowsOf_last hlimit]
  | succ left ih =>
    have hmore : number < Page.countOf limit rows.length := by omega
    obtain ⟨reply, records, hreply, hvisit, hlisted, htoRow, hnext⟩ := exists_reply hnames hkey hfresh hlimit hc horder
      hloads hrows hpages hnumber (Nat.le_of_lt hmore) hplain hcompiled
    rw [if_pos hmore] at hnext
    have hfits : number + 1 < twoTo 64 := Page.succ_lt_of_lt_countOf hrows hmore
    -- the next address is read as arguments that compile to the next page, so that the walk goes on from there
    obtain ⟨url, hnextUrl, hargs⟩ := Link.exists_pageUrl hurl args {} limit (number + 1)
    have hcompiled' := compileQuery_pageArguments hnames hmax hcompiled hlimit (Nat.succ_pos number) hfits
    have hplain' := hplain.pageArguments limit (number + 1)
    rw [hnextUrl] at hnext
    rw [← hargs] at hcompiled' hplain'
    obtain ⟨visits, found, hwalk, hlength, hvisits, hall, hfound⟩ := ih (by omega) (Nat.succ_pos number) hplain'
      hcompiled'
    refine ⟨⟨args, reply⟩ :: visits, records ++ found, .onward hreply hnext hwalk, ?_, ?_, ?_, ?_⟩
    · rw [List.length_cons, hlength]
    · intro i hi
      cases i with
      | zero => exact hvisit
      | succ i =>
        have hi : i < visits.length := Nat.lt_of_succ_lt_succ hi
        have hshift : number + (i + 1) = number + 1 + i := by omega
        rw [hshift]
        exact hvisits i hi
    · rw [List.flatMap_cons, hall, hlisted, List.map_append]
    · rw [List.map_append, htoRow, hfound, ← List.map_append, Page.rowsOf_append hnumber hmore]

end Pages

/-- Following the addresses of next pages from the first page on shows every row of the result once and in order, for
every model whose path can stand in front of a query and whose rows are not listed under the name of the addresses.
The database may answer as it likes, so long as it counts the rows that meet the condition, cuts pages out of one
order of them, and answers what is read along. -/
theorem walksThrough_of_build {declared : List Model} {tables : List Table} {config : Config} {g : Registry}
    (h : Registry.build declared tables config = .ok g) {m : Model} (hm : m ∈ g.models)
    (hurl : '?' ∉ m.url.toList ∧ '#' ∉ m.url.toList) (hkey : m.collectionKey ≠ "_meta") (settings : Config)
    (hmax : ∀ n ∈ settings.maxLimit, n < twoTo 64) (b : Backend) {args : Arguments} {q : Query}
    {request : PageRequest} (hcompiled : (⟨g, settings, b, m, {}⟩ : Service).compileQuery m args = .ok (q, request))
    (hfirst : request.page = 1) (hlimit : request.limit ≠ some 0) (hplain : args.IsPlain) {headers : Headers}
    (hfresh : headers.text? "if-none-match" = none) :
    ∃ c order, q.condition g m settings.join {} = .ok c ∧ Query.order g m q.orders = .ok order ∧
      ∀ (answers : Nat → Answers) (rows : List Cells), rows.length < twoTo 63 →
        (∀ n, Rows.Pages (answers n) g m q c order rows) →
        WalksThrough ⟨g, settings, b, m, {}⟩ answers headers args q request.limit rows := by
  have htargets := Registry.targets_of_build h hm
  have hfits : ({ registry := g, model := m } : Compiler).Fits q :=
    Compiler.fits_of_produces (compileQuery_produces hcompiled)
  obtain ⟨c, hc⟩ := Query.exists_condition htargets hfits settings.join {}
  obtain ⟨order, horder⟩ := Query.exists_order htargets hfits
  refine ⟨c, order, hc, horder, fun answers rows hrows hpages => ?_⟩
  have hloads : ∀ load ∈ q.related, ∃ found : Relation × Model, g.relationTarget m load.relation = .ok found :=
    fun load hload => Registry.exists_relationTarget_of_name htargets (hfits.related load hload)
  have hrequest : request = ⟨1, request.limit, []⟩ := by
    obtain ⟨-, hinvalid, -⟩ := compileQuery_eq_ok_iff.mp hcompiled
    obtain ⟨page, limit, invalid⟩ := request
    cases hfirst
    cases hinvalid
    rfl
  have hcount := Page.countOf_pos request.limit rows.length
  -- From the first page on, all pages but this one are left to follow.
  have hleft : 1 + (Page.countOf request.limit rows.length - 1) = Page.countOf request.limit rows.length :=
    Nat.add_sub_cancel' hcount
  rw [hrequest] at hcompiled
  obtain ⟨visits, records, hwalk, hlength, hvisits, hall, htoRow⟩ := exists_walk rfl hmax hurl hkey hfresh hlimit
    hc horder hloads hrows hpages hleft (Nat.le_refl 1) hplain hcompiled
  refine ⟨visits, records, hwalk, fun visits' hwalk' => hwalk'.unique hwalk, ?_, ?_, hall, ?_⟩
  · rw [hlength, Nat.sub_add_cancel hcount]
  · intro i hi
    rw [Nat.add_comm i 1]
    exact hvisits i hi
  · rw [htoRow, Page.rowsFrom_one]

/-! ## Shelves -/

/-- A table of books as a resource of some name and path. -/
def shelf (name suffix url : String) : Service :=
  let key := (Field.new "id" .integer).primaryKey
  let model : Model :=
    { name, table := "book", url, description := none, collectionSuffix := suffix, columns := [key], keyField := key
      relations := [], methods := Verb.all }
  { registry := ⟨[model]⟩, config := {}, backend := .sqlite, model }

/-- A number of books. -/
def books (n : Nat) : List Cells := (List.range n).map fun i => [("id", .bigInt (some (Int64.ofNat i)))]

/-- The answers of a database that holds a number of books. -/
def shelfAnswers (n : Nat) : Answers
  | .count .. => .ok [[(Sql.countColumn, .bigInt (some (Int64.ofNat n)))]]
  | .select s => .ok (Rows.cut s.limit s.offset (books n))
  | _ => .ok []

theorem pages_shelfAnswers (n : Nat) (g : Registry) (m : Model) (q : Query) (c : Sql.Condition)
    (order : List Sql.SortItem) : Rows.Pages (shelfAnswers n) g m q c order (books n) where
  count := by rw [shelfAnswers, books, List.length_map, List.length_range]
  select _ _ := rfl
  related _ _ _ _ _ _ := ⟨_, rfl⟩

/-- Three books are seen on two pages. -/
theorem walksThrough_of_three_books :
    let s := shelf "Book" "List" "/book"
    Registry.build [s.model] [] {} = .ok s.registry ∧
    s.compileQuery s.model [("_limit", "2")] = .ok ({}, ⟨1, some 2, []⟩) ∧
    ∃ visits, s.Walk (fun _ => shelfAnswers 3) [] 1 [("_limit", "2")] visits ∧ visits.length = 2 ∧
      (visits.flatMap fun v => v.reply.listed s.model.collectionKey).length = 3 := by
  have hbuild : Registry.build [(shelf "Book" "List" "/book").model] [] {} =
      .ok (shelf "Book" "List" "/book").registry := by decide +kernel
  have hcompiled : (shelf "Book" "List" "/book").compileQuery (shelf "Book" "List" "/book").model
      [("_limit", "2")] = .ok ({}, ⟨1, some 2, []⟩) := by decide +kernel
  refine ⟨hbuild, hcompiled, ?_⟩
  obtain ⟨c, order, -, -, hwalks⟩ := walksThrough_of_build hbuild List.mem_cons_self
    (by decide +kernel) (by decide +kernel) {} (by decide) .sqlite hcompiled rfl (by decide)
    (by unfold Arguments.IsPlain; decide +kernel) (show Headers.text? [] "if-none-match" = none from rfl)
  obtain ⟨visits, records, hwalk, -, hlength, -, hall, htoRow⟩ := hwalks (fun _ => shelfAnswers 3) (books 3)
    (by decide) fun _ => pages_shelfAnswers 3 _ _ _ c order
  have hrecords : records.length = 3 := by simpa [books] using congrArg List.length htoRow
  refine ⟨visits, hwalk, hlength, ?_⟩
  exact (congrArg List.length hall).trans ((List.length_map _).trans hrecords)

/-! ## Walks that go astray -/

section Astray

variable {s : Service} {answers : Nat → Answers} {headers : Headers} {n : Nat} {args : Arguments} {q : Query}
  {limit : Option Nat} {rows : List Cells}

theorem Walk.exists_cons {visits : List Visit} (h : s.Walk answers headers n args visits) :
    ∃ reply rest, visits = ⟨args, reply⟩ :: rest := by
  cases h with
  | last => exact ⟨_, _, rfl⟩
  | onward => exact ⟨_, _, rfl⟩

/-- A reply without a list of addresses ends no walk and leads nowhere. -/
theorem not_walksThrough_of_next?_eq_none
    (h : (resultOf (answers 1) (s.list args headers).run).toOption.bind Reply.next? = none) :
    ¬s.WalksThrough answers headers args q limit rows := by
  rintro ⟨visits, records, hwalk, -⟩
  cases hwalk with
  | last hreply hnext | onward hreply hnext _ =>
    rw [hreply] at h
    exact absurd (h.symm.trans hnext) nofun

/-- An address that is not read as that of the second page leads off the way. -/
theorem not_walksThrough_of_next (url : String)
    (hnext : (resultOf (answers 1) (s.list args headers).run).toOption.bind Reply.next? = some (.str url))
    (hsecond : s.compileQuery s.model (Link.argumentsOf url) ≠ .ok (q, ⟨2, limit, []⟩)) :
    ¬s.WalksThrough answers headers args q limit rows := by
  rintro ⟨visits, records, hwalk, -, -, hvisits, -⟩
  cases hwalk with
  | last hreply hlast =>
    rw [hreply] at hnext
    exact absurd (hlast.symm.trans hnext) nofun
  | onward hreply honward hrest =>
    rw [hreply] at hnext
    cases honward.symm.trans hnext
    obtain ⟨reply, rest, rfl⟩ := hrest.exists_cons
    exact hsecond (hvisits 1 (by simp)).compiled

theorem Reply.listed_meta_eq_nil {r : Reply} {next : Json} (h : r.next? = some next) : r.listed "_meta" = [] := by
  unfold Reply.next? at h
  split at h
  · next navigation hmember =>
    rw [Reply.listed, hmember]
    rfl
  · cases h

/-- Under the name of the addresses no rows are listed. -/
theorem not_walksThrough_of_collectionKey (hkey : s.model.collectionKey = "_meta") (hrows : rows ≠ []) :
    ¬s.WalksThrough answers headers args q limit rows := by
  rintro ⟨visits, records, hwalk, -, -, -, hall, htoRow⟩
  have hlisted : ∀ {n args visits}, s.Walk answers headers n args visits →
      (visits.flatMap fun v => v.reply.listed s.model.collectionKey) = [] := by
    intro n args visits h
    rw [hkey]
    induction h with
    | last _ hnext => rw [List.flatMap_singleton, Reply.listed_meta_eq_nil hnext]
    | onward _ hnext _ ih => rw [List.flatMap_cons, Reply.listed_meta_eq_nil hnext, ih, List.append_nil]
  rw [hlisted hwalk, eq_comm, List.map_eq_nil_iff] at hall
  rw [hall, List.map_nil, eq_comm, List.map_eq_nil_iff] at htoRow
  exact hrows htoRow

/-- A shelf of two books can be read page by page, and still no walk goes through both books. -/
def GoesAstray (s : Service) (headers : Headers) : Prop :=
  Registry.build [s.model] [] {} = .ok s.registry ∧ s.model ∈ s.registry.models ∧
  s.compileQuery s.model [("_limit", "1")] = .ok ({}, ⟨1, some 1, []⟩) ∧
  (∃ c order, ({} : Query).condition s.registry s.model s.config.join {} = .ok c ∧
    Query.order s.registry s.model [] = .ok order ∧
    Rows.Pages (shelfAnswers 2) s.registry s.model {} c order (books 2)) ∧
  ¬s.WalksThrough (fun _ => shelfAnswers 2) headers [("_limit", "1")] {} (some 1) (books 2)

theorem goesAstray_of_not_walksThrough {name suffix url : String}
    (hbuild : Registry.build [(shelf name suffix url).model] [] {} = .ok (shelf name suffix url).registry)
    (hcompiled : (shelf name suffix url).compileQuery (shelf name suffix url).model [("_limit", "1")] =
      .ok ({}, ⟨1, some 1, []⟩))
    (h : ¬(shelf name suffix url).WalksThrough (fun _ => shelfAnswers 2) headers [("_limit", "1")] {} (some 1)
      (books 2)) : (shelf name suffix url).GoesAstray headers :=
  ⟨hbuild, List.mem_cons_self, hcompiled, ⟨_, _, rfl, rfl, pages_shelfAnswers ..⟩, h⟩

end Astray

/-- Each restriction is needed. Behind a path with a question mark or a hash the arguments of the next page are not
read back, addresses take the place of rows that are listed under their name, and a client that is content with any
reply from before is sent no body. -/
theorem walk_goes_astray :
    (shelf "Book" "List" "/a?b").GoesAstray [] ∧
    (shelf "Book" "List" "/a#b").GoesAstray [] ∧
    (shelf "_" "meta" "/book").GoesAstray [] ∧
    (shelf "Book" "List" "/book").GoesAstray [("if-none-match", "*")] := by
  refine ⟨?_, ?_, ?_, ?_⟩
  · apply goesAstray_of_not_walksThrough (by decide +kernel) (by decide +kernel)
    exact not_walksThrough_of_next "/a?b?_page=2&_limit=1" (by decide +kernel) (by decide +kernel)
  · apply goesAstray_of_not_walksThrough (by decide +kernel) (by decide +kernel)
    exact not_walksThrough_of_next "/a#b?_page=2&_limit=1" (by decide +kernel) (by decide +kernel)
  · apply goesAstray_of_not_walksThrough (by decide +kernel) (by decide +kernel)
    exact not_walksThrough_of_collectionKey (by decide +kernel) (by decide)
  · apply goesAstray_of_not_walksThrough (by decide +kernel) (by decide +kernel)
    exact not_walksThrough_of_next?_eq_none (by decide +kernel)

end Service

end RestTables
