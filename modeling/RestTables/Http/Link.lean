import RestTables.Json.Basic
import RestTables.Query.Page
import RestTables.Text.Form

/-
Module: RestTables.Http.Link
Purpose: Links to other pages of a result and to other resources, as members of a body and as a header.
Main exports: Link.header, Link.ofResource, Link.navigation, Link.ofNavigation
-/

namespace RestTables.Link

/-- Addresses, each with what it is to this resource. -/
def header (links : List (String × String)) : String :=
  Text.join ", " (links.map fun (url, rel) => "<" ++ url ++ ">; rel=" ++ rel)

/-- The links of a row: itself first, then what it is related to. -/
def ofResource (links : Json.Object) : String :=
  let own := ((links.get? "self").bind Json.text?).toList.map (·, "self")
  let related := ((links.filter fun m => m.1 != "self").filterMap fun m => m.2.text?).map (·, "related")
  header (own ++ related)

/-- The arguments that ask for a page: all others unchanged, then the page and the limit. -/
def pageArguments (args : Arguments) (names : ArgumentNames) (limit : Option Nat) (page : Nat) : Arguments :=
  args.filter (fun (k, _) => !names.isPagination k) ++ [(names.page, toString page)] ++
    (limit.map fun n => (names.limit, toString n)).toList

/-- The address of a page. -/
def pageUrl (path : String) (args : Arguments) (names : ArgumentNames) (limit : Option Nat) (page : Nat) :
    Json :=
  .str (path ++ "?" ++ Text.Form.encodePairs (pageArguments args names limit page))

/-- The addresses of the first and last page and of the pages next to this one, null where there is none. -/
def navigation (path : String) (args : Arguments) (names : ArgumentNames) (page : Page) (limit : Option Nat) :
    Json.Object :=
  let url := pageUrl path args names limit
  [("first", url 1),
   ("last", url (max page.count 1)),
   ("next", if page.hasNext then url (page.number + 1) else .null),
   ("prev", if page.hasPrevious then url (page.number - 1) else .null)]

/-- The addresses of pages as a header. -/
def ofNavigation (meta_ : Json.Object) : String :=
  header (["first", "prev", "next", "last"].filterMap fun rel =>
    ((meta_.get? rel).bind Json.text?).map (·, rel))

end RestTables.Link
