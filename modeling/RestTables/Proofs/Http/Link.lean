import Mathlib.Data.List.TakeWhile
import RestTables.Http.Link
import RestTables.Http.Reply
import RestTables.Proofs.Json.Members
import RestTables.Proofs.Text.Form

/-
Module: RestTables.Proofs.Http.Link
Purpose: What a client reads from a reply: the rows that are listed, and the address of the next page. The arguments
  for which an address was made are read back from it, where the path in front holds neither a question mark nor a
  hash.
Main exports: Link.argumentsOf, Link.exists_pageUrl, Reply.listed, Reply.next?
-/

namespace RestTables

/-! ## Addresses -/

namespace Link

/-- The query of an address: what stands behind the first question mark, up to a hash. -/
def queryOf (url : String) : String :=
  match Text.cut? '?' (url.toList.takeWhile (· != '#')) with
  | some (_, query) => String.ofList query
  | none => ""

/-- The arguments in an address. -/
def argumentsOf (url : String) : Arguments := Text.Form.parse (queryOf url)

theorem queryOf_append {path query : String} (hpath : '?' ∉ path.toList ∧ '#' ∉ path.toList)
    (hquery : '#' ∉ query.toList) : queryOf (path ++ "?" ++ query) = query := by
  have htext : (path ++ "?" ++ query).toList = path.toList ++ '?' :: query.toList := by
    simp only [String.toList_append, List.append_assoc]
    rfl
  have hhash : ∀ c ∈ path.toList ++ '?' :: query.toList, (c != '#') = true := by
    intro c hc
    rw [bne_iff_ne]
    rintro rfl
    rcases List.mem_append.mp hc with hc | hc
    · exact hpath.2 hc
    · rcases List.mem_cons.mp hc with hc | hc
      · cases hc
      · exact hquery hc
  have hcut : Text.cut? '?' (path.toList ++ '?' :: query.toList) = some (path.toList, query.toList) :=
    Text.cut?_eq_some_iff.mpr ⟨rfl, hpath.1⟩
  simp only [queryOf, htext, List.takeWhile_eq_self_iff.mpr hhash, hcut, String.ofList_toList]

/-- The arguments for which an address was made are read back. -/
theorem argumentsOf_address {path : String} (hpath : '?' ∉ path.toList ∧ '#' ∉ path.toList) (args : Arguments) :
    argumentsOf (path ++ "?" ++ Text.Form.encodePairs args) = args := by
  rw [argumentsOf, queryOf_append hpath (Text.Form.not_mem_encodePairs (.inr rfl) args),
    Text.Form.parse_encodePairs]

theorem exists_pageUrl {path : String} (hpath : '?' ∉ path.toList ∧ '#' ∉ path.toList) (args : Arguments)
    (names : ArgumentNames) (limit : Option Nat) (page : Nat) :
    ∃ url, pageUrl path args names limit page = .str url ∧
      argumentsOf url = pageArguments args names limit page :=
  ⟨_, rfl, argumentsOf_address hpath _⟩

end Link

/-! ## Lists -/

namespace Reply

@[simp] theorem status_header (r : Reply) (name value : String) : (r.header name value).status = r.status := rfl

@[simp] theorem body_header (r : Reply) (name value : String) : (r.header name value).body = r.body := rfl

/-- A member of the object that a reply holds. -/
def member? (r : Reply) (key : String) : Option Json :=
  match r.body with
  | .json (.obj o) => Json.Object.get? o key
  | _ => none

/-- The rows that a reply lists under a name. -/
def listed (r : Reply) (key : String) : List Json := ((r.member? key).bind Json.items?).getD []

/-- What a reply says of the next page: its address, or null when there is none. -/
def next? (r : Reply) : Option Json :=
  match r.member? "_meta" with
  | some (.obj navigation) => Json.Object.get? navigation "next"
  | _ => none

end Reply

end RestTables
