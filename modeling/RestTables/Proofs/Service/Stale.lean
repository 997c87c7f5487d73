import RestTables.Proofs.Rows.Alike
import RestTables.Proofs.Rows.Condition
import RestTables.Proofs.Service.Tags

/-
Module: RestTables.Proofs.Service.Stale
Purpose: Tags tell rows apart that do not show alike. So a request that names the tag of a row as it was is refused when
  the row has changed in what is shown of it; what is not shown of a decimal may change behind the back of its tag.
Main exports: ItemRequest.NamesOnly, ItemRequest.RefusesRow, Service.tag_tells_rows_apart
-/

namespace RestTables

open Sql Dialogue

namespace ItemRequest

/-- The precondition of the request names no tag but one, weakly or not. -/
def NamesOnly (q : ItemRequest) (tag : String) : Prop :=
  ∃ value, q.headers.get? "if-match" = some value ∧
    ∀ entry ∈ EntityTag.entries value, ∃ weak, entry = .tag weak (EntityTag.opaqueOf tag.toList)

/-- When that row is found, the precondition fails, the request is refused, and nothing is written. -/
def RefusesRow (s : Service) (q : ItemRequest) (r : Record) : Prop :=
  s.checkPrecondition q.headers r = .error .preconditionFailed ∧
    ∀ key cells more rest a, Rows.ofCells s.model.columns cells = r →
      Says (q.handler s).run
        (.mark .begin :: .query (Rows.keyStatement s.model key) (.ok (cells :: more)) :: rest) a →
      a = .error .preconditionFailed ∧ rest = [.mark .rollback]

variable {s : Service} {q : ItemRequest} {r r' : Record}

/-- A request that names the tag of one row only refuses any other whose body has a different hash. -/
theorem refusesRow_of_namesOnly (enabled : s.config.conditionalRequestEnabled = true) (h : q.NamesOnly (s.currentTag r))
    (hhash : Sha256.hash (s.canonical r).bytes ≠ Sha256.hash (s.canonical r').bytes) : q.RefusesRow s r' := by
  obtain ⟨value, hvalue, hentries⟩ := h
  have hnot : EntityTag.matchesStrong value (s.currentTag r') = false := by
    rw [Bool.eq_false_iff, Ne, EntityTag.matchesStrong_iff]
    rintro (hany | htag)
    · obtain ⟨weak, heq⟩ := hentries _ hany
      cases heq
    · obtain ⟨weak, heq⟩ := hentries _ htag
      exact hhash (EntityTag.hash_eq_of_opaqueOf_eq (EntityTag.Entry.tag.inj heq).2.symm)
  refine ⟨Service.checkPrecondition_of_not_matches enabled hvalue hnot, ?_⟩
  rintro key cells more rest a rfl hs
  obtain ⟨ha, -, hrest⟩ := (refusesOtherwise enabled key cells more rest a hs).2 value hvalue hnot
  exact ⟨ha, hrest⟩

end ItemRequest

/-- The number that a decimal is. -/
def Decimal.value (d : Decimal) : ℚ := (if d.negative then -1 else 1) * d.coefficient / 10 ^ d.scale

namespace Service

theorem isPrintable_canonical {s : Service} {r : Record} (h : Rows.HasPrintableDocuments r) :
    (s.canonical r).IsPrintable := by
  rw [canonical, Json.isPrintable_obj]
  exact Rows.hasPrintableMembers_render h

/-- Two rows of a model, with a value of the right type in every column, have the same canonical form exactly when all
their columns show alike. If they do not, the bytes that the tags are made of differ; and unless the hash collides on
them the tags differ too, and a request that names the tag of the one row is refused for the other. -/
theorem tag_tells_rows_apart {declared : List Model} {tables : List Table} {config : Config} {s : Service}
    (hbuild : Registry.build declared tables config = .ok s.registry)
    (hdeclared : ∀ o ∈ declared, ∃ d : Model.Declaration, d.build = .ok o) (hm : s.model ∈ s.registry.models)
    {r r' : Record} (hr : Rows.IsFull s.model r) (hr' : Rows.IsFull s.model r') :
    (s.canonical r = s.canonical r' ↔ Rows.ShownAlike s.model r r') ∧
    (¬ Rows.ShownAlike s.model r r' → Rows.HasPrintableDocuments r → Rows.HasPrintableDocuments r' →
      (s.canonical r).bytes ≠ (s.canonical r').bytes ∧
      (Set.InjOn Sha256.hash {(s.canonical r).bytes, (s.canonical r').bytes} →
        s.currentTag r ≠ s.currentTag r' ∧
        (s.config.conditionalRequestEnabled = true →
          ∀ q : ItemRequest, q.NamesOnly (s.currentTag r) → q.RefusesRow s r'))) := by
  have hpublic := Registry.hasPublicColumns hbuild hdeclared hm
  have hbodies : s.canonical r = s.canonical r' ↔ Rows.ShownAlike s.model r r' := by
    rw [← Rows.render_eq_iff hpublic hr hr', canonical, canonical, Json.obj.injEq]
  refine ⟨hbodies, fun hdiffer hprintable hprintable' => ?_⟩
  have hbytes : (s.canonical r).bytes ≠ (s.canonical r').bytes := fun heq =>
    hdiffer (hbodies.mp (Json.bytes_inj (isPrintable_canonical hprintable) (isPrintable_canonical hprintable') heq))
  refine ⟨hbytes, fun hfree => ?_⟩
  have hhash : Sha256.hash (s.canonical r).bytes ≠ Sha256.hash (s.canonical r').bytes :=
    fun heq => hbytes (hfree (by simp) (by simp) heq)
  constructor
  · intro heq
    rw [currentTag, currentTag] at heq
    exact hhash (EntityTag.hash_eq_of_opaqueOf_eq (by rw [heq]))
  · exact fun enabled q hnames => ItemRequest.refusesRow_of_namesOnly enabled hnames hhash

/-! ### Accounts -/

/-- Accounts with exact balances. -/
def accountModel : Model :=
  { (default : Model) with
    name := "Account"
    table := "account"
    url := "/account"
    columns := [(Field.new "id" .integer).primaryKey, .new "balance" .decimal]
    keyField := (Field.new "id" .integer).primaryKey }

/-- The service of accounts, with conditional requests. -/
def accountService : Service :=
  { registry := ⟨[accountModel]⟩
    config := { conditionalRequestEnabled := true }
    backend := .sqlite
    model := accountModel }

/-- The account with a balance. -/
def account (balance : Decimal) : Record :=
  { values := [("id", .bigInt (some 1)), ("balance", .decimal (some balance))]
    projection := none
    related := [] }

theorem exists_declaration_of_accounts : ∀ o ∈ [accountModel], ∃ d : Model.Declaration, d.build = .ok o := by
  intro o ho
  obtain rfl := List.mem_singleton.mp ho
  exact ⟨accountModel.toDeclaration, rfl⟩

theorem build_accounts : Registry.build [accountModel] [] {} = .ok accountService.registry := rfl

theorem isFull_account (balance : Decimal) : Rows.IsFull accountModel (account balance) where
  names := rfl
  shown := rfl
  kinds {f v} hf hv := by
    simp only [accountModel, account, List.mem_cons, List.not_mem_nil, or_false, Prod.mk.injEq] at hf hv
    rcases hf with rfl | rfl <;> rcases hv with ⟨hname, rfl⟩ | ⟨hname, rfl⟩ <;>
      first | rfl | exact absurd hname (by decide)

theorem hasPrintableDocuments_account (balance : Decimal) : Rows.HasPrintableDocuments (account balance) := by
  intro name j h
  simp [account] at h

/-- A request to delete the account as it is. -/
def closing (balance : Decimal) : ItemRequest :=
  .delete "1" [("if-match", accountService.currentTag (account balance))]

theorem namesOnly_closing (balance : Decimal) :
    (closing balance).NamesOnly (accountService.currentTag (account balance)) := by
  refine ⟨_, rfl, ?_⟩
  unfold currentTag
  rw [EntityTag.entries_of]
  exact List.forall_mem_singleton.mpr ⟨false, rfl⟩

/-- Ten cents are told from twenty: a request that names the tag of the one balance is refused when the other is
there. -/
theorem tag_tells_rows_apart_of_cents :
    accountService.currentTag (account ⟨false, 10, 2⟩) ≠ accountService.currentTag (account ⟨false, 20, 2⟩) ∧
    (closing ⟨false, 10, 2⟩).RefusesRow accountService (account ⟨false, 20, 2⟩) := by
  have hdiffer : ¬ Rows.ShownAlike accountModel (account ⟨false, 10, 2⟩) (account ⟨false, 20, 2⟩) := by
    intro h
    have halike := h (.new "balance" .decimal) (by decide) _ _ (.tail _ (.head _)) (.tail _ (.head _))
    exact absurd ((@Value.toJson_eq_iff .decimal _ _ rfl rfl).mpr halike) (by decide +kernel)
  have hfree : Set.InjOn Sha256.hash {(accountService.canonical (account ⟨false, 10, 2⟩)).bytes,
      (accountService.canonical (account ⟨false, 20, 2⟩)).bytes} := by
    rw [Set.injOn_pair]
    intro heq
    exact absurd heq (by decide +kernel)
  obtain ⟨-, hseparates⟩ := tag_tells_rows_apart build_accounts exists_declaration_of_accounts List.mem_cons_self
    (isFull_account ⟨false, 10, 2⟩) (isFull_account ⟨false, 20, 2⟩)
  obtain ⟨htags, hrefuses⟩ := (hseparates hdiffer (hasPrintableDocuments_account _)
    (hasPrintableDocuments_account _)).2 hfree
  exact ⟨htags, hrefuses rfl _ (namesOnly_closing _)⟩

/-- Balances show alike for which the same double stands. -/
theorem shownAlike_account {a b : Decimal} (h : a.toBinary64 = b.toBinary64) :
    Rows.ShownAlike accountModel (account a) (account b) := by
  intro f hf v w hv hw
  simp only [accountModel, account, List.mem_cons, List.not_mem_nil, or_false, Prod.mk.injEq] at hf hv hw
  rcases hf with rfl | rfl <;> rcases hv with ⟨hname, rfl⟩ | ⟨hname, rfl⟩ <;>
    rcases hw with ⟨hname', rfl⟩ | ⟨hname', rfl⟩ <;>
    first
    | exact .refl _
    | exact .decimal h
    | exact absurd hname (by decide)
    | exact absurd hname' (by decide)

/-- A balance of more digits than a double has may change while its tag stays, and a request that names the tag of the
account as it was is not refused. -/
theorem tag_outlives_change :
    Registry.build [accountModel] [] {} = .ok accountService.registry ∧
    Rows.IsFull accountModel (account ⟨false, 9007199254740992, 0⟩) ∧
    Rows.IsFull accountModel (account ⟨false, 9007199254740993, 0⟩) ∧
    Decimal.value ⟨false, 9007199254740992, 0⟩ ≠ Decimal.value ⟨false, 9007199254740993, 0⟩ ∧
    accountService.canonical (account ⟨false, 9007199254740992, 0⟩) =
      accountService.canonical (account ⟨false, 9007199254740993, 0⟩) ∧
    accountService.checkPrecondition (closing ⟨false, 9007199254740992, 0⟩).headers
      (account ⟨false, 9007199254740993, 0⟩) = .ok () := by
  have hbodies : accountService.canonical (account ⟨false, 9007199254740992, 0⟩) =
      accountService.canonical (account ⟨false, 9007199254740993, 0⟩) := by
    rw [canonical, canonical, Json.obj.injEq]
    exact Rows.render_eq_of_shownAlike (isFull_account _) (isFull_account _) (shownAlike_account rfl)
  refine ⟨build_accounts, isFull_account _, isFull_account _, ?_, hbodies, ?_⟩
  · norm_num [Decimal.value]
  · apply checkPrecondition_of_names rfl
    rw [currentTag, ← hbodies]
    exact Headers.names_of_get? rfl

end Service

end RestTables
