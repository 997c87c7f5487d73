import RestTables.Proofs.Storage.Exchange

/-
Module: RestTables.Proofs.Storage.Only
Purpose: Dialogues in which everything that is said is of some kind, whatever the database answers.
Main exports: Exchange.Queries, Exchange.Sends, Dialogue.Only, Only.bind, Only.except_bind, Script.forall_mem_log
-/

namespace RestTables

open Sql (Statement)

namespace Exchange

/-- Rows are asked for with a statement of some kind. -/
def Queries (K : Statement → Prop) (x : Exchange) : Prop := ∃ s r, x = .query s r ∧ K s

/-- The statement, if there is one, is of some kind. -/
def Sends (K : Statement → Prop) (x : Exchange) : Prop := ∀ s, x.statement? = some s → K s

theorem Queries.sends {K L : Statement → Prop} {x : Exchange} (h : x.Queries K) (hKL : ∀ s, K s → L s) :
    x.Sends L := by
  obtain ⟨s, r, rfl, hs⟩ := h
  intro s' hs'
  cases hs'
  exact hKL s hs

end Exchange

namespace Dialogue

variable {P Q : Exchange → Prop}

/-- Everything that is said on any path through a dialogue is of a kind. -/
def Only (P : Exchange → Prop) (d : Dialogue α) : Prop := ∀ log a, d.Says log a → ∀ x ∈ log, P x

theorem only_done {a : α} : (Dialogue.done a).Only P := by
  intro log b hs
  obtain ⟨rfl, -⟩ := says_done_iff.mp hs
  simp

theorem Only.mono {d : Dialogue α} (h : d.Only P) (hPQ : ∀ x, P x → Q x) : d.Only Q := by
  intro log a hs x hx
  exact hPQ x (h log a hs x hx)

theorem Only.bind {d : Dialogue α} {f : α → Dialogue β} (h : d.Only P) (hf : ∀ a, (f a).Only P) :
    (d.bind f).Only P := by
  intro log b hs x hx
  obtain ⟨first, a, second, rfl, hfirst, hsecond⟩ := says_bind_iff.mp hs
  rcases List.mem_append.mp hx with hx | hx
  · exact h first a hfirst x hx
  · exact hf a second b hsecond x hx

/-! ## Dialogues that may fail -/

section Except

variable {x : ExceptT ε Dialogue α}

/-- What follows a failure is nothing, so only what follows a success has to be of the kind. -/
theorem Only.except_bind {f : α → ExceptT ε Dialogue β} (h : Only P x.run) (hf : ∀ a, Only P (f a).run) :
    Only P (x >>= f).run := by
  apply Only.bind (f := ExceptT.bindCont f) h
  intro r
  cases r with
  | ok a => exact hf a
  | error e => exact only_done

/-- A choice that has been made already says nothing. -/
theorem Only.lift_bind {e : Except ε α} {f : α → ExceptT ε Dialogue β} (hf : ∀ a, e = .ok a → Only P (f a).run) :
    Only P ((liftM e : ExceptT ε Dialogue α) >>= f).run := by
  cases e with
  | error e => exact only_done
  | ok a => exact hf a rfl

theorem only_pure {a : α} : Only P (pure a : ExceptT ε Dialogue α).run := only_done

theorem only_throw {e : ε} : Only P (throw e : ExceptT ε Dialogue α).run := only_done

theorem Only.discard (h : Only P x.run) : Only P (Functor.discard x).run := by
  intro log b hs
  obtain ⟨a, ha, -⟩ := says_discard_iff.mp hs
  exact h log a ha

end Except

/-- A list of dialogues, each of which is of a kind. -/
theorem only_mapM {f : α → Dialogue β} (hf : ∀ a, (f a).Only P) (l : List α) : (l.mapM f).Only P := by
  induction l with
  | nil => exact only_done
  | cons a l ih =>
    rw [List.mapM_cons]
    apply Only.bind (hf a)
    intro b
    apply Only.bind ih
    intro bs
    exact only_done

end Dialogue

/-- What holds of everything that can be said holds of everything in the log of a run. -/
theorem Script.forall_mem_log {P : Exchange → Prop} {d : Dialogue α} (h : d.Only P) (b : Backend)
    (script : Script) : ∀ e ∈ (script.run b d).2, ∃ x, P x ∧ e = x.event b := by
  intro e he
  obtain ⟨log, hrun, hlog⟩ := Script.exists_path_of_run b script d
  rw [hlog] at he
  obtain ⟨x, hx, rfl⟩ := List.mem_map.mp he
  exact ⟨x, h log _ hrun x hx, rfl⟩

end RestTables
