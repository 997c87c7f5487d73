import Mathlib.Data.List.Forall2
import RestTables.ApiError
import RestTables.Proofs.Storage.Exchange

/-
Module: RestTables.Proofs.Storage.Failure
Purpose: What becomes of a dialogue when a statement fails. Where every failure breaks a dialogue off, and failures that
  clients are told nothing about leave the same behind them, two databases that differ in such failures alone cannot be
  told apart.
Main exports: StorageError.isInternal, Answer.Alike, Dialogue.Breaks, Breaks.exists_run_eq_of_failure,
  Breaks.run_eq_of_alike, Dialogue.FailsWith
-/

namespace RestTables

/-! ## Failures -/

/-- The failure is the service's own affair: it violates no constraint and does not tell of a row. -/
def StorageError.isInternal : StorageError → Bool
  | .custom _ | .query _ | .exec _ | .type _ => true
  | _ => false

/-- Two answers that differ at most in which internal failure they tell of, and in what words. -/
inductive Answer.Alike : Answer → Answer → Prop
  | same (a : Answer) : Alike a a
  | failed {e e' : StorageError} (he : e.isInternal = true) (he' : e'.isInternal = true) :
    Alike (.failure e) (.failure e')

namespace Script

/-- The failure with which the statement of some number is answered, counted from zero. -/
def failure? (script : Script) (n : Nat) : Option StorageError :=
  match script.drop n with
  | [] => some exhausted
  | .failure e :: _ => some e
  | .success .. :: _ => none

variable {script script' : Script}

theorem failure?_succ (script : Script) (n : Nat) : script.failure? (n + 1) = failure? script.tail n := by
  rw [failure?, failure?, List.drop_tail]

theorem rows_of_failure? {e : StorageError} (h : script.failure? 0 = some e) : script.rows = .error e := by
  match script, h with
  | [], rfl => rfl
  | .failure _ :: _, rfl => rfl

theorem effect_of_failure? {e : StorageError} (h : script.failure? 0 = some e) : script.effect = .error e := by
  match script, h with
  | [], rfl => rfl
  | .failure _ :: _, rfl => rfl

/-- Two alike databases answer a statement the same, or both fail internally. -/
theorem alike_cases (h : List.Forall₂ Answer.Alike script script') :
    script.rows = script'.rows ∧ script.effect = script'.effect ∨
      ∃ e e', e.isInternal = true ∧ e'.isInternal = true ∧ script.failure? 0 = some e ∧
        script'.failure? 0 = some e' := by
  cases h with
  | nil => exact .inl ⟨rfl, rfl⟩
  | @cons a _ _ _ first rest =>
    cases first with
    | same =>
      left
      cases a <;> exact ⟨rfl, rfl⟩
    | failed he he' => exact .inr ⟨_, _, he, he', rfl, rfl⟩

theorem tail_of_alike (h : List.Forall₂ Answer.Alike script script') :
    List.Forall₂ Answer.Alike script.tail script'.tail := by
  cases h with
  | nil => exact .nil
  | cons first rest => exact rest

end Script

namespace Dialogue

/-! ## Dialogues that a failure breaks off -/

/-- Whichever statement fails, what follows is what stands for the failure. -/
inductive Breaks (stop : StorageError → Dialogue α) : Dialogue α → Prop
  | done (a : α) : Breaks stop (.done a)
  | query {s : Sql.Statement} {next : _ → Dialogue α} (fails : ∀ e, next (.error e) = stop e)
    (rest : ∀ r, Breaks stop (next r)) : Breaks stop (.query s next)
  | execute {s : Sql.Statement} {next : _ → Dialogue α} (fails : ∀ e, next (.error e) = stop e)
    (rest : ∀ r, Breaks stop (next r)) : Breaks stop (.execute s next)
  | mark {m : Mark} {next : Dialogue α} (rest : Breaks stop next) : Breaks stop (.mark m next)

variable {stop : StorageError → Dialogue α} {d : Dialogue α}

/-- Where a statement failed, the result is that of what stands for the failure. The induction is on the dialogue; the
statement that failed is the one at hand when its number is zero, and otherwise lies further on. -/
theorem Breaks.exists_run_eq_of_failure (h : Breaks stop d) {b : Backend} {script : Script} {n : Nat} {e : StorageError}
    (hn : n < ((script.run b d).2.filter fun x => !x.isMark).length) (he : script.failure? n = some e) :
    ∃ rest : Script, (script.run b d).1 = (rest.run b (stop e)).1 := by
  induction h generalizing script n with
  | done a => cases hn
  | query fails rest ih =>
    cases n with
    | zero => exact ⟨script.tail, by simp only [Script.run, Script.rows_of_failure? he, fails]⟩
    | succ n =>
      rw [Script.failure?_succ] at he
      exact ih _ (Nat.lt_of_succ_lt_succ hn) he
  | execute fails rest ih =>
    cases n with
    | zero => exact ⟨script.tail, by simp only [Script.run, Script.effect_of_failure? he, fails]⟩
    | succ n =>
      rw [Script.failure?_succ] at he
      exact ih _ (Nat.lt_of_succ_lt_succ hn) he
  | mark rest ih => exact ih hn he

/-- Where the same stands for all internal failures, alike databases are told the same and lead to the same result. The
runs go side by side, up to the first statement that both databases fail at; what follows there is one dialogue. -/
theorem Breaks.run_eq_of_alike (h : Breaks stop d)
    (hstop : ∀ e e', e.isInternal = true → e'.isInternal = true → stop e = stop e') (b : Backend)
    {script script' : Script} (halike : List.Forall₂ Answer.Alike script script') :
    script.run b d = script'.run b d := by
  induction h generalizing script script' with
  | done a => rfl
  | query fails rest ih =>
    have htail := Script.tail_of_alike halike
    rcases Script.alike_cases halike with ⟨hrows, -⟩ | ⟨e, e', he, he', hfails, hfails'⟩
    · simp only [Script.run, hrows, ih _ htail]
    · have hsame := ih (.error e') htail
      rw [fails e'] at hsame
      simp only [Script.run, Script.rows_of_failure? hfails, Script.rows_of_failure? hfails', fails,
        hstop e e' he he', hsame]
  | execute fails rest ih =>
    have htail := Script.tail_of_alike halike
    rcases Script.alike_cases halike with ⟨-, heffect⟩ | ⟨e, e', he, he', hfails, hfails'⟩
    · simp only [Script.run, heffect, ih _ htail]
    · have hsame := ih (.error e') htail
      rw [fails e'] at hsame
      simp only [Script.run, Script.effect_of_failure? hfails, Script.effect_of_failure? hfails', fails,
        hstop e e' he he', hsame]
  | mark rest ih => simp only [Script.run, ih halike]

/-- Where one dialogue follows another, what stands for a failure is carried through the second one. -/
theorem Breaks.bind {stop' : StorageError → Dialogue β} {f : α → Dialogue β} (h : Breaks stop d)
    (hstop : ∀ e, (stop e).bind f = stop' e) (hf : ∀ a, Breaks stop' (f a)) : Breaks stop' (d.bind f) := by
  induction h with
  | done a => exact hf a
  | query fails rest ih => exact .query (fun e => by rw [fails e, hstop e]) ih
  | execute fails rest ih => exact .execute (fun e => by rw [fails e, hstop e]) ih
  | mark rest ih => exact .mark ih

/-- Marks, and then a result. -/
def ending (marks : List Mark) (a : α) : Dialogue α := marks.foldr .mark (.done a)

theorem bind_ending (marks : List Mark) (a : α) (b : β) (f : α → Dialogue β) (h : f a = .done b) :
    (ending marks a).bind f = ending marks b := by
  induction marks with
  | nil => exact h
  | cons m marks ih => exact congrArg (Dialogue.mark m) ih

theorem run_ending (b : Backend) (script : Script) (marks : List Mark) (a : α) :
    (script.run b (ending marks a)).1 = a := by
  induction marks with
  | nil => rfl
  | cons m marks ih => exact ih

/-! ## Results that may be failures -/

section Except

/-- A failed statement makes the result a failure, told in some words, after some marks. -/
abbrev FailsWith (marks : List Mark) (words : StorageError → ε) (x : ExceptT ε Dialogue α) : Prop :=
  Breaks (fun e => ending marks (.error (words e))) x.run

variable {marks : List Mark} {words : StorageError → ε} {x : ExceptT ε Dialogue α}

theorem failsWith_done (a : Except ε α) : FailsWith marks words (ExceptT.mk (.done a)) := .done a

theorem FailsWith.bind {f : α → ExceptT ε Dialogue β} (h : FailsWith marks words x)
    (hf : ∀ a, FailsWith marks words (f a)) : FailsWith marks words (x >>= f) := by
  apply Breaks.bind (f := ExceptT.bindCont f) h
  · exact fun e => bind_ending marks _ _ _ rfl
  · intro r
    cases r with
    | ok a => exact hf a
    | error e => exact .done _

/-- A choice that has been made already says nothing. -/
theorem FailsWith.lift_bind {e : Except ε α} {f : α → ExceptT ε Dialogue β} (hf : ∀ a, FailsWith marks words (f a)) :
    FailsWith marks words ((liftM e : ExceptT ε Dialogue α) >>= f) := by
  cases e with
  | error e => exact .done _
  | ok a => exact hf a

theorem FailsWith.discard (h : FailsWith marks words x) : FailsWith marks words (Functor.discard x) := by
  have hbind : Functor.discard x = x >>= fun _ => pure () := by
    rw [Functor.discard, LawfulFunctor.map_const, bind_pure_comp]
    rfl
  rw [hbind]
  exact h.bind fun _ => failsWith_done _

/-- A failure that is told in other words. -/
theorem FailsWith.adapt {g : ε → ε'} (h : FailsWith marks words x) :
    FailsWith marks (fun e => g (words e)) (ExceptT.adapt g x) :=
  Breaks.bind (f := fun r => .done (r.mapError g)) h (fun _ => bind_ending marks _ _ _ rfl) fun _ => .done _

end Except

end Dialogue

end RestTables
