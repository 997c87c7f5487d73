import RestTables.Proofs.Sql.FirstWord

/-
Module: RestTables.Proofs.Storage.Exchange
Purpose: What can be said in a dialogue. A path through a dialogue is the list of what is said and answered on
  the way, for any answers at all; what is proved of all paths holds whatever the database does.
Main exports: Exchange, Dialogue.Path, Dialogue.Says, says_bind_iff, says_except_bind_iff,
  Dialogue.Within, Script.exists_path_of_run
-/

namespace RestTables

open Sql (Statement)

/-- A list is split in only one way at the only element of some kind. -/
theorem List.append_cons_inj_of_unique {p : α → Bool} {pre pre' post post' : List α} {x x' : α}
    (hx : p x = true) (hpre : ∀ y ∈ pre', p y = false) (hpost : ∀ y ∈ post', p y = false)
    (h : pre ++ x :: post = pre' ++ x' :: post') : pre = pre' ∧ x = x' ∧ post = post' := by
  -- The element of that kind cannot stand before the split on the one side and behind it on the other.
  induction pre' generalizing pre with
  | nil =>
    cases pre with
    | nil => simpa using h
    | cons y pre =>
      obtain ⟨-, rfl⟩ := List.cons.inj h
      simp [hpost x (by simp)] at hx
  | cons y' pre' ih =>
    cases pre with
    | nil =>
      obtain ⟨rfl, -⟩ := List.cons.inj h
      simp [hpre x (by simp)] at hx
    | cons y pre =>
      obtain ⟨rfl, htail⟩ := List.cons.inj h
      obtain ⟨rfl, rfl, rfl⟩ := ih (fun z hz => hpre z (List.mem_cons_of_mem _ hz)) htail
      exact ⟨rfl, rfl, rfl⟩

/-- Something that is said to a database, and its answer. -/
inductive Exchange where
  | query (s : Statement) (answer : Except StorageError (List Cells))
  | execute (s : Statement) (answer : Except StorageError Effect)
  | mark (m : Mark)

/-- The statement changes or removes rows that are there. -/
def Sql.Statement.isRewrite : Statement → Bool
  | .update .. | .delete .. => true
  | _ => false

namespace Exchange

/-- The statement; a mark has none. -/
def statement? : Exchange → Option Statement
  | .query s _ => some s
  | .execute s _ => some s
  | .mark _ => none

/-- A mark was set. -/
def isMark (x : Exchange) : Bool := x.statement?.isNone

/-- The statement changes rows. -/
def isWrite (x : Exchange) : Bool := x.statement?.any Statement.isWrite

/-- The statement changes or removes rows that are there. -/
def isRewrite (x : Exchange) : Bool := x.statement?.any Statement.isRewrite

/-- The database did what it was told. -/
def succeeds : Exchange → Bool
  | .query _ (.ok _) => true
  | .execute _ (.ok _) => true
  | .mark _ => true
  | _ => false

/-- What a log keeps of it. -/
def event (b : Backend) : Exchange → Event
  | .query s _ => .query (s.text b) (s.values b)
  | .execute s _ => .execute (s.text b) (s.values b)
  | .mark m => .mark m

/-- What changes or removes rows changes rows. -/
theorem isWrite_of_isRewrite {x : Exchange} (h : x.isRewrite = true) : x.isWrite = true := by
  unfold isRewrite at h
  unfold isWrite
  cases hs : x.statement? with
  | none => simp [hs] at h
  | some s => cases s <;> simp_all [Statement.isRewrite, Statement.isWrite]

/-- A log shows which statements change rows. -/
@[simp] theorem isWrite_event (b : Backend) (x : Exchange) : (x.event b).isWrite = x.isWrite := by
  cases x with
  | query s r => exact Statement.isWriteText_text b s
  | execute s r => exact Statement.isWriteText_text b s
  | mark m => rfl

/-- A log shows which marks were set. -/
@[simp] theorem isMark_event (b : Backend) (x : Exchange) : (x.event b).isMark = x.isMark := by
  cases x <;> rfl

end Exchange

namespace Dialogue

/-! ## Paths -/

/-- A dialogue goes on as another one after something is said and answered. -/
inductive Step : Dialogue α → Exchange → Dialogue α → Prop
  | query (s : Statement) (next : Except StorageError (List Cells) → Dialogue α) (r) :
    Step (.query s next) (.query s r) (next r)
  | execute (s : Statement) (next : Except StorageError Effect → Dialogue α) (r) :
    Step (.execute s next) (.execute s r) (next r)
  | mark (m : Mark) (next : Dialogue α) : Step (.mark m next) (.mark m) next

/-- A dialogue goes on as another one after all that a list tells. -/
def Path : Dialogue α → List Exchange → Dialogue α → Prop
  | d, [], rest => d = rest
  | d, x :: log, rest => ∃ d', d.Step x d' ∧ Path d' log rest

/-- A dialogue has a result after all that a list tells. -/
def Says (d : Dialogue α) (log : List Exchange) (a : α) : Prop := d.Path log (.done a)

@[simp] theorem path_nil_iff {d rest : Dialogue α} : d.Path [] rest ↔ d = rest := Iff.rfl

@[simp] theorem path_cons_iff {d rest : Dialogue α} {x : Exchange} {log : List Exchange} :
    d.Path (x :: log) rest ↔ ∃ d', d.Step x d' ∧ d'.Path log rest := Iff.rfl

@[simp] theorem not_step_done {a : α} {x : Exchange} {d : Dialogue α} : ¬ (Dialogue.done a).Step x d := nofun

@[simp] theorem step_query_iff {s : Statement} {next : _ → Dialogue α} {x : Exchange} {d : Dialogue α} :
    (Dialogue.query s next).Step x d ↔ ∃ r, x = .query s r ∧ d = next r := by
  constructor
  · rintro ⟨⟩
    exact ⟨_, rfl, rfl⟩
  · rintro ⟨r, rfl, rfl⟩
    exact .query s next r

@[simp] theorem step_execute_iff {s : Statement} {next : _ → Dialogue α} {x : Exchange} {d : Dialogue α} :
    (Dialogue.execute s next).Step x d ↔ ∃ r, x = .execute s r ∧ d = next r := by
  constructor
  · rintro ⟨⟩
    exact ⟨_, rfl, rfl⟩
  · rintro ⟨r, rfl, rfl⟩
    exact .execute s next r

@[simp] theorem step_mark_iff {m : Mark} {next d : Dialogue α} {x : Exchange} :
    (Dialogue.mark m next).Step x d ↔ x = .mark m ∧ d = next := by
  constructor
  · rintro ⟨⟩
    exact ⟨rfl, rfl⟩
  · rintro ⟨rfl, rfl⟩
    exact .mark m d

/-- Paths that follow each other make one path. -/
theorem Path.append {d e f : Dialogue α} {log₁ log₂ : List Exchange} (h₁ : d.Path log₁ e) (h₂ : e.Path log₂ f) :
    d.Path (log₁ ++ log₂) f := by
  induction log₁ generalizing d with
  | nil => rwa [path_nil_iff.mp h₁]
  | cons x log₁ ih =>
    obtain ⟨d', hstep, hpath⟩ := h₁
    exact ⟨d', hstep, ih hpath⟩

/-- Every dialogue comes to a result. -/
theorem exists_result (d : Dialogue α) : ∃ log a, d.Says log a := by
  induction d with
  | done a => exact ⟨[], a, rfl⟩
  | query s next ih =>
    obtain ⟨log, a, h⟩ := ih (.ok [])
    exact ⟨_ :: log, a, _, .query s next _, h⟩
  | execute s next ih =>
    obtain ⟨log, a, h⟩ := ih (.ok default)
    exact ⟨_ :: log, a, _, .execute s next _, h⟩
  | mark m next ih =>
    obtain ⟨log, a, h⟩ := ih
    exact ⟨_ :: log, a, _, .mark m next, h⟩

@[simp] theorem path_done_iff {a : α} {log : List Exchange} {rest : Dialogue α} :
    (Dialogue.done a).Path log rest ↔ log = [] ∧ rest = .done a := by
  cases log with
  | nil => simp [eq_comm]
  | cons x log => simp

/-! ## Results -/

@[simp] theorem says_done_iff {a b : α} {log : List Exchange} :
    (Dialogue.done a).Says log b ↔ log = [] ∧ b = a := by
  simp [Says]

@[simp] theorem says_query_iff {s : Statement} {next : _ → Dialogue α} {log : List Exchange} {a : α} :
    (Dialogue.query s next).Says log a ↔ ∃ r rest, log = .query s r :: rest ∧ (next r).Says rest a := by
  cases log with
  | nil => simp [Says]
  | cons x log =>
    simp only [Says, path_cons_iff, step_query_iff, List.cons.injEq]
    constructor
    · rintro ⟨_, ⟨r, rfl, rfl⟩, h⟩
      exact ⟨r, log, ⟨rfl, rfl⟩, h⟩
    · rintro ⟨r, _, ⟨rfl, rfl⟩, h⟩
      exact ⟨_, ⟨r, rfl, rfl⟩, h⟩

@[simp] theorem says_execute_iff {s : Statement} {next : _ → Dialogue α} {log : List Exchange} {a : α} :
    (Dialogue.execute s next).Says log a ↔ ∃ r rest, log = .execute s r :: rest ∧ (next r).Says rest a := by
  cases log with
  | nil => simp [Says]
  | cons x log =>
    simp only [Says, path_cons_iff, step_execute_iff, List.cons.injEq]
    constructor
    · rintro ⟨_, ⟨r, rfl, rfl⟩, h⟩
      exact ⟨r, log, ⟨rfl, rfl⟩, h⟩
    · rintro ⟨r, _, ⟨rfl, rfl⟩, h⟩
      exact ⟨_, ⟨r, rfl, rfl⟩, h⟩

@[simp] theorem says_mark_iff {m : Mark} {next : Dialogue α} {log : List Exchange} {a : α} :
    (Dialogue.mark m next).Says log a ↔ ∃ rest, log = .mark m :: rest ∧ next.Says rest a := by
  cases log with
  | nil => simp [Says]
  | cons x log =>
    simp only [Says, path_cons_iff, step_mark_iff, List.cons.injEq]
    constructor
    · rintro ⟨_, ⟨rfl, rfl⟩, h⟩
      exact ⟨log, ⟨rfl, rfl⟩, h⟩
    · rintro ⟨_, ⟨rfl, rfl⟩, h⟩
      exact ⟨_, ⟨rfl, rfl⟩, h⟩

/-- One dialogue after another says what the first one says and then what the second one does. -/
theorem says_bind_iff {d : Dialogue α} {f : α → Dialogue β} {log : List Exchange} {b : β} :
    (d.bind f).Says log b ↔
      ∃ first a second, log = first ++ second ∧ d.Says first a ∧ (f a).Says second b := by
  induction d generalizing log with
  | done a =>
    simp only [bind_done, says_done_iff]
    constructor
    · intro h
      exact ⟨[], a, log, rfl, ⟨rfl, rfl⟩, h⟩
    · rintro ⟨_, _, second, rfl, ⟨rfl, rfl⟩, h⟩
      exact h
  | query s next ih =>
    simp only [bind, says_query_iff, ih]
    constructor
    · rintro ⟨r, _, rfl, first, a, second, rfl, h, h'⟩
      exact ⟨.query s r :: first, a, second, rfl, ⟨r, first, rfl, h⟩, h'⟩
    · rintro ⟨_, a, second, rfl, ⟨r, first, rfl, h⟩, h'⟩
      exact ⟨r, _, rfl, first, a, second, rfl, h, h'⟩
  | execute s next ih =>
    simp only [bind, says_execute_iff, ih]
    constructor
    · rintro ⟨r, _, rfl, first, a, second, rfl, h, h'⟩
      exact ⟨.execute s r :: first, a, second, rfl, ⟨r, first, rfl, h⟩, h'⟩
    · rintro ⟨_, a, second, rfl, ⟨r, first, rfl, h⟩, h'⟩
      exact ⟨r, _, rfl, first, a, second, rfl, h, h'⟩
  | mark m next ih =>
    simp only [bind, says_mark_iff, ih]
    constructor
    · rintro ⟨_, rfl, first, a, second, rfl, h, h'⟩
      exact ⟨.mark m :: first, a, second, rfl, ⟨first, rfl, h⟩, h'⟩
    · rintro ⟨_, a, second, rfl, ⟨first, rfl, h⟩, h'⟩
      exact ⟨_, rfl, first, a, second, rfl, h, h'⟩

/-- Something that is made of a result says nothing more. -/
theorem says_bind_done_iff {d : Dialogue α} {g : α → β} {log : List Exchange} {b : β} :
    (d.bind fun a => .done (g a)).Says log b ↔ ∃ a, d.Says log a ∧ b = g a := by
  rw [says_bind_iff]
  simp only [says_done_iff]
  constructor
  · rintro ⟨first, a, _, rfl, h, rfl, rfl⟩
    exact ⟨a, by simpa using h, rfl⟩
  · rintro ⟨a, h, rfl⟩
    exact ⟨log, a, [], by simp, h, rfl, rfl⟩

instance : LawfulMonad Dialogue := LawfulMonad.mk' Dialogue bind_pure (fun _ _ => rfl) bind_assoc

/-! ## Results that may be failures -/

section Except

variable {x : ExceptT ε Dialogue α} {f : α → ExceptT ε Dialogue β} {log : List Exchange}

@[simp] theorem says_pure_iff {a : α} {b : Except ε α} :
    Says (pure a : ExceptT ε Dialogue α).run log b ↔ log = [] ∧ b = .ok a := says_done_iff

@[simp] theorem says_throw_iff {e : ε} {b : Except ε α} :
    Says (throw e : ExceptT ε Dialogue α).run log b ↔ log = [] ∧ b = .error e := says_done_iff

/-- What follows is said only when there has been no failure. -/
theorem says_except_bind_iff {b : Except ε β} :
    Says (x >>= f).run log b ↔
      (∃ first a second, log = first ++ second ∧ Says x.run first (.ok a) ∧ Says (f a).run second b) ∨
      ∃ e, b = .error e ∧ Says x.run log (.error e) := by
  have hrun : (x >>= f).run = Dialogue.bind x.run (ExceptT.bindCont f) := rfl
  rw [hrun, says_bind_iff]
  constructor
  · rintro ⟨first, r, second, rfl, h, h'⟩
    cases r with
    | ok a => exact .inl ⟨first, a, second, rfl, h, h'⟩
    | error e =>
      obtain ⟨rfl, rfl⟩ := says_done_iff.mp h'
      exact .inr ⟨e, rfl, by simpa using h⟩
  · rintro (⟨first, a, second, rfl, h, h'⟩ | ⟨e, rfl, h⟩)
    · exact ⟨first, .ok a, second, rfl, h, h'⟩
    · exact ⟨log, .error e, [], by simp, h, says_done_iff.mpr ⟨rfl, rfl⟩⟩

/-- Something that is made of a result. -/
theorem says_except_map_iff {g : α → β} {b : Except ε β} :
    Says (g <$> x).run log b ↔ ∃ a, Says x.run log a ∧ b = a.map g := by
  rw [ExceptT.run_map]
  exact says_bind_done_iff

/-- A result that is of no use. -/
theorem says_discard_iff {b : Except ε Unit} :
    Says (discard x).run log b ↔ ∃ a, Says x.run log a ∧ b = a.map fun _ => () := by
  have hmap : discard x = (fun _ => ()) <$> x := by
    rw [Functor.discard, LawfulFunctor.map_const]
    rfl
  rw [hmap, says_except_map_iff]

/-- A failure that is told in other words. -/
theorem says_adapt_iff {g : ε → ε'} {b : Except ε' α} :
    Says (ExceptT.adapt g x).run log b ↔ ∃ a, Says x.run log a ∧ b = a.mapError g := says_bind_done_iff

end Except

/-! ## Bounds -/

/-- No marks are set on any path, and no more than some number of statements that change rows are said. -/
def Within (d : Dialogue α) (n : Nat) : Prop :=
  ∀ log a, d.Says log a → (∀ x ∈ log, x.isMark = false) ∧ log.countP Exchange.isWrite ≤ n

/-- Where nothing may be written, nothing is. -/
theorem Within.not_isWrite {d : Dialogue α} (h : d.Within 0) {log : List Exchange} {a : α} (hs : d.Says log a) :
    ∀ x ∈ log, x.isWrite = false := by
  have hcount := Nat.le_zero.mp (h log a hs).2
  simpa [List.countP_eq_zero] using hcount

theorem within_done {a : α} {n : Nat} : (Dialogue.done a).Within n := by
  intro log b hs
  obtain ⟨rfl, -⟩ := says_done_iff.mp hs
  simp

theorem Within.bind {d : Dialogue α} {f : α → Dialogue β} {n k : Nat} (h : d.Within n)
    (h' : ∀ a, (f a).Within k) : (d.bind f).Within (n + k) := by
  intro log b hs
  obtain ⟨first, a, second, rfl, hfirst, hsecond⟩ := says_bind_iff.mp hs
  obtain ⟨hmark, hcount⟩ := h first a hfirst
  obtain ⟨hmark', hcount'⟩ := h' a second b hsecond
  refine ⟨fun x hx => (List.mem_append.mp hx).elim (hmark x) (hmark' x), ?_⟩
  rw [List.countP_append]
  omega

/-- What follows counts only when there has been no failure. -/
theorem Within.except_bind {x : ExceptT ε Dialogue α} {f : α → ExceptT ε Dialogue β} {n k : Nat}
    (h : Within x.run n) (h' : ∀ a, Within (f a).run k) : Within (x >>= f).run (n + k) := by
  apply Within.bind (f := ExceptT.bindCont f) h
  intro r
  cases r with
  | ok a => exact h' a
  | error e => exact within_done

end Dialogue

namespace Script

open Dialogue

/-- A run is a path with the answers of the script, and its log tells what was said. -/
theorem exists_path_of_run (b : Backend) (script : Script) (d : Dialogue α) :
    ∃ log, d.Says log (run b script d).1 ∧ (run b script d).2 = log.map (·.event b) := by
  -- Each statement takes the next answer of the script, and marks take none.
  induction d generalizing script with
  | done a => exact ⟨[], by simp [run], rfl⟩
  | query s next ih =>
    obtain ⟨log, hrun, hlog⟩ := ih script.rows script.tail
    refine ⟨.query s script.rows :: log, ?_, ?_⟩
    · exact says_query_iff.mpr ⟨_, log, rfl, hrun⟩
    · simp [run, hlog, Exchange.event]
  | execute s next ih =>
    obtain ⟨log, hrun, hlog⟩ := ih script.effect script.tail
    refine ⟨.execute s script.effect :: log, ?_, ?_⟩
    · exact says_execute_iff.mpr ⟨_, log, rfl, hrun⟩
    · simp [run, hlog, Exchange.event]
  | mark m next ih =>
    obtain ⟨log, hrun, hlog⟩ := ih script
    refine ⟨.mark m :: log, ?_, ?_⟩
    · exact says_mark_iff.mpr ⟨log, rfl, hrun⟩
    · simp [run, hlog, Exchange.event]

end Script

end RestTables
