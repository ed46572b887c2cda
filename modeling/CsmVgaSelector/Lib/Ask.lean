import Mathlib.Logic.Basic
import Mathlib.Tactic.Common

/-!
# Programs that ask their environment

A program whose calls are answered from outside is a tree: at each call it branches on the answer.
The answers are not the program's to choose, so a statement about it is a statement about every
path, and `Ask.All` says one. It is the weakest precondition of the tree, read demonically, with the
answers restricted to those that satisfy `A`.

A run against one stream of answers is `Ask.run`. It follows one of the paths, so a fact proved about
paths is a fact about every run (`Ask.All.run`).
-/

namespace CsmVgaSelector

/-- A program over answers of type `ω` that ends with a value of type `α`. -/
inductive Ask (ω α : Type) : Type where
  | done (value : α)
  | ask (next : ω → Ask ω α)

namespace Ask

variable {ω α β : Type}

protected def bind : Ask ω α → (α → Ask ω β) → Ask ω β
  | done value, k => k value
  | ask next, k => ask fun answer => (next answer).bind k

instance : Monad (Ask ω) where
  pure := done
  bind := Ask.bind

/-- One call of the environment. -/
def call : Ask ω ω := ask done

/-- Every path whose answers satisfy `A` ends with a value that satisfies `Q`. -/
def All (A : ω → Prop) : Ask ω α → (α → Prop) → Prop
  | done value, Q => Q value
  | ask next, Q => ∀ answer, A answer → (next answer).All A Q

variable {A : ω → Prop}

@[simp] theorem all_done {value : α} {Q : α → Prop} : (done value : Ask ω α).All A Q ↔ Q value :=
  Iff.rfl

@[simp] theorem all_pure {value : α} {Q : α → Prop} :
    (pure value : Ask ω α).All A Q ↔ Q value :=
  Iff.rfl

@[simp] theorem all_call {Q : ω → Prop} : (call : Ask ω ω).All A Q ↔ ∀ answer, A answer → Q answer :=
  Iff.rfl

@[simp] theorem all_bind {m : Ask ω α} {k : α → Ask ω β} {Q : β → Prop} :
    (m >>= k).All A Q ↔ m.All A fun value => (k value).All A Q := by
  induction m with
  | done value => rfl
  | ask next ih => exact forall_congr' fun answer => imp_congr_right fun _ => ih answer

theorem All.mono {m : Ask ω α} {P Q : α → Prop} (hm : m.All A P) (h : ∀ value, P value → Q value) :
    m.All A Q := by
  induction m with
  | done value => exact h value hm
  | ask next ih => exact fun answer hanswer => ih answer (hm answer hanswer)

/-- Fewer answers leave fewer paths. -/
theorem All.restrict {B : ω → Prop} {m : Ask ω α} {Q : α → Prop} (hm : m.All A Q)
    (h : ∀ answer, B answer → A answer) : m.All B Q := by
  induction m with
  | done value => exact hm
  | ask next ih => exact fun answer hanswer => ih answer (hm answer (h answer hanswer))

theorem All.and {m : Ask ω α} {P Q : α → Prop} (hP : m.All A P) (hQ : m.All A Q) :
    m.All A fun value => P value ∧ Q value := by
  induction m with
  | done value => exact ⟨hP, hQ⟩
  | ask next ih => exact fun answer hanswer => ih answer (hP answer hanswer) (hQ answer hanswer)

theorem all_of_forall {m : Ask ω α} {Q : α → Prop} (h : ∀ value, Q value) : m.All A Q := by
  induction m with
  | done value => exact h value
  | ask next ih => exact fun answer _ => ih answer

/-! ### Runs -/

/-- The value a program ends with, and the answers it has not used, on one stream of answers. -/
def runRest : Ask ω α → (Nat → ω) → α × (Nat → ω)
  | done value, answers => (value, answers)
  | ask next, answers => (next (answers 0)).runRest fun n => answers (n + 1)

def run (m : Ask ω α) (answers : Nat → ω) : α := (m.runRest answers).1

@[simp] theorem runRest_pure {value : α} {answers : Nat → ω} :
    (pure value : Ask ω α).runRest answers = (value, answers) :=
  rfl

@[simp] theorem runRest_bind {m : Ask ω α} {k : α → Ask ω β} {answers : Nat → ω} :
    (m >>= k).runRest answers = (k (m.runRest answers).1).runRest (m.runRest answers).2 := by
  induction m generalizing answers with
  | done value => rfl
  | ask next ih => exact ih (answers 0)

@[simp] theorem run_pure {value : α} {answers : Nat → ω} :
    (pure value : Ask ω α).run answers = value :=
  rfl

theorem run_bind {m : Ask ω α} {k : α → Ask ω β} {answers : Nat → ω} :
    (m >>= k).run answers = (k (m.run answers)).run (m.runRest answers).2 := by
  simp [run]

/-- What is left of a stream of good answers is a stream of good answers. -/
theorem runRest_forall (m : Ask ω α) {answers : Nat → ω} (h : ∀ n, A (answers n)) (n : Nat) :
    A ((m.runRest answers).2 n) := by
  induction m generalizing answers with
  | done value => exact h n
  | ask next ih => exact ih (answers 0) fun n => h (n + 1)

/-- **A run follows a path.** -/
theorem All.run {m : Ask ω α} {Q : α → Prop} (hm : m.All A Q) {answers : Nat → ω}
    (h : ∀ n, A (answers n)) : Q (m.run answers) := by
  induction m generalizing answers with
  | done value => exact hm
  | ask next ih => exact ih (answers 0) (hm (answers 0) (h 0)) fun n => h (n + 1)

/-- The answers a run uses. -/
def used : Ask ω α → (Nat → ω) → List ω
  | done _, _ => []
  | ask next, answers => answers 0 :: (next (answers 0)).used fun n => answers (n + 1)

/-- Only the answers that a run uses need to be good. -/
theorem All.run_of_used {m : Ask ω α} {Q : α → Prop} (hm : m.All A Q) {answers : Nat → ω}
    (h : ∀ answer ∈ m.used answers, A answer) : Q (m.run answers) := by
  induction m generalizing answers with
  | done value => exact hm
  | ask next ih =>
      exact ih (answers 0) (hm (answers 0) (h _ (List.mem_cons_self ..)))
        fun answer hanswer => h answer (List.mem_cons_of_mem _ hanswer)

end Ask

end CsmVgaSelector
