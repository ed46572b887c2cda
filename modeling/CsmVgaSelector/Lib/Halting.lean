import CsmVgaSelector.Lib.Prog

/-!
# Programs that may stop

A `Halting` program ends with a value, or it stops the machine and nothing runs after it. A part of the
program that works on a part of the state is run there by `zoom`.
-/

namespace CsmVgaSelector

abbrev Halting (ω σ α : Type) := OptionT (Prog ω σ) α

namespace Prog

variable {ω σ τ α : Type} {A : ω → Prop}

/-- A program on a part of the state. -/
def zoom (view : σ → τ) (put : τ → σ → σ) (m : Prog ω τ α) : Prog ω σ α := fun s => do
  let result ← m (view s)
  return (result.1, put result.2 s)

@[simp] theorem wp_zoom {view : σ → τ} {put : τ → σ → σ} {m : Prog ω τ α} {Q : α → σ → Prop} {s : σ} :
    Wp A (zoom view put m) Q s ↔ Wp A m (fun value t => Q value (put t s)) (view s) :=
  Ask.all_bind

end Prog

namespace Halting

variable {ω σ α β : Type} {A : ω → Prop}

def halt : Halting ω σ α := OptionT.mk (pure none)

def lift (m : Prog ω σ α) : Halting ω σ α := OptionT.lift m

def call : Halting ω σ ω := lift Prog.call

def getState : Halting ω σ σ := lift get

def update (f : σ → σ) : Halting ω σ Unit := lift (modify f)

/-- The value and the state the program ends with, or the state it stops in, on one stream of answers. -/
def run (m : Halting ω σ α) (answers : Nat → ω) (s : σ) : Option α × σ :=
  Prog.run (OptionT.run m) answers s

/-- The program, started in `s` and answered within `A`, ends with a value and a state that satisfy `Q`, or
stops in a state that satisfies `H`. -/
def Wp (A : ω → Prop) (m : Halting ω σ α) (Q : α → σ → Prop) (H : σ → Prop) (s : σ) : Prop :=
  Prog.Wp A (OptionT.run m) (fun result s' => result.elim (H s') fun value => Q value s') s

variable {Q : α → σ → Prop} {H : σ → Prop} {s : σ}

theorem Wp.pure {value : α} (h : Q value s) : Wp A (pure value : Halting ω σ α) Q H s := h

theorem Wp.halt (h : H s) : Wp A (halt : Halting ω σ α) Q H s := h

theorem wp_bind {m : Halting ω σ α} {k : α → Halting ω σ β} {Q : β → σ → Prop} :
    Wp A (m >>= k) Q H s ↔ Wp A m (fun value s' => Wp A (k value) Q H s') H s := by
  rw [Wp, OptionT.run_bind, Option.elimM, Prog.wp_bind]
  refine ⟨fun h => Prog.Wp.mono h fun result s' h' => ?_, fun h => Prog.Wp.mono h fun result s' h' => ?_⟩
  · cases result with
    | none => exact h'
    | some value => exact h'
  · cases result with
    | none => exact h'
    | some value => exact h'

theorem Wp.mono {m : Halting ω σ α} {P : α → σ → Prop} {H' : σ → Prop} (hm : Wp A m P H' s)
    (h : ∀ value s', P value s' → Q value s') (h' : ∀ s', H' s' → H s') : Wp A m Q H s := by
  refine Prog.Wp.mono hm fun result s' hs' => ?_
  cases result with
  | none => exact h' s' hs'
  | some value => exact h value s' hs'

theorem Wp.and {m : Halting ω σ α} {P : α → σ → Prop} {H' : σ → Prop} (hP : Wp A m P H' s) (hQ : Wp A m Q H s) :
    Wp A m (fun value s' => P value s' ∧ Q value s') (fun s' => H' s' ∧ H s') s := by
  refine Prog.Wp.mono (Prog.Wp.and hP hQ) fun result s' hs' => ?_
  cases result with
  | none => exact hs'
  | some value => exact hs'

theorem wp_of_forall {m : Halting ω σ α} (h : ∀ value s', Q value s') (h' : ∀ s', H s') : Wp A m Q H s := by
  apply Ask.all_of_forall
  rintro ⟨result, s'⟩
  cases result with
  | none => exact h' s'
  | some value => exact h value s'

theorem Wp.bind {m : Halting ω σ α} {k : α → Halting ω σ β} {P : α → σ → Prop} {Q : β → σ → Prop}
    (hm : Wp A m P H s) (hk : ∀ value s', P value s' → Wp A (k value) Q H s') :
    Wp A (m >>= k) Q H s :=
  wp_bind.mpr (hm.mono hk fun _ h => h)

theorem Wp.ite {c : Prop} [Decidable c] {m m' : Halting ω σ α} (hm : c → Wp A m Q H s)
    (hm' : ¬ c → Wp A m' Q H s) : Wp A (if c then m else m') Q H s := by
  split
  · exact hm ‹_›
  · exact hm' ‹_›

@[simp] theorem wp_lift {m : Prog ω σ α} : Wp A (lift m) Q H s ↔ Prog.Wp A m Q s := by
  rw [Wp, lift, OptionT.run_lift, Prog.wp_bind]
  rfl

/-- One call of the environment. -/
theorem Wp.bind_call {k : ω → Halting ω σ β} {Q : β → σ → Prop}
    (hk : ∀ answer, A answer → Wp A (k answer) Q H s) : Wp A (call >>= k) Q H s :=
  wp_bind.mpr (wp_lift.mpr hk)

/-- A read of the state. -/
theorem Wp.bind_getState {k : σ → Halting ω σ β} {Q : β → σ → Prop} (hk : Wp A (k s) Q H s) :
    Wp A (getState >>= k) Q H s :=
  wp_bind.mpr (wp_lift.mpr hk)

theorem Wp.bind_update {f : σ → σ} {k : Unit → Halting ω σ β} {Q : β → σ → Prop}
    (hk : Wp A (k ()) Q H (f s)) : Wp A (update f >>= k) Q H s :=
  wp_bind.mpr (wp_lift.mpr hk)

/-! ### Invariants -/

/-- From a state in `I` the program ends in `I` or stops in `H`. -/
def Preserves (I H : σ → Prop) (m : Halting ω σ α) : Prop :=
  ∀ s, I s → Wp (fun _ => True) m (fun _ => I) H s

namespace Preserves

variable {I : σ → Prop}

theorem pure (value : α) : Preserves I H (pure value : Halting ω σ α) := fun _ h => h

theorem halt (h : ∀ s, I s → H s) : Preserves I H (halt : Halting ω σ α) := h

theorem bind {m : Halting ω σ α} {k : α → Halting ω σ β} (hm : Preserves I H m)
    (hk : ∀ value, Preserves I H (k value)) : Preserves I H (m >>= k) := fun s hs =>
  (hm s hs).bind fun value s' hs' => hk value s' hs'

theorem ite {c : Prop} [Decidable c] {m m' : Halting ω σ α} (hm : c → Preserves I H m)
    (hm' : ¬ c → Preserves I H m') : Preserves I H (if c then m else m') := by
  split
  · exact hm ‹_›
  · exact hm' ‹_›

theorem lift {m : Prog ω σ α} (h : ∀ s, I s → Prog.Wp (fun _ => True) m (fun _ => I) s) :
    Preserves I H (lift m) := fun s hs => wp_lift.mpr (h s hs)

theorem call : Preserves I H (call : Halting ω σ ω) := lift fun _ hs _ _ => hs

theorem getState : Preserves I H (getState : Halting ω σ σ) := lift fun _ hs => hs

theorem update {f : σ → σ} (h : ∀ s, I s → I (f s)) :
    Preserves I H (update f : Halting ω σ Unit) :=
  lift h

end Preserves

theorem Wp.run {m : Halting ω σ α} (hm : Wp A m Q H s) {answers : Nat → ω} (h : ∀ n, A (answers n)) :
    (m.run answers s).1.elim (H (m.run answers s).2) fun value => Q value (m.run answers s).2 :=
  Prog.Wp.run hm h

/-- A program proved against every answer, on any stream of answers. -/
theorem Wp.runAny {m : Halting ω σ α} (hm : Wp (fun _ => True) m Q H s) (answers : Nat → ω) :
    (m.run answers s).1.elim (H (m.run answers s).2) fun value => Q value (m.run answers s).2 :=
  Prog.Wp.runAny hm answers

/-- What holds wherever the program stops or ends, and what holds besides of the value it ends with. -/
theorem Wp.run_both {P : σ → Prop} {m : Halting ω σ α} (hm : Wp A m (fun value s' => P s' ∧ Q value s') P s)
    {answers : Nat → ω} (h : ∀ n, A (answers n)) :
    P (m.run answers s).2 ∧
      ∀ value, (m.run answers s).1 = some value → Q value (m.run answers s).2 := by
  have hrun := hm.run h
  cases hresult : (m.run answers s).1 with
  | none =>
      rw [hresult] at hrun
      exact ⟨hrun, nofun⟩
  | some value =>
      rw [hresult] at hrun
      refine ⟨hrun.1, fun value' hvalue => ?_⟩
      obtain rfl := Option.some.inj hvalue
      exact hrun.2

/-- What holds wherever the program stops or ends, on any stream of answers. -/
theorem Wp.run_either {P : σ → Prop} {m : Halting ω σ α} (hm : Wp (fun _ => True) m (fun _ => P) P s)
    (answers : Nat → ω) : P (m.run answers s).2 :=
  ((hm.mono (fun _ _ h => ⟨h, trivial⟩) fun _ h => h).run_both (Q := fun _ _ => True)
    fun _ => trivial).1

/-- The answers a run of the program has not used. -/
def rest (m : Halting ω σ α) (answers : Nat → ω) (s : σ) : Nat → ω := Prog.rest (OptionT.run m) answers s

/-- Where the first statement stops, so does the program. -/
theorem run_bind {m : Halting ω σ α} {k : α → Halting ω σ β} {answers : Nat → ω} :
    run (m >>= k) answers s = (m.run answers s).1.elim (none, (m.run answers s).2) fun value =>
      (k value).run (m.rest answers s) (m.run answers s).2 := by
  rw [run, OptionT.run_bind, Option.elimM, Prog.run_bind, run]
  cases (Prog.run (OptionT.run m) answers s).1 with
  | none => rfl
  | some value => rfl

end Halting

end CsmVgaSelector
