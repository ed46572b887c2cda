import CsmVgaSelector.Lib.Ask

/-!
# Programs with a state

A `Prog` asks its environment and changes a state; a `Query` asks and only reads it. The split is that
of a pointer and a pointer to `const`: what a query leaves alone is read off its type and never proved.

`Prog.Wp A m Q s` says that `m`, started in `s` and answered within `A`, ends with a value and a state
that satisfy `Q`. The rules below take a program apart one statement at a time.
-/

namespace CsmVgaSelector

abbrev Prog (ω σ α : Type) := StateT σ (Ask ω) α

abbrev Query (ω ρ α : Type) := ReaderT ρ (Ask ω) α

namespace Query

variable {ω ρ α β : Type} {A : ω → Prop}

/-- One call of the environment. -/
def call : Query ω ρ ω := fun _ => Ask.call

/-- The query, read at `s` and answered within `A`, ends with a value that satisfies `Q`. -/
def Wp (A : ω → Prop) (q : Query ω ρ α) (Q : α → Prop) (s : ρ) : Prop := (q s).All A Q

variable {Q : α → Prop} {s : ρ}

@[simp] theorem wp_pure {value : α} : Wp A (pure value : Query ω ρ α) Q s ↔ Q value := Iff.rfl

@[simp] theorem wp_bind {q : Query ω ρ α} {k : α → Query ω ρ β} {Q : β → Prop} :
    Wp A (q >>= k) Q s ↔ Wp A q (fun value => Wp A (k value) Q s) s :=
  Ask.all_bind

@[simp] theorem wp_read {Q : ρ → Prop} : Wp A (read : Query ω ρ ρ) Q s ↔ Q s := Iff.rfl

@[simp] theorem wp_call {Q : ω → Prop} :
    Wp A (call : Query ω ρ ω) Q s ↔ ∀ answer, A answer → Q answer :=
  Iff.rfl

theorem Wp.mono {q : Query ω ρ α} {P : α → Prop} (hq : Wp A q P s) (h : ∀ value, P value → Q value) :
    Wp A q Q s :=
  Ask.All.mono hq h

theorem wp_of_forall {q : Query ω ρ α} (h : ∀ value, Q value) : Wp A q Q s := Ask.all_of_forall h

end Query

namespace Prog

variable {ω σ α β : Type} {A : ω → Prop}

instance : MonadLift (Query ω σ) (Prog ω σ) where
  monadLift q := fun s => do return (← q s, s)

/-- One call of the environment. -/
def call : Prog ω σ ω := fun s => do return (← Ask.call, s)

/-- The program, started in `s` and answered within `A`, ends with a value and a state that satisfy
`Q`. -/
def Wp (A : ω → Prop) (m : Prog ω σ α) (Q : α → σ → Prop) (s : σ) : Prop :=
  (m s).All A fun result => Q result.1 result.2

variable {Q : α → σ → Prop} {s : σ}

@[simp] theorem wp_pure {value : α} : Wp A (pure value : Prog ω σ α) Q s ↔ Q value s := Iff.rfl

@[simp] theorem wp_bind {m : Prog ω σ α} {k : α → Prog ω σ β} {Q : β → σ → Prop} :
    Wp A (m >>= k) Q s ↔ Wp A m (fun value s' => Wp A (k value) Q s') s :=
  Ask.all_bind

@[simp] theorem wp_get {Q : σ → σ → Prop} : Wp A (get : Prog ω σ σ) Q s ↔ Q s s := Iff.rfl

@[simp] theorem wp_set {s' : σ} {Q : PUnit → σ → Prop} :
    Wp A (set s' : Prog ω σ PUnit) Q s ↔ Q ⟨⟩ s' :=
  Iff.rfl

@[simp] theorem wp_modify {f : σ → σ} {Q : PUnit → σ → Prop} :
    Wp A (modify f : Prog ω σ PUnit) Q s ↔ Q ⟨⟩ (f s) :=
  Iff.rfl

@[simp] theorem wp_call {Q : ω → σ → Prop} :
    Wp A (call : Prog ω σ ω) Q s ↔ ∀ answer, A answer → Q answer s :=
  Iff.rfl

/-- A query leaves the state alone. -/
@[simp] theorem wp_lift {q : Query ω σ α} :
    Wp A (liftM q : Prog ω σ α) Q s ↔ q.Wp A (fun value => Q value s) s :=
  Ask.all_bind

theorem Wp.mono {m : Prog ω σ α} {P : α → σ → Prop} (hm : Wp A m P s)
    (h : ∀ value s', P value s' → Q value s') : Wp A m Q s :=
  Ask.All.mono hm fun result => h result.1 result.2

/-- The first statement establishes what the rest starts from. -/
theorem Wp.bind {m : Prog ω σ α} {k : α → Prog ω σ β} {P : α → σ → Prop} {Q : β → σ → Prop}
    (hm : Wp A m P s) (hk : ∀ value s', P value s' → Wp A (k value) Q s') : Wp A (m >>= k) Q s :=
  wp_bind.mpr (hm.mono hk)

theorem Wp.pure {value : α} (h : Q value s) : Wp A (pure value : Prog ω σ α) Q s := h

theorem Wp.ite {c : Prop} [Decidable c] {m m' : Prog ω σ α} (hm : c → Wp A m Q s)
    (hm' : ¬ c → Wp A m' Q s) : Wp A (if c then m else m') Q s := by
  split
  · exact hm ‹_›
  · exact hm' ‹_›

/-- A read of the state. -/
theorem Wp.bind_get {k : σ → Prog ω σ β} {Q : β → σ → Prop} (hk : Wp A (k s) Q s) :
    Wp A (get >>= k) Q s :=
  wp_bind.mpr hk

/-- A query whose answer may be anything. -/
theorem Wp.bind_query {q : Query ω σ α} {k : α → Prog ω σ β} {Q : β → σ → Prop}
    (hk : ∀ value, Wp A (k value) Q s) : Wp A (liftM q >>= k) Q s :=
  wp_bind.mpr (wp_lift.mpr (Query.wp_of_forall hk))

theorem Wp.and {m : Prog ω σ α} {P : α → σ → Prop} (hP : Wp A m P s) (hQ : Wp A m Q s) :
    Wp A m (fun value s' => P value s' ∧ Q value s') s :=
  Ask.All.and hP hQ

theorem Wp.restrict {B : ω → Prop} {m : Prog ω σ α} (hm : Wp A m Q s)
    (h : ∀ answer, B answer → A answer) : Wp B m Q s :=
  Ask.All.restrict hm h

/-! ### What a program leaves alone -/

section Keeps

variable {τ : Type} {f : σ → τ}

/-- The program leaves `f` of the state as it was, whatever it is answered. -/
def Keeps (f : σ → τ) (m : Prog ω σ α) : Prop :=
  ∀ s, Wp (fun _ => True) m (fun _ s' => f s' = f s) s

theorem Keeps.pure (value : α) : Keeps f (pure value : Prog ω σ α) := fun _ => rfl

theorem Keeps.get : Keeps f (get : Prog ω σ σ) := fun _ => rfl

theorem Keeps.modify {g : σ → σ} (h : ∀ s, f (g s) = f s) :
    Keeps f (modify g : Prog ω σ PUnit) :=
  h

theorem Keeps.lift (q : Query ω σ α) : Keeps f (liftM q : Prog ω σ α) := fun _ =>
  wp_lift.mpr (Query.wp_of_forall fun _ => rfl)

theorem Keeps.bind {m : Prog ω σ α} {k : α → Prog ω σ β} (hm : Keeps f m)
    (hk : ∀ value, Keeps f (k value)) : Keeps f (m >>= k) := fun s =>
  (hm s).bind fun value s' hs' => (hk value s').mono fun _ _ hs'' => hs''.trans hs'

theorem Keeps.ite {c : Prop} [Decidable c] {m m' : Prog ω σ α} (hm : Keeps f m)
    (hm' : Keeps f m') : Keeps f (if c then m else m') := by
  split
  · exact hm
  · exact hm'

theorem Keeps.wp {m : Prog ω σ α} (hm : Keeps f m) (s : σ) :
    Wp A m (fun _ s' => f s' = f s) s :=
  (hm s).restrict fun _ _ => trivial

end Keeps

/-- The value and the state a program ends with on one stream of answers. -/
def run (m : Prog ω σ α) (answers : Nat → ω) (s : σ) : α × σ := (m s).run answers

theorem Wp.run {m : Prog ω σ α} (hm : Wp A m Q s) {answers : Nat → ω} (h : ∀ n, A (answers n)) :
    Q (m.run answers s).1 (m.run answers s).2 :=
  Ask.All.run hm h

/-- A program proved against every answer, on any stream of answers. -/
theorem Wp.runAny {m : Prog ω σ α} (hm : Wp (fun _ => True) m Q s) (answers : Nat → ω) :
    Q (m.run answers s).1 (m.run answers s).2 :=
  hm.run fun _ => trivial

/-- The answers a run of the program uses. -/
def used (m : Prog ω σ α) (answers : Nat → ω) (s : σ) : List ω := (m s).used answers

theorem Wp.run_of_used {m : Prog ω σ α} (hm : Wp A m Q s) {answers : Nat → ω}
    (h : ∀ answer ∈ m.used answers s, A answer) : Q (m.run answers s).1 (m.run answers s).2 :=
  Ask.All.run_of_used hm h

/-- The answers a run of the program has not used. -/
def rest (m : Prog ω σ α) (answers : Nat → ω) (s : σ) : Nat → ω := ((m s).runRest answers).2

theorem run_bind {m : Prog ω σ α} {k : α → Prog ω σ β} {answers : Nat → ω} :
    run (m >>= k) answers s =
      (k (m.run answers s).1).run (m.rest answers s) (m.run answers s).2 :=
  Ask.run_bind

theorem run_bind_get {k : σ → Prog ω σ β} {answers : Nat → ω} :
    run (get >>= k) answers s = (k s).run answers s :=
  rfl

@[simp] theorem run_query {q : Query ω σ α} {answers : Nat → ω} :
    ((liftM q : Prog ω σ α).run answers s).2 = s :=
  Wp.runAny (Q := fun _ s' => s' = s) (wp_lift.mpr (Query.wp_of_forall fun _ => rfl)) answers

/-- What follows a query runs on the answers the query has left. -/
theorem run_bind_query {q : Query ω σ α} {k : α → Prog ω σ β} {answers : Nat → ω} :
    run (liftM q >>= k) answers s =
      (k ((q s).run answers)).run ((q s).runRest answers).2 s := by
  show Ask.run ((q s >>= fun value => pure (value, s)) >>= fun result => k result.1 result.2) _ = _
  rw [Ask.run_bind, Ask.run_bind, Ask.runRest_bind]
  rfl

end Prog

end CsmVgaSelector
