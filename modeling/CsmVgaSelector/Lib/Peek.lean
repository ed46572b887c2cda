import Mathlib.Tactic.Common

/-!
# Programs that read a memory

A `Peek` program asks for one place of a memory after another, each of them chosen by what it has read so
far, and ends with a value. On a given memory it has one run; `Within` says that every place read on it lies
inside, and `Yields` adds the value it ends with. The rules take a program apart one read at a time.
-/

namespace CsmVgaSelector

/-- A program over places `ι` that hold values of type `β`. -/
inductive Peek (ι β α : Type) : Type where
  | done (value : α)
  | read (place : ι) (next : β → Peek ι β α)

namespace Peek

variable {ι ι' β α γ : Type}

protected def bind : Peek ι β α → (α → Peek ι β γ) → Peek ι β γ
  | done value, k => k value
  | read place next, k => read place fun held => (next held).bind k

instance : Monad (Peek ι β) where
  pure := done
  bind := Peek.bind

/-- A read of one place. -/
def peek (place : ι) : Peek ι β β := read place done

/-- The value the program ends with on this memory. -/
def run (memory : ι → β) : Peek ι β α → α
  | done value => value
  | read place next => (next (memory place)).run memory

/-- The places the program reads on this memory, in order. -/
def places (memory : ι → β) : Peek ι β α → List ι
  | done _ => []
  | read place next => place :: (next (memory place)).places memory

/-- The program on a memory of which each place stands for one of another. -/
def through (f : ι → ι') : Peek ι β α → Peek ι' β α
  | done value => done value
  | read place next => read (f place) fun held => (next held).through f

section

variable {memory : ι → β} {m : Peek ι β α} {k : α → Peek ι β γ}

@[simp] theorem run_pure {value : α} : (pure value : Peek ι β α).run memory = value := rfl

@[simp] theorem run_peek {place : ι} : (peek place : Peek ι β β).run memory = memory place := rfl

@[simp] theorem run_bind : (m >>= k).run memory = (k (m.run memory)).run memory := by
  induction m with
  | done value => rfl
  | read place next ih => exact ih (memory place)

@[simp] theorem places_pure {value : α} : (pure value : Peek ι β α).places memory = [] := rfl

@[simp] theorem places_peek {place : ι} : (peek place : Peek ι β β).places memory = [place] := rfl

@[simp] theorem places_bind :
    (m >>= k).places memory = m.places memory ++ (k (m.run memory)).places memory := by
  induction m with
  | done value => rfl
  | read place next ih => exact congrArg (place :: ·) (ih (memory place))

theorem places_peek_bind {place : ι} {k : β → Peek ι β γ} :
    (peek place >>= k).places memory = place :: (k (memory place)).places memory := rfl

theorem run_through {f : ι → ι'} {memory : ι' → β} :
    (m.through f).run memory = m.run fun place => memory (f place) := by
  induction m with
  | done value => rfl
  | read place next ih => exact ih (memory (f place))

theorem places_through {f : ι → ι'} {memory : ι' → β} :
    (m.through f).places memory = (m.places fun place => memory (f place)).map f := by
  induction m with
  | done value => rfl
  | read place next ih => exact congrArg (f place :: ·) (ih (memory (f place)))

end

/-! ### Values of every run -/

/-- On every memory the value satisfies `P`. -/
def Ends (P : α → Prop) (m : Peek ι β α) : Prop := ∀ memory, P (m.run memory)

section

variable {P : α → Prop} {m : Peek ι β α}

theorem Ends.pure {value : α} (h : P value) : Ends P (pure value : Peek ι β α) := fun _ => h

theorem Ends.bind {m : Peek ι β γ} {k : γ → Peek ι β α} (hk : ∀ value, Ends P (k value)) :
    Ends P (m >>= k) := by
  intro memory
  rw [run_bind]
  exact hk _ memory

/-- The first part ends with what the second starts from. -/
theorem Ends.bind_of {Q : γ → Prop} {m : Peek ι β γ} {k : γ → Peek ι β α} (hm : Ends Q m)
    (hk : ∀ value, Q value → Ends P (k value)) : Ends P (m >>= k) := by
  intro memory
  rw [run_bind]
  exact hk _ (hm memory) memory

theorem Ends.through {f : ι → ι'} (h : Ends P m) : Ends P (m.through f) := by
  intro memory
  rw [run_through]
  exact h _

end

/-! ### Programs that stay inside -/

/-- Every place read on this memory lies inside. -/
def Within (inside : ι → Prop) (memory : ι → β) (m : Peek ι β α) : Prop :=
  ∀ place ∈ m.places memory, inside place

/-- The program reads only inside, and ends with this value. -/
structure Yields (inside : ι → Prop) (memory : ι → β) (m : Peek ι β α) (value : α) : Prop where
  within : m.Within inside memory
  run_eq : m.run memory = value

section

variable {inside : ι → Prop} {memory : ι → β} {m : Peek ι β α} {k : α → Peek ι β γ} {value : α}
  {value' : γ}

theorem Yields.pure : Yields inside memory (pure value) value where
  within := by
    rintro place ⟨⟩
  run_eq := rfl

theorem Yields.peek {place : ι} (h : inside place) : Yields inside memory (peek place) (memory place) where
  within := by simpa [Within] using h
  run_eq := rfl

theorem Yields.bind (hm : Yields inside memory m value) (hk : Yields inside memory (k value) value') :
    Yields inside memory (m >>= k) value' where
  within := by
    rw [Within, places_bind, List.forall_mem_append, hm.run_eq]
    exact ⟨hm.within, hk.within⟩
  run_eq := by rw [run_bind, hm.run_eq, hk.run_eq]

theorem Yields.bind_peek {place : ι} {k : β → Peek ι β γ} (h : inside place)
    (hk : Yields inside memory (k (memory place)) value') :
    Yields inside memory (Peek.peek place >>= k) value' :=
  (Yields.peek h).bind hk

theorem Yields.mono {inside' : ι → Prop} (h : Yields inside memory m value)
    (hinside : ∀ place, inside place → inside' place) : Yields inside' memory m value :=
  ⟨fun place hplace => hinside place (h.within place hplace), h.run_eq⟩

/-- A program that reads only inside does not tell memories apart that agree there. -/
theorem Yields.agree {memory' : ι → β} (h : Yields inside memory m value)
    (hagree : ∀ place, inside place → memory place = memory' place) : Yields inside memory' m value := by
  obtain ⟨hwithin, rfl⟩ := h
  induction m with
  | done value => exact Yields.pure
  | read place next ih =>
      have hhere : inside place := hwithin place List.mem_cons_self
      have hrest := ih (memory place) fun other hother => hwithin other (List.mem_cons_of_mem _ hother)
      have hsame := hagree place hhere
      refine Yields.bind_peek hhere ?_
      rw [← hsame]
      exact hrest

theorem Yields.through {f : ι' → ι} {m : Peek ι' β α}
    (h : Yields (fun place => inside (f place)) (fun place => memory (f place)) m value) :
    Yields inside memory (m.through f) value where
  within := by
    rw [Within, places_through]
    exact List.forall_mem_map.mpr h.within
  run_eq := by rw [run_through, h.run_eq]

end

/-- The program reads only inside, and says whether the property holds. -/
structure Decides (inside : ι → Prop) (memory : ι → β) (m : Peek ι β Bool) (p : Prop) : Prop where
  within : m.Within inside memory
  run_iff : m.run memory = true ↔ p

section

variable {inside : ι → Prop} {memory : ι → β} {m k : Peek ι β Bool} {p q : Prop}

theorem Decides.pure {value : Bool} (h : value = true ↔ p) : Decides inside memory (pure value) p where
  within := by
    rintro place ⟨⟩
  run_iff := h

theorem Decides.congr (h : Decides inside memory m p) (hiff : p ↔ q) : Decides inside memory m q where
  within := h.within
  run_iff := h.run_iff.trans hiff

theorem Decides.bind {m : Peek ι β α} {k : α → Peek ι β Bool} {value : α}
    (hm : Yields inside memory m value) (hk : Decides inside memory (k value) p) :
    Decides inside memory (m >>= k) p where
  within := (hm.bind ⟨hk.within, rfl⟩).within
  run_iff := by rw [run_bind, hm.run_eq, hk.run_iff]

/-- A program that goes on only after an accepted check. -/
theorem Decides.guard (hm : Decides inside memory m p) (hk : p → Decides inside memory k q) :
    Decides inside memory
      (m >>= fun accepted => if (!accepted) = true then Pure.pure false else k) (p ∧ q) := by
  have hyields : Yields inside memory m (m.run memory) := ⟨hm.within, rfl⟩
  refine Decides.bind hyields ?_
  by_cases hp : p
  · rw [if_neg (by simp [hm.run_iff.mpr hp])]
    exact (hk hp).congr (iff_and_self.mpr fun _ => hp)
  · rw [if_pos (by simpa using mt hm.run_iff.mp hp)]
    exact Decides.pure (iff_of_false Bool.false_ne_true fun hpq => hp hpq.1)

/-- A program that ends early unless a check accepts. -/
theorem Yields.guard {k : Peek ι β α} {value refused : α} (hm : Decides inside memory m p)
    (hk : p → Yields inside memory k value) (hrefused : ¬ p → value = refused) :
    Yields inside memory
      (m >>= fun accepted => if (!accepted) = true then Pure.pure refused else k) value := by
  have hyields : Yields inside memory m (m.run memory) := ⟨hm.within, rfl⟩
  refine hyields.bind ?_
  by_cases hp : p
  · rw [if_neg (by simp [hm.run_iff.mpr hp])]
    exact hk hp
  · rw [if_pos (by simpa using mt hm.run_iff.mp hp), hrefused hp]
    exact Yields.pure

/-- A program that ends early on a condition. -/
theorem Yields.unless {c : Prop} [Decidable c] {k : Peek ι β α} {value refused : α}
    (hk : ¬ c → Yields inside memory k value) (hrefused : c → value = refused) :
    Yields inside memory (if c then Pure.pure refused else k) value := by
  split
  case isTrue hc =>
    rw [hrefused hc]
    exact Yields.pure
  case isFalse hc => exact hk hc

/-- Two programs that end early on the same condition, with the same value. -/
theorem Yields.branch {c c' : Prop} [Decidable c] [Decidable c'] {k : Peek ι β α} {value refused : α}
    (hiff : c ↔ c') (hk : ¬ c → Yields inside memory k value) :
    Yields inside memory (if c then Pure.pure refused else k) (if c' then refused else value) := by
  refine Yields.unless (fun hc => ?_) fun hc => if_pos (hiff.mp hc)
  rw [if_neg (mt hiff.mpr hc)]
  exact hk hc

theorem Yields.guard_branch {accepts : Bool} {k : Peek ι β α} {value refused : α}
    (hm : Decides inside memory m (accepts = true))
    (hk : accepts = true → Yields inside memory k value) :
    Yields inside memory
      (m >>= fun accepted => if (!accepted) = true then Pure.pure refused else k)
      (if (!accepts) = true then refused else value) := by
  refine Yields.guard hm (fun h => ?_) fun h => if_pos (by simpa using h)
  rw [if_neg (by simp [h])]
  exact hk h

theorem Decides.yields [Decidable p] (h : Decides inside memory m p) : Yields inside memory m (decide p) :=
  ⟨h.within, by rw [Bool.eq_iff_iff, h.run_iff, decide_eq_true_iff]⟩

theorem Decides.of_yields {value : Bool} (h : Yields inside memory m value) :
    Decides inside memory m (value = true) :=
  ⟨h.within, by rw [h.run_eq]⟩

end

/-- The program reads only inside, and ends with a value that has the property. -/
structure Meets (inside : ι → Prop) (memory : ι → β) (m : Peek ι β α) (P : α → Prop) : Prop where
  within : m.Within inside memory
  run : P (m.run memory)

section

variable {inside : ι → Prop} {memory : ι → β} {P : α → Prop}

theorem Meets.pure {value : α} (h : P value) : Meets inside memory (pure value) P where
  within := by
    rintro place ⟨⟩
  run := h

theorem Meets.bind {m : Peek ι β γ} {k : γ → Peek ι β α} {value : γ} (hm : Yields inside memory m value)
    (hk : Meets inside memory (k value) P) : Meets inside memory (m >>= k) P where
  within := (hm.bind ⟨hk.within, rfl⟩).within
  run := by
    rw [run_bind, hm.run_eq]
    exact hk.run

theorem Meets.mono {m : Peek ι β α} {Q : α → Prop} (hm : Meets inside memory m P)
    (h : ∀ value, P value → Q value) : Meets inside memory m Q :=
  ⟨hm.within, h _ hm.run⟩

theorem Meets.bind_peek {place : ι} {k : β → Peek ι β α} (h : inside place)
    (hk : Meets inside memory (k (memory place)) P) : Meets inside memory (peek place >>= k) P :=
  Meets.bind (Yields.peek h) hk

theorem Meets.weaken {inside' : ι → Prop} {m : Peek ι β α} (hm : Meets inside memory m P)
    (h : ∀ place, inside place → inside' place) : Meets inside' memory m P :=
  ⟨fun place hplace => h place (hm.within place hplace), hm.run⟩

end

end Peek

end CsmVgaSelector
