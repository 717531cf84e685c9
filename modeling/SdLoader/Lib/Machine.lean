import Mathlib.Algebra.Order.Ring.Nat
import Mathlib.Data.Nat.Notation
import Mathlib.Data.List.Basic
import Mathlib.Tactic.Common

/-!
# Machines that take inputs

A machine is a function `step : σ → ι → σ`; it is fed a list of inputs, one at a time.

* `Machine.run` is where it ends up;
* `Machine.Along P` says that every step of a run is taken from a state, and on an input, that `P`
  holds of — the form a condition on a run takes when it is a condition on what each step finds;
* `Machine.run_inv` and `Machine.run_inv_along` carry what one step keeps through a whole run, and
  `Machine.Reachable` is the case of a run from a fixed start;
* `Machine.Until Stop Q` says that a run comes to a state that satisfies `Stop`, and that the first
  such state satisfies `Q`.  `until_of_measure` and `not_until_of_inv` are the rules for it.
-/

set_option autoImplicit false

namespace Machine

universe u v w x

variable {σ : Type u} {ι : Type v} {step : σ → ι → σ}

/-- The state after the inputs `is`. -/
def run (step : σ → ι → σ) (s : σ) (is : List ι) : σ := is.foldl step s

/-- Every step of the run on `is` from `s` is taken from a state and on an input that satisfy
`P`. -/
def Along (step : σ → ι → σ) (P : σ → ι → Prop) : σ → List ι → Prop
  | _, [] => True
  | s, i :: is => P s i ∧ Along step P (step s i) is

/-- The states a machine started in one of the states `start` can get to. -/
def Reachable (step : σ → ι → σ) (start : σ → Prop) (s : σ) : Prop :=
  ∃ s₀ is, start s₀ ∧ run step s₀ is = s

@[simp] theorem run_nil (s : σ) : run step s [] = s := rfl

@[simp] theorem run_cons (s : σ) (i : ι) (is : List ι) :
    run step s (i :: is) = run step (step s i) is := rfl

theorem run_append (s : σ) (is js : List ι) :
    run step s (is ++ js) = run step (run step s is) js :=
  List.foldl_append ..

theorem Along.mono {P Q : σ → ι → Prop} (h : ∀ s i, P s i → Q s i) {s : σ} {is : List ι}
    (his : Along step P s is) : Along step Q s is := by
  induction is generalizing s with
  | nil => trivial
  | cons i is ih => exact ⟨h s i his.1, ih his.2⟩

theorem along_append {P : σ → ι → Prop} (s : σ) (is js : List ι) :
    Along step P s (is ++ js) ↔ Along step P s is ∧ Along step P (run step s is) js := by
  induction is generalizing s with
  | nil => exact (and_iff_right trivial).symm
  | cons i is ih =>
    rw [List.cons_append, Along, Along, ih, and_assoc]
    rfl

/-- The condition holds along the beginning of a run too. -/
theorem Along.take {P : σ → ι → Prop} {s : σ} {is : List ι} (h : Along step P s is) (n : ℕ) :
    Along step P s (is.take n) := by
  rw [← List.take_append_drop n is, along_append] at h
  exact h.1

/-- What every step that meets `P` keeps, a run whose steps all meet `P` keeps. -/
theorem run_inv_along {I : σ → Prop} {P : σ → ι → Prop}
    (hstep : ∀ s i, I s → P s i → I (step s i)) {s : σ} (hs : I s) {is : List ι}
    (his : Along step P s is) : I (run step s is) := by
  induction is generalizing s with
  | nil => exact hs
  | cons i is ih => exact ih (hstep s i hs his.1) his.2

theorem along_true (s : σ) (is : List ι) : Along step (fun _ _ ↦ True) s is := by
  induction is generalizing s with
  | nil => trivial
  | cons i is ih => exact ⟨trivial, ih _⟩

/-- A condition that follows from an invariant and the one that keeps it holds along the run too. -/
theorem along_of_inv {I : σ → Prop} {P Q : σ → ι → Prop}
    (hstep : ∀ s i, I s → P s i → I (step s i)) (hout : ∀ s i, I s → P s i → Q s i) {s : σ}
    (hs : I s) {is : List ι} (his : Along step P s is) : Along step Q s is := by
  induction is generalizing s with
  | nil => trivial
  | cons i is ih => exact ⟨hout s i hs his.1, ih (hstep s i hs his.1) his.2⟩

/-- What every step keeps, every run keeps. -/
theorem run_inv {I : σ → Prop} (hstep : ∀ s i, I s → I (step s i)) {s : σ} (hs : I s)
    (is : List ι) : I (run step s is) := by
  induction is generalizing s with
  | nil => exact hs
  | cons i is ih => exact ih (hstep s i hs)

/-- **The invariant rule**: what holds at the start and is kept by every step holds in every
reachable state. -/
theorem Reachable.inv {start I : σ → Prop} (h0 : ∀ s, start s → I s)
    (hstep : ∀ s i, I s → I (step s i)) {s : σ} (h : Reachable step start s) : I s := by
  obtain ⟨s₀, is, hs₀, rfl⟩ := h
  exact run_inv hstep (h0 s₀ hs₀) is

/-! ## Until -/

/-- The state after the first `n` of a sequence of inputs. -/
def trail (step : σ → ι → σ) (s : σ) (is : ℕ → ι) : ℕ → σ
  | 0 => s
  | n + 1 => step (trail step s is n) (is n)

/-- The run comes to a state that satisfies `Stop`, and the first such state satisfies `Q`. -/
def Until (step : σ → ι → σ) (Stop Q : σ → Prop) (s : σ) (is : ℕ → ι) : Prop :=
  ∃ n, (∀ m < n, ¬ Stop (trail step s is m)) ∧ Stop (trail step s is n) ∧ Q (trail step s is n)

variable {Stop Q : σ → Prop} {s : σ} {is : ℕ → ι}

theorem trail_tail (s : σ) (is : ℕ → ι) (n : ℕ) :
    trail step (step s (is 0)) (fun k ↦ is (k + 1)) n = trail step s is (n + 1) := by
  induction n with
  | zero => rfl
  | succ n ih =>
    rw [trail, ih]
    rfl

/-- **The simulation rule.**  What one step of a machine shows is what a step of another does; then
so it is after any number of steps. -/
theorem trail_map {τ : Type w} {κ : Type x} {step' : τ → κ → τ} {f : σ → τ} {g : ι → κ}
    (h : ∀ s i, f (step s i) = step' (f s) (g i)) (s : σ) (is : ℕ → ι) (n : ℕ) :
    f (trail step s is n) = trail step' (f s) (fun k ↦ g (is k)) n := by
  induction n with
  | zero => rfl
  | succ n ih => rw [trail, trail, h, ih]

theorem until_of_stop (h : Stop s) : Until step Stop Q s is ↔ Q s := by
  constructor
  · rintro ⟨n, hbefore, -, hq⟩
    cases n with
    | zero => exact hq
    | succ n => exact absurd h (hbefore 0 (Nat.succ_pos n))
  · intro hq
    exact ⟨0, fun m hm ↦ absurd hm (Nat.not_lt_zero m), h, hq⟩

theorem until_step (h : ¬ Stop s) :
    Until step Stop Q s is ↔ Until step Stop Q (step s (is 0)) fun k ↦ is (k + 1) := by
  constructor
  · rintro ⟨n, hbefore, hstop, hq⟩
    cases n with
    | zero => exact absurd hstop h
    | succ n =>
      refine ⟨n, fun m hm ↦ ?_, ?_, ?_⟩ <;> rw [trail_tail]
      · exact hbefore (m + 1) (Nat.succ_lt_succ hm)
      · exact hstop
      · exact hq
  · rintro ⟨n, hbefore, hstop, hq⟩
    rw [trail_tail] at hstop hq
    refine ⟨n + 1, fun m hm ↦ ?_, hstop, hq⟩
    cases m with
    | zero => exact h
    | succ m =>
      rw [← trail_tail]
      exact hbefore m (Nat.lt_of_succ_lt_succ hm)

/-- **The variant rule.**  Every step from a state that satisfies `I` leads to one from which the
run gets there, or to one that satisfies `I` and has a smaller measure. -/
theorem until_of_measure {P : ι → Prop} {I : σ → Prop} (μ : σ → ℕ)
    (hstep : ∀ s i, I s → P i → ¬ Stop s ∧
      ((∀ is : ℕ → ι, (∀ n, P (is n)) → Until step Stop Q (step s i) is) ∨
        I (step s i) ∧ μ (step s i) < μ s))
    (hs : I s) (his : ∀ n, P (is n)) : Until step Stop Q s is := by
  induction hμ : μ s using Nat.strongRecOn generalizing s is with
  | ind n ih =>
    obtain ⟨hgo, hnext⟩ := hstep s (is 0) hs (his 0)
    rw [until_step hgo]
    rcases hnext with hthere | ⟨hI, hless⟩
    · exact hthere _ fun n ↦ his (n + 1)
    · exact ih _ (hμ ▸ hless) hI (fun n ↦ his (n + 1)) rfl

/-- **The divergence rule.**  Every step from a state that satisfies `I` goes on to another one. -/
theorem not_until_of_inv {I : σ → Prop} (hstep : ∀ s n, I s → ¬ Stop s ∧ I (step s (is n)))
    (hs : I s) : ¬ Until step Stop Q s is := by
  rintro ⟨n, -, hstop, -⟩
  have hI : ∀ n, I (trail step s is n) := by
    intro n
    induction n with
    | zero => exact hs
    | succ n ih => exact (hstep _ n ih).2
  exact (hstep _ n (hI n)).1 hstop

end Machine
