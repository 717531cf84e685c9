import Mathlib.Algebra.Order.Ring.Nat
import Mathlib.Data.Nat.Notation
import Mathlib.Tactic.Common

/-!
# Loops that may not end

A `while` loop of an imperative program is a body that either goes round again from a new state
or leaves the loop with a result.  `Loop.run body n s` is at most `n` passes of that body; whether
the loop ends at all is `Loop.Ends`.

The rules below are the ones a proof about such a loop uses, one for each thing there is to say:

* `run_inv`, `run_all` and `run_all_of_first` — what every pass preserves holds however far the loop
  has got, and `Pass.All.elim` takes it into the program that goes on from there;
* `ends_of_measure` — a natural number that drops on every pass bounds the passes;
* `run_total` — both at once;
* `not_ends_of_inv` — a set of states the body cannot leave the loop from, nor leave, traps it;
* `run_follow` — the states of a loop that is known to go round are the ones it is known to
  reach;
* `run_map` — loops whose passes correspond run side by side;
* `along_iff` — two conditions on a pass that come to the same where an invariant holds come to the
  same for all passes;
* `run_leave_mono` — more passes than enough change nothing, so the result of a loop that ends is
  well defined.
-/

set_option autoImplicit false

namespace Loop

universe u v

variable {σ : Type u} {ρ : Type v}

/-- What one pass through a loop body does. -/
inductive Pass (σ : Type u) (ρ : Type v)
  /-- Go round again from a new state. -/
  | again (s : σ)
  /-- Leave the loop with a result. -/
  | leave (r : ρ)

/-- At most `n` passes of `body` from `s`. -/
def run (body : σ → Pass σ ρ) : ℕ → σ → Pass σ ρ
  | 0, s => .again s
  | n + 1, s =>
    match body s with
    | .again s' => run body n s'
    | .leave r => .leave r

/-- The loop is left after finitely many passes. -/
def Ends (body : σ → Pass σ ρ) (s : σ) : Prop := ∃ n r, run body n s = .leave r

/-- Whichever way a pass ends, `I` holds of the state it goes round with and `Q` of the result it
leaves with. -/
def Pass.All (I : σ → Prop) (Q : ρ → Prop) : Pass σ ρ → Prop
  | .again s => I s
  | .leave r => Q r

/-- A pass with its state and its result replaced. -/
def Pass.map {σ' : Type u} {ρ' : Type v} (f : σ → σ') (h : ρ → ρ') : Pass σ ρ → Pass σ' ρ'
  | .again s => .again (f s)
  | .leave r => .leave (h r)

/-- The passes that are begun, the first `n` of them, are begun in states that satisfy `P`. -/
def Along (body : σ → Pass σ ρ) (P : σ → Prop) : ℕ → σ → Prop
  | 0, _ => True
  | n + 1, s => P s ∧ ∀ s', body s = .again s' → Along body P n s'

variable {body : σ → Pass σ ρ}

theorem run_succ_again {n : ℕ} {s s' : σ} (h : body s = .again s') :
    run body (n + 1) s = run body n s' := by
  rw [run, h]

theorem run_succ_leave {n : ℕ} {s : σ} {r : ρ} (h : body s = .leave r) :
    run body (n + 1) s = .leave r := by
  rw [run, h]

/-! ## Enough passes are enough -/

theorem run_leave_mono {n m : ℕ} {s : σ} {r : ρ} (h : run body n s = .leave r) (hnm : n ≤ m) :
    run body m s = .leave r := by
  induction n generalizing m s with
  | zero => simp [run] at h
  | succ n ih =>
    obtain ⟨m, rfl⟩ : ∃ k, m = k + 1 := ⟨m - 1, by omega⟩
    cases hb : body s with
    | again s' =>
      rw [run_succ_again hb] at h ⊢
      exact ih h (by omega)
    | leave r' =>
      rw [run_succ_leave hb] at h ⊢
      exact h

/-- **The simulation rule.**  Where the passes of two bodies correspond, so do their runs. -/
theorem run_map {σ' : Type u} {ρ' : Type v} {body' : σ' → Pass σ' ρ'} {f : σ → σ'} {h : ρ → ρ'}
    (hpass : ∀ s, body' (f s) = (body s).map f h) (n : ℕ) (s : σ) :
    run body' n (f s) = (run body n s).map f h := by
  induction n generalizing s with
  | zero => rfl
  | succ n ih =>
    have hs := hpass s
    cases hb : body s with
    | again s' =>
      rw [hb] at hs
      rw [run_succ_again hs, run_succ_again hb]
      exact ih s'
    | leave r =>
      rw [hb] at hs
      rw [run_succ_leave hs, run_succ_leave hb]
      rfl

/-! ## Invariants -/

/-- **The invariant rule.**  If every pass from a state satisfying `I` goes round to a state
satisfying `I` or leaves with a result satisfying `Q`, then so does any number of passes. -/
theorem run_inv {I : σ → Prop} {Q : ρ → Prop}
    (hstep : ∀ s s', I s → body s = .again s' → I s')
    (hleave : ∀ s r, I s → body s = .leave r → Q r) {s : σ} (hs : I s) (n : ℕ) :
    (∀ s', run body n s = .again s' → I s') ∧ ∀ r, run body n s = .leave r → Q r := by
  induction n generalizing s with
  | zero =>
    refine ⟨fun s' h ↦ ?_, fun r h ↦ by simp [run] at h⟩
    rw [run, Pass.again.injEq] at h
    exact h ▸ hs
  | succ n ih =>
    cases hb : body s with
    | again s' =>
      rw [run_succ_again hb]
      exact ih (hstep s s' hs hb)
    | leave r =>
      rw [run_succ_leave hb]
      refine ⟨fun s' h ↦ by simp at h, fun r' h ↦ ?_⟩
      rw [Pass.leave.injEq] at h
      exact h ▸ hleave s r hs hb

/-- The invariant rule, with what a pass keeps said in one statement. -/
theorem run_all {I : σ → Prop} {Q : ρ → Prop} (hpass : ∀ s, I s → (body s).All I Q) {s : σ}
    (hs : I s) (n : ℕ) : (run body n s).All I Q := by
  induction n generalizing s with
  | zero => exact hs
  | succ n ih =>
    have h := hpass s hs
    cases hb : body s with
    | again s' =>
      rw [hb] at h
      rw [run_succ_again hb]
      exact ih h
    | leave r =>
      rw [hb] at h
      rw [run_succ_leave hb]
      exact h

/-- The same from a state of which only the first pass is known. -/
theorem run_all_of_first {I : σ → Prop} {Q : ρ → Prop} (hpass : ∀ s, I s → (body s).All I Q) {s : σ}
    (h : (body s).All I Q) (n : ℕ) : (run body (n + 1) s).All I Q := by
  cases hb : body s with
  | again s' =>
    rw [hb] at h
    rw [run_succ_again hb]
    exact run_all hpass h n
  | leave r =>
    rw [hb] at h
    rw [run_succ_leave hb]
    exact h

/-- **What comes after a loop.**  A program that goes on from the result, and does something else if
the loop is not over, has a property if it follows from what is known of either. -/
@[elab_as_elim]
theorem Pass.All.elim {I : σ → Prop} {Q : ρ → Prop} {motive : Pass σ ρ → Prop} {p : Pass σ ρ}
    (h : p.All I Q) (again : ∀ s, I s → motive (.again s)) (leave : ∀ r, Q r → motive (.leave r)) :
    motive p := by
  cases p with
  | again s => exact again s h
  | leave r => exact leave r h

/-- Where an invariant holds, conditions on a pass can be replaced. -/
theorem along_iff {I P Q : σ → Prop} (hstep : ∀ s s', I s → body s = .again s' → I s')
    (hiff : ∀ s, I s → (P s ↔ Q s)) {s : σ} (hs : I s) (n : ℕ) :
    Along body P n s ↔ Along body Q n s := by
  induction n generalizing s with
  | zero => exact Iff.rfl
  | succ n ih =>
    rw [Along, Along, hiff s hs]
    exact and_congr_right' (forall₂_congr fun s' hb ↦ ih (hstep s s' hs hb))

/-- The invariant rule, for passes that are begun in states that satisfy `P`. -/
theorem run_all_along {I P : σ → Prop} {Q : ρ → Prop} (hpass : ∀ s, I s → P s → (body s).All I Q)
    {s : σ} (hs : I s) {n : ℕ} (h : Along body P n s) : (run body n s).All I Q := by
  induction n generalizing s with
  | zero => exact hs
  | succ n ih =>
    have hfirst := hpass s hs h.1
    cases hb : body s with
    | again s' =>
      rw [hb] at hfirst
      rw [run_succ_again hb]
      exact ih hfirst (h.2 s' hb)
    | leave r =>
      rw [hb] at hfirst
      rw [run_succ_leave hb]
      exact hfirst

/-! ## Ending and not ending -/

/-- **The variant rule.**  A measure that drops on every pass bounds the number of passes. -/
theorem run_leave_of_measure (I : σ → Prop) (μ : σ → ℕ)
    (hstep : ∀ s s', I s → body s = .again s' → I s' ∧ μ s' < μ s) {s : σ} (hs : I s) {n : ℕ}
    (hn : μ s < n) : ∃ r, run body n s = .leave r := by
  induction n generalizing s with
  | zero => omega
  | succ n ih =>
    cases hb : body s with
    | again s' =>
      obtain ⟨hs', hμ⟩ := hstep s s' hs hb
      rw [run_succ_again hb]
      exact ih hs' (by omega)
    | leave r => exact ⟨r, run_succ_leave hb⟩

/-- **The rule of total correctness.**  Every pass keeps the invariant and drops the measure, or
leaves with what is wanted. -/
theorem run_total {I : σ → Prop} {Q : ρ → Prop} {μ : σ → ℕ}
    (hpass : ∀ s, I s → (body s).All (fun s' ↦ I s' ∧ μ s' < μ s) Q) {s : σ} (hs : I s) {n : ℕ}
    (hn : μ s < n) : ∃ r, run body n s = .leave r ∧ Q r := by
  induction n generalizing s with
  | zero => omega
  | succ n ih =>
    have h := hpass s hs
    cases hb : body s with
    | again s' =>
      rw [hb] at h
      rw [run_succ_again hb]
      exact ih h.1 (Nat.lt_of_lt_of_le h.2 (Nat.le_of_lt_succ hn))
    | leave r =>
      rw [hb] at h
      exact ⟨r, run_succ_leave hb, h⟩

theorem ends_of_measure (I : σ → Prop) (μ : σ → ℕ)
    (hstep : ∀ s s', I s → body s = .again s' → I s' ∧ μ s' < μ s) {s : σ} (hs : I s) :
    Ends body s :=
  ⟨μ s + 1, run_leave_of_measure I μ hstep hs (Nat.lt_succ_self _)⟩

/-- **The divergence rule.**  If every pass from a state satisfying `I` goes round to another one,
the loop is never left. -/
theorem not_ends_of_inv {I : σ → Prop} (hstep : ∀ s, I s → ∃ s', body s = .again s' ∧ I s')
    {s : σ} (hs : I s) : ¬ Ends body s := by
  rintro ⟨n, r, h⟩
  induction n generalizing s with
  | zero => simp [run] at h
  | succ n ih =>
    obtain ⟨s', hb, hs'⟩ := hstep s hs
    rw [run_succ_again hb] at h
    exact ih hs' h

/-! ## Following a loop whose states are known -/

/-- A loop that is known to go round from each of `f 0, …, f (n - 1)` to the next one arrives at
`f n`, and goes on from there. -/
theorem run_follow (f : ℕ → σ) {n : ℕ} (h : ∀ i < n, body (f i) = .again (f (i + 1))) (m : ℕ) :
    run body (n + m) (f 0) = run body m (f n) := by
  induction n generalizing f with
  | zero => rw [Nat.zero_add]
  | succ n ih =>
    rw [show n + 1 + m = n + m + 1 by omega, run_succ_again (h 0 (by omega))]
    exact ih (fun i ↦ f (i + 1)) fun i hi ↦ h (i + 1) (by omega)

end Loop
