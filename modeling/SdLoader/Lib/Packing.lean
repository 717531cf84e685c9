import Mathlib.Algebra.Order.Ring.Nat
import Mathlib.Data.Nat.Notation
import Mathlib.Data.List.Basic
import Mathlib.Tactic.Common

/-!
# Digits packed into words

A stream of digits `f 0, f 1, …` to the base `B` is shifted into a word that has room for `m` of
them, each new one at the low end; what falls out at the high end is lost.

* `Packing.acc` — the word after the first `k` digits.
* `digit_acc` — its digits are the last ones of the stream, the latest first.
* `digit_shift` — a word that is shifted once more.
-/

set_option autoImplicit false

namespace Packing

/-- The word after the first `k` digits. -/
def acc (B m : ℕ) (f : ℕ → ℕ) : ℕ → ℕ
  | 0 => 0
  | k + 1 => (acc B m f k * B + f k) % B ^ m

/-- Digit `s` of a number, counted from the low end. -/
def digit (B s x : ℕ) : ℕ := x / B ^ s % B

variable {B m s x : ℕ} {f : ℕ → ℕ}

@[simp] theorem digit_zero (B s : ℕ) : digit B s 0 = 0 := by
  rw [digit, Nat.zero_div, Nat.zero_mod]

/-- Digits for which there is room are kept. -/
theorem digit_mod (hs : s < m) : digit B s (x % B ^ m) = digit B s x := by
  obtain ⟨r, rfl⟩ : ∃ r, m = s + (r + 1) := ⟨m - s - 1, by omega⟩
  rw [digit, digit, Nat.pow_add, Nat.mod_mul_right_div_self, Nat.pow_succ',
    Nat.mod_mod_of_dvd _ (Dvd.intro _ rfl)]

theorem digit_succ_append {b : ℕ} (hb : b < B) : digit B (s + 1) (x * B + b) = digit B s x := by
  rw [digit, digit, Nat.pow_succ', ← Nat.div_div_eq_div_mul, Nat.mul_comm x B,
    Nat.mul_add_div (by omega), Nat.div_eq_of_lt hb, Nat.add_zero]

theorem digit_zero_append {b : ℕ} (hb : b < B) : digit B 0 (x * B + b) = b := by
  rw [digit, Nat.pow_zero, Nat.div_one, Nat.mul_comm x B, Nat.mul_add_mod, Nat.mod_eq_of_lt hb]

/-- **The digits of the word** are the last digits of the stream. -/
theorem digit_acc (hf : ∀ n, f n < B) {k : ℕ} (hs : s < m) :
    digit B s (acc B m f k) = if s < k then f (k - 1 - s) else 0 := by
  induction k generalizing s with
  | zero => exact digit_zero B s
  | succ k ih =>
    rw [acc, digit_mod hs]
    cases s with
    | zero =>
      rw [digit_zero_append (hf k), if_pos (Nat.succ_pos k), Nat.add_sub_cancel, Nat.sub_zero]
    | succ s =>
      rw [digit_succ_append (hf k), ih (by omega)]
      simp only [Nat.add_lt_add_iff_right, Nat.add_sub_cancel]
      split
      · rw [show k - 1 - s = k - (s + 1) by omega]
      · rfl

/-- **A shift** moves the digits up, and fills up with zeros. -/
theorem digit_shift {t : ℕ} (hB : 0 < B) (hs : s < m) :
    digit B s (x * B ^ t % B ^ m) = if t ≤ s then digit B (s - t) x else 0 := by
  rw [digit_mod hs]
  split
  · next hle =>
    obtain ⟨r, rfl⟩ := Nat.exists_eq_add_of_le hle
    rw [digit, digit, Nat.pow_add, ← Nat.div_div_eq_div_mul,
      Nat.mul_div_cancel _ (Nat.pow_pos hB), Nat.add_sub_cancel_left]
  · next hgt =>
    obtain ⟨r, rfl⟩ : ∃ r, t = r + 1 + s := ⟨t - s - 1, by omega⟩
    rw [digit, Nat.pow_add, ← Nat.mul_assoc, Nat.mul_div_cancel _ (Nat.pow_pos hB), Nat.pow_succ,
      ← Nat.mul_assoc, Nat.mul_mod_left]

end Packing
