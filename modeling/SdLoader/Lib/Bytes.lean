import Mathlib.Algebra.Order.Ring.Nat
import Mathlib.Data.Nat.Notation
import Mathlib.Data.List.Basic
import Mathlib.Data.List.GetD
import Mathlib.Tactic.Common

/-!
# Byte strings

What a program that writes a file format does with byte strings: it encodes numbers as
little-endian bytes, puts fields one behind the other, and takes them out again at absolute offsets.

* `Bytes.le`, `Bytes.ofLe` — the little-endian bytes of a number, and back: `ofLe_le`, `le_ofLe`;
  `ofLe_drop` and `ofLe_take` are shifts and remainders.
* `toNat_add`, `toNat_sub`, `toNat_mul` — arithmetic of 32 bits where nothing is lost.
* `extract_append_of_le`, `extract_append_self` — reading a field of a string that was put together
  from parts: drop the parts after it, until it is the last one.
* `extract_append_right` — reading in the second part of a string.
* `cut_eq_iff_zero` — a string read `k` bytes off, with zeros for what is missing, is the string
  that was written only if both are zero throughout.
-/

set_option autoImplicit false

namespace Bytes

/-! ## Numbers -/

/-- The number as `n` little-endian bytes. -/
def le : ℕ → ℕ → List UInt8
  | 0, _ => []
  | n + 1, w => UInt8.ofNat w :: le n (w / 256)

/-- The number that little-endian bytes stand for. -/
def ofLe : List UInt8 → ℕ
  | [] => 0
  | b :: l => b.toNat + 256 * ofLe l

@[simp] theorem length_le (n w : ℕ) : (le n w).length = n := by
  induction n generalizing w with
  | zero => rfl
  | succ n ih => rw [le, List.length_cons, ih]

/-- **Reading back what was written.** -/
theorem ofLe_le {n w : ℕ} (h : w < 256 ^ n) : ofLe (le n w) = w := by
  induction n generalizing w with
  | zero =>
    rw [Nat.pow_zero] at h
    rw [le, ofLe]
    omega
  | succ n ih =>
    have hdiv : w / 256 < 256 ^ n := Nat.div_lt_of_lt_mul (by rwa [Nat.pow_succ'] at h)
    have hlow : (UInt8.ofNat w).toNat = w % 256 := UInt8.toNat_ofNat'
    rw [le, ofLe, ih hdiv, hlow]
    exact Nat.mod_add_div w 256

theorem ofLe_lt (l : List UInt8) : ofLe l < 256 ^ l.length := by
  induction l with
  | nil => exact Nat.zero_lt_one
  | cons b l ih =>
    have hb := b.toNat_lt
    rw [ofLe, List.length_cons, Nat.pow_succ']
    omega

/-- **Writing back what was read.** -/
theorem le_ofLe {n : ℕ} {l : List UInt8} (h : l.length = n) : le n (ofLe l) = l := by
  induction l generalizing n with
  | nil =>
    subst h
    rfl
  | cons b l ih =>
    obtain rfl : n = l.length + 1 := h.symm
    have hb := b.toNat_lt
    have hdiv : (b.toNat + 256 * ofLe l) / 256 = ofLe l := by omega
    have hlow : UInt8.ofNat (b.toNat + 256 * ofLe l) = b := by
      rw [← UInt8.toNat_inj, UInt8.toNat_ofNat']
      omega
    rw [ofLe, le, hdiv, hlow, ih rfl]

/-- The bytes behind the first `k` are what is left after `k` shifts. -/
theorem ofLe_drop (l : List UInt8) (k : ℕ) : ofLe (l.drop k) = ofLe l / 256 ^ k := by
  induction k generalizing l with
  | zero => rw [List.drop_zero, Nat.pow_zero, Nat.div_one]
  | succ k ih =>
    cases l with
    | nil =>
      rw [List.drop_nil, ofLe, Nat.zero_div]
    | cons b l =>
      have hb := b.toNat_lt
      have hdiv : (b.toNat + 256 * ofLe l) / 256 = ofLe l := by omega
      rw [List.drop_succ_cons, ih, ofLe, Nat.pow_succ', ← Nat.div_div_eq_div_mul, hdiv]

/-- The first `k` bytes are what is left in `k` bytes. -/
theorem ofLe_take (l : List UInt8) (k : ℕ) : ofLe (l.take k) = ofLe l % 256 ^ k := by
  induction k generalizing l with
  | zero => rw [List.take_zero, Nat.pow_zero, Nat.mod_one, ofLe]
  | succ k ih =>
    cases l with
    | nil => rw [List.take_nil, ofLe, Nat.zero_mod]
    | cons b l =>
      have hb := b.toNat_lt
      have hdiv : (b.toNat + 256 * ofLe l) / 256 = ofLe l := by omega
      rw [List.take_succ_cons, ofLe, ih, ofLe, Nat.pow_succ', Nat.mod_mul, hdiv]
      omega

/-! ## 32-bit numbers that do not wrap round -/

section
variable {a b : UInt32}

theorem toNat_add (h : a.toNat + b.toNat < 2 ^ 32) : (a + b).toNat = a.toNat + b.toNat := by
  rw [UInt32.toNat_add, Nat.mod_eq_of_lt h]

theorem toNat_sub (h : b.toNat ≤ a.toNat) : (a - b).toNat = a.toNat - b.toNat :=
  UInt32.toNat_sub_of_le a b (UInt32.le_iff_toNat_le.mpr h)

theorem toNat_mul (h : a.toNat * b.toNat < 2 ^ 32) : (a * b).toNat = a.toNat * b.toNat := by
  rw [UInt32.toNat_mul, Nat.mod_eq_of_lt h]

theorem toNat_ofNat {k : ℕ} (h : k ≤ a.toNat) : (UInt32.ofNat k).toNat = k := by
  have ha := a.toNat_lt
  rw [UInt32.toNat_ofNat', Nat.mod_eq_of_lt (by omega)]

end

/-! ## Fields -/

section
universe u
variable {α : Type u} {x y : List α} {a b : ℕ}

/-- What comes after the field does not matter. -/
theorem extract_append_of_le (h : b ≤ x.length) : (x ++ y).extract a b = x.extract a b := by
  rw [List.extract_eq_take_drop, List.extract_eq_take_drop, List.drop_append,
    List.take_append_of_le_length (by rw [List.length_drop]; omega)]

/-- The field that has been put last. -/
theorem extract_append_self (h : x.length = a) (h' : x.length + y.length = b) :
    (x ++ y).extract a b = y := by
  rw [List.extract_eq_take_drop, List.drop_left' h, List.take_of_length_le (by omega)]

/-- The field that has been put first. -/
theorem extract_all (h : x.length = b) : x.extract 0 b = x := by
  rw [List.extract_eq_take_drop, List.drop_zero, List.take_of_length_le (by omega)]

/-- What comes before the field only shifts it. -/
theorem extract_append_right {n : ℕ} (h : x.length = n) (a b : ℕ) :
    (x ++ y).extract (n + a) (n + b) = y.extract a b := by
  subst h
  rw [List.extract_eq_take_drop, List.extract_eq_take_drop, List.drop_append,
    List.drop_eq_nil_of_le (Nat.le_add_right _ a), List.nil_append, Nat.add_sub_cancel_left,
    Nat.add_sub_add_left]

end

/-! ## A string read off its place -/

/-- What is read where `k` zero bytes come first, and reversed: the string without its first `k`
bytes, and `k` zeros behind it. -/
theorem reverse_extract_zeros {l : List UInt8} {k : ℕ} (h : k ≤ l.length) :
    ((List.replicate k 0 ++ l.reverse).extract 0 l.length).reverse =
      l.drop k ++ List.replicate k 0 := by
  rw [List.extract_eq_take_drop, List.drop_zero, Nat.sub_zero, List.take_append,
    List.length_replicate, List.take_of_length_le (by simpa using h), List.reverse_append,
    List.reverse_replicate, List.take_reverse, List.reverse_reverse,
    Nat.sub_sub_self h]

/-- **A string is its own cut only if it is zero.** -/
theorem cut_eq_iff_zero {l : List UInt8} {k : ℕ} (hk : 0 < k) (h : k ≤ l.length) :
    l.drop k ++ List.replicate k 0 = l ↔ l = List.replicate l.length 0 := by
  constructor
  · intro heq
    -- the byte at `i` is the byte at `i + k`, or zero if there is none
    have hshift : ∀ i, l.getD i 0 = l.getD (i + k) 0 := by
      intro i
      conv_lhs => rw [← heq]
      by_cases hi : i < (l.drop k).length
      · rw [List.getD_append _ _ _ _ hi, List.getD_eq_getElem?_getD, List.getElem?_drop,
          List.getD_eq_getElem?_getD, Nat.add_comm k i]
      · have hlen := List.length_drop (i := k) (l := l)
        rw [List.getD_append_right _ _ _ _ (by omega), List.getD_eq_default l 0 (by omega)]
        by_cases hin : i - (l.drop k).length < k
        · exact List.getD_replicate 0 hin
        · exact List.getD_eq_default _ _ (by simpa using hin)
    have hzero : ∀ n i, l.length ≤ i + n * k → l.getD i 0 = 0 := by
      intro n
      induction n with
      | zero =>
        intro i hi
        exact List.getD_eq_default l 0 (by omega)
      | succ n ih =>
        intro i hi
        rw [Nat.succ_mul] at hi
        rw [hshift i]
        exact ih (i + k) (by omega)
    refine List.eq_replicate_iff.mpr ⟨rfl, fun b hb ↦ ?_⟩
    obtain ⟨i, hi, rfl⟩ := List.mem_iff_getElem.mp hb
    have hle : l.length ≤ l.length * k := Nat.le_mul_of_pos_right _ hk
    rw [← List.getD_eq_getElem l 0 hi]
    exact hzero l.length i (by omega)
  · intro heq
    generalize l.length = n at heq h
    subst heq
    rw [List.drop_replicate, List.replicate_append_replicate, Nat.sub_add_cancel h]

end Bytes
