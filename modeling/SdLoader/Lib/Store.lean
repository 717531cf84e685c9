import Mathlib.Algebra.Order.Ring.Nat
import Mathlib.Data.Nat.Notation
import Mathlib.Data.List.Basic
import Mathlib.Data.List.GetD
import Mathlib.Tactic.Common

/-!
# Address spaces

An address space is a function from addresses to cells.  Memory and the sectors of a storage
device are both one, and the three things a program does to a range of either are:

* `Store.blit` — copy a source into the range;
* `Store.fill` — set every cell of the range to one value;
* `Store.smear` — what a transfer that failed leaves behind: any part of the range changed, in any
  way.

`Store.copyUp` and `Store.copyDown` copy a range of a store to another place in it, cell by cell.
In the right order the two may overlap: `copyUp_eq_blit`, `copyDown_eq_blit`.

`Store.word` reads four bytes as a little-endian number, and `Store.wordByte` is the inverse.
-/

set_option autoImplicit false

namespace Store

universe u

variable {β : Type u}

/-- The `n` cells from `a` on replaced by the first `n` of `src`. -/
def blit (m : ℕ → β) (a n : ℕ) (src : ℕ → β) : ℕ → β :=
  fun x ↦ if a ≤ x ∧ x < a + n then src (x - a) else m x

/-- The `n` cells from `a` on set to `v`. -/
def fill (m : ℕ → β) (a n : ℕ) (v : β) : ℕ → β := blit m a n fun _ ↦ v

/-- Some of the `n` cells from `a` on, those `hit` picks out, overwritten by `junk`. -/
def smear (m : ℕ → β) (a n : ℕ) (hit : ℕ → Bool) (junk : ℕ → β) : ℕ → β :=
  fun x ↦ if a ≤ x ∧ x < a + n ∧ hit x = true then junk x else m x

/-- The `n` cells from `a` on, in order. -/
def slice (m : ℕ → β) (a n : ℕ) : List β := (List.range n).map fun k ↦ m (a + k)

variable {m : ℕ → β} {a n : ℕ}

/-! ## Inside and outside the range -/

theorem blit_of_mem {src : ℕ → β} {x : ℕ} (h : a ≤ x) (h' : x < a + n) :
    blit m a n src x = src (x - a) :=
  if_pos ⟨h, h'⟩

theorem blit_of_not_mem {src : ℕ → β} {x : ℕ} (h : x < a ∨ a + n ≤ x) :
    blit m a n src x = m x :=
  if_neg (by omega)

theorem blit_add {src : ℕ → β} {k : ℕ} (h : k < n) : blit m a n src (a + k) = src k := by
  rw [blit_of_mem (Nat.le_add_right a k) (by omega), Nat.add_sub_cancel_left]

@[simp] theorem blit_zero (m : ℕ → β) (a : ℕ) (src : ℕ → β) : blit m a 0 src = m := by
  funext x
  exact blit_of_not_mem (by omega)

theorem fill_of_mem {v : β} {x : ℕ} (h : a ≤ x) (h' : x < a + n) : fill m a n v x = v :=
  blit_of_mem h h'

theorem fill_of_not_mem {v : β} {x : ℕ} (h : x < a ∨ a + n ≤ x) : fill m a n v x = m x :=
  blit_of_not_mem h

theorem smear_of_not_mem {hit : ℕ → Bool} {junk : ℕ → β} {x : ℕ} (h : x < a ∨ a + n ≤ x) :
    smear m a n hit junk x = m x :=
  if_neg (by omega)

theorem smear_of_hit {hit : ℕ → Bool} {junk : ℕ → β} {x : ℕ} (h : a ≤ x) (h' : x < a + n)
    (hx : hit x = true) : smear m a n hit junk x = junk x :=
  if_pos ⟨h, h', hx⟩

@[simp] theorem smear_zero (m : ℕ → β) (a : ℕ) (hit : ℕ → Bool) (junk : ℕ → β) :
    smear m a 0 hit junk = m := by
  funext x
  exact smear_of_not_mem (by omega)

@[simp] theorem length_slice (m : ℕ → β) (a n : ℕ) : (slice m a n).length = n := by
  simp [slice]

theorem getElem?_slice {k : ℕ} (h : k < n) : (slice m a n)[k]? = some (m (a + k)) := by
  rw [slice, List.getElem?_map, List.getElem?_range h, Option.map_some]

theorem slice_congr {m' : ℕ → β} (h : ∀ k < n, m (a + k) = m' (a + k)) :
    slice m a n = slice m' a n := by
  rw [slice, slice]
  refine List.map_congr_left fun k hk ↦ h k (List.mem_range.mp hk)

theorem slice_add (m : ℕ → β) (a k n : ℕ) :
    slice m a (k + n) = slice m a k ++ slice m (a + k) n := by
  rw [slice, slice, slice, List.range_add, List.map_append, List.map_map]
  refine congrArg (_ ++ ·) (List.map_congr_left fun i _ ↦ ?_)
  rw [Function.comp_apply, Nat.add_assoc]

/-- What is read from a range starts with its first cell. -/
theorem first_slice (m : ℕ → β) (a : ℕ) (h : n ≠ 0) : [m a] <+: slice m a n := by
  obtain ⟨k, rfl⟩ : ∃ k, n = 1 + k := ⟨n - 1, by omega⟩
  exact ⟨slice m (a + 1) k, (slice_add m a 1 k).symm⟩

theorem slice_fill (m : ℕ → β) (a n : ℕ) (v : β) :
    slice (fill m a n v) a n = List.replicate n v := by
  refine List.eq_replicate_iff.mpr ⟨length_slice _ _ _, fun b hb ↦ ?_⟩
  rw [slice, List.mem_map] at hb
  obtain ⟨k, hk, rfl⟩ := hb
  rw [List.mem_range] at hk
  exact fill_of_mem (Nat.le_add_right a k) (by omega)

/-- What a range reads as when its end has been filled. -/
theorem slice_fill_end (m : ℕ → β) (a k n : ℕ) (v : β) :
    slice (fill m (a + k) n v) a (k + n) = slice m a k ++ List.replicate n v := by
  rw [slice_add, slice_fill]
  refine congrArg (· ++ _) (slice_congr fun i hi ↦ fill_of_not_mem (.inl (by omega)))

theorem take_slice (m : ℕ → β) (a : ℕ) {k n : ℕ} (h : k ≤ n) :
    (slice m a n).take k = slice m a k := by
  obtain ⟨j, rfl⟩ := Nat.exists_eq_add_of_le h
  rw [slice_add, List.take_left' (length_slice m a k)]

/-- Two lists written one behind the other are written as one. -/
theorem blit_append (m : ℕ → β) (a : ℕ) (l l' : List β) (d : β) :
    blit (blit m a l.length fun k ↦ l.getD k d) (a + l.length) l'.length (fun k ↦ l'.getD k d) =
      blit m a (l ++ l').length fun k ↦ (l ++ l').getD k d := by
  funext x
  have hlen : (l ++ l').length = l.length + l'.length := List.length_append
  by_cases hin : a ≤ x ∧ x < a + (l ++ l').length
  · rw [blit_of_mem hin.1 hin.2]
    by_cases hfirst : x < a + l.length
    · rw [blit_of_not_mem (.inl hfirst), blit_of_mem hin.1 hfirst,
        List.getD_append _ _ _ _ (by omega)]
    · rw [blit_of_mem (by omega) (by omega), List.getD_append_right _ _ _ _ (by omega),
        show x - (a + l.length) = x - a - l.length by omega]
  · rw [blit_of_not_mem (by omega), blit_of_not_mem (by omega), blit_of_not_mem (by omega)]

/-- What a list that has been written reads as. -/
theorem slice_blit_list (m : ℕ → β) (a : ℕ) (l : List β) (d : β) :
    slice (blit m a l.length fun k ↦ l.getD k d) a l.length = l := by
  refine List.ext_getElem (length_slice _ _ _) fun k _ hk ↦ ?_
  simp only [slice, List.getElem_map, List.getElem_range]
  rw [blit_add hk, List.getD_eq_getElem _ _ hk]

theorem drop_slice (m : ℕ → β) (a k n : ℕ) : (slice m a (k + n)).drop k = slice m (a + k) n := by
  rw [slice_add, List.drop_left' (length_slice m a k)]

/-- What a range reads as when a list has been written to a part of it. -/
theorem slice_blit_middle (m : ℕ → β) (a : ℕ) {off n : ℕ} (l : List β) (d : β)
    (h : off + l.length ≤ n) :
    slice (blit m (a + off) l.length fun k ↦ l.getD k d) a n =
      (slice m a n).take off ++ l ++ (slice m a n).drop (off + l.length) := by
  obtain ⟨k, rfl⟩ := Nat.exists_eq_add_of_le h
  rw [take_slice m a (by omega), drop_slice, slice_add, slice_add, slice_blit_list,
    slice_congr fun i hi ↦ blit_of_not_mem (.inl (by omega)),
    slice_congr fun i hi ↦ blit_of_not_mem (.inr (by omega))]

/-! ## Copies within a store -/

/-- The store with one cell changed. -/
def put (m : ℕ → β) (a : ℕ) (v : β) : ℕ → β := fun x ↦ if x = a then v else m x

/-- The `n` cells from `src` on copied to `dst` on, first cell first. -/
def copyUp (m : ℕ → β) (dst src : ℕ) : ℕ → ℕ → β
  | 0 => m
  | n + 1 => put (copyUp m dst src n) (dst + n) (copyUp m dst src n (src + n))

/-- The `n` cells from `src` on copied to `dst` on, last cell first. -/
def copyDown (m : ℕ → β) (dst src : ℕ) : ℕ → ℕ → β
  | 0 => m
  | n + 1 => copyDown (put m (dst + n) (m (src + n))) dst src n

/-- **Downwards, the first cell goes first.**  A cell is read before it is overwritten. -/
theorem copyUp_eq_blit {dst src : ℕ} (h : dst ≤ src) (n : ℕ) :
    copyUp m dst src n = blit m dst n fun k ↦ m (src + k) := by
  induction n with
  | zero => exact (blit_zero m dst _).symm
  | succ n ih =>
    funext x
    rw [copyUp, ih, put]
    by_cases hx : x = dst + n
    · rw [if_pos hx, blit_of_not_mem (by omega), hx, blit_add (Nat.lt_succ_self n)]
    · rw [if_neg hx]
      by_cases hin : dst ≤ x ∧ x < dst + n
      · rw [blit_of_mem hin.1 hin.2, blit_of_mem hin.1 (by omega)]
      · rw [blit_of_not_mem (by omega), blit_of_not_mem (by omega)]

/-- **Upwards, the last cell goes first.** -/
theorem copyDown_eq_blit {dst src : ℕ} (h : src ≤ dst) (n : ℕ) :
    copyDown m dst src n = blit m dst n fun k ↦ m (src + k) := by
  induction n generalizing m with
  | zero => exact (blit_zero m dst _).symm
  | succ n ih =>
    funext x
    rw [copyDown, ih]
    by_cases hin : dst ≤ x ∧ x < dst + n
    · rw [blit_of_mem hin.1 hin.2, blit_of_mem hin.1 (by omega), put, if_neg (by omega)]
    · rw [blit_of_not_mem (by omega), put]
      by_cases hx : x = dst + n
      · rw [if_pos hx, hx, blit_add (Nat.lt_succ_self n)]
      · rw [if_neg hx, blit_of_not_mem (by omega)]

/-! ## Little-endian words -/

/-- Four bytes read as a little-endian number. -/
def word (m : ℕ → UInt8) (a : ℕ) : ℕ :=
  (m a).toNat + 256 * (m (a + 1)).toNat + 65536 * (m (a + 2)).toNat
    + 16777216 * (m (a + 3)).toNat

/-- Byte `k` of a little-endian number. -/
def wordByte (w k : ℕ) : UInt8 := UInt8.ofNat (w / 256 ^ k)

theorem word_congr {m m' : ℕ → UInt8} {a b : ℕ} (h : ∀ k < 4, m (a + k) = m' (b + k)) :
    word m a = word m' b := by
  have h0 := h 0 (by omega)
  rw [Nat.add_zero, Nat.add_zero] at h0
  rw [word, word, h0, h 1 (by omega), h 2 (by omega), h 3 (by omega)]

/-- **Reading back what was written.** -/
theorem word_eq_of_wordByte {m : ℕ → UInt8} {a w : ℕ} (hw : w < 2 ^ 32)
    (h : ∀ k < 4, m (a + k) = wordByte w k) : word m a = w := by
  have h0 := h 0 (by omega)
  rw [Nat.add_zero] at h0
  rw [word, h0, h 1 (by omega), h 2 (by omega), h 3 (by omega)]
  simp only [wordByte, UInt8.toNat_ofNat']
  omega

theorem word_lt (m : ℕ → UInt8) (a : ℕ) : word m a < 2 ^ 32 := by
  have h0 := (m a).toNat_lt
  have h1 := (m (a + 1)).toNat_lt
  have h2 := (m (a + 2)).toNat_lt
  have h3 := (m (a + 3)).toNat_lt
  rw [word]
  omega

/-- **Taking apart what was put together.** -/
theorem wordByte_word (m : ℕ → UInt8) (a : ℕ) {k : ℕ} (hk : k < 4) :
    wordByte (word m a) k = m (a + k) := by
  have h0 := (m a).toNat_lt
  have h1 := (m (a + 1)).toNat_lt
  have h2 := (m (a + 2)).toNat_lt
  have h3 := (m (a + 3)).toNat_lt
  apply UInt8.toNat_inj.mp
  rw [wordByte, UInt8.toNat_ofNat', word]
  obtain rfl | rfl | rfl | rfl : k = 0 ∨ k = 1 ∨ k = 2 ∨ k = 3 := by omega
  · rw [Nat.pow_zero, Nat.div_one]
    change _ = (m a).toNat
    omega
  · rw [Nat.pow_one]
    omega
  · rw [show (256 : ℕ) ^ 2 = 65536 from rfl]
    omega
  · rw [show (256 : ℕ) ^ 3 = 16777216 from rfl]
    omega

end Store
