import SdLoader.Lib.Bytes
import SdLoader.Lib.Loop
import SdLoader.Payload.Launch

/-!
# The loops of the relocation

`reloc` of `sdloader/loader.c`, with the index and the addresses the 32-bit numbers they are.  The
forward loop counts up to `size`; the backward loop counts down and ends when its index wraps round,
which it does at once if `size` is zero.

* `RelocLoop.upPass`, `RelocLoop.downPass` — one pass of either loop.
* `RelocLoop.run_up`, `RelocLoop.run_down` — each of them ends, and leaves the copy that goes first
  cell first or last cell first.
* `relocFor_eq` — so the call ends with what `reloc` says.
-/

set_option autoImplicit false

namespace SdLoader

namespace Payload

open Loop

/-- The variables of the loops of `reloc`: the index, and memory. -/
structure RelocLoop where
  i : UInt32
  mem : ℕ → UInt8

namespace RelocLoop

variable (dst src size : UInt32)

/-- `dst_8[i] = src_8[i]` -/
def copyByte (c : RelocLoop) : ℕ → UInt8 :=
  Store.put c.mem (dst + c.i).toNat (c.mem (src + c.i).toNat)

/-- The loop for `dst < src`. -/
def upPass (c : RelocLoop) : Pass RelocLoop (ℕ → UInt8) :=
  if c.i < size then .again ⟨c.i + 1, c.copyByte dst src⟩ else .leave c.mem

/-- The loop for `src < dst`. -/
def downPass (c : RelocLoop) : Pass RelocLoop (ℕ → UInt8) :=
  if c.i < size then .again ⟨c.i - 1, c.copyByte dst src⟩ else .leave c.mem

end RelocLoop

/-- `reloc`, with at most `n` passes of its loop. -/
def relocFor (dst src size : UInt32) (n : ℕ) (m : ℕ → UInt8) : Pass RelocLoop (ℕ → UInt8) :=
  if dst < src then run (RelocLoop.upPass dst src size) n ⟨0, m⟩
  else if dst > src then run (RelocLoop.downPass dst src size) n ⟨size - 1, m⟩
  else .leave m

namespace RelocLoop

variable {dst src size : UInt32} {m : ℕ → UInt8}

/-- In a region that does not wrap round, indexing is addition. -/
theorem toNat_index {a i : UInt32} (ha : a.toNat + size.toNat ≤ 2 ^ 32) (hi : i < size) :
    (a + i).toNat = a.toNat + i.toNat := by
  rw [UInt32.lt_iff_toNat_lt] at hi
  exact Bytes.toNat_add (by omega)

section
variable (hdst : dst.toNat + size.toNat ≤ 2 ^ 32) (hsrc : src.toNat + size.toNat ≤ 2 ^ 32)
include hdst hsrc

theorem copyByte_eq {i : UInt32} (hi : i < size) :
    copyByte dst src ⟨i, m⟩ =
      Store.put m (dst.toNat + i.toNat) (m (src.toNat + i.toNat)) := by
  rw [copyByte, toNat_index hdst hi, toNat_index hsrc hi]

/-- After `k` passes of the forward loop the first `k` bytes have been copied. -/
theorem run_up : run (upPass dst src size) (size.toNat + 1) ⟨0, m⟩ =
    .leave (Store.copyUp m dst.toNat src.toNat size.toNat) := by
  let f := fun k ↦ RelocLoop.mk (UInt32.ofNat k) (Store.copyUp m dst.toNat src.toNat k)
  have hpass : ∀ k < size.toNat, upPass dst src size (f k) = .again (f (k + 1)) := by
    intro k hk
    have hto : (UInt32.ofNat k).toNat = k := Bytes.toNat_ofNat (Nat.le_of_lt hk)
    have hi : UInt32.ofNat k < size := by rwa [UInt32.lt_iff_toNat_lt, hto]
    have hnext : UInt32.ofNat k + 1 = UInt32.ofNat (k + 1) := (UInt32.ofNat_add k 1).symm
    rw [upPass, if_pos hi, copyByte_eq hdst hsrc hi, hto, hnext]
    rfl
  have hlast : ¬ UInt32.ofNat size.toNat < size := by
    rw [UInt32.ofNat_toNat]
    exact UInt32.lt_irrefl size
  have hfollow := run_follow f hpass 1
  rw [show f 0 = ⟨0, m⟩ from rfl] at hfollow
  rw [hfollow]
  exact run_succ_leave (if_neg hlast)

/-- The backward loop with `n` bytes to go: the index is one less, and wraps round when there are
none. -/
theorem run_down_from {n : ℕ} (hn : n ≤ size.toNat) :
    run (downPass dst src size) (n + 1) ⟨UInt32.ofNat n - 1, m⟩ =
      .leave (Store.copyDown m dst.toNat src.toNat n) := by
  induction n generalizing m with
  | zero =>
    have hout : ¬ UInt32.ofNat 0 - 1 < size := by
      have hsize := size.toNat_lt
      have hwrap : (UInt32.ofNat 0 - 1).toNat = 2 ^ 32 - 1 := rfl
      rw [UInt32.lt_iff_toNat_lt, hwrap]
      omega
    exact run_succ_leave (if_neg hout)
  | succ n ih =>
    have hto : (UInt32.ofNat n).toNat = n := Bytes.toNat_ofNat (Nat.le_of_succ_le hn)
    have hindex : UInt32.ofNat (n + 1) - 1 = UInt32.ofNat n := by
      rw [UInt32.ofNat_add]
      exact UInt32.add_sub_cancel _ _
    have hi : UInt32.ofNat n < size := by
      rw [UInt32.lt_iff_toNat_lt, hto]
      exact hn
    have hpass : downPass dst src size ⟨UInt32.ofNat n, m⟩ = .again ⟨UInt32.ofNat n - 1,
        Store.put m (dst.toNat + n) (m (src.toNat + n))⟩ := by
      rw [downPass, if_pos hi, copyByte_eq hdst hsrc hi, hto]
    rw [hindex, run_succ_again hpass, ih (Nat.le_of_succ_le hn), Store.copyDown]

theorem run_down : run (downPass dst src size) (size.toNat + 1) ⟨size - 1, m⟩ =
    .leave (Store.copyDown m dst.toNat src.toNat size.toNat) := by
  have h := run_down_from hdst hsrc (m := m) (Nat.le_refl size.toNat)
  rwa [UInt32.ofNat_toNat] at h

end

end RelocLoop

section
variable {dst src size : UInt32} {m : ℕ → UInt8}
  (hdst : dst.toNat + size.toNat ≤ 2 ^ 32) (hsrc : src.toNat + size.toNat ≤ 2 ^ 32)
include hdst hsrc

/-- **The loops of `reloc` end**, with the memory the launch is said to start from. -/
theorem relocFor_eq {n : ℕ} (hn : size.toNat < n) :
    relocFor dst src size n m = .leave (reloc dst.toNat src.toNat size.toNat m) := by
  simp only [relocFor, reloc, UInt32.lt_iff_toNat_lt, gt_iff_lt]
  split
  · exact run_leave_mono (RelocLoop.run_up hdst hsrc) hn
  · split
    · exact run_leave_mono (RelocLoop.run_down hdst hsrc) hn
    · rfl

/-- **Relocation moves its region, whatever the overlap.**  The loop ends after at most one pass
more than there are bytes; the destination then holds what the source held before, and no byte
outside it has changed. -/
theorem reloc_moves : ∃ m', (∀ n > size.toNat, relocFor dst src size n m = .leave m') ∧
    (∀ k < size.toNat, m' (dst.toNat + k) = m (src.toNat + k)) ∧
    ∀ x, x < dst.toNat ∨ dst.toNat + size.toNat ≤ x → m' x = m x := by
  refine ⟨reloc dst.toNat src.toNat size.toNat m, fun n hn ↦ relocFor_eq hdst hsrc hn,
    fun k hk ↦ ?_, fun x hx ↦ ?_⟩
  · rw [reloc_eq_blit, Store.blit_add hk]
  · rw [reloc_eq_blit, Store.blit_of_not_mem hx]

end

/-- Eight bytes moved up by two: source and destination overlap in six. -/
theorem reloc_moves_overlap : ∃ m' : ℕ → UInt8,
    (∀ n > 8, relocFor 0x1002 0x1000 8 n UInt8.ofNat = .leave m') ∧
    (∀ k < 8, m' (0x1002 + k) = UInt8.ofNat (0x1000 + k)) ∧
    ∀ x, x < 0x1002 ∨ 0x1002 + 8 ≤ x → m' x = UInt8.ofNat x :=
  @reloc_moves 0x1002 0x1000 8 UInt8.ofNat (by decide) (by decide)

end Payload
end SdLoader
