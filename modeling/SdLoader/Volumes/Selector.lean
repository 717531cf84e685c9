import SdLoader.Lib.Loop
import SdLoader.Volumes.Windows

/-!
# The number selector, reading by reading

`config_u32_selector` of `sdloader/ums.c` with the buttons as `bdk/utils/btn.c` reads them: a press
is what `btn_wait_for_single` makes of a sequence of readings, and a button that is held counts
again each time `btn_wait_for_change_timeout` runs out.  A step of the machine is one reading;
whether the time has run out is part of it.

* `lowerPass` — the loop that corrects a number which is too large.
* `lower_run` — it ends within the byte that is edited: every subtraction it makes is exact.
* `Selector.step_ok` — what one reading keeps, and what it changes.
* `selector_bounded` — so it is for every sequence of readings.
-/

set_option autoImplicit false

namespace SdLoader
namespace Volumes

open Usb (sub32 add32)
open Loop (Pass)

/-! ## The machine -/

/-- `BTN_POWER` -/
def btnPower : UInt8 := 1

/-- `BTN_VOL_DOWN` -/
def btnVolDown : UInt8 := 2

/-- `BTN_VOL_UP` -/
def btnVolUp : UInt8 := 4

/-- `btn_is_single` -/
def btnIsSingle (btn : UInt8) : Bool := btn == btnVolDown || btn == btnVolUp || btn == btnPower

/-- A call of `btn_read`. -/
structure Reading where
  /-- What it returns. -/
  btn : UInt8
  /-- Whether `get_tmr_ms` then shows that the timeout has passed. -/
  expired : Bool

/-- `while(temp > max) temp -= step` -/
def lowerPass (max step temp : ℕ) : Pass ℕ ℕ :=
  if max < temp then .again (sub32 temp step) else .leave temp

/-- The body of the loop that is gone through as long as the button is held. -/
def pressed (max i : ℕ) (btn : UInt8) (val : ℕ) : Option ℕ :=
  if btn &&& btnVolDown ≠ 0 then press max i .down val
  else if btn &&& btnVolUp ≠ 0 then press max i .up val
  else some (withByte i val (byteOf i 0))

/-- Where a byte is being edited: the next reading is... -/
inductive Phase
  /-- ...the first one of `btn_wait_for_single`. -/
  | first
  /-- ...one in its loop. -/
  | wait (mask : UInt8)
  /-- ...the one that is to tell that the button is still held. -/
  | held (btn : UInt8)
  /-- ...one of `btn_wait_for_change_timeout`. -/
  | change (btn : UInt8)

/-- `config_u32_selector` -/
inductive Selector
  /-- Byte `i` is edited. -/
  | editing (i val : ℕ) (phase : Phase)
  /-- The function has returned. -/
  | done (val : ℕ)
  /-- The loop that corrects a number does not end. -/
  | stuck (val : ℕ)

namespace Selector

/-- The number as it is at the moment. -/
def val : Selector → ℕ
  | editing _ val _ => val
  | done val => val
  | stuck val => val

/-- The call. -/
def start (initial : ℕ) : Selector := editing 3 initial .first

/-- `btn_wait_for_single` has returned. -/
def single (i val : ℕ) (btn : UInt8) : Selector :=
  if btn ≠ btnPower then editing i val (.held btn)
  else if i = 0 then done val
  else editing (i - 1) val .first

/-- One reading. -/
def step (max : ℕ) : Selector → Reading → Selector
  | editing i val .first, r => editing i val (.wait r.btn)
  | editing i val (.wait mask), r =>
    if mask = 0 ∧ btnIsSingle r.btn then single i val r.btn
    else editing i val (.wait (mask &&& r.btn))
  | editing i val (.held btn), r =>
    if r.btn = btn then
      match pressed max i btn val with
      | some v => editing i v (.change btn)
      | none => stuck val
    else editing i val .first
  | editing i val (.change btn), r =>
    if r.btn ≠ btn ∨ r.expired then editing i val (.held btn) else editing i val (.change btn)
  | done val, _ => done val
  | stuck val, _ => stuck val

end Selector

/-! ## The correction loop -/

section
variable {max i val b : ℕ}

theorem withByte_eq (i v b : ℕ) : withByte i v b = withByte i v 0 + b * 256 ^ i := by
  rw [withByte, withByte, Nat.zero_mul, Nat.add_zero]

/-- The other bytes alone are not more than the number. -/
theorem withByte_zero_le (i v : ℕ) : withByte i v 0 ≤ v :=
  Nat.le_trans (withByte_mono i v (Nat.zero_le _)) (Nat.le_of_eq (withByte_self i v))

theorem withByte_sub {n : ℕ} (h : n ≤ b) :
    withByte i val b - n * 256 ^ i = withByte i val (b - n) := by
  have hmul : n * 256 ^ i ≤ b * 256 ^ i := Nat.mul_le_mul_right _ h
  rw [withByte_eq, withByte_eq i val (b - n), Nat.sub_mul, Nat.add_sub_assoc hmul]

/-- What the loop says in passes is what it says with fuel. -/
theorem lowerTo_eq_run (max step fuel temp : ℕ) {t : ℕ} :
    lowerTo max step fuel temp = some t ↔ Loop.run (lowerPass max step) fuel temp = .leave t := by
  induction fuel generalizing temp with
  | zero => simp [lowerTo, Loop.run]
  | succ fuel ih =>
    rw [lowerTo]
    by_cases hle : temp ≤ max
    · have hpass : lowerPass max step temp = .leave temp := if_neg (Nat.not_lt.mpr hle)
      rw [if_pos hle, Loop.run_succ_leave hpass, Option.some.injEq, Pass.leave.injEq]
    · have hpass : lowerPass max step temp = .again (sub32 temp step) :=
        if_pos (Nat.lt_of_not_le hle)
      rw [if_neg hle, Loop.run_succ_again hpass]
      exact ih _

/-- **The correction stays within the byte.**  As the other bytes alone are in order, the loop ends
before it has taken more from the number than the byte holds. -/
theorem lower_run (hval : val ≤ max) (i b : ℕ) : ∃ n ≤ b, withByte i val (b - n) ≤ max ∧
    (∀ c ≤ b, b - n < c → max < withByte i val c) ∧
      (∀ k ≤ n, Loop.run (lowerPass max (256 ^ i)) k (withByte i val b) =
      .again (withByte i val (b - k))) ∧
    Loop.run (lowerPass max (256 ^ i)) (n + 1) (withByte i val b) =
      .leave (withByte i val (b - n)) := by
  induction b with
  | zero =>
    have hle : withByte i val 0 ≤ max := Nat.le_trans (withByte_zero_le i val) hval
    refine ⟨0, Nat.le_refl 0, hle, fun c hc hlt ↦ by omega, fun k hk ↦ ?_,
      Loop.run_succ_leave (if_neg (by omega))⟩
    obtain rfl : k = 0 := by omega
    rfl
  | succ b ih =>
    by_cases hgt : max < withByte i val (b + 1)
    · have hpass : lowerPass max (256 ^ i) (withByte i val (b + 1)) =
          .again (withByte i val b) := by
        rw [lowerPass, if_pos hgt, withByte_pred]
      obtain ⟨n, hn, hle, hmore, hagain, hleave⟩ := ih
      refine ⟨n + 1, by omega, ?_, fun c hc hlt ↦ ?_, fun k hk ↦ ?_, ?_⟩
      · rwa [Nat.add_sub_add_right]
      · rcases Nat.lt_or_ge b c with hlast | hbelow
        · obtain rfl : c = b + 1 := by omega
          exact hgt
        · exact hmore c hbelow (by omega)
      · cases k with
        | zero => rfl
        | succ k =>
          rw [Loop.run_succ_again hpass, hagain k (by omega), Nat.add_sub_add_right]
      · rw [Loop.run_succ_again hpass, hleave, Nat.add_sub_add_right]
    · refine ⟨0, Nat.zero_le _, Nat.le_of_not_lt hgt, fun c hc hlt ↦ by omega, fun k hk ↦ ?_,
        Loop.run_succ_leave (if_neg hgt)⟩
      obtain rfl : k = 0 := by omega
      rfl

/-- The loop ends, and every subtraction it makes is exact. -/
def LowersWithin (max step temp : ℕ) : Prop :=
  ∃ n, n * step ≤ temp ∧ temp - n * step ≤ max ∧
    (∀ k ≤ n, Loop.run (lowerPass max step) k temp = .again (temp - k * step)) ∧
    Loop.run (lowerPass max step) (n + 1) temp = .leave (temp - n * step)

theorem lowersWithin (hval : val ≤ max) (i b : ℕ) :
    LowersWithin max (256 ^ i) (withByte i val b) := by
  obtain ⟨n, hn, hle, -, hagain, hleave⟩ := lower_run hval i b
  have hfits : n * 256 ^ i ≤ withByte i val b := by
    have hmul : n * 256 ^ i ≤ b * 256 ^ i := Nat.mul_le_mul_right _ hn
    rw [withByte_eq]
    omega
  refine ⟨n, hfits, ?_, fun k hk ↦ ?_, ?_⟩
  · rwa [withByte_sub hn]
  · rw [withByte_sub (Nat.le_trans hk hn)]
    exact hagain k hk
  · rw [withByte_sub hn]
    exact hleave

/-! ## One press -/

/-- Another byte is not changed. -/
theorem byteOf_withByte_ne {k : ℕ} (hi : i < 4) (hk : k < 4) (hne : k ≠ i) (hb : b < 256) :
    byteOf k (withByte i val b) = byteOf k val := by
  obtain rfl | rfl | rfl | rfl : i = 0 ∨ i = 1 ∨ i = 2 ∨ i = 3 := by omega
  all_goals
    obtain rfl | rfl | rfl | rfl : k = 0 ∨ k = 1 ∨ k = 2 ∨ k = 3 := by omega
    all_goals
      simp only [byteOf, withByte, Nat.reducePow]
      omega

/-- The byte after one is subtracted from it. -/
theorem byteOf_sub32 (hi : i < 4) (v : ℕ) :
    byteOf i (sub32 v (256 ^ i)) = (byteOf i v + 255) % 256 := by
  obtain rfl | rfl | rfl | rfl : i = 0 ∨ i = 1 ∨ i = 2 ∨ i = 3 := by omega
  all_goals
    simp only [byteOf, sub32, Nat.reducePow]
    split <;> omega

/-- The byte after one is added to it. -/
theorem byteOf_add32 (hi : i < 4) (v : ℕ) :
    byteOf i (add32 v (256 ^ i)) = (byteOf i v + 1) % 256 := by
  obtain rfl | rfl | rfl | rfl : i = 0 ∨ i = 1 ∨ i = 2 ∨ i = 3 := by omega
  all_goals
    simp only [byteOf, add32, Nat.reducePow]
    omega

/-- `b` is the largest byte up to `top` that keeps the number in order. -/
def Highest (max i val top b : ℕ) : Prop :=
  b ≤ top ∧ withByte i val b ≤ max ∧ ∀ c ≤ top, b < c → max < withByte i val c

/-- **Volume down** goes to the byte before, and from there down to one that keeps the number in
order. -/
theorem press_down (hi : i < 4) (hval : val ≤ max) :
    ∃ b, Highest max i val ((byteOf i val + 255) % 256) b ∧
      press max i .down val = some (withByte i val b) := by
  obtain ⟨n, hn, hle, hmore, -, hleave⟩ := lower_run hval i (byteOf i (sub32 val (256 ^ i)))
  have hbyte := byteOf_lt i (sub32 val (256 ^ i))
  have hlower := (lowerTo_eq_run max (256 ^ i) (2 ^ 32) _).mpr
    (Loop.run_leave_mono hleave (by omega))
  refine ⟨byteOf i (sub32 val (256 ^ i)) - n, ?_, ?_⟩
  · rw [← byteOf_sub32 hi]
    exact ⟨Nat.sub_le _ _, hle, hmore⟩
  · rw [press, hlower, Option.map_some, byteOf_withByte hi (by omega)]

/-- **Volume up** goes to the next byte, or to zero if that one is too large. -/
theorem press_up (hi : i < 4) (max val : ℕ) :
    press max i .up val = some (withByte i val
      (if withByte i val ((byteOf i val + 1) % 256) ≤ max then (byteOf i val + 1) % 256
        else 0)) := by
  have hbyte := byteOf_withByte (v := val) hi (Nat.mod_lt (byteOf i val + 1) (by decide : 256 > 0))
  have hzero : byteOf i 0 = 0 := by simp [byteOf]
  rw [press, byteOf_add32 hi]
  split
  · next hgt => rw [if_neg (by omega), hzero]
  · next hle => rw [if_pos (by omega), hbyte]

/-- **One press** changes the byte that is edited, to one that keeps the number in order. -/
theorem pressed_eq (hi : i < 4) (hval : val ≤ max) (btn : UInt8) :
    ∃ b < 256, pressed max i btn val = some (withByte i val b) ∧ withByte i val b ≤ max := by
  rw [pressed]
  split
  · obtain ⟨b, ⟨hb, hle, -⟩, hpress⟩ := press_down hi hval
    exact ⟨b, by omega, hpress, hle⟩
  · split
    · have hpress := press_up hi max val
      refine ⟨_, ?_, hpress, press_le hi hval hpress⟩
      split <;> omega
    · refine ⟨0, by decide, ?_, Nat.le_trans (withByte_zero_le i val) hval⟩
      rw [show byteOf i 0 = 0 by simp [byteOf]]

end

/-! ## One reading -/

namespace Selector

variable {max : ℕ}

/-- The number is in order, and a byte of it is edited. -/
def Ok (max : ℕ) : Selector → Prop
  | editing i val _ => i < 4 ∧ val ≤ max
  | done val => val ≤ max
  | stuck _ => False

/-- What a reading may do to the number: change the byte that is edited. -/
def Edits : Selector → Selector → Prop
  | editing i val _, s => ∀ k < 4, k ≠ i → byteOf k s.val = byteOf k val
  | done val, s => s = done val
  | stuck val, s => s = stuck val

theorem single_ok {i v : ℕ} (hi : i < 4) (hv : v ≤ max) (btn : UInt8) :
    (single i v btn).Ok max ∧ (single i v btn).val = v := by
  rw [single]
  split
  · exact ⟨⟨hi, hv⟩, rfl⟩
  · split
    · exact ⟨hv, rfl⟩
    · exact ⟨⟨by omega, hv⟩, rfl⟩

/-- **What one reading keeps**: the number stays in order, and only the byte that is edited
changes. -/
theorem step_ok {s : Selector} (hs : s.Ok max) (r : Reading) :
    (s.step max r).Ok max ∧ s.Edits (s.step max r) := by
  match s with
  | done v => exact ⟨hs, rfl⟩
  | editing i v .first => exact ⟨hs, fun k _ _ ↦ rfl⟩
  | editing i v (.wait mask) =>
    simp only [step]
    split
    · obtain ⟨hok, hval⟩ := single_ok hs.1 hs.2 r.btn
      exact ⟨hok, fun k _ _ ↦ congrArg (byteOf k) hval⟩
    · exact ⟨hs, fun k _ _ ↦ rfl⟩
  | editing i v (.held btn) =>
    simp only [step]
    split
    · obtain ⟨b, hb, heq, hle⟩ := pressed_eq hs.1 hs.2 btn
      rw [heq]
      exact ⟨⟨hs.1, hle⟩, fun k hk hne ↦ byteOf_withByte_ne hs.1 hk hne hb⟩
    · exact ⟨hs, fun k _ _ ↦ rfl⟩
  | editing i v (.change btn) =>
    simp only [step]
    split
    · exact ⟨hs, fun k _ _ ↦ rfl⟩
    · exact ⟨hs, fun k _ _ ↦ rfl⟩

/-- What the function returns is the number as it was. -/
theorem step_done {s : Selector} {r : Reading} {v : ℕ} (hs : s.Ok max)
    (h : s.step max r = done v) : v = s.val := by
  match s with
  | done w =>
    cases h
    rfl
  | editing i w .first => cases h
  | editing i w (.wait mask) =>
    simp only [step] at h
    split at h
    · have hval := (single_ok hs.1 hs.2 r.btn).2
      rw [h] at hval
      exact hval
    · cases h
  | editing i w (.held btn) =>
    simp only [step] at h
    split at h
    · obtain ⟨b, -, heq, -⟩ := pressed_eq hs.1 hs.2 btn
      rw [heq] at h
      cases h
    · cases h
  | editing i w (.change btn) =>
    simp only [step] at h
    split at h <;> cases h

/-! ## Every sequence of readings -/

/-- What is promised of the selector at any time. -/
structure Sound (max : ℕ) (s : Selector) : Prop where
  /-- The number is not too large. -/
  le : s.val ≤ max
  /-- The loop that corrects it has ended each time. -/
  ends : ∀ v, s ≠ stuck v
  /-- A byte of the number is edited; if it is lowered now, the loop ends without wrapping round. -/
  lowers : ∀ i v phase, s = editing i v phase →
    i < 4 ∧ LowersWithin max (256 ^ i) (withByte i v (byteOf i (sub32 v (256 ^ i))))
  /-- The next reading keeps the other bytes. -/
  edits : ∀ i v phase r, s = editing i v phase →
    ∀ k < 4, k ≠ i → byteOf k (s.step max r).val = byteOf k v
  /-- If it ends the selection, the number is returned. -/
  returns : ∀ r v, s.step max r = done v → v = s.val
  /-- Power goes on to the byte below, and at the last one the function returns. -/
  power : ∀ i v r, s = editing i v (.wait 0) → r.btn = btnPower →
    s.step max r = if i = 0 then done v else editing (i - 1) v .first
  /-- Volume up makes the next byte of the byte, or zero if that one is too large. -/
  up : ∀ i v r, s = editing i v (.held btnVolUp) → r.btn = btnVolUp →
    s.step max r = editing i
      (withByte i v
        (if withByte i v ((byteOf i v + 1) % 256) ≤ max then (byteOf i v + 1) % 256 else 0))
      (.change btnVolUp)
  /-- Volume down makes the one before of it, or the highest below that is not too large. -/
  down : ∀ i v r, s = editing i v (.held btnVolDown) → r.btn = btnVolDown →
    ∃ b, Highest max i v ((byteOf i v + 255) % 256) b ∧
      s.step max r = editing i (withByte i v b) (.change btnVolDown)

theorem Ok.sound {s : Selector} (hs : s.Ok max) : s.Sound max where
  le := by
    match s with
    | editing i v phase => exact hs.2
    | done v => exact hs
  ends := by
    rintro v rfl
    exact hs
  lowers := by
    rintro i v phase rfl
    exact ⟨hs.1, lowersWithin hs.2 i _⟩
  edits := by
    rintro i v phase r rfl
    exact (step_ok hs r).2
  returns := fun r v h ↦ step_done hs h
  power := by
    rintro i v r rfl hr
    rw [step, hr]
    rfl
  up := by
    rintro i v r rfl hr
    have hpressed : pressed max i btnVolUp v = press max i .up v := rfl
    rw [step, if_pos hr, hpressed, press_up hs.1]
  down := by
    rintro i v r rfl hr
    obtain ⟨b, hb, hpress⟩ := press_down hs.1 hs.2
    have hpressed : pressed max i btnVolDown v = press max i .down v := rfl
    refine ⟨b, hb, ?_⟩
    rw [step, if_pos hr, hpressed, hpress]

end Selector

/-- **The number stays in order**, for every sequence of readings, from every number that is. -/
theorem selector_bounded {initial max : ℕ} (h : initial ≤ max) (rs : List Reading) :
    (Machine.run (Selector.step max) (.start initial) rs).Sound max :=
  have hstart : (Selector.start initial).Ok max := ⟨by decide, h⟩
  (Machine.run_inv (I := Selector.Ok max) (fun _ r hs ↦ (Selector.step_ok hs r).1) hstart rs).sound

/-- Volume down pressed once where the number is at its maximum, and the top byte is zero: the top
byte wraps round to 255 and is taken down to zero again. -/
theorem selector_bounded_wrap :
    (Machine.run (Selector.step 0x00ffffff) (.start 0x00ffffff)
      [⟨0, false⟩, ⟨btnVolDown, false⟩, ⟨btnVolDown, false⟩, ⟨0, false⟩]).Sound 0x00ffffff :=
  selector_bounded (Nat.le_refl _) _

end Volumes
end SdLoader
