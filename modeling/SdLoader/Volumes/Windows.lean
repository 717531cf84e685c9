import Mathlib.Data.List.TakeWhile
import SdLoader.Usb.Access
import SdLoader.Volumes.Defs

/-!
# The volumes of a USB session: their windows

Which windows are handed to the gadget.

`config_size_update` keeps the window inside the storage, by a subtraction that is right as long as
the window starts inside it.  That is what the offset is limited to when it is chosen, but the
offset of a partition is taken over as it is, and so is one that was chosen for another card.
Partitions are not looked at either: an entry that is not used is the window of one sector, and an
entry behind the last one is the whole storage.

* `configU32Selector_le` — a number that is in order when it is about to be changed is so
  afterwards.
* `mbrLoop_eq` — the loop over the entries of an MBR, with its early end.
* `partition` — the partition of an entry of a table.
* `VolumeCfg.InOrder` — the window of a configuration is inside the storage, and that of a
  partition.
* `Page.Ready.configModeUpdate` — the updates bring a configuration in order that is ready for them.
* `Ui.Careful` — the condition: a step that meets it does not take over an offset from outside, or
  an entry that is none.
* `Ui.Inv.step`, `windows_valid` — so in a run of such steps, the windows that are handed over are
  valid.
* `windows_not_valid_swapped` — a run that takes over the offset of another card.
-/

set_option autoImplicit false

namespace SdLoader
namespace Volumes

open Usb (MmcType sub32 add32 sub32_of_le)

/-! ## Choosing a number -/

section Selector

variable {max i val v b : ℕ}

theorem byteOf_lt (i v : ℕ) : byteOf i v < 256 := Nat.mod_lt _ (by decide)

theorem byteOf_mul_le (i v : ℕ) : byteOf i v * 256 ^ i ≤ v :=
  Nat.le_trans (Nat.mul_le_mul_right _ (Nat.mod_le _ _)) (Nat.div_mul_le_self _ _)

theorem withByte_self (i v : ℕ) : withByte i v (byteOf i v) = v :=
  Nat.sub_add_cancel (byteOf_mul_le i v)

theorem withByte_mono (i v : ℕ) {b b' : ℕ} (h : b ≤ b') : withByte i v b ≤ withByte i v b' :=
  Nat.add_le_add_left (Nat.mul_le_mul_right _ h) _

theorem withByte_pred (i v : ℕ) (b : ℕ) :
    sub32 (withByte i v (b + 1)) (256 ^ i) = withByte i v b := by
  have hstep : withByte i v (b + 1) = withByte i v b + 256 ^ i := by
    rw [withByte, withByte, Nat.add_mul, Nat.one_mul, Nat.add_assoc]
  rw [hstep, sub32_of_le (Nat.le_add_left _ _), Nat.add_sub_cancel]

theorem byteOf_withByte (hi : i < 4) (hb : b < 256) : byteOf i (withByte i v b) = b := by
  obtain rfl | rfl | rfl | rfl : i = 0 ∨ i = 1 ∨ i = 2 ∨ i = 3 := by omega
  all_goals
    simp only [byteOf, withByte, Nat.reducePow]
    omega

/-- **The loop downwards** stops before it borrows from the next byte. -/
theorem lowerTo_eq (hval : val ≤ max) {fuel temp : ℕ} (hb : b < 256)
    (h : lowerTo max (256 ^ i) fuel (withByte i val b) = some temp) :
    ∃ b' < 256, temp = withByte i val b' ∧ temp ≤ max := by
  induction fuel generalizing b with
  | zero => simp [lowerTo] at h
  | succ fuel ih =>
    rw [lowerTo] at h
    split at h
    · next hle =>
      obtain rfl := Option.some.inj h
      exact ⟨b, hb, rfl, hle⟩
    · next hgt =>
      have hless : byteOf i val < b := by
        by_contra hle
        have hmono := withByte_mono i val (Nat.le_of_not_lt hle)
        rw [withByte_self] at hmono
        omega
      obtain ⟨b, rfl⟩ : ∃ k, b = k + 1 := ⟨b - 1, by omega⟩
      rw [withByte_pred] at h
      exact ih (by omega) h

theorem press_le (hi : i < 4) (hval : val ≤ max) {btn : Press} (h : press max i btn val = some v) :
    v ≤ max := by
  cases btn with
  | down =>
    simp only [press, Option.map_eq_some_iff] at h
    obtain ⟨temp, htemp, rfl⟩ := h
    obtain ⟨b, hb, rfl, hle⟩ := lowerTo_eq hval (byteOf_lt i _) htemp
    rwa [byteOf_withByte hi hb]
  | up =>
    simp only [press, Option.some.injEq] at h
    subst h
    split
    · have hzero : byteOf i 0 = 0 := by simp [byteOf]
      have hmono := withByte_mono i val (Nat.zero_le (byteOf i val))
      rw [withByte_self] at hmono
      rw [hzero]
      omega
    · next hle =>
      rw [byteOf_withByte hi (byteOf_lt i _)]
      omega

theorem pressAll_le (hi : i < 4) {btns : List Press} (hval : val ≤ max)
    (h : pressAll max i val btns = some v) : v ≤ max := by
  induction btns generalizing val with
  | nil =>
    obtain rfl : val = v := Option.some.inj h
    exact hval
  | cons btn btns ih =>
    simp only [pressAll, List.foldlM_cons, Option.bind_eq_bind, Option.bind_eq_some_iff] at h
    obtain ⟨w, hw, hrest⟩ := h
    exact ih (press_le hi hval hw) hrest

/-- **A number that is in order stays so.** -/
theorem configU32Selector_le {initial : ℕ} {presses : ℕ → List Press} (h : initial ≤ max)
    (hv : configU32Selector initial max presses = some v) : v ≤ max := by
  simp only [configU32Selector, List.foldlM_cons, List.foldlM_nil, Option.bind_eq_bind,
    Option.bind_eq_some_iff, Option.pure_def, Option.some.injEq] at hv
  obtain ⟨v₃, h₃, v₂, h₂, v₁, h₁, v₀, h₀, rfl⟩ := hv
  have hle₃ := pressAll_le (by decide) h h₃
  have hle₂ := pressAll_le (by decide) hle₃ h₂
  have hle₁ := pressAll_le (by decide) hle₂ h₁
  exact pressAll_le (by decide) hle₁ h₀

end Selector

/-! ## The loop over an MBR -/

section Loop

variable {d : ℕ → UInt8}

/-- The entries of an MBR up to the first that is empty. -/
def mbrCount (d : ℕ → UInt8) : ℕ := ((List.range 4).takeWhile fun i ↦ sizeSct d i ≠ 0).length

/-- The table when the loop has come to entry `n`. -/
def mbrRead (d : ℕ → UInt8) (n : ℕ) : PartTable where
  nParts := n - 1
  parts i := if i < n then ⟨startSct d i, sizeSct d i⟩ else ⟨0, 0⟩

/-- One more entry. -/
theorem mbrRead_succ (d : ℕ → UInt8) (n : ℕ) :
    (⟨n, Function.update (mbrRead d n).parts n ⟨startSct d n, sizeSct d n⟩⟩ : PartTable) =
      mbrRead d (n + 1) := by
  refine (PartTable.mk.injEq ..).mpr ⟨rfl, funext fun i ↦ ?_⟩
  simp only [mbrRead]
  rcases Nat.lt_trichotomy i n with hlt | rfl | hgt
  · rw [Function.update_of_ne (Nat.ne_of_lt hlt), if_pos hlt, if_pos (Nat.lt_succ_of_lt hlt)]
  · rw [Function.update_self, if_pos (Nat.lt_succ_self _)]
  · rw [Function.update_of_ne (Nat.ne_of_gt hgt), if_neg (Nat.not_lt_of_gt hgt),
      if_neg (Nat.not_lt_of_ge hgt)]

theorem mbrLoop_mbrRead (d : ℕ → UInt8) (rest i : ℕ) :
    mbrLoop d rest i (mbrRead d i) =
      mbrRead d (i + ((List.range' i rest).takeWhile fun j ↦ sizeSct d j ≠ 0).length) := by
  induction rest generalizing i with
  | zero => rfl
  | succ rest ih =>
    rw [mbrLoop, List.range'_succ]
    by_cases hempty : sizeSct d i = 0
    · rw [if_pos hempty, List.takeWhile_cons_of_neg (by simpa using hempty)]
      rfl
    · rw [if_neg hempty, mbrRead_succ, ih, List.takeWhile_cons_of_pos (by simpa using hempty),
        List.length_cons]
      congr 1
      omega

/-- **The loop** gives the table of the MBR: the entries up to the first that is empty, and the
index of the last of them. -/
theorem mbrLoop_eq (d : ℕ → UInt8) : mbrTable d = mbrRead d (mbrCount d) := by
  have hzero : PartTable.zero = mbrRead d 0 := by
    simp [PartTable.zero, mbrRead]
  rw [mbrTable, hzero, mbrLoop_mbrRead, Nat.zero_add, ← List.range_eq_range']
  rfl

end Loop

/-! ## Partitions -/

/-- The table that is loaded from a medium. -/
def tableOf (d : ℕ → UInt8) : PartTable :=
  if gptSignature d = efiPart then gptTable d else mbrTable d

/-- The partition of an entry of the table: its first sector and the number of its sectors.  An
entry of a GPT is one of a partition if it has a type. -/
def partition (d : ℕ → UInt8) (i : ℕ) : Option (ℕ × ℕ) :=
  if gptSignature d = efiPart then
    if i < min 30 (numPartEnts d) ∧ gptType d i ≠ List.replicate 16 0 ∧
        lbaStart d i ≤ lbaEnd d i then
      some (lbaStart d i, lbaEnd d i - lbaStart d i + 1)
    else none
  else if i < mbrCount d then some (startSct d i, sizeSct d i)
  else none

/-- Entry `k` of the table is a partition that ends within so many sectors. -/
def EndsOn (d : ℕ → UInt8) (sectors k : ℕ) : Prop :=
  ∃ a n, partition d k = some (a, n) ∧ a + n ≤ sectors

/-- The entries of an MBR that are loaded are not empty. -/
theorem sizeSct_of_lt {d : ℕ → UInt8} {i : ℕ} (h : i < mbrCount d) : sizeSct d i ≠ 0 := by
  have hprefix := List.takeWhile_prefix (l := List.range 4) fun i ↦ decide (sizeSct d i ≠ 0)
  have hlen : i < ((List.range 4).takeWhile fun i ↦ decide (sizeSct d i ≠ 0)).length := h
  have hget := hprefix.getElem hlen
  rw [List.getElem_range] at hget
  have hmem := List.mem_takeWhile_imp (List.getElem_mem hlen)
  rw [hget] at hmem
  simpa using hmem

/-- **The window of a partition** that ends on the storage is what is in the table. -/
theorem parts_of_partition {d : ℕ → UInt8} {i a n : ℕ} (h : partition d i = some (a, n))
    (hfits : a + n < 2 ^ 32) : (tableOf d).parts i = ⟨a, n⟩ ∧ 1 ≤ n := by
  rw [partition] at h
  rw [tableOf]
  split at h
  · next hgpt =>
    rw [if_pos hgpt]
    split at h
    · next hentry =>
      obtain ⟨hi, -, hle⟩ := hentry
      simp only [Option.some.injEq, Prod.mk.injEq] at h
      obtain ⟨rfl, rfl⟩ := h
      simp only [gptTable, if_pos hi, PartEntry.mk.injEq]
      omega
    · cases h
  · next hmbr =>
    rw [if_neg hmbr]
    split at h
    · next hi =>
      simp only [Option.some.injEq, Prod.mk.injEq] at h
      obtain ⟨rfl, rfl⟩ := h
      have hsome := sizeSct_of_lt hi
      simp only [mbrLoop_eq, mbrRead, if_pos hi, true_and]
      omega
    · cases h

theorem lt_of_partition {d : ℕ → UInt8} {i : ℕ} {q : ℕ × ℕ} (h : partition d i = some q) :
    i < 30 := by
  rw [partition] at h
  split at h
  · split at h
    · next hentry => omega
    · cases h
  · split at h
    · next hi =>
      have hfour : mbrCount d ≤ 4 := by
        have hle := (List.takeWhile_prefix (l := List.range 4) fun i ↦
          decide (sizeSct d i ≠ 0)).length_le
        rwa [List.length_range] at hle
      omega
    · cases h

/-! ## The storages, by volume -/

/-- Is it a boot partition? -/
def Device.IsBoot (d : Device) : Prop := d = .emmcBoot0 ∨ d = .emmcBoot1

namespace Storages

variable {w : Storages} {d : Device}

/-- The storage of a volume can be initialised. -/
def Works (w : Storages) : Device → Bool
  | .sd => w.sdInitialize
  | _ => w.emmcInitialize

/-- How many sectors a volume can have. -/
def sectors (w : Storages) : Device → ℕ
  | .sd => w.sd.secCnt
  | .emmcGpp => w.emmc.secCnt
  | _ => w.boot

/-- Can the table of a medium be read?  The MBR is, if there is no GPT. -/
def Readable (w : Storages) (m : Medium) : Prop :=
  w.readGpt = true ∧ (gptSignature m.data = efiPart ∨ w.readMbr = true)

instance (w : Storages) (m : Medium) : Decidable (w.Readable m) :=
  inferInstanceAs (Decidable (_ ∧ _))

/-- The storage whose table is loaded when the menu of a volume is opened. -/
def loaded (w : Storages) : Device → Option Medium
  | .sd => if w.sdInitialize = true ∧ w.Readable w.sd then some w.sd else none
  | .emmcGpp => if w.emmcInitialize = true ∧ w.Readable w.emmc then some w.emmc else none
  | _ => none

/-- The size a volume has that has no table. -/
def bare : Device → ℕ
  | .emmcBoot0 | .emmcBoot1 => bootSectors
  | _ => 0

theorem bare_lt (d : Device) : bare d < 2 ^ 32 := by
  cases d <;> decide

theorem readPartTable_of_readable {m : Medium} (h : w.Readable m) (c : VolumeCfg) :
    readPartTable w m c =
      (tableOf m.data, { c with physSize := m.secCnt, size := m.secCnt, medium := m.data }) := by
  obtain ⟨hgpt, hmbr⟩ := h
  by_cases hefi : gptSignature m.data = efiPart
  · simp [readPartTable, tableOf, hgpt, hefi]
  · simp [readPartTable, tableOf, hgpt, hefi, hmbr.resolve_left hefi]

theorem readPartTable_of_not_readable {m : Medium} (h : ¬w.Readable m) (c : VolumeCfg) :
    readPartTable w m c = (.zero, { c with physSize := 0 }) := by
  cases hgpt : w.readGpt with
  | false => simp [readPartTable, hgpt]
  | true =>
    obtain ⟨hefi, hmbr⟩ : gptSignature m.data ≠ efiPart ∧ w.readMbr = false := by
      simpa [Readable, hgpt] using h
    simp [readPartTable, hgpt, hefi, hmbr]

/-- **What is loaded**, if there is a table. -/
theorem volumeLoadPartTable_of_some {m : Medium} (h : w.loaded d = some m) (c : VolumeCfg) :
    volumeLoadPartTable d w c =
      (tableOf m.data, { c with physSize := m.secCnt, size := m.secCnt, medium := m.data }) := by
  cases d with
  | sd =>
    obtain ⟨⟨hworks, hread⟩, hm⟩ := Option.ite_none_right_eq_some.mp h
    obtain rfl := Option.some.inj hm
    simp [volumeLoadPartTable, hworks, readPartTable_of_readable hread]
  | emmcGpp =>
    obtain ⟨⟨hworks, hread⟩, hm⟩ := Option.ite_none_right_eq_some.mp h
    obtain rfl := Option.some.inj hm
    simp [volumeLoadPartTable, hworks, readPartTable_of_readable hread]
  | emmcBoot0 => cases h
  | emmcBoot1 => cases h

/-- **What is loaded**, if there is none. -/
theorem volumeLoadPartTable_of_none (h : w.loaded d = none) (c : VolumeCfg) :
    ∃ size, volumeLoadPartTable d w c = (.zero, { c with physSize := bare d, size := size }) := by
  cases d with
  | sd =>
    refine ⟨c.size, ?_⟩
    cases hworks : w.sdInitialize with
    | false => simp [volumeLoadPartTable, hworks, bare]
    | true =>
      have hread : ¬w.Readable w.sd := by simpa [loaded, hworks] using h
      simp [volumeLoadPartTable, hworks, readPartTable_of_not_readable hread, bare]
  | emmcGpp =>
    refine ⟨c.size, ?_⟩
    cases hworks : w.emmcInitialize with
    | false => simp [volumeLoadPartTable, hworks, bare]
    | true =>
      have hread : ¬w.Readable w.emmc := by simpa [loaded, hworks] using h
      simp [volumeLoadPartTable, hworks, readPartTable_of_not_readable hread, bare]
  | emmcBoot0 => exact ⟨bootSectors, rfl⟩
  | emmcBoot1 => exact ⟨bootSectors, rfl⟩

end Storages

/-! ## Configurations -/

namespace VolumeCfg

variable {c : VolumeCfg} {d : Device} {k : ℕ}

/-- The window is inside the storage.  If nothing is known of the storage, it is the window that the
gadget makes the whole of it. -/
def Inside (c : VolumeCfg) : Prop :=
  c.physSize = 0 ∧ c.offset = 0 ∧ c.size = 0 ∨ 1 ≤ c.size ∧ c.offset + c.size ≤ c.physSize

/-- The window starts inside the storage, or at its first sector if nothing is known of it. -/
def Room (c : VolumeCfg) : Prop := c.physSize = 0 ∧ c.offset = 0 ∨ c.offset < c.physSize

/-- Entry `k` of the table is a partition that ends on the storage. -/
def Fits (c : VolumeCfg) (k : ℕ) : Prop := EndsOn c.medium c.physSize k

/-- What `config_size_update` makes of a configuration. -/
def clamp (c : VolumeCfg) : VolumeCfg :=
  { c with size :=
      if min c.size (sub32 c.physSize c.offset) = 0 then sub32 c.physSize c.offset
      else min c.size (sub32 c.physSize c.offset) }

/-- What holds of a configuration: its window is inside the storage and, in partition mode, that of
a partition of the table.  The window of a volume that is not mounted is not chosen in that mode. -/
structure InOrder (d : Device) (c : VolumeCfg) : Prop where
  small : c.physSize < 2 ^ 32
  window : c.mode = .byPart ∧ c.mountMode = .noMount ∨ c.Inside
  part : c.mode = .byPart → c.mountMode ≠ .noMount →
    ∃ k, partition c.medium k = some (c.offset, c.size)
  boot : d.IsBoot → c.mountMode ≠ .noMount → c.physSize = bootSectors

theorem Inside.room (h : c.Inside) : c.Room := by
  rcases h with ⟨hphys, hoffset, -⟩ | ⟨hsome, hle⟩
  · exact .inl ⟨hphys, hoffset⟩
  · exact .inr (by omega)

/-- **The size that is left** from a window that starts inside the storage. -/
theorem clamp_inside (h : c.Room) : c.clamp.Inside := by
  rcases h with ⟨hphys, hoffset⟩ | hlt
  · refine .inl ⟨hphys, hoffset, ?_⟩
    simp [clamp, hphys, hoffset, sub32]
  · refine .inr ?_
    simp only [clamp, sub32_of_le (Nat.le_of_lt hlt)]
    split <;> omega

theorem clamp_of_inside (h : c.Inside) : c.clamp = c := by
  have hsize : c.clamp.size = c.size := by
    rcases h with ⟨hphys, hoffset, hsize⟩ | ⟨hsome, hle⟩
    · simp [clamp, hphys, hoffset, hsize, sub32]
    · simp only [clamp, sub32_of_le (show c.offset ≤ c.physSize by omega)]
      split <;> omega
  calc c.clamp = { c with size := c.clamp.size } := rfl
    _ = c := by rw [hsize]

theorem InOrder.clamp (h : c.InOrder d) : c.clamp.InOrder d := by
  rcases h.window with hfree | hinside
  · exact ⟨h.small, .inl hfree, fun _ hmount ↦ absurd hfree.2 hmount, h.boot⟩
  · rwa [clamp_of_inside hinside]

/-- A partition that is in the table, and ends on the storage, is in its table as it is. -/
theorem Fits.parts (h : c.Fits k) (hsmall : c.physSize < 2 ^ 32) :
    ∃ a n, (tableOf c.medium).parts k = ⟨a, n⟩ ∧ partition c.medium k = some (a, n) ∧ 1 ≤ n ∧
      a + n ≤ c.physSize ∧ k < 30 := by
  obtain ⟨a, n, hpart, hle⟩ := h
  obtain ⟨hparts, hsome⟩ := parts_of_partition hpart (by omega)
  exact ⟨a, n, hparts, hpart, hsome, hle, lt_of_partition hpart⟩

end VolumeCfg

/-! ## The menu of a volume -/

namespace Page

variable {p : Page} {d : Device}

/-- A configuration that is about to be updated: the window is taken over from a partition that
fits, or it starts inside the storage. -/
structure Ready (d : Device) (p : Page) : Prop where
  small : p.cfg.physSize < 2 ^ 32
  boot : d.IsBoot → p.cfg.physSize = bootSectors
  loaded : p.table.nParts ≠ 0 → p.table = tableOf p.cfg.medium
  window :
    if p.cfg.mode = .byPart ∧ p.table.nParts ≠ 0 then
      p.cfg.mountMode ≠ .noMount → p.cfg.Fits p.cfg.part
    else p.cfg.Room

/-- What holds of the menu while it is open. -/
structure Ok (d : Device) (p : Page) : Prop where
  inOrder : p.cfg.InOrder d
  boot : d.IsBoot → p.cfg.physSize = bootSectors
  loaded : p.table.nParts ≠ 0 → p.table = tableOf p.cfg.medium
  byPart : p.cfg.mode = .byPart → p.table.nParts ≠ 0
  modeDisabled : p.modeDisabled = false → p.table.nParts ≠ 0 ∧ p.cfg.mountMode ≠ .noMount
  partDisabled : p.partDisabled = p.hides .byPart
  offsetDisabled : p.offsetDisabled = p.hides .byOffset
  sizeDisabled : p.sizeDisabled = p.hides .byOffset

theorem hides_iff (p : Page) (mode : Substorage) :
    p.hides mode = false ↔ p.cfg.mode = mode ∧ p.cfg.mountMode ≠ .noMount := by
  simp [hides]

/-- The two updates that end every other update, on a window that the second brings in order. -/
theorem configSizeUpdate_ok (hcfg : p.cfg.clamp.InOrder d)
    (hboot : d.IsBoot → p.cfg.physSize = bootSectors)
    (hloaded : p.table.nParts ≠ 0 → p.table = tableOf p.cfg.medium)
    (hbyPart : p.cfg.mode = .byPart → p.table.nParts ≠ 0)
    (hmode : p.modeDisabled = false → p.table.nParts ≠ 0 ∧ p.cfg.mountMode ≠ .noMount)
    (hpart : p.partDisabled = p.hides .byPart) : p.configOffsetUpdate.configSizeUpdate.Ok d :=
  ⟨hcfg, hboot, hloaded, hbyPart, hmode, hpart, rfl, rfl⟩

theorem Ok.update (h : p.Ok d) : p.configOffsetUpdate.configSizeUpdate.Ok d :=
  configSizeUpdate_ok h.inOrder.clamp h.boot h.loaded h.byPart h.modeDisabled h.partDisabled

/-- What `config_part_update` leaves as it is. -/
theorem selectPart_frame (p : Page) :
    p.selectPart.table = p.table ∧ p.selectPart.modeDisabled = p.modeDisabled ∧
      p.selectPart.cfg.mode = p.cfg.mode ∧ p.selectPart.cfg.mountMode = p.cfg.mountMode ∧
      p.selectPart.cfg.physSize = p.cfg.physSize ∧ p.selectPart.cfg.medium = p.cfg.medium := by
  simp only [selectPart]
  split <;> split <;> exact ⟨rfl, rfl, rfl, rfl, rfl, rfl⟩

theorem selectPart_partDisabled (p : Page) :
    p.selectPart.partDisabled = p.selectPart.hides .byPart := by
  simp only [selectPart]
  split <;> split <;> next h => simpa [hides] using h

theorem selectPart_hidden (h : p.hides .byPart = true) :
    p.selectPart.cfg.offset = p.cfg.offset ∧ p.selectPart.cfg.size = p.cfg.size := by
  have hsame : ∀ n, { p with cfg.part := n }.hides .byPart = true := fun _ ↦ h
  by_cases hpart : 99 < p.cfg.part
  · simp [selectPart, hpart, hsame 99]
  · simp [selectPart, hpart, h]

theorem selectPart_shown (h : p.hides .byPart = false) (hpart : p.cfg.part < 100) :
    p.selectPart.cfg.offset = (p.table.parts p.cfg.part).offset ∧
      p.selectPart.cfg.size = (p.table.parts p.cfg.part).size := by
  simp [selectPart, h, show ¬99 < p.cfg.part by omega]

/-- The window of a configuration that is ready, before its size is brought in order. -/
theorem Ready.selectPart (h : p.Ready d) (hbyPart : p.cfg.mode = .byPart → p.table.nParts ≠ 0) :
    p.selectPart.cfg.clamp.InOrder d := by
  obtain ⟨-, -, hmode, hmount, hphys, hmedium⟩ := selectPart_frame p
  have hsmall : p.selectPart.cfg.clamp.physSize < 2 ^ 32 := lt_of_eq_of_lt hphys h.small
  have hboot : d.IsBoot → p.selectPart.cfg.clamp.mountMode ≠ .noMount →
      p.selectPart.cfg.clamp.physSize = bootSectors := fun hd _ ↦ hphys.trans (h.boot hd)
  have hwindow := h.window
  cases hhides : p.hides .byPart with
  | true =>
    -- The window is the one there was, unless a partition is to be chosen for it later.
    have hfree : p.cfg.mode = .byPart → p.cfg.mountMode = .noMount := by
      intro hpart
      by_contra hmount
      rw [(hides_iff p .byPart).mpr ⟨hpart, hmount⟩] at hhides
      cases hhides
    obtain ⟨hoffset, -⟩ := selectPart_hidden hhides
    refine ⟨hsmall, ?_, ?_, hboot⟩
    · by_cases hpart : p.cfg.mode = .byPart
      · exact .inl ⟨hmode.trans hpart, hmount.trans (hfree hpart)⟩
      · rw [if_neg (by simp [hpart])] at hwindow
        refine .inr (VolumeCfg.clamp_inside ?_)
        rwa [VolumeCfg.Room, hphys, hoffset]
    · intro hpart hmounted
      exact absurd (hmount.trans (hfree (hmode.symm.trans hpart))) hmounted
  | false =>
    obtain ⟨hpart, hmounted⟩ := (hides_iff p .byPart).mp hhides
    have htable := h.loaded (hbyPart hpart)
    rw [if_pos ⟨hpart, hbyPart hpart⟩] at hwindow
    obtain ⟨a, n, hparts, hentry, hsome, hle, hlt⟩ := (hwindow hmounted).parts h.small
    obtain ⟨hoffset, hsize⟩ := selectPart_shown hhides (by omega)
    rw [htable, hparts] at hoffset hsize
    have hinside : p.selectPart.cfg.Inside :=
      .inr (by rw [hphys, hoffset, hsize]; exact ⟨hsome, hle⟩)
    rw [VolumeCfg.clamp_of_inside hinside] at hsmall hboot ⊢
    refine ⟨hsmall, .inr hinside, fun _ _ ↦ ⟨p.cfg.part, ?_⟩, hboot⟩
    rw [hmedium, hentry, hoffset, hsize]

/-- **The update of the window** of a configuration that is ready. -/
theorem Ready.configPartUpdate (h : p.Ready d)
    (hmode : p.modeDisabled = false → p.table.nParts ≠ 0 ∧ p.cfg.mountMode ≠ .noMount)
    (hbyPart : p.cfg.mode = .byPart → p.table.nParts ≠ 0) : p.configPartUpdate.Ok d := by
  obtain ⟨htable, hdisabled, hmodeEq, hmount, hphys, hmedium⟩ := selectPart_frame p
  refine configSizeUpdate_ok (h.selectPart hbyPart) ?_ ?_ ?_ ?_ (selectPart_partDisabled p)
  · rw [hphys]
    exact h.boot
  · rw [htable, hmedium]
    exact h.loaded
  · rw [htable, hmodeEq]
    exact hbyPart
  · rw [htable, hdisabled, hmount]
    exact hmode

/-- **The update of the whole menu**, which goes back to an offset if there are no partitions. -/
theorem Ready.configModeUpdate (h : p.Ready d) : p.configModeUpdate.Ok d := by
  have hwindow := h.window
  rw [Page.configModeUpdate]
  by_cases hzero : p.table.nParts = 0
  · rw [if_neg fun hpart ↦ hpart.2 hzero] at hwindow
    simp only [selectMode, if_pos hzero]
    refine Ok.update (Ready.configPartUpdate ⟨h.small, h.boot, h.loaded, ?_⟩ ?_ ?_)
    · rw [if_neg (by simp)]
      exact hwindow
    · simp
    · simp
  · simp only [selectMode, if_neg hzero]
    refine Ok.update (Ready.configPartUpdate ⟨h.small, h.boot, h.loaded, hwindow⟩ ?_ ?_)
    · intro hmounted
      exact ⟨hzero, by simpa using hmounted⟩
    · intro _
      exact hzero

theorem Ok.room (h : p.Ok d) (hfree : ¬(p.cfg.mode = .byPart ∧ p.cfg.mountMode = .noMount)) :
    p.cfg.Room :=
  (h.inOrder.window.resolve_left hfree).room

theorem Ok.configMountModeCb (h : p.Ok d)
    (hfits : p.cfg.mode = .byPart → nextMount p.cfg.mountMode ≠ .noMount → p.cfg.Fits p.cfg.part) :
    p.configMountModeCb.Ok d := by
  refine Ready.configModeUpdate ⟨h.inOrder.small, h.boot, h.loaded, ?_⟩
  split
  · next hpart => exact hfits hpart.1
  · next hfree => exact h.room fun hpart ↦ hfree ⟨hpart.1, h.byPart hpart.1⟩

theorem Ok.configModeCb (h : p.Ok d) (hdisabled : p.modeDisabled = false)
    (hfits : p.cfg.mode = .byOffset → p.cfg.Fits p.cfg.part) : p.configModeCb.Ok d := by
  obtain ⟨hsome, hmounted⟩ := h.modeDisabled hdisabled
  refine Ready.configModeUpdate ⟨h.inOrder.small, h.boot, h.loaded, ?_⟩
  split
  · next hpart =>
    intro _
    refine hfits ?_
    cases hmode : p.cfg.mode with
    | byOffset => rfl
    | byPart =>
      have hnext := hpart.1
      simp [nextMode, hmode] at hnext
  · exact h.room fun hpart ↦ hmounted hpart.2

theorem Ok.configPartCb (h : p.Ok d) (hdisabled : p.partDisabled = false)
    (hfits : p.cfg.Fits p.nextPart) : p.configPartCb.Ok d := by
  rw [h.partDisabled, hides_iff] at hdisabled
  refine Ready.configPartUpdate ⟨h.inOrder.small, h.boot, h.loaded, ?_⟩ h.modeDisabled h.byPart
  rw [if_pos ⟨hdisabled.1, h.byPart hdisabled.1⟩]
  intro _
  exact hfits

/-- An offset is chosen up to the last sector, if there is one. -/
theorem Ok.configOffsetCb (h : p.Ok d) (hdisabled : p.offsetDisabled = false)
    (hsome : p.cfg.physSize ≠ 0) {presses : ℕ → List Press} {q : Page}
    (hq : p.configOffsetCb presses = some q) : q.Ok d := by
  rw [h.offsetDisabled, hides_iff] at hdisabled
  obtain ⟨hmode, hmounted⟩ := hdisabled
  obtain ⟨v, hv, rfl⟩ := Option.map_eq_some_iff.mp hq
  have hroom : p.cfg.offset < p.cfg.physSize := by
    rcases h.room fun hpart ↦ hmounted hpart.2 with ⟨hzero, -⟩ | hlt
    · exact absurd hzero hsome
    · exact hlt
  rw [sub32_of_le (Nat.one_le_iff_ne_zero.mpr hsome)] at hv
  have hle := configU32Selector_le (Nat.le_sub_one_of_lt hroom) hv
  have hcfg : { p.cfg with offset := v }.clamp.InOrder d := by
    refine ⟨h.inOrder.small, .inr (VolumeCfg.clamp_inside (.inr ?_)), ?_, h.inOrder.boot⟩
    · exact Nat.lt_of_le_pred (Nat.pos_of_ne_zero hsome) hle
    · intro hpart _
      exact absurd (hmode.symm.trans hpart) (by simp)
  exact configSizeUpdate_ok hcfg h.boot h.loaded h.byPart h.modeDisabled h.partDisabled

theorem Ok.configSizeCb (h : p.Ok d) (hdisabled : p.sizeDisabled = false)
    {presses : ℕ → List Press} {q : Page} (hq : p.configSizeCb presses = some q) : q.Ok d := by
  rw [h.sizeDisabled, hides_iff] at hdisabled
  obtain ⟨hmode, hmounted⟩ := hdisabled
  obtain ⟨v, -, rfl⟩ := Option.map_eq_some_iff.mp hq
  have hcfg : { p.cfg with size := v }.clamp.InOrder d := by
    refine ⟨h.inOrder.small, .inr (VolumeCfg.clamp_inside ?_), ?_, h.inOrder.boot⟩
    · exact h.room fun hpart ↦ hmounted hpart.2
    · intro hpart _
      exact absurd (hmode.symm.trans hpart) (by simp)
  exact ⟨hcfg, h.boot, h.loaded, h.byPart, h.modeDisabled, h.partDisabled, h.offsetDisabled, rfl⟩

/-- The condition on opening the menu of a volume: a partition that is taken over again ends on the
storage, and a window that is not that of a partition starts inside it. -/
def Opens (d : Device) (w : Storages) (c : VolumeCfg) : Prop :=
  match w.loaded d with
  | some m =>
    if c.mode = .byPart ∧ (tableOf m.data).nParts ≠ 0 then
      c.mountMode ≠ .noMount → EndsOn m.data m.secCnt c.part
    else c.offset < m.secCnt
  | none => Storages.bare d = 0 ∧ c.offset = 0 ∨ c.offset < Storages.bare d

theorem Opens.ok {w : Storages} {c : VolumeCfg} (h : Opens d w c) : (opened d w c).Ok d := by
  rw [Opens] at h
  cases hloaded : w.loaded d with
  | some m =>
    rw [opened, Storages.volumeLoadPartTable_of_some hloaded]
    simp only [hloaded] at h
    refine Ready.configModeUpdate ⟨m.small, fun hboot ↦ ?_, fun _ ↦ rfl, ?_⟩
    · rcases hboot with rfl | rfl <;> cases hloaded
    · split
      · next hpart =>
        rw [if_pos hpart] at h
        exact h
      · next hfree =>
        rw [if_neg hfree] at h
        exact .inr h
  | none =>
    obtain ⟨size, hsize⟩ := Storages.volumeLoadPartTable_of_none hloaded c
    rw [opened, hsize]
    simp only [hloaded] at h
    refine Ready.configModeUpdate
      ⟨Storages.bare_lt d, fun hboot ↦ ?_, fun hzero ↦ absurd rfl hzero, ?_⟩
    · rcases hboot with rfl | rfl <;> rfl
    · rw [if_neg fun hpart ↦ hpart.2 rfl]
      exact h

end Page

/-! ## Runs -/

/-- The unit of a volume is inside its storage. -/
structure Valid (w : Storages) (d : Device) (v : Usb.Volume) : Prop where
  some : 1 ≤ (v.unit w.secCnt).numSectors
  inside : (v.unit w.secCnt).offset + (v.unit w.secCnt).numSectors ≤ w.sectors d
  small : (v.unit w.secCnt).offset + (v.unit w.secCnt).numSectors < 2 ^ 32

namespace Ui

variable {u : Ui} {i : Input} {d : Device} {p : Page}

/-- The storages of the volumes that are handed over can be initialised.  If one cannot, the gadget
gives up before there are any units. -/
def Mounts (u : Ui) (i : Input) : Prop :=
  ∀ d v, u.cfg.volume d = some v → i.storages.Works d = true

/-- What the volumes are that a step hands over: their units are inside their storages, and those of
partitions are partitions of the tables that are loaded. -/
def HandsOver (u : Ui) (i : Input) : Prop :=
  u.Starts i → u.Mounts i → ∀ d v, u.cfg.volume d = some v →
    Valid i.storages d v ∧
      ((u.cfg.volumeCfgs d).mode = .byPart →
        ∃ k, partition (u.cfg.volumeCfgs d).medium k = some (v.offset, v.sectors))

/-- The condition on a step. -/
def Careful (u : Ui) (i : Input) : Prop :=
  match u.screen, i.pick with
  | .menu, .volume d =>
    u.cfg.entryDisabled d = false → Page.Opens d i.storages (u.cfg.volumeCfgs d)
  | .menu, .start =>
    u.Mounts i → ∀ d v, u.cfg.volume d = some v →
      (u.cfg.volumeCfgs d).physSize ≤ i.storages.sectors d
  | .volume _ p, .mount =>
    p.cfg.mode = .byPart → Page.nextMount p.cfg.mountMode ≠ .noMount → p.cfg.Fits p.cfg.part
  | .volume _ p, .mode =>
    p.modeDisabled = false → p.cfg.mode = .byOffset → p.cfg.Fits p.cfg.part
  | .volume _ p, .part => p.partDisabled = false → p.cfg.Fits p.nextPart
  | .volume _ p, .offset _ => p.offsetDisabled = false → p.cfg.physSize ≠ 0
  | _, _ => True

/-- What the condition keeps. -/
structure Inv (u : Ui) : Prop where
  inOrder : u.screen ≠ .closed → ∀ d, (u.cfg.volumeCfgs d).InOrder d
  page : ∀ d p, u.screen = .volume d p → p.Ok d

theorem inOrder_initUmsCfg (w : Storages) (d : Device) :
    ((initUmsCfg w).volumeCfgs d).InOrder d := by
  have hinit : ∀ mount, (d.IsBoot → mount = .noMount) → (VolumeCfg.init mount).InOrder d := by
    intro mount hboot
    refine ⟨Nat.two_pow_pos 32, .inr (.inl ⟨rfl, rfl, rfl⟩), ?_, ?_⟩
    · intro hpart
      cases hpart
    · intro hd hmounted
      exact absurd (hboot hd) hmounted
  cases d with
  | sd => exact hinit _ (by rintro (h | h) <;> cases h)
  | emmcGpp => exact hinit _ fun _ ↦ rfl
  | emmcBoot0 => exact hinit _ fun _ ↦ rfl
  | emmcBoot1 => exact hinit _ fun _ ↦ rfl

theorem inv_initUmsCfg (w : Storages) : Inv ⟨initUmsCfg w, .menu⟩ where
  inOrder _ := inOrder_initUmsCfg w
  page _ _ h := by cases h

theorem Inv.show_ (h : u.Inv) (hscreen : u.screen ≠ .closed) (hp : p.Ok d) :
    (u.show_ d p).Inv where
  inOrder _ d' := by
    simp only [Ui.show_, UmsCfg.set]
    by_cases hd : d' = d
    · subst hd
      rw [Function.update_self]
      exact hp.inOrder
    · rw [Function.update_of_ne hd]
      exact h.inOrder hscreen d'
  page d' p' hpage := by
    obtain ⟨rfl, rfl⟩ := Screen.volume.inj hpage
    exact hp

theorem Inv.showOr (h : u.Inv) (hscreen : u.screen ≠ .closed) {q : Option Page}
    (hq : ∀ p, q = some p → p.Ok d) : (u.showOr d q).Inv := by
  cases q with
  | none => exact ⟨fun _ ↦ h.inOrder hscreen, fun _ _ hpage ↦ by cases hpage⟩
  | some p => exact h.show_ hscreen (hq p rfl)

theorem Inv.onMenu (h : u.Inv) (hscreen : u.screen = .menu) (hcare : u.Careful i) :
    (u.onMenu i).Inv := by
  have hopen : u.screen ≠ .closed := by simp [hscreen]
  rw [Careful, hscreen] at hcare
  rw [Ui.onMenu]
  cases hpick : i.pick with
  | volume d =>
    rw [hpick] at hcare
    cases hdisabled : u.cfg.entryDisabled d with
    | true => simpa [hdisabled] using h
    | false => simpa [hdisabled] using h.show_ hopen (hcare hdisabled).ok
  | reload =>
    refine ⟨fun _ ↦ inOrder_initUmsCfg _, fun _ _ hpage ↦ ?_⟩
    cases hscreen.symm.trans hpage
  | back => exact ⟨fun hclosed ↦ absurd rfl hclosed, fun _ _ hpage ↦ by cases hpage⟩
  | _ => exact h

theorem Inv.onPage (h : u.Inv) (hscreen : u.screen = .volume d p) (hcare : u.Careful i) :
    (u.onPage d p i).Inv := by
  have hopen : u.screen ≠ .closed := by simp [hscreen]
  have hp : p.Ok d := h.page d p hscreen
  rw [Careful, hscreen] at hcare
  rw [Ui.onPage]
  cases hpick : i.pick with
  | mount =>
    rw [hpick] at hcare
    exact h.show_ hopen (hp.configMountModeCb hcare)
  | mode =>
    rw [hpick] at hcare
    cases hdisabled : p.modeDisabled with
    | true => simpa [hdisabled] using h
    | false => simpa [hdisabled] using h.show_ hopen (hp.configModeCb hdisabled (hcare hdisabled))
  | part =>
    rw [hpick] at hcare
    cases hdisabled : p.partDisabled with
    | true => simpa [hdisabled] using h
    | false => simpa [hdisabled] using h.show_ hopen (hp.configPartCb hdisabled (hcare hdisabled))
  | offset presses =>
    rw [hpick] at hcare
    cases hdisabled : p.offsetDisabled with
    | true => simpa [hdisabled] using h
    | false =>
      have hnext : ∀ q, p.configOffsetCb presses = some q → q.Ok d :=
        fun _ hq ↦ hp.configOffsetCb hdisabled (hcare hdisabled) hq
      simpa [hdisabled] using h.showOr hopen hnext
  | size presses =>
    cases hdisabled : p.sizeDisabled with
    | true => simpa [hdisabled] using h
    | false =>
      have hnext : ∀ q, p.configSizeCb presses = some q → q.Ok d :=
        fun _ hq ↦ hp.configSizeCb hdisabled hq
      simpa [hdisabled] using h.showOr hopen hnext
  | back => exact ⟨fun _ ↦ h.inOrder hopen, fun _ _ hpage ↦ by cases hpage⟩
  | _ => exact h

/-- **The step lemma.** -/
theorem Inv.step (h : u.Inv) (hcare : u.Careful i) : (u.step i).Inv := by
  rw [Ui.step]
  cases hscreen : u.screen with
  | closed =>
    cases i.pick with
    | enter => exact inv_initUmsCfg _
    | _ => exact h
  | menu => exact h.onMenu hscreen hcare
  | volume d p => exact h.onPage hscreen hcare
  | stuck => exact h

/-- A volume that is handed over is mounted, and its window is the one it is configured with. -/
theorem volume_eq {u : UmsCfg} {v : Usb.Volume} (h : u.volume d = some v) :
    (u.volumeCfgs d).mountMode ≠ .noMount ∧ v.offset = (u.volumeCfgs d).offset ∧
      v.sectors = (u.volumeCfgs d).size ∧ (d = .sd → v.type = .sd) ∧
        (d ≠ .sd → v.type = .emmc) := by
  cases d
  all_goals
    simp only [UmsCfg.volume, handOver, Option.ite_none_left_eq_some, not_or,
      Option.some.injEq] at h
    obtain ⟨⟨hmounted, -⟩, rfl⟩ := h
    simp [hmounted]

/-- A volume that is not a boot partition can be as large as its storage. -/
theorem sectors_of_not_boot {w : Storages} (hboot : ¬d.IsBoot) {type : MmcType}
    (hsd : d = .sd → type = .sd) (hemmc : d ≠ .sd → type = .emmc) :
    w.secCnt type = w.sectors d ∧ 1 ≤ w.sectors d ∧ w.sectors d < 2 ^ 32 := by
  cases d with
  | sd =>
    obtain rfl := hsd rfl
    exact ⟨rfl, w.sd.some, w.sd.small⟩
  | emmcGpp =>
    obtain rfl := hemmc (by simp)
    exact ⟨rfl, w.emmc.some, w.emmc.small⟩
  | emmcBoot0 => exact absurd (.inl rfl) hboot
  | emmcBoot1 => exact absurd (.inr rfl) hboot

theorem valid_of_inside {w : Storages} {c : VolumeCfg} {v : Usb.Volume} (horder : c.InOrder d)
    (hmounted : c.mountMode ≠ .noMount) (hphys : c.physSize ≤ w.sectors d)
    (hoffset : v.offset = c.offset) (hsectors : v.sectors = c.size)
    (hsd : d = .sd → v.type = .sd) (hemmc : d ≠ .sd → v.type = .emmc) : Valid w d v := by
  have hsmall := horder.small
  rcases horder.window.resolve_left fun hpart ↦ hmounted hpart.2 with
    ⟨hzero, hstart, hsize⟩ | ⟨hsome, hle⟩
  · -- Nothing is known of the storage, and the gadget takes the whole of it.
    have hboot : ¬d.IsBoot := by
      intro hd
      have hbare := horder.boot hd hmounted
      rw [hzero] at hbare
      cases hbare
    obtain ⟨hwhole, hfirst, hlast⟩ := sectors_of_not_boot (w := w) hboot hsd hemmc
    constructor <;> simp only [Usb.Volume.unit, hoffset, hsectors, hstart, hsize, if_true, hwhole]
    · exact hfirst
    · omega
    · omega
  · have hsize : ¬c.size = 0 := by omega
    constructor <;> simp only [Usb.Volume.unit, hoffset, hsectors, if_neg hsize]
    · exact hsome
    · omega
    · omega

theorem Inv.handsOver (h : u.Inv) (hcare : u.Careful i) : u.HandsOver i := by
  rintro ⟨hscreen, hpick, -⟩ hmounts d v hv
  rw [Careful, hscreen, hpick] at hcare
  have hphys := hcare hmounts d v hv
  have horder := h.inOrder (by simp [hscreen]) d
  obtain ⟨hmounted, hoffset, hsectors, hsd, hemmc⟩ := volume_eq hv
  refine ⟨valid_of_inside horder hmounted hphys hoffset hsectors hsd hemmc, fun hmode ↦ ?_⟩
  obtain ⟨k, hk⟩ := horder.part hmode hmounted
  exact ⟨k, by rw [hk, hoffset, hsectors]⟩

end Ui

/-- **Window validity.**  In every run, from before the menu of the volumes is opened, whose steps
meet the condition, the windows that are handed to the gadget are inside their storages, and those
of partitions are partitions of the tables that are loaded. -/
theorem windows_valid {u : Ui} (h : u.screen = .closed) {is : List Input}
    (hcare : Machine.Along Ui.step Ui.Careful u is) : Machine.Along Ui.step Ui.HandsOver u is := by
  have hinv : u.Inv := by
    refine ⟨fun hopen ↦ absurd h hopen, fun d p hpage ↦ ?_⟩
    cases h.symm.trans hpage
  exact Machine.along_of_inv (fun _ _ hu hi ↦ hu.step hi) (fun _ _ hu hi ↦ hu.handsOver hi) hinv
    hcare

/-- The windows of the volumes are as the gadget relies on them to be. -/
theorem Ui.HandsOver.windows {u : Ui} {i : Input} (h : u.HandsOver i) (hstart : u.Starts i)
    (hmounts : u.Mounts i) : Usb.Windows u.cfg.volumes i.storages.secCnt := by
  intro v hv
  obtain ⟨d, -, hd⟩ := List.mem_filterMap.mp hv
  obtain ⟨hvalid, -⟩ := h hstart hmounts d v hd
  exact ⟨hvalid.some, Nat.le_of_lt hvalid.small⟩

/-! ## Two cards -/

/-- A card without partitions. -/
def blankCard (sectors : ℕ) (hsome : 1 ≤ sectors) (hsmall : sectors < 2 ^ 32) : Medium :=
  ⟨sectors, fun _ ↦ 0, hsome, hsmall⟩

/-- A card of `0x1000` sectors is in the slot, and everything succeeds. -/
def largeCard : Storages where
  sd := blankCard 0x1000 (by decide) (by decide)
  emmc := blankCard 0x10000 (by decide) (by decide)
  boot := 0x2000
  sdInitialize := true
  emmcInitialize := true
  readGpt := true
  readMbr := true

/-- The card in the slot has `0x400` sectors. -/
def smallCard : Storages := { largeCard with sd := blankCard 0x400 (by decide) (by decide) }

/-- The volume up button is pressed eight times while byte 1 is selected. -/
def eightUp (i : ℕ) : List Press := if i = 1 then List.replicate 8 .up else []

/-- The program as it is started. -/
def firstUi : Ui := ⟨initUmsCfg largeCard, .closed⟩

/-- The SD card is to be mounted from sector `0x800` on. -/
def chosen : List Input :=
  [⟨.enter, largeCard⟩, ⟨.volume .sd, largeCard⟩, ⟨.offset eightUp, largeCard⟩, ⟨.back, largeCard⟩]

theorem windows_valid_chosen :
    Machine.Along Ui.step Ui.HandsOver firstUi (chosen ++ [⟨.start, largeCard⟩]) := by
  refine windows_valid rfl ⟨trivial, ?_, ?_, trivial, ?_, trivial⟩
  · intro _
    exact (by decide : 0 < 0x1000)
  · intro _
    exact (by decide : 0x1000 ≠ 0)
  · intro _ d v hv
    cases d with
    | sd => exact (by decide : 0x1000 ≤ 0x1000)
    | emmcGpp => cases hv
    | emmcBoot0 => cases hv
    | emmcBoot1 => cases hv

/-- The other card is put into the slot, and the menu of the volume is opened again. -/
def swapped : List Input := chosen ++ [⟨.volume .sd, smallCard⟩, ⟨.back, smallCard⟩]

/-- **The window of another card** is handed over as it was chosen, from a sector that there is not
on the card in the slot. -/
theorem windows_not_valid_swapped :
    ¬Machine.Along Ui.step Ui.HandsOver firstUi (swapped ++ [⟨.start, smallCard⟩]) := by
  rintro ⟨-, -, -, -, -, -, hstart, -⟩
  have hvolume : (Machine.run Ui.step firstUi swapped).cfg.volume .sd =
      some ⟨.sd, 0, 0x800, 0x400, 0⟩ := rfl
  have hmounts : (Machine.run Ui.step firstUi swapped).Mounts ⟨.start, smallCard⟩ := by
    intro d v _
    cases d <;> rfl
  have hinside := (hstart ⟨rfl, rfl, rfl⟩ hmounts .sd _ hvolume).1.inside
  revert hinside
  decide

end Volumes
end SdLoader
