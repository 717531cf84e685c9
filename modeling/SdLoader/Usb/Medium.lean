import SdLoader.Usb.Isolation
import SdLoader.Usb.OutPhase

/-!
# The mass storage gadget: the media

What the two storages hold, and what a command with a range of blocks has to do with it.

The sectors of a medium are not part of the state of the gadget, which knows only what it has moved.
So their contents are a function `Media`, and the record of the transfers that have succeeded says
how it changes:

* `Media.after` — the contents after the transfers of a record.
* `Media.Consistent` — every read of the record has brought what the medium held at the time.
* `Covers` — a stretch of the record moves a range of sectors of one place, in order and without a
  gap.
* `contents_of_reads`, `after_writes` — what such a stretch has brought, if it is made of reads, and
  what it leaves behind, if it is made of writes.

The second half is the command: `Addresses` says that a read or a write of `n` blocks is accepted
and lies inside its unit, and `Addresses.limits` what the checks leave of the data phase then.
-/

set_option autoImplicit false

namespace SdLoader
namespace Usb

/-! ## Contents -/

/-- What the media hold, by place and byte.  An eMMC has one place for each of its partitions. -/
abbrev Media : Type := MmcType × ℕ → ℕ → UInt8

namespace Transfer

/-- Where the sectors are. -/
def place (t : Transfer) : MmcType × ℕ := (t.type, if t.type = .emmc then t.part else 0)

/-- The first byte of the sectors. -/
def start (t : Transfer) : ℕ := lbaSize * t.sector

/-- The media after the transfer. -/
def apply (t : Transfer) (m : Media) : Media :=
  if t.isWrite then
    Function.update m t.place
      (Store.blit (m t.place) t.start t.data.length fun k ↦ t.data.getD k 0)
  else m

/-- The transfer brings what the media hold, if it is a read. -/
def Fetches (t : Transfer) (m : Media) : Prop :=
  t.isWrite = false → t.data = Store.slice (m t.place) t.start t.data.length

end Transfer

namespace Media

variable {m : Media} {ts ts' : List Transfer}

/-- The media after the transfers of a record, the latest of which comes first. -/
def after (m : Media) : List Transfer → Media
  | [] => m
  | t :: ts => t.apply (m.after ts)

/-- Every read of a record has brought what the media held when it was made. -/
def Consistent (m : Media) : List Transfer → Prop
  | [] => True
  | t :: ts => t.Fetches (m.after ts) ∧ m.Consistent ts

theorem after_append (m : Media) (ts ts' : List Transfer) :
    m.after (ts ++ ts') = (m.after ts').after ts := by
  induction ts with
  | nil => rfl
  | cons t ts ih => rw [List.cons_append, after, after, ih]

theorem Consistent.append (h : m.Consistent (ts ++ ts')) : (m.after ts').Consistent ts := by
  induction ts with
  | nil => trivial
  | cons t ts ih =>
    obtain ⟨hfetch, hrest⟩ := h
    have hsame : m.after (ts ++ ts') = (m.after ts').after ts := after_append m ts ts'
    exact ⟨hsame ▸ hfetch, ih hrest⟩

end Media

/-! ## Stretches -/

/-- The transfers `ts`, the latest of which comes first, move the sectors of `p` from `a` up to `b`,
in order and without a gap. -/
def Covers (p : MmcType × ℕ) (isWrite : Bool) (a : ℕ) : List Transfer → ℕ → Prop
  | [], b => b = a
  | t :: ts, b => t.place = p ∧ t.isWrite = isWrite ∧ Covers p isWrite a ts t.sector ∧
    lbaSize * b = t.start + t.data.length

/-- What the transfers have moved, one after the other. -/
def contents : List Transfer → List UInt8
  | [] => []
  | t :: ts => contents ts ++ t.data

variable {p : MmcType × ℕ} {isWrite : Bool} {a b : ℕ} {ts : List Transfer} {m : Media}

theorem Covers.nil (p : MmcType × ℕ) (isWrite : Bool) (a : ℕ) : Covers p isWrite a [] a := rfl

theorem Covers.length (h : Covers p isWrite a ts b) :
    lbaSize * b = lbaSize * a + (contents ts).length := by
  induction ts generalizing b with
  | nil =>
    obtain rfl : b = a := h
    rfl
  | cons t ts ih =>
    obtain ⟨-, -, hrest, hend⟩ := h
    have hbefore := ih hrest
    rw [Transfer.start] at hend
    rw [contents, List.length_append]
    omega

/-- **A stretch of reads** has brought the sectors it covers, and leaves the media as they are. -/
theorem contents_of_reads (h : Covers p false a ts b) (hcons : m.Consistent ts) :
    contents ts = Store.slice (m p) (lbaSize * a) (contents ts).length ∧ m.after ts = m := by
  induction ts generalizing b with
  | nil => exact ⟨rfl, rfl⟩
  | cons t ts ih =>
    obtain ⟨hplace, hread, hrest, -⟩ := h
    obtain ⟨hfetch, hcons⟩ := hcons
    obtain ⟨hbefore, hsame⟩ := ih hrest hcons
    have hstart : t.start = lbaSize * a + (contents ts).length := hrest.length
    have hdata : t.data = Store.slice (m p) t.start t.data.length := by
      have hbrought := hfetch hread
      rwa [hsame, hplace] at hbrought
    constructor
    · rw [contents, List.length_append, Store.slice_add, ← hbefore, ← hstart, ← hdata]
    · rw [Media.after, Transfer.apply, hread, if_neg Bool.false_ne_true, hsame]

/-- **A stretch of writes** leaves what it has moved in the sectors it covers, and everything else
as it was. -/
theorem after_writes (h : Covers p true a ts b) :
    m.after ts = Function.update m p
      (Store.blit (m p) (lbaSize * a) (contents ts).length fun k ↦ (contents ts).getD k 0) := by
  induction ts generalizing b with
  | nil =>
    simp only [contents, List.length_nil, Store.blit_zero, Function.update_eq_self]
    rfl
  | cons t ts ih =>
    obtain ⟨hplace, hwrite, hrest, -⟩ := h
    have hstart : t.start = lbaSize * a + (contents ts).length := hrest.length
    rw [Media.after, Transfer.apply, if_pos hwrite, hplace, ih hrest, Function.update_self,
      Function.update_idem, hstart, Store.blit_append, contents]

/-! ## The environment of a transfer -/

/-- Nothing goes wrong on the storages: no transfer fails, and no card has to be initialised
again. -/
structure Sound (env : Env) : Prop where
  ok : ∀ t, (env t).ok = true
  calm : ∀ t, (env t).reinit = false

theorem sound_calmly : Sound calmly := ⟨fun _ ↦ rfl, fun _ ↦ rfl⟩

/-- Where the sectors of a unit are. -/
def LogicalUnit.place (l : LogicalUnit) : MmcType × ℕ :=
  (l.type, if l.type = .emmc then Ums.hwPartition l else 0)

/-! ## Sessions -/

namespace Gadget

variable {volumes : List Volume} {secCnt : MmcType → ℕ} {g : Gadget} {past : List Env} {s : Ums}

/-- The host sends a command block when it has received all that has been sent to it. -/
def Collects (g : Gadget) (env : Env) : Prop := ∀ s, g.step env = .parse s → s.w.inQueue = []

/-- In a session in which no switch of partitions fails and no card has to be initialised again, the
unit of a command is the one whose partition is selected. -/
theorem aligned_of_settled (hg : Starts volumes secCnt g)
    (hset : Machine.Along Gadget.step Settled g past)
    (hrun : Machine.run Gadget.step g past = .parse s) :
    Aligned s ∧ s.lunIdx < s.lunCnt := by
  have hinv : PartInv volumes secCnt (Machine.run Gadget.step g past) :=
    Machine.run_inv_along (fun _ _ h hs ↦ h.step hs) (.start hg) hset
  rw [hrun] at hinv
  refine ⟨hinv.aligned, ?_⟩
  have hidx : s.lunIdx < volumes.length := hinv.units.active trivial
  have hcnt : s.lunCnt = volumes.length := hinv.units.lunCnt
  omega

theorem collects_of_ums {env : Env} (h : (g.step env).ums.w.inQueue = []) : g.Collects env := by
  intro s hs
  rw [hs] at h
  exact h

theorem inQueue_of_collects (hg : Starts volumes secCnt g)
    (hcol : Machine.Along Gadget.step Collects g past)
    (hrun : Machine.run Gadget.step g past = .parse s) : s.w.inQueue = [] := by
  have hinv : ∀ t, Machine.run Gadget.step g past = .parse t → t.w.inQueue = [] := by
    refine Machine.run_inv_along (I := fun g ↦ ∀ t, g = .parse t → t.w.inQueue = [])
      (fun g env _ hc t ht ↦ hc t ht) (fun t ht ↦ ?_) hcol
    obtain ⟨-, w, -, rfl⟩ := hg
    cases ht
  exact hinv s hrun

end Gadget

/-! ## Commands with a range of blocks -/

/-- The length of a transfer, in blocks. -/
def ScsiCmd.blocks (s : Ums) : ScsiCmd → ℕ
  | .read6 => if s.cmnd 4 = 0 then 256 else (s.cmnd 4).toNat
  | .read10 => be16 s.cmnd 7
  | .read12 => be32 s.cmnd 6
  | .write6 => if s.cmnd 4 = 0 then 256 else (s.cmnd 4).toNat
  | .write10 => be16 s.cmnd 7
  | .write12 => be32 s.cmnd 6
  | _ => 0

namespace Ums

variable {env : Env} {s t u : Ums} {six : Bool} {lba n : ℕ}

/-- The command block is accepted.  It is about the `n` blocks from `lba` on, which are blocks of
the unit and sectors of its storage, and the host has announced just as much data. -/
structure Addresses (s : Ums) (six : Bool) (lba n : ℕ) : Prop where
  accepted : s.checked.1 = true
  start : s.checked.2.lbaOffset six = (lba, true)
  blocks : s.cmd.blocks s = n
  some : n ≠ 0
  announced : s.dataSize = lbaSize * n
  inside : lba + n ≤ s.lun.numSectors
  sectors : s.lun.offset + lba + n ≤ 2 ^ 32

/-- The gadget as it has been left by the checks, for a command that moves `n` blocks. -/
structure Limits (s t : Ums) (n : ℕ) : Prop where
  kept : Kept s.opened.limitData t
  checked : s.checked = (true, t)
  lun : t.lun.static = s.lun.static
  tag : t.tag = s.tag
  amount : t.dataSizeFromCmnd = lbaSize * n
  residue : t.residue = lbaSize * n
  phase : t.phaseError = 0
  sense : t.lun.senseData = ssNoSense
  selected : t.w.selected = s.w.selected
  moved : t.w.moved = s.w.moved
  received : t.w.received = s.w.received

theorem clearSense_sense (h : s.cmnd 0 ≠ scRequestSense) :
    s.clearSense.lun.senseData = ssNoSense := by
  rw [clearSense, if_pos h, setLun_lun]

theorem clearSense_phaseError (s : Ums) : s.clearSense.phaseError = s.phaseError := by
  rw [clearSense]
  split <;> rfl

/-- A command that is a read or a write is not one that asks for sense data. -/
theorem cmnd_of_cmd (h : s.cmd ≠ .requestSense) : s.cmnd 0 ≠ scRequestSense := by
  intro heq
  refine h ?_
  rw [cmd, heq]
  rfl

/-- **What the checks leave** of a command that moves as much as the host has announced. -/
theorem limits_of_accepted (hcmd : s.cmd ≠ .requestSense) (hok : s.checked.1 = true)
    (hsize : (s.cmd.spec s).dataSize = lbaSize * n) (hannounced : s.dataSize = lbaSize * n) :
    Limits s s.checked.2 n := by
  have hchecked : s.checked = (true, s.checked.2) := by
    rw [← hok]
  obtain ⟨hsame, -, -⟩ := checked_passed hchecked
  have hlimit : s.opened.limitData =
      { s.opened with residue := s.dataSize, usbAmountLeft := s.dataSize } := by
    rw [limitData, if_neg]
    · rfl
    · show ¬ s.dataSize < (s.cmd.spec s).dataSize
      rw [hsize, hannounced]
      exact Nat.lt_irrefl _
  have hkept := (checked_kept s).1
  have hw : s.checked.2.w = s.opened.w := by
    rw [hsame]
    show s.opened.limitData.clearSense.w = _
    rw [clearSense_w, limitData_w]
  have hdoes : Does calmly never False s s.checked.2 := checked_does
  refine ⟨hkept, hchecked, hdoes.lun_static, hdoes.tag, ?_, ?_, ?_, ?_, ?_, ?_, ?_⟩
  · rw [hkept.dataSizeFromCmnd, hlimit]
    exact hsize
  · rw [hkept.residue, limitData_residue]
    exact hannounced
  · rw [hsame]
    show s.opened.limitData.clearSense.phaseError = 0
    rw [clearSense_phaseError, hlimit]
    rfl
  · rw [hsame]
    refine clearSense_sense ?_
    rw [hlimit]
    exact cmnd_of_cmd hcmd
  · rw [hw]
    rfl
  · rw [hw]
    rfl
  · rw [hw]
    rfl

/-- The blocks of a command are what it passes to the checks, unless they are too many for 32
bits. -/
theorem spec_blocks (h : s.cmd.readSix = some six ∨ s.cmd.writeSix = some six) :
    s.cmd ≠ .requestSense ∧ (s.cmd.spec s).dataSize = lbaBytes (s.cmd.blocks s) := by
  rcases h with h | h <;> cases hcmd : s.cmd <;> rw [hcmd] at h <;> cases h <;>
    exact ⟨ScsiCmd.noConfusion, rfl⟩

theorem Addresses.limits (h : Addresses s six lba n) (hsmall : s.dataSize < 2 ^ 32)
    (hcmd : s.cmd.readSix = Option.some six ∨ s.cmd.writeSix = Option.some six) :
    Limits s s.checked.2 n := by
  obtain ⟨hother, hspec⟩ := spec_blocks hcmd
  refine limits_of_accepted hother h.accepted ?_ h.announced
  have hannounced := h.announced
  rw [hspec, h.blocks, lbaBytes, Nat.mul_comm, ← hannounced]
  exact Nat.mod_eq_of_lt hsmall

/-- The status of the command is due, and it has passed with nothing left over. -/
structure Passes (u : Ums) : Prop where
  residue : u.residue = 0
  status : u.status = 0

theorem passes_of_sense (hresidue : u.residue = 0) (hphase : u.phaseError = 0)
    (hsense : u.lun.senseData = ssNoSense) : u.Passes := by
  refine ⟨hresidue, ?_⟩
  rw [status, if_neg (not_not_intro hphase), if_neg (not_not_intro hsense)]

/-- The sectors of the unit are where the partition is that is selected. -/
theorem Limits.place (h : Limits s t n) (hal : Aligned s) (hidx : s.lunIdx < s.lunCnt) :
    (t.lun.type, if t.lun.type = .emmc then t.w.selected else 0) = s.lun.place := by
  rw [LogicalUnit.place, LogicalUnit.static_type h.lun, h.selected]
  by_cases htype : s.lun.type = .emmc
  · rw [if_pos htype, if_pos htype, hal.unit hidx htype]
  · rw [if_neg htype, if_neg htype]

/-- The `n` blocks from `lba` on are the sectors of `p` from `a` on. -/
structure Located (s : Ums) (p : MmcType × ℕ) (a lba n : ℕ) : Prop where
  place : (s.lun.type, if s.lun.type = .emmc then s.w.selected else 0) = p
  start : s.lun.offset + lba = a
  sectors : a + n ≤ 2 ^ 32

theorem located_of_limits (hal : Aligned s) (hidx : s.lunIdx < s.lunCnt)
    (haddr : Addresses s.polled six lba n) (hlim : Limits s.polled t n) :
    Located t s.lun.place (s.lun.offset + lba) lba n := by
  refine ⟨hlim.place ⟨hal.sync, hal.unit⟩ hidx, ?_, haddr.sectors⟩
  rw [LogicalUnit.static_offset hlim.lun]
  rfl

end Ums

end Usb
end SdLoader
