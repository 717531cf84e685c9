import SdLoader.Usb.ReadData

/-!
# The mass storage gadget: the data of a write

What the medium holds after a write, and where it has come from.

The loop of `_scsi_write` keeps two block numbers and two counts of bytes, one for what it has asked
the host for and one for what it has written.  A pass that asks for data writes it before the next
one, so the two only come apart if the host, the bus or the storage fails, or if the unit ends.

* `Storing` — the two are where they should be, and the transfers on record have moved just what the
  host has sent.
* `storing_step` — the step lemma: a pass of whole blocks asks for as many as it writes.
* `until_writeLaw` — the run of passes, with the number of bytes still to be asked for as its
  variant.
* `writeData` — a write that is accepted leaves what the host has sent in its sectors, and nothing
  else has changed.
-/

set_option autoImplicit false

namespace SdLoader
namespace Usb

/-- What a request brings is on record. -/
theorem xusbDeviceEp1OutRead_brings (env : Env) (buf len : ℕ) (w : World) :
    (xusbDeviceEp1OutRead env buf len w).2.2.moved = w.moved ∧
      (xusbDeviceEp1OutRead env buf len w).2.2.received = w.received ++
        Store.slice (xusbDeviceEp1OutRead env buf len w).2.2.mem buf
          (xusbDeviceEp1OutRead env buf len w).2.1 := by
  rw [xusbDeviceEp1OutRead, xusbDeviceEp1OutReadingFinish, World.waitOut]
  simp only [Nat.one_ne_zero, ↓reduceIte]
  exact ⟨rfl, rfl⟩

namespace Ums

variable {env : Env} {envs : ℕ → Env} {s t u : Ums} {p : MmcType × ℕ} {a lba n : ℕ} {six : Bool}
  {x y : WriteLoop}

/-! ## A pass -/

/-- What holds each time the loop of a write begins a pass. -/
structure Storing (s t : Ums) (p : MmcType × ℕ) (a lba n : ℕ) (x : WriteLoop) : Prop where
  whole : x.Whole
  consuming : Consuming s (lbaSize * n) x
  steady : Steady t x.s
  blocks : lbaSize * x.lbaOffset + x.amountLeftToWrite = lbaSize * (lba + n)
  begun : lba ≤ x.lbaOffset
  usbLba : x.usbLbaOffset = x.lbaOffset % 2 ^ 32
  data : ∃ new, x.s.w.moved = new ++ t.w.moved ∧ Covers p true a new (a + (x.lbaOffset - lba)) ∧
    x.s.w.received = t.w.received ++ contents new

/-- A request is for whole blocks, and all of them are written. -/
theorem blocks_of_whole (h : x.Whole) (hleft : x.amountLeftToWrite ≠ 0) :
    lbaSize * x.blocks = x.request ∧ x.blocks ≠ 0 ∧ x.blocks ≤ 64 := by
  obtain ⟨htoReq, hblocks, hroom⟩ := h
  have hrequest : x.request = min x.amountLeftToWrite 0x8000 := by
    rw [WriteLoop.request, htoReq, usbEpBulkOutMaxXfer_eq]
  rw [lbaSize_eq] at hblocks hroom ⊢
  rw [WriteLoop.blocks, lbaSize_eq]
  omega

/-- The request of a pass leaves its data in the buffer. -/
theorem requested_brings (hexact : Exact env) (hreq : x.amountLeftToReq ≠ 0) :
    Steady x.s (x.requested env).s ∧ (x.requested env).s.w.moved = x.s.w.moved ∧
      (x.requested env).s.w.received = x.s.w.received ++
        Store.slice (x.requested env).s.w.mem x.s.bulk.outBuf x.request := by
  have hmost := x.request_le
  have hw : (x.requested env).s.w =
      (xusbDeviceEp1OutRead env x.s.bulk.outBuf x.request x.s.w).2.2 :=
    congrArg (·.2.2) (xusbDeviceEp1OutReadBig_eq env x.s.bulk.outBuf x.s.w
      (WriteLoop.request_pos hreq) hmost)
  obtain ⟨hselected, -, -⟩ := xusbDeviceEp1OutRead_log env x.s.bulk.outBuf x.request x.s.w
  obtain ⟨hmoved, hreceived⟩ := xusbDeviceEp1OutRead_brings env x.s.bulk.outBuf x.request x.s.w
  have hactual := (xusbDeviceEp1OutRead_exact hexact x.s.bulk.outBuf x.request x.s.w).2
  have hmin : min x.request usbEpBufferMaxSize = x.request := by
    rw [usbEpBulkOutMaxXfer_eq] at hmost
    rw [usbEpBufferMaxSize_eq]
    omega
  rw [hactual, hmin, ← hw] at hreceived
  rw [← hw] at hselected hmoved
  exact ⟨⟨rfl, rfl, rfl, rfl, rfl, rfl, hselected⟩, hmoved, hreceived⟩

/-- The memory after a write that does not fail. -/
theorem access_mem_write (hsound : Sound env) (sector count buf : ℕ) (s : Ums) :
    (s.sdmmcStorageAccess env true sector count buf).2.w.mem = s.w.mem := by
  show accessMem (env s.w.tick) true count buf s.w.mem = _
  simp only [accessMem, hsound.calm, Bool.false_eq_true, ↓reduceIte]

/-- **The step lemma.**  There is something left to write: a pass goes round, and what it has
written is what it has asked for. -/
theorem storing_step (henv : Faithful env) (hsound : Sound env) (hloc : Located t p a lba n)
    (h : Storing s t p a lba n x) (hleft : x.amountLeftToWrite ≠ 0) :
    ∃ y, writePass env x = .again y ∧ Storing s t p a lba n y ∧
      y.amountLeftToReq < x.amountLeftToReq := by
  have hexact := henv.toExact
  obtain ⟨new, hmoved, hcovers, hreceived⟩ := h.data
  obtain ⟨hplace, hstart, hsectors⟩ := hloc
  obtain ⟨hall, hsome, hfew⟩ := blocks_of_whole h.whole hleft
  have hreq : x.amountLeftToReq ≠ 0 := by
    rw [h.whole.toReq]
    exact hleft
  have hle : x.request ≤ x.amountLeftToWrite := by
    rw [← h.whole.toReq]
    exact Nat.min_le_left _ _
  have hblocks := h.blocks
  have hbegun := h.begun
  have hroom := h.whole.room
  have hmod := h.whole.blocks
  rw [lbaSize_eq] at hblocks hroom hmod
  have hsmall : x.usbLbaOffset = x.lbaOffset := by
    rw [h.usbLba]
    exact Nat.mod_eq_of_lt (by omega)
  have hin : x.usbLbaOffset < x.s.lun.numSectors := by omega
  obtain ⟨hamount, hpass⟩ := writePass_exact hexact hleft hreq hin
  obtain ⟨hsteady, hsame, hbrings⟩ := requested_brings (x := x) hexact hreq
  set z := x.requested env with hz
  have hamount' : z.amount = x.request := hamount.trans hall
  have hnonzero : z.amount ≠ 0 := by
    rw [hamount, lbaSize_eq]
    omega
  have hcount : z.amount / lbaSize = x.blocks := by
    rw [hamount, lbaSize_eq]
    omega
  have hok : (z.access env).1 = true := hsound.ok _
  rw [if_neg hnonzero, if_pos hok] at hpass
  refine ⟨z.written env, hpass, ?_⟩
  have hconsuming := consuming_pass hexact h.consuming
  rw [hpass] at hconsuming
  obtain ⟨hwhole, hless⟩ := whole_step h.whole hpass
  have hadv := advances_of_again hpass hreq
  have hlba : (z.written env).lbaOffset = x.lbaOffset + x.blocks := hadv.lba
  have htoWrite := hadv.toWrite
  rw [lbaSize_eq] at htoWrite hall
  -- What is written is what is in the buffer.
  obtain ⟨-, haccess⟩ := access_sound hsound true (add32 z.taken.lun.offset z.lbaOffset)
    (z.amount / lbaSize) z.taken.bulk.outBuf z.taken
  have hmem := access_mem_write hsound (add32 z.taken.lun.offset z.lbaOffset)
    (z.amount / lbaSize) z.taken.bulk.outBuf z.taken
  have hsector : add32 z.taken.lun.offset z.lbaOffset = a + (x.lbaOffset - lba) := by
    have hoffset : z.taken.lun.offset = t.lun.offset := by
      show x.s.lun.offset = t.lun.offset
      rw [h.steady.lun]
    show add32 z.taken.lun.offset x.lbaOffset = _
    rw [hoffset, add32_of_lt (by omega)]
    omega
  set v := (z.access env).2 with hv
  have hvmem : v.w.mem = z.s.w.mem := hmem
  set new' : Transfer := ⟨x.s.lun.type, v.w.selected, true, a + (x.lbaOffset - lba),
    Store.slice v.w.mem x.s.bulk.outBuf (lbaSize * (z.amount / lbaSize))⟩ with hnew'
  have hvmoved : v.w.moved = (new' :: new) ++ t.w.moved := by
    show (if (env z.taken.w.tick).ok then _ :: z.s.w.moved else _) = _
    rw [if_pos (hsound.ok _), hsame, hmoved, hnew', ← hsector]
    rfl
  have hwritten : Steady z.s (z.written env).s :=
    ⟨haccess.dataDir, haccess.dataSize, haccess.state, haccess.phase, haccess.lun, haccess.tag,
      haccess.selected⟩
  have hvsteady : Steady t (z.written env).s := (h.steady.trans hsteady).trans hwritten
  have hplace' : new'.place = p := by
    have hsel : v.w.selected = t.w.selected := hvsteady.selected
    rw [← hplace, hnew', Transfer.place, hsel, h.steady.lun]
  have hlength : (Store.slice v.w.mem x.s.bulk.outBuf (lbaSize * (z.amount / lbaSize))) =
      Store.slice z.s.w.mem x.s.bulk.outBuf x.request := by
    rw [hvmem, hcount, lbaSize_eq, hall]
  refine ⟨⟨hwhole, hconsuming, hvsteady, ?_, ?_, ?_, new' :: new, hvmoved, ?_, ?_⟩, hless⟩
  · rw [hlba, lbaSize_eq]
    omega
  · omega
  · rw [hadv.usbLba, hlba, hsmall, add32, ← hall, lbaSize_eq, Nat.mul_div_cancel_left _ (by decide)]
  · refine ⟨hplace', rfl, hcovers, ?_⟩
    show _ = lbaSize * (a + (x.lbaOffset - lba)) +
      (Store.slice v.w.mem x.s.bulk.outBuf (lbaSize * (z.amount / lbaSize))).length
    rw [Store.length_slice, hcount, hlba, lbaSize_eq]
    omega
  · show z.s.w.received = t.w.received ++ (contents new ++ new'.data)
    rw [hbrings, hreceived, List.append_assoc]
    exact congrArg (fun l ↦ t.w.received ++ (contents new ++ l)) hlength.symm

/-! ## The command -/

/-- **The law.**  The data phase of the command is over, and it has consumed the data of `n` blocks,
which is what the host has sent.  The `n` blocks from `lba` on hold that data, nothing else on the
media has changed, and the command has passed, which is what the status wrapper says that is sent
next. -/
def WriteLaw (s : Ums) (lba n : ℕ) (g : Gadget) : Prop :=
  ∃ u data, g = .status u ∧ u.Passes ∧ (∀ k, g.Reports k s.tag 0 0) ∧
    u.w.consumed = s.w.consumed + lbaSize * n ∧
    u.w.received = s.w.received ++ data ∧ data.length = lbaSize * n ∧
    ∀ m : Media, m.after u.w.moved = Function.update (m.after s.w.moved) s.lun.place
      (Store.blit (m.after s.w.moved s.lun.place) (lbaSize * (s.lun.offset + lba)) (lbaSize * n)
        fun k ↦ data.getD k 0)

/-- What a loop that has nothing left to write has stored. -/
theorem writeLaw_of_storing (hlim : Limits s.polled t n) (hannounced : s.dataSize = lbaSize * n)
    (h : Storing s t s.lun.place (s.lun.offset + lba) lba n x) (hleft : x.amountLeftToWrite = 0) :
    x.s.residue = 0 ∧ WriteLaw s lba n (.status x.s.polled) := by
  obtain ⟨new, hmoved, hcovers, hreceived⟩ := h.data
  have hblocks := h.blocks
  have htoReq := h.whole.toReq
  have hlength := hcovers.length
  have hresidue : x.s.residue = 0 := by
    rw [h.consuming.residue, hannounced]
    omega
  have hwhole : (contents new).length = lbaSize * n := by
    have hbegun := h.begun
    rw [lbaSize_eq] at hblocks hlength ⊢
    omega
  have hconsumed : x.s.w.consumed = s.w.consumed + lbaSize * n := by
    rw [h.consuming.consumed]
    omega
  have hpolled : Steady x.s x.s.polled := ⟨rfl, rfl, rfl, rfl, rfl, rfl, rfl⟩
  have hpasses : x.s.polled.Passes := .of_steady (h.steady.trans hpolled) hlim hresidue
  have htag : x.s.polled.tag = s.tag := h.steady.tag.trans hlim.tag
  refine ⟨hresidue, x.s.polled, contents new, rfl, hpasses, hpasses.reports htag, hconsumed, ?_,
    hwhole, fun m ↦ ?_⟩
  · show x.s.w.received = _
    rw [hreceived, hlim.received]
    rfl
  · have hbefore : t.w.moved = s.w.moved := hlim.moved
    show m.after x.s.w.moved = _
    rw [hmoved, hbefore, Media.after_append, after_writes hcovers, hwhole]

/-- **The run lemma.**  The loop comes to an end, with everything stored. -/
theorem until_of_storing (hlim : Limits s.polled t n) (hannounced : s.dataSize = lbaSize * n)
    (hloc : Located t s.lun.place (s.lun.offset + lba) lba n)
    (h : Storing s t s.lun.place (s.lun.offset + lba) lba n x)
    (henvs : ∀ k, Faithful (envs k) ∧ Sound (envs k)) :
    Machine.Until Gadget.step Gadget.Over (WriteLaw s lba n) (.writing x) envs := by
  refine Machine.until_of_measure (P := fun env ↦ Faithful env ∧ Sound env)
    (I := fun g ↦ ∃ x, g = .writing x ∧ Storing s t s.lun.place (s.lun.offset + lba) lba n x)
    Gadget.toRequest ?_ ⟨x, rfl, h⟩ henvs
  rintro _ env ⟨x, rfl, h⟩ ⟨henv, hsound⟩
  refine ⟨id, ?_⟩
  rw [Gadget.step]
  by_cases hleft : x.amountLeftToWrite = 0
  · refine .inl fun envs' henvs' ↦ ?_
    obtain ⟨hresidue, hlaw⟩ := writeLaw_of_storing hlim hannounced h hleft
    have hstate := h.consuming.state
    have hdir := h.consuming.dataDir
    have hparsed : Gadget.parsed (x.s.setUpReply .ioError) = .reply x.s := by
      rw [setUpReply, Gadget.parsed, if_neg (not_not_intro hstate)]
    have hfinish : x.s.polled.finishReply (envs' 0) = (false, x.s.polled) := by
      rw [finishReply, show x.s.polled.dataDir = .fromHost from hdir]
      exact if_pos hresidue
    have hstep : Gadget.step (.reply x.s) (envs' 0) = .status x.s.polled := by
      rw [Gadget.step, handleEp0Ctrl_quiet (henvs' 0).1.quiet, hfinish]
      dsimp only
      rw [Bool.false_or, if_neg]
      rw [decide_eq_true_eq]
      exact not_not_intro hstate
    rw [writePass_done hleft]
    dsimp only
    rw [hparsed, Machine.until_step (fun hover : Gadget.Over (.reply x.s) ↦ hover), hstep,
      Machine.until_of_stop (trivial : Gadget.Over (.status x.s.polled))]
    exact hlaw
  · obtain ⟨y, hy, hstoring, hless⟩ := storing_step henv hsound hloc h hleft
    rw [hy]
    exact .inr ⟨⟨y, rfl, hstoring⟩, hless⟩

/-- A write that is accepted is admitted. -/
theorem admits_of_addresses (hcmd : s.cmd.writeSix = some six) (hro : s.lun.ro = 0)
    (h : Addresses s six lba n) (hlim : Limits s t n) :
    Admits s ⟨lba, lba, lbaSize * n, lbaSize * n, t⟩ := by
  have hpos := h.some
  have hinside := h.inside
  have hsame : s.checked.2 = t := by rw [hlim.checked]
  have hstart := h.start
  rw [hsame] at hstart
  have hwritable : ¬ t.lun.ro ≠ 0 := by
    rw [LogicalUnit.static_ro hlim.lun]
    exact not_not_intro hro
  have hroom : ¬ t.lun.numSectors ≤ lba := by
    rw [LogicalUnit.static_numSectors hlim.lun]
    omega
  refine ⟨hlim.checked, six, hcmd, ?_⟩
  show t.scsiWrite six = _
  rw [scsiWrite, if_neg hwritable, hstart]
  dsimp only
  rw [if_neg hroom, hlim.amount]

/-- The loop of a write as it is entered. -/
theorem storing_start (h : Addresses s.polled six lba n) (hlim : Limits s.polled t n)
    (hconsuming : Consuming s (lbaSize * n) ⟨lba, lba, lbaSize * n, lbaSize * n, t⟩)
    (p : MmcType × ℕ) :
    Storing s t p (s.lun.offset + lba) lba n ⟨lba, lba, lbaSize * n, lbaSize * n, t⟩ where
  whole := by
    have hinside := h.inside
    refine ⟨rfl, Nat.mul_mod_right _ _, ?_⟩
    show lba + lbaSize * n / lbaSize ≤ t.lun.numSectors
    rw [LogicalUnit.static_numSectors hlim.lun, lbaSize_eq, Nat.mul_div_cancel_left _ (by decide)]
    exact hinside
  consuming := hconsuming
  steady := .refl t
  blocks := (Nat.mul_add _ _ _).symm
  begun := Nat.le_refl _
  usbLba := by
    have hsectors := h.sectors
    have hsome := h.some
    refine (Nat.mod_eq_of_lt ?_).symm
    show lba < 2 ^ 32
    omega
  data := by
    refine ⟨[], rfl, ?_, (List.append_nil _).symm⟩
    show s.lun.offset + lba + (lba - lba) = s.lun.offset + lba
    omega

/-- **A write that is accepted meets the law**, if its unit is the one whose partition is
selected. -/
theorem until_writeLaw (hready : s.Ready) (hal : Aligned s) (hidx : s.lunIdx < s.lunCnt)
    (hcmd : s.cmd.writeSix = some six) (hro : s.lun.ro = 0) (haddr : Addresses s.polled six lba n)
    (henvs : ∀ k, Faithful (envs k) ∧ Sound (envs k)) :
    Machine.Until Gadget.step Gadget.Over (WriteLaw s lba n) (.parse s) envs := by
  have hcmd' : s.polled.cmd.writeSix = some six := hcmd
  have hannounced : s.dataSize = lbaSize * n := haddr.announced
  have hlim : Limits s.polled s.polled.checked.2 n := haddr.limits hready.small (.inr hcmd')
  set t := s.polled.checked.2 with ht
  have hadmits := admits_of_addresses hcmd' hro haddr hlim
  have hloc := located_of_limits hal hidx haddr hlim
  have hdir : s.dataDir = .fromHost := by
    have hsame : t.dataDir = s.dataDir := hlim.kept.dataDir.trans (limitData_dataDir _)
    have hsize : t.dataSizeFromCmnd ≠ 0 := by
      have hsome := haddr.some
      rw [hlim.amount, lbaSize_eq]
      omega
    rw [← hsame, dataDir_of_checked hlim.checked hsize]
    cases hc : s.polled.cmd <;> rw [hc] at hcmd' <;> cases hcmd' <;> rfl
  obtain ⟨hstep, -, hconsuming⟩ := step_of_admits hready hdir (henvs 0).1 hadmits
  rw [Machine.until_step (fun hover : Gadget.Over (.parse s) ↦ hover), hstep]
  exact until_of_storing hlim hannounced hloc (storing_start haddr hlim hconsuming _)
    fun k ↦ henvs (k + 1)

end Ums

/-- **The data of a write.**  In a session in which the storages have not failed, a write that is
accepted, of blocks inside a unit that may be written, leaves in their sectors what the host has
sent, all of it and nowhere else, and passes, unless the bus or the storage fails. -/
theorem writeData {volumes : List Volume} {secCnt : MmcType → ℕ} {g : Gadget} {past : List Env}
    {s : Ums} {six : Bool} {lba n : ℕ} {envs : ℕ → Env} (hg : Starts volumes secCnt g)
    (hset : Machine.Along Gadget.step Gadget.Settled g past)
    (hrun : Machine.run Gadget.step g past = .parse s) (hcmd : s.cmd.writeSix = some six)
    (hro : s.lun.ro = 0) (haddr : s.polled.Addresses six lba n)
    (henvs : ∀ k, Faithful (envs k) ∧ Sound (envs k)) :
    Machine.Until Gadget.step Gadget.Over (s.WriteLaw lba n) (.parse s) envs := by
  have hready : s.Ready := Gadget.ready_of_reachable ⟨g, past, hg, hrun⟩
  obtain ⟨hal, hidx⟩ := Gadget.aligned_of_settled hg hset hrun
  exact Ums.until_writeLaw hready hal hidx hcmd hro haddr henvs

/-- A command is carried out, and then the host announces a write of 100 blocks. -/
def announcesPasses : List Env :=
  firstCommand 0 ++ [hears (wrapper 51200 0 0 [0x2A, 0, 0, 0, 0, 5, 0, 0, 100, 0])]

/-- A hundred blocks are written, in two passes. -/
def chunkedWrite : Ums := (Machine.run Gadget.step (firstGadget [wideVolume]) announcesPasses).ums

theorem writeData_chunkedWrite :
    Machine.Until Gadget.step Gadget.Over (chunkedWrite.WriteLaw 5 100) (.parse chunkedWrite)
      fun _ ↦ calmly := by
  have hset : Machine.Along Gadget.step Gadget.Settled (firstGadget [wideVolume]) announcesPasses :=
    ⟨fun _ ↦ rfl, fun _ _ _ _ ↦ rfl, trivial, trivial, fun _ ↦ rfl, trivial⟩
  have haddr : chunkedWrite.polled.Addresses false 5 100 :=
    ⟨rfl, rfl, rfl, by decide, rfl, by decide, by decide⟩
  exact writeData (starts_firstGadget (by decide)) hset rfl rfl rfl haddr
    fun _ ↦ ⟨faithful_calmly, sound_calmly⟩

end Usb
end SdLoader
