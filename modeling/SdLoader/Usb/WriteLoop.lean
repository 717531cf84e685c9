import SdLoader.Usb.Access

/-!
# The mass storage gadget: the loop of a write

When the loop of `_scsi_write` ends.

The loop goes round until everything has been written, and it asks for data only until everything
has been asked for.  The two come apart: a part of a block is never written, and neither is what
lies behind the end of the unit.  If that is all there is left, and no further request gets to
notice the end of the unit, a pass does nothing at all, and the loop goes round for ever.

* `requested`, `writePass_of_request` — a pass asks for data, and writes what has come of it.
* `Advances` — what a pass that goes round has got done.  It leaves no choice: the environment
  decides whether the loop is left, but not what happens if it is not.
* `ends_of_completes`, `not_ends_of_stuck` — the two directions.
* `writeEnds_iff` — the loop of a write ends, whatever happens, exactly if `Completes`.
-/

set_option autoImplicit false

namespace SdLoader
namespace Usb
namespace Ums

variable {env : Env} {s : Ums} {x y z : WriteLoop}

/-! ## What a pass does -/

namespace WriteLoop

/-- The number of bytes the next pass asks for. -/
def request (x : WriteLoop) : ℕ := min x.amountLeftToReq usbEpBulkOutMaxXfer

/-- The number of blocks it writes of them. -/
def blocks (x : WriteLoop) : ℕ := min (x.request / lbaSize) (x.s.lun.numSectors - x.lbaOffset)

/-- The variables once the pass has asked for data. -/
def requested (env : Env) (x : WriteLoop) : WriteLoop := { x with
  usbLbaOffset := add32 x.usbLbaOffset (x.request / lbaSize)
  amountLeftToReq := x.amountLeftToReq - x.request
  s := { x.s with
    usbAmountLeft := x.s.usbAmountLeft - x.request, bulk.outLength := x.request
    }.transferOutBigRead env }

/-- The gadget when a full buffer has been taken. -/
def taken (x : WriteLoop) : Ums := { x.s with bulk.outBufState := .empty }

/-- The number of bytes that are written of it. -/
def amount (x : WriteLoop) : ℕ := x.taken.writeAmount x.lbaOffset

/-- The transfer that writes them. -/
def access (env : Env) (x : WriteLoop) : Bool × Ums :=
  x.taken.sdmmcStorageAccess env true (add32 x.taken.lun.offset x.lbaOffset) (x.amount / lbaSize)
    x.taken.bulk.outBuf

/-- The variables when they have been written. -/
def written (env : Env) (x : WriteLoop) : WriteLoop := { x with
  lbaOffset := x.lbaOffset + x.amount / lbaSize
  amountLeftToWrite := x.amountLeftToWrite - x.amount
  s := { (x.access env).2 with residue := (x.access env).2.residue - x.amount } }

theorem request_le (x : WriteLoop) : x.request ≤ usbEpBulkOutMaxXfer := Nat.min_le_right _ _

theorem request_pos (hreq : x.amountLeftToReq ≠ 0) : 0 < x.request := by
  rw [request, usbEpBulkOutMaxXfer_eq]
  omega

end WriteLoop

theorem writePass_done (hleft : x.amountLeftToWrite = 0) : writePass env x = .leave x.s := by
  rw [writePass, if_pos hleft]

theorem writePass_of_request (hleft : x.amountLeftToWrite ≠ 0) (hreq : x.amountLeftToReq ≠ 0)
    (hin : x.usbLbaOffset < x.s.lun.numSectors) :
    writePass env x = writeBuffer env (x.requested env) := by
  have hrequest : writeRequest env x = .again (x.requested env) := by
    rw [writeRequest, if_neg hreq]
    dsimp only
    rw [if_neg (Nat.not_le_of_lt hin)]
    rfl
  rw [writePass, if_neg hleft, hrequest]

/-- A request past the end of the unit ends the loop. -/
theorem writePass_past (hleft : x.amountLeftToWrite ≠ 0) (hreq : x.amountLeftToReq ≠ 0)
    (hpast : x.s.lun.numSectors ≤ x.usbLbaOffset) :
    writePass env x =
      .leave (x.s.senseAt ssLogicalBlockAddressOutOfRange x.usbLbaOffset) := by
  rw [writePass, if_neg hleft, writeRequest, if_neg hreq]
  dsimp only
  rw [if_pos hpast]

/-- **A pass that does nothing**: there is something left to write, and nothing to ask for. -/
theorem writePass_spin (hleft : x.amountLeftToWrite ≠ 0) (hreq : x.amountLeftToReq = 0)
    (hempty : x.s.bulk.outBufState = .empty) : writePass env x = .again x := by
  have hrequest : writeRequest env x = .again x := by rw [writeRequest, if_pos hreq]
  rw [writePass, if_neg hleft, hrequest]
  dsimp only
  rw [writeBuffer, if_pos (by rw [hempty]; exact BufState.noConfusion)]

/-- What becomes of a full buffer. -/
theorem writeBuffer_of_full (hfull : x.s.bulk.outBufState = .full) :
    writeBuffer env x =
      if x.s.bulk.outStatus ≠ 0 then .leave (x.taken.senseAt ssCommunicationFailure x.lbaOffset)
      else if x.amount = 0 then emptyWrite { x with s := x.taken }
      else if (x.access env).1 then emptyWrite (x.written env)
      else .leave ((x.access env).2.senseAt ssWriteError x.lbaOffset) := by
  rw [writeBuffer, if_neg (not_not_intro hfull)]
  by_cases hstatus : x.s.bulk.outStatus ≠ 0
  · rw [if_pos hstatus, if_pos hstatus]
    rfl
  rw [if_neg hstatus, if_neg hstatus]
  by_cases hzero : x.amount = 0
  · rw [if_pos hzero]
    exact if_pos hzero
  rw [if_neg hzero]
  refine (if_neg hzero).trans ?_
  split
  · next t heq =>
    have hfail : x.access env = (false, t) := heq
    rw [hfail]
    rfl
  · next t heq =>
    have hok : x.access env = (true, t) := heq
    rw [WriteLoop.written, hok]
    rfl

/-- Of a buffer that came in full, as many whole blocks are written as the unit has room for. -/
theorem writeAmount_of_full {lba : ℕ} (h : s.bulk.outLength ≤ s.bulk.outLengthActual) :
    s.writeAmount lba = lbaSize * min (s.bulk.outLength / lbaSize) (s.lun.numSectors - lba) := by
  rw [writeAmount, lbaSize_eq]
  split <;> omega

/-- What a pass that goes round has got done. -/
structure Advances (x y : WriteLoop) : Prop where
  inside : x.usbLbaOffset < x.s.lun.numSectors
  usbLba : y.usbLbaOffset = add32 x.usbLbaOffset (x.request / lbaSize)
  toReq : y.amountLeftToReq = x.amountLeftToReq - x.request
  toWrite : y.amountLeftToWrite = x.amountLeftToWrite - lbaSize * x.blocks
  lba : y.lbaOffset = x.lbaOffset + x.blocks
  units : y.s.luns = x.s.luns
  lunIdx : y.s.lunIdx = x.s.lunIdx
  empty : y.s.bulk.outBufState = .empty
  residue : y.s.residue = x.s.residue - lbaSize * x.blocks
  left : y.s.usbAmountLeft = x.s.usbAmountLeft - x.request

theorem emptyWrite_again (h : emptyWrite x = .again y) :
    x = y ∧ x.s.bulk.outLength ≤ x.s.bulk.outLengthActual := by
  rw [emptyWrite] at h
  split at h
  · cases h
  · next hfull => exact ⟨Loop.Pass.again.inj h, Nat.le_of_not_lt hfull⟩

/-- What is written of a request that was answered in full. -/
theorem amount_requested
    (h : (x.requested env).s.bulk.outLength ≤ (x.requested env).s.bulk.outLengthActual) :
    (x.requested env).amount = lbaSize * x.blocks :=
  writeAmount_of_full h

/-- **What a pass that goes round has got done**, if it has asked for data. -/
theorem advances_of_again (h : writePass env x = .again y) (hreq : x.amountLeftToReq ≠ 0) :
    Advances x y := by
  have hleft : x.amountLeftToWrite ≠ 0 := by
    intro hzero
    rw [writePass_done hzero] at h
    cases h
  have hin : x.usbLbaOffset < x.s.lun.numSectors := by
    by_contra hpast
    rw [writePass_past hleft hreq (Nat.le_of_not_lt hpast)] at h
    cases h
  set z := x.requested env with hz
  have hfull : z.s.bulk.outBufState = .full := rfl
  rw [writePass_of_request hleft hreq hin, ← hz, writeBuffer_of_full hfull] at h
  by_cases hstatus : z.s.bulk.outStatus ≠ 0
  · rw [if_pos hstatus] at h
    cases h
  rw [if_neg hstatus] at h
  by_cases hzero : z.amount = 0
  · rw [if_pos hzero] at h
    obtain ⟨rfl, hlen⟩ := emptyWrite_again h
    have hblocks : lbaSize * x.blocks = 0 := (amount_requested hlen).symm.trans hzero
    have hnone : x.blocks = 0 := by
      rw [lbaSize_eq] at hblocks
      omega
    exact ⟨hin, rfl, rfl, by rw [hblocks]; rfl, by rw [hnone]; rfl, rfl, rfl, rfl,
      by rw [hblocks]; rfl, rfl⟩
  rw [if_neg hzero] at h
  by_cases hok : (z.access env).1 = true
  · rw [if_pos hok] at h
    obtain ⟨rfl, hlen⟩ := emptyWrite_again h
    have hamount : z.amount = lbaSize * x.blocks := amount_requested hlen
    have hblocks : z.amount / lbaSize = x.blocks := by
      rw [hamount, lbaSize_eq]
      omega
    exact ⟨hin, rfl, rfl, congrArg (x.amountLeftToWrite - ·) hamount,
      congrArg (x.lbaOffset + ·) hblocks, rfl, rfl, rfl, congrArg (x.s.residue - ·) hamount, rfl⟩
  · rw [if_neg hok] at h
    cases h

/-! ## When the loop is left -/

namespace WriteLoop

/-- The condition: everything can be written, or a request starts past the end of the unit. -/
def Completes (x : WriteLoop) : Prop :=
  x.amountLeftToWrite = 0 ∨
    x.amountLeftToWrite % lbaSize = 0 ∧
      x.lbaOffset + x.amountLeftToWrite / lbaSize ≤ x.s.lun.numSectors ∨
    ∃ i, usbEpBulkOutMaxXfer * i < x.amountLeftToWrite ∧
      x.s.lun.numSectors ≤ (x.lbaOffset + usbEpBulkOutMaxXfer / lbaSize * i) % 2 ^ 32

/-- The loop as it is entered. -/
structure Entered (x : WriteLoop) : Prop where
  toReq : x.amountLeftToReq = x.amountLeftToWrite
  usbLba : x.usbLbaOffset = x.lbaOffset
  lba : x.lbaOffset < 2 ^ 32
  inside : x.lbaOffset < x.s.lun.numSectors

/-- Everything that is left can be written: it has not been asked for yet, it is made of blocks, and
the unit has room for them. -/
structure Whole (x : WriteLoop) : Prop where
  toReq : x.amountLeftToReq = x.amountLeftToWrite
  blocks : x.amountLeftToWrite % lbaSize = 0
  room : x.lbaOffset + x.amountLeftToWrite / lbaSize ≤ x.s.lun.numSectors

/-- One of the requests that are left starts past the end of the unit: the `i`th. -/
structure Past (i : ℕ) (x : WriteLoop) : Prop where
  more : usbEpBulkOutMaxXfer * i < x.amountLeftToReq
  past : x.s.lun.numSectors ≤ (x.usbLbaOffset + usbEpBulkOutMaxXfer / lbaSize * i) % 2 ^ 32
  small : x.usbLbaOffset < 2 ^ 32

end WriteLoop

theorem Advances.lun (h : Advances x y) : y.s.lun = x.s.lun := by
  rw [Ums.lun, Ums.lun, h.units, h.lunIdx]

/-- What can be written is. -/
theorem whole_step (h : x.Whole) (hstep : writePass env x = .again y) :
    y.Whole ∧ y.amountLeftToReq < x.amountLeftToReq := by
  have hleft : x.amountLeftToWrite ≠ 0 := by
    intro hzero
    rw [writePass_done hzero] at hstep
    cases hstep
  obtain ⟨htoReq, hblocks, hroom⟩ := h
  have hadv := advances_of_again hstep (htoReq ▸ hleft)
  have hrequest : x.request = min x.amountLeftToWrite 0x8000 := by
    rw [WriteLoop.request, htoReq, usbEpBulkOutMaxXfer_eq]
  rw [lbaSize_eq] at hblocks hroom
  have hall : x.blocks = x.request / 512 := by
    rw [WriteLoop.blocks, lbaSize_eq]
    omega
  have hto := hadv.toWrite
  have hreq := hadv.toReq
  rw [hall, lbaSize_eq] at hto
  refine ⟨⟨?_, ?_, ?_⟩, by omega⟩
  · omega
  · rw [lbaSize_eq]
    omega
  · rw [hadv.lba, hadv.lun, hall, lbaSize_eq]
    omega

/-- The request past the end comes closer, and is not got over. -/
theorem past_step {i : ℕ} (h : x.Past i) (hstep : writePass env x = .again y) :
    (∃ j, y.Past j) ∧ y.amountLeftToReq < x.amountLeftToReq := by
  obtain ⟨hmore, hpast, hsmall⟩ := h
  rw [usbEpBulkOutMaxXfer_eq] at hmore hpast
  rw [lbaSize_eq] at hpast
  have hadv := advances_of_again hstep (by omega)
  have hin := hadv.inside
  have hreq := hadv.toReq
  obtain ⟨j, rfl⟩ : ∃ j, i = j + 1 := by
    refine ⟨i - 1, ?_⟩
    rcases Nat.eq_zero_or_pos i with rfl | hpos
    · rw [Nat.mul_zero, Nat.add_zero, Nat.mod_eq_of_lt hsmall] at hpast
      omega
    · omega
  have hrequest : x.request = 0x8000 := by
    rw [WriteLoop.request, usbEpBulkOutMaxXfer_eq]
    omega
  refine ⟨⟨j, ?_, ?_, ?_⟩, by omega⟩
  · rw [usbEpBulkOutMaxXfer_eq]
    omega
  · rw [hadv.lun, hadv.usbLba, hrequest, usbEpBulkOutMaxXfer_eq, lbaSize_eq, add32]
    omega
  · rw [hadv.usbLba, add32]
    exact Nat.mod_lt _ (by decide)

/-- The loop is on its way to where it is left. -/
def WriteLoop.Going (x : WriteLoop) : Prop :=
  x.amountLeftToWrite = 0 ∨ x.Whole ∨ ∃ i, x.Past i

/-- **The step lemma**: a pass that goes round leaves less to ask for. -/
theorem going_step (h : x.Going) (hstep : writePass env x = .again y) :
    y.Going ∧ y.amountLeftToReq < x.amountLeftToReq := by
  rcases h with hzero | hwhole | ⟨i, hpast⟩
  · rw [writePass_done hzero] at hstep
    cases hstep
  · exact (whole_step hwhole hstep).imp_left fun hy ↦ .inr (.inl hy)
  · exact (past_step hpast hstep).imp_left fun hy ↦ .inr (.inr hy)

theorem going_of_completes (hx : x.Entered) (h : x.Completes) : x.Going := by
  rcases h with hzero | ⟨hblocks, hroom⟩ | ⟨i, hmore, hpast⟩
  · exact .inl hzero
  · exact .inr (.inl ⟨hx.toReq, hblocks, hroom⟩)
  · refine .inr (.inr ⟨i, ?_, ?_, ?_⟩)
    · rw [hx.toReq]
      exact hmore
    · rw [hx.usbLba]
      exact hpast
    · rw [hx.usbLba]
      exact hx.lba

/-- **A loop that completes ends**, whatever the environment does. -/
theorem ends_of_completes (env : Env) (hx : x.Entered) (h : x.Completes) :
    Loop.Ends (writePass env) x :=
  Loop.ends_of_measure WriteLoop.Going (·.amountLeftToReq)
    (fun _ _ hgoing hstep ↦ going_step hgoing hstep) (going_of_completes hx h)

/-! ## When it is not -/

end Ums

/-- The host sends all it is asked for, and nothing goes wrong on the bus. -/
structure Exact (env : Env) : Prop where
  usb : ∀ t, (env t).usb = 0
  residual : ∀ t, (env t).residual = 0

theorem exact_calmly : Exact calmly := ⟨fun _ ↦ rfl, fun _ ↦ rfl⟩

/-- A request that is answered in full. -/
theorem xusbDeviceEp1OutRead_exact {env : Env} (hexact : Exact env) (buf len : ℕ) (w : World) :
    (xusbDeviceEp1OutRead env buf len w).1 = 0 ∧
      (xusbDeviceEp1OutRead env buf len w).2.1 = min len usbEpBufferMaxSize := by
  have hwait : xusbDeviceEp1OutReadingFinish env
      { w with txCountOut := 1, txBytesOut := min len usbEpBufferMaxSize } =
        (0, min len usbEpBufferMaxSize, (xusbDeviceEp1OutReadingFinish env
          { w with txCountOut := 1, txBytesOut := min len usbEpBufferMaxSize }).2.2) := by
    simp only [xusbDeviceEp1OutReadingFinish, World.waitOut, Nat.one_ne_zero, ↓reduceIte,
      hexact.usb, hexact.residual, sub32_of_le (Nat.zero_le _), Nat.sub_zero]
  rw [xusbDeviceEp1OutRead]
  dsimp only
  rw [hwait]
  exact ⟨rfl, rfl⟩

namespace Ums

variable {env : Env} {s : Ums} {x y : WriteLoop}

/-- What the request of a pass brings, if it is answered in full. -/
theorem requested_exact (hexact : Exact env) (hreq : x.amountLeftToReq ≠ 0) :
    (x.requested env).s.bulk.outStatus = 0 ∧
      (x.requested env).s.bulk.outLengthActual = x.request := by
  have hmost := x.request_le
  rw [usbEpBulkOutMaxXfer_eq] at hmost
  have hbig := xusbDeviceEp1OutReadBig_eq env x.s.bulk.outBuf x.s.w (WriteLoop.request_pos hreq)
    x.request_le
  obtain ⟨hstatus, hactual⟩ := xusbDeviceEp1OutRead_exact hexact x.s.bulk.outBuf x.request x.s.w
  have hmin : min x.request usbEpBufferMaxSize = x.request := by
    rw [usbEpBufferMaxSize_eq]
    omega
  rcases hr : xusbDeviceEp1OutRead env x.s.bulk.outBuf x.request x.s.w with ⟨res, bytes, w⟩
  rw [hr] at hbig hstatus hactual
  dsimp only at hbig hstatus hactual
  refine ⟨(congrArg Prod.fst hbig).trans hstatus, (congrArg (·.2.1) hbig).trans ?_⟩
  simp only [hstatus, ne_eq, not_true_eq_false, ↓reduceIte]
  rw [hactual, hmin]
  exact Nat.mod_eq_of_lt (by omega)

/-- **A pass whose request is answered in full**: it goes round, unless the storage fails. -/
theorem writePass_exact (hexact : Exact env) (hleft : x.amountLeftToWrite ≠ 0)
    (hreq : x.amountLeftToReq ≠ 0) (hin : x.usbLbaOffset < x.s.lun.numSectors) :
    (x.requested env).amount = lbaSize * x.blocks ∧
      writePass env x =
        if (x.requested env).amount = 0 then
          .again { x.requested env with s := (x.requested env).taken }
        else if ((x.requested env).access env).1 then .again ((x.requested env).written env)
        else .leave (((x.requested env).access env).2.senseAt ssWriteError x.lbaOffset) := by
  obtain ⟨hstatus, hactual⟩ := requested_exact (x := x) hexact hreq
  set z := x.requested env with hz
  have hfull : z.s.bulk.outBufState = .full := rfl
  have hlen : ¬ z.s.bulk.outLengthActual < z.s.bulk.outLength := by
    rw [hactual]
    exact Nat.lt_irrefl _
  have hempty : ∀ u : WriteLoop, u.s.bulk.outLengthActual = z.s.bulk.outLengthActual →
      u.s.bulk.outLength = z.s.bulk.outLength → emptyWrite u = .again u := by
    intro u hact hout
    rw [emptyWrite, if_neg (by rw [hact, hout]; exact hlen)]
  refine ⟨amount_requested (Nat.le_of_not_lt hlen), ?_⟩
  rw [writePass_of_request hleft hreq hin, ← hz, writeBuffer_of_full hfull,
    if_neg (not_not_intro hstatus)]
  by_cases hzero : z.amount = 0
  · rw [if_pos hzero, if_pos hzero]
    exact hempty _ rfl rfl
  rw [if_neg hzero, if_neg hzero]
  by_cases hok : (z.access env).1 = true
  · rw [if_pos hok, if_pos hok]
    exact hempty _ rfl rfl
  · rw [if_neg hok, if_neg hok]
    rfl

/-- A pass in which nothing goes wrong goes round. -/
theorem again_of_exact (hexact : Exact env) (hok : ∀ t, (env t).ok = true)
    (hleft : x.amountLeftToWrite ≠ 0) (hreq : x.amountLeftToReq ≠ 0)
    (hin : x.usbLbaOffset < x.s.lun.numSectors) : ∃ y, writePass env x = .again y := by
  have hwritten : ((x.requested env).access env).1 = true := hok _
  rw [(writePass_exact hexact hleft hreq hin).2, if_pos hwritten]
  split
  · exact ⟨_, rfl⟩
  · exact ⟨_, rfl⟩

/-- The requests that are left are all inside the unit, and there is more to write than they bring,
or than there is room for. -/
structure WriteLoop.Stuck (x : WriteLoop) : Prop where
  inside : ∀ i, usbEpBulkOutMaxXfer * i < x.amountLeftToReq →
    (x.usbLbaOffset + usbEpBulkOutMaxXfer / lbaSize * i) % 2 ^ 32 < x.s.lun.numSectors
  small : x.usbLbaOffset < 2 ^ 32
  behind : x.amountLeftToReq < x.amountLeftToWrite ∨
    x.amountLeftToReq = x.amountLeftToWrite ∧ x.amountLeftToWrite ≠ 0 ∧
      ¬ (x.amountLeftToWrite % lbaSize = 0 ∧
        x.lbaOffset + x.amountLeftToWrite / lbaSize ≤ x.s.lun.numSectors)
  empty : x.amountLeftToReq = 0 → x.s.bulk.outBufState = .empty

/-- What a pass that asks for data leaves behind, if there is too much to write. -/
theorem stuck_of_advances (h : x.Stuck) (hreq : x.amountLeftToReq ≠ 0) (hadv : Advances x y) :
    y.Stuck := by
  obtain ⟨hinside, hsmall, hbehind, -⟩ := h
  have hpos := WriteLoop.request_pos hreq
  have hrequest : x.request = min x.amountLeftToReq 0x8000 := by
    rw [WriteLoop.request, usbEpBulkOutMaxXfer_eq]
  have hblocks : x.blocks = min (x.request / 512) (x.s.lun.numSectors - x.lbaOffset) := by
    rw [WriteLoop.blocks, lbaSize_eq]
  have htoReq := hadv.toReq
  have htoWrite := hadv.toWrite
  rw [lbaSize_eq] at htoWrite hbehind
  refine ⟨fun i hi ↦ ?_, ?_, ?_, fun _ ↦ hadv.empty⟩
  · have hnext := hinside (i + 1)
    rw [usbEpBulkOutMaxXfer_eq] at hi hnext ⊢
    rw [lbaSize_eq] at hnext ⊢
    rw [hadv.lun, hadv.usbLba, lbaSize_eq, add32]
    omega
  · rw [hadv.usbLba, add32]
    exact Nat.mod_lt _ (by decide)
  · rw [lbaSize_eq, hadv.lun, hadv.lba]
    by_cases hall : 512 * x.blocks = x.request
    · -- All of it has been written, so what is left is as it was.
      rcases hbehind with hlt | ⟨heq, hne, hroom⟩
      · exact .inl (by omega)
      · refine .inr ⟨by omega, by omega, ?_⟩
        rintro ⟨hmod, hfit⟩
        exact hroom ⟨by omega, by omega⟩
    · exact .inl (by omega)

/-- **The step lemma** of a loop that is stuck. -/
theorem stuck_step (h : x.Stuck) : ∃ y, writePass calmly x = .again y ∧ y.Stuck := by
  have hleft : x.amountLeftToWrite ≠ 0 := by
    rcases h.behind with hlt | ⟨-, hne, -⟩
    · omega
    · exact hne
  by_cases hreq : x.amountLeftToReq = 0
  · exact ⟨x, writePass_spin hleft hreq (h.empty hreq), h⟩
  · have hin : x.usbLbaOffset < x.s.lun.numSectors := by
      have hfirst := h.inside 0 (by rw [Nat.mul_zero]; omega)
      rwa [Nat.mul_zero, Nat.add_zero, Nat.mod_eq_of_lt h.small] at hfirst
    obtain ⟨y, hy⟩ := again_of_exact exact_calmly (fun _ ↦ rfl) hleft hreq hin
    exact ⟨y, hy, stuck_of_advances h hreq (advances_of_again hy hreq)⟩

/-- **A loop that is stuck never ends**, if nothing goes wrong. -/
theorem not_ends_of_stuck (h : x.Stuck) : ¬ Loop.Ends (writePass calmly) x :=
  Loop.not_ends_of_inv (fun _ hx ↦ stuck_step hx) h

theorem stuck_of_not_completes (hx : x.Entered) (h : ¬ x.Completes) : x.Stuck := by
  rw [WriteLoop.Completes, not_or, not_or] at h
  obtain ⟨hne, hroom, hpast⟩ := h
  refine ⟨fun i hi ↦ ?_, ?_, .inr ⟨hx.toReq, hne, hroom⟩, fun hzero ↦ ?_⟩
  · by_contra hle
    rw [hx.usbLba] at hle
    exact hpast ⟨i, hx.toReq ▸ hi, Nat.le_of_not_lt hle⟩
  · rw [hx.usbLba]
    exact hx.lba
  · exact absurd (hx.toReq.symm.trans hzero) hne

/-! ## The command -/

theorem be24_lt (c : ℕ → UInt8) (i : ℕ) : be24 c i < 2 ^ 24 := by
  have h0 := (c i).toNat_lt
  have h1 := (c (i + 1)).toNat_lt
  have h2 := (c (i + 1 + 1)).toNat_lt
  rw [be24, be16]
  omega

theorem be32_lt (c : ℕ → UInt8) (i : ℕ) : be32 c i < 2 ^ 32 := by
  have h0 := (c i).toNat_lt
  have h1 := be24_lt c (i + 1)
  rw [be32]
  omega

theorem lbaOffset_lt (six : Bool) (s : Ums) : (s.lbaOffset six).1 < 2 ^ 32 := by
  rw [lbaOffset]
  split
  · exact Nat.lt_trans (be24_lt s.cmnd 1) (by decide)
  · exact be32_lt s.cmnd 2

theorem entered_of_scsiWrite {six : Bool} (h : s.scsiWrite six = .writing x) :
    x.Entered ∧ x.amountLeftToWrite = s.dataSizeFromCmnd ∧ x.s = s := by
  rw [scsiWrite] at h
  split at h
  · cases h
  have hlt := lbaOffset_lt six s
  rcases hl : s.lbaOffset six with ⟨lba, _ | _⟩ <;> rw [hl] at h hlt
  · cases h
  dsimp only at h hlt
  split at h
  · cases h
  · next hin =>
    cases h
    exact ⟨⟨rfl, rfl, hlt, Nat.lt_of_not_le hin⟩, rfl, rfl⟩

theorem limitData_dataSizeFromCmnd (s : Ums) :
    s.limitData.dataSizeFromCmnd = min s.dataSizeFromCmnd s.dataSize := by
  rw [limitData]
  split
  · show s.dataSize = _
    omega
  · show s.dataSizeFromCmnd = _
    omega

/-- **The loop of a write, as it is entered**: it has to write what the command is for, as far as
the host has announced it. -/
theorem entered_of_parse {env₀ : Env} (h : s.parseScsiCmd env₀ = .writing x) :
    x.Entered ∧ x.amountLeftToWrite = min (s.cmd.spec s).dataSize s.dataSize := by
  rw [parseScsiCmd] at h
  rcases hc : s.checked with ⟨_ | _, t⟩ <;> rw [hc] at h
  · cases h
  dsimp only at h
  obtain ⟨ht, -, -⟩ := checked_passed hc
  have hsize : t.dataSizeFromCmnd = min (s.cmd.spec s).dataSize s.dataSize := by
    rw [ht]
    show s.opened.limitData.clearSense.dataSizeFromCmnd = _
    rw [clearSense]
    split <;> exact limitData_dataSizeFromCmnd s.opened
  have hwrite : ∀ six, t.scsiWrite six = .writing x → x.Entered ∧
      x.amountLeftToWrite = min (s.cmd.spec s).dataSize s.dataSize := by
    intro six hx
    obtain ⟨hentered, hleft, -⟩ := entered_of_scsiWrite hx
    exact ⟨hentered, hleft.trans hsize⟩
  cases hcmd : s.cmd <;> rw [hcmd] at h hwrite
  case write6 => exact hwrite true h
  case write10 => exact hwrite false h
  case write12 => exact hwrite false h
  all_goals cases h

/-- **When the loop of a write ends.**  For every command that is accepted as a write, the loop of
`_scsi_write` ends under every environment exactly if it has nothing to write, or has to write whole
blocks up to the end of the unit and no further, or asks for data past the end of the unit. -/
theorem writeEnds_iff {env₀ : Env} (h : s.parseScsiCmd env₀ = .writing x) :
    (∀ env, Loop.Ends (writePass env) x) ↔ x.Completes := by
  obtain ⟨hx, -⟩ := entered_of_parse h
  constructor
  · intro hends
    by_contra hnot
    exact not_ends_of_stuck (stuck_of_not_completes hx hnot) (hends calmly)
  · intro hcomp env
    exact ends_of_completes env hx hcomp

/-- The host announces 100 bytes, and asks for a block to be written. -/
def shortWrite : Ums :=
  (Machine.run Gadget.step (firstGadget [⟨.sd, 0, 0x100, 0x40, 0⟩])
    (firstCommand 0 ++ [hears (wrapper 100 0 0 [0x2A, 0, 0, 0, 0, 5, 0, 0, 1, 0])])).ums

/-- The loop of that write. -/
def shortLoop : WriteLoop := ⟨5, 5, 100, 100, shortWrite.checked.2⟩

theorem parse_shortWrite : shortWrite.parseScsiCmd calmly = .writing shortLoop := rfl

theorem writeEnds_iff_short :
    (∀ env, Loop.Ends (writePass env) shortLoop) ↔ shortLoop.Completes :=
  writeEnds_iff parse_shortWrite

theorem writeEnds_counterexample :
    ¬ ∀ (s : Ums) (env₀ : Env) (x : WriteLoop), s.parseScsiCmd env₀ = .writing x →
      ∀ env, Loop.Ends (writePass env) x := by
  intro h
  have hnum : shortLoop.s.lun.numSectors = 0x40 := rfl
  have hnot : ¬ shortLoop.Completes := by
    rintro (hzero | ⟨hmod, -⟩ | ⟨i, hi, hpast⟩)
    · exact absurd hzero (by decide)
    · exact absurd hmod (by decide)
    · have hleft : shortLoop.amountLeftToWrite = 100 := rfl
      have hlba : shortLoop.lbaOffset = 5 := rfl
      rw [hleft, usbEpBulkOutMaxXfer_eq] at hi
      rw [hnum, hlba, usbEpBulkOutMaxXfer_eq, lbaSize_eq] at hpast
      omega
  exact not_ends_of_stuck (stuck_of_not_completes ⟨rfl, rfl, by decide, by decide⟩ hnot)
    (h shortWrite calmly shortLoop parse_shortWrite calmly)

end Ums
end Usb
end SdLoader
