import SdLoader.Usb.Session

/-!
# The mass storage gadget: what a command has nothing to do with

What is done for a command does not look at the units the command is not for, but for whether they
are mounted, and it does not look at the flag of `_get_next_command`.  Nor does it change them.
Both are one statement: a step gives the same with these parts replaced, and these parts are still
the replaced ones afterwards.

* `Context` — the parts that are replaced.
* `Ums.inContext` — the gadget with these parts replaced.
* `Gadget.step_inContext` — a step of a command is the same in every context.
* `Gadget.step_context` — so it leaves its context as it is.
-/

set_option autoImplicit false

namespace SdLoader
namespace Usb

/-- What a command has nothing to do with. -/
structure Context where
  /-- `luns`, but for the active unit and `unmounted` -/
  units : ℕ → LogicalUnit
  /-- `cbw_req_queued` -/
  cbwReqQueued : Bool
  /-- `xusb` -/
  xusb : Bool

namespace Ums

variable {env : Env} {κ : Context} {s : Ums}

/-- A unit in a context. -/
def unitIn (κ : Context) (s : Ums) (i : ℕ) : LogicalUnit :=
  if i = s.lunIdx then s.luns i else { κ.units i with unmounted := (s.luns i).unmounted }

/-- The gadget in a context. -/
def inContext (κ : Context) (s : Ums) : Ums :=
  { s with luns := s.unitIn κ, cbwReqQueued := κ.cbwReqQueued, xusb := κ.xusb }

/-- The context the gadget is in. -/
def context (s : Ums) : Context := ⟨s.luns, s.cbwReqQueued, s.xusb⟩

@[simp] theorem inContext_context (s : Ums) : s.inContext s.context = s := by
  have hluns : s.unitIn s.context = s.luns := by
    funext i
    rw [unitIn]
    split <;> rfl
  rw [inContext, hluns]
  rfl

@[simp] theorem inContext_lun (κ : Context) (s : Ums) : (s.inContext κ).lun = s.lun := if_pos rfl

theorem inContext_unmounted (κ : Context) (s : Ums) (i : ℕ) :
    ((s.inContext κ).luns i).unmounted = (s.luns i).unmounted := by
  change (s.unitIn κ i).unmounted = (s.luns i).unmounted
  rw [unitIn]
  split <;> rfl

/-- A change of the active unit is the same in every context. -/
theorem setLun_inContext (f : LogicalUnit → LogicalUnit) (κ : Context) (s : Ums) :
    (s.inContext κ).setLun f = (s.setLun f).inContext κ := by
  have hluns : Function.update (s.unitIn κ) s.lunIdx (f s.lun) = (s.setLun f).unitIn κ := by
    funext i
    by_cases hi : i = s.lunIdx
    · subst hi
      have hself : (s.setLun f).luns s.lunIdx = f s.lun := Function.update_self ..
      rw [Function.update_self]
      exact hself.symm.trans (if_pos rfl).symm
    · have hother : (s.setLun f).luns i = s.luns i := Function.update_of_ne hi ..
      rw [Function.update_of_ne hi, unitIn, unitIn, hother]
      rfl
  rw [setLun, inContext_lun, inContext, hluns]
  rfl

/-! ## The operations of a command -/

theorem sense_inContext (code : ℕ) (κ : Context) (s : Ums) :
    (s.inContext κ).sense code = (s.sense code).inContext κ := setLun_inContext _ κ s

theorem senseAt_inContext (code info : ℕ) (κ : Context) (s : Ums) :
    (s.inContext κ).senseAt code info = (s.senseAt code info).inContext κ := setLun_inContext _ κ s

theorem raiseException_inContext (st : UmsState) (κ : Context) (s : Ums) :
    (s.inContext κ).raiseException st = (s.raiseException st).inContext κ := by
  by_cases h : s.state.rank ≤ st.rank
  · rw [raiseException, raiseException, if_pos h]
    exact if_pos h
  · rw [raiseException, raiseException, if_neg h]
    exact if_neg h

theorem handleEp0Ctrl_inContext (env : Env) (κ : Context) (s : Ums) :
    (s.inContext κ).handleEp0Ctrl env = (s.handleEp0Ctrl env).inContext κ := by
  rw [handleEp0Ctrl, handleEp0Ctrl, poll, poll]
  cases hflag : (env s.w.tick).flag with
  | true =>
    have hflag' : (env (s.inContext κ).w.tick).flag = true := hflag
    rw [hflag']
    exact raiseException_inContext .protocolReset κ { s with w := s.w.next }
  | false =>
    have hflag' : (env (s.inContext κ).w.tick).flag = false := hflag
    rw [hflag']
    rfl

/-- A result with the gadget in a context. -/
def Parsed.inContext (κ : Context) : Parsed → Parsed
  | .replied r s => .replied r (s.inContext κ)
  | .writing x => .writing { x with s := x.s.inContext κ }

/-- A handler gives the same in every context. -/
def Local {α : Type} (f : Ums → α × Ums) : Prop :=
  ∀ κ s, f (s.inContext κ) = ((f s).1, (f s).2.inContext κ)

theorem refuse_local (code : ℕ) : Local (refuse code) := fun κ s ↦ by
  rw [refuse, sense_inContext]
  rfl

theorem replyWith_local (n : ℕ) (l : List UInt8) : Local (replyWith n l) := fun _ _ ↦ rfl

theorem sdmmcStorageAccess_local (env : Env) (isWrite : Bool) (sector count buf : ℕ) :
    Local (sdmmcStorageAccess env isWrite sector count buf) := fun κ s ↦ by
  rw [sdmmcStorageAccess, inContext_lun]
  rfl

/-! ### The checks -/

theorem limitData_inContext (κ : Context) (s : Ums) :
    (s.inContext κ).limitData = s.limitData.inContext κ := by
  rw [limitData, limitData]
  by_cases h : s.dataSize < s.dataSizeFromCmnd
  · have h' : (s.inContext κ).dataSize < (s.inContext κ).dataSizeFromCmnd := h
    rw [if_pos h, if_pos h']
    rfl
  · have h' : ¬(s.inContext κ).dataSize < (s.inContext κ).dataSizeFromCmnd := h
    rw [if_neg h, if_neg h']
    rfl

theorem clearSense_inContext (κ : Context) (s : Ums) :
    (s.inContext κ).clearSense = s.clearSense.inContext κ := by
  rw [clearSense, clearSense]
  by_cases h : s.cmnd 0 ≠ scRequestSense
  · have h' : (s.inContext κ).cmnd 0 ≠ scRequestSense := h
    rw [if_pos h, if_pos h']
    exact setLun_inContext _ κ s
  · have h' : ¬(s.inContext κ).cmnd 0 ≠ scRequestSense := h
    rw [if_neg h, if_neg h']

theorem checkUnit_local (mask : ℕ) (needsMedium : Bool) : Local (checkUnit mask needsMedium) := by
  intro κ s
  have hmask : (s.inContext κ).maskLun = s.maskLun.inContext κ := rfl
  rw [checkUnit, checkUnit, inContext_lun, hmask]
  simp only [sense_inContext, setLun_inContext]
  have hcmnd : (s.inContext κ).cmnd = s.cmnd ∧ (s.inContext κ).cmndSize = s.cmndSize ∧
    (s.maskLun.inContext κ).cmnd = s.maskLun.cmnd := ⟨rfl, rfl, rfl⟩
  rw [hcmnd.1, hcmnd.2.1, hcmnd.2.2]
  split
  · rfl
  · split
    · rfl
    · split <;> rfl

theorem checkScsiCmd_local (cmndSize : ℕ) (dataDir : DataDir) (mask : ℕ) (needsMedium : Bool) :
    Local (checkScsiCmd cmndSize dataDir mask needsMedium) := by
  intro κ s
  have hdiffers : (s.inContext κ).directionDiffers dataDir = s.directionDiffers dataDir := by
    rw [directionDiffers, directionDiffers, limitData_inContext]
    rfl
  have hsize : (s.inContext κ).cmndSize = s.cmndSize := rfl
  rw [checkScsiCmd, checkScsiCmd, hdiffers, hsize, limitData_inContext, clearSense_inContext,
    checkUnit_local mask needsMedium κ]
  split <;> rfl

theorem checked_local : Local checked := by
  intro κ s
  have hspec : (s.inContext κ).cmd.spec (s.inContext κ) = s.cmd.spec s := rfl
  have hopened : (s.inContext κ).opened = s.opened.inContext κ := rfl
  rw [checked, checked, hspec, hopened]
  exact checkScsiCmd_local _ _ _ _ κ _

/-! ### Reading -/

/-- A read under way in a context. -/
def ReadLoop.inContext (κ : Context) (x : ReadLoop) : ReadLoop := { x with s := x.s.inContext κ }

theorem readChunk_inContext (env : Env) (x : ReadLoop) (amount : ℕ) (κ : Context) (t : Ums) :
    readChunk env (x.inContext κ) amount (t.inContext κ) =
      (readChunk env x amount t).inContext κ := by
  rw [readChunk, readChunk]
  cases hfirst : x.firstRead with
  | true =>
    have hfirst' : (x.inContext κ).firstRead = true := hfirst
    rw [hfirst']
    rfl
  | false =>
    have hfirst' : (x.inContext κ).firstRead = false := hfirst
    rw [hfirst']
    rfl

theorem readPass_inContext (env : Env) (most : ℕ) (κ : Context) (x : ReadLoop) :
    readPass env most (x.inContext κ) =
      (readPass env most x).map (·.inContext κ) (·.inContext κ) := by
  have hx : (x.inContext κ).s = x.s.inContext κ ∧ (x.inContext κ).lbaOffset = x.lbaOffset ∧
      (x.inContext κ).amountLeft = x.amountLeft ∧ (x.inContext κ).useBuf1 = x.useBuf1 ∧
      (x.inContext κ).bufCurrent = x.bufCurrent := ⟨rfl, rfl, rfl, rfl, rfl⟩
  rw [readPass, readPass]
  simp only [hx.1, hx.2.1, hx.2.2.1, hx.2.2.2.1, hx.2.2.2.2, inContext_lun]
  by_cases hnone : min (min x.amountLeft most) (x.s.lun.numSectors - x.lbaOffset) = 0
  · rw [if_pos hnone, if_pos hnone, senseAt_inContext]
    rfl
  rw [if_neg hnone, if_neg hnone, sdmmcStorageAccess_local env]
  rcases x.s.sdmmcStorageAccess env false (add32 x.s.lun.offset x.lbaOffset)
    (min (min x.amountLeft most) (x.s.lun.numSectors - x.lbaOffset)) x.bufCurrent with ⟨_ | _, t⟩
  · dsimp only
    rw [readChunk_inContext, senseAt_inContext]
    rfl
  · dsimp only
    rw [readChunk_inContext]
    split <;> rfl

theorem readLoop_inContext (env : Env) (κ : Context) (x : ReadLoop) :
    readLoop env (x.inContext κ) = (readLoop env x).inContext κ := by
  have hrun := Loop.run_map (fun y ↦ readPass_inContext env (maxIoTransfer x.amountLeft) κ y)
    (x.amountLeft + 1) x
  have hleft : (x.inContext κ).amountLeft = x.amountLeft := rfl
  rw [readLoop, readLoop, hleft, hrun]
  cases Loop.run (readPass env (maxIoTransfer x.amountLeft)) (x.amountLeft + 1) x <;> rfl

theorem scsiRead_local (env : Env) (six : Bool) : Local (scsiRead env six) := by
  intro κ s
  have hlba : (s.inContext κ).lbaOffset six = s.lbaOffset six := rfl
  have hsize : (s.inContext κ).dataSizeFromCmnd = s.dataSizeFromCmnd := rfl
  rw [scsiRead, scsiRead, hlba]
  rcases s.lbaOffset six with ⟨lba, _ | _⟩
  · exact refuse_local _ κ s
  · dsimp only
    rw [inContext_lun, hsize]
    split
    · exact refuse_local _ κ s
    · split
      · rfl
      · exact congrArg (Prod.mk Reply.ioError)
          (readLoop_inContext env κ ⟨lba, s.dataSizeFromCmnd / lbaSize, true, true, _, s⟩)

/-! ### Verifying -/

/-- A verification under way in a context. -/
def VerifyLoop.inContext (κ : Context) (x : VerifyLoop) : VerifyLoop :=
  { x with s := x.s.inContext κ }

theorem verifyPass_inContext (env : Env) (κ : Context) (x : VerifyLoop) :
    verifyPass env (x.inContext κ) = (verifyPass env x).map (·.inContext κ) (·.inContext κ) := by
  have hx : (x.inContext κ).s = x.s.inContext κ ∧ (x.inContext κ).lbaOffset = x.lbaOffset ∧
      (x.inContext κ).verificationLength = x.verificationLength ∧
      (x.s.inContext κ).bulk = x.s.bulk := ⟨rfl, rfl, rfl, rfl⟩
  rw [verifyPass, verifyPass]
  simp only [hx.1, hx.2.1, hx.2.2.1, hx.2.2.2, inContext_lun]
  split
  · rfl
  split
  · rw [senseAt_inContext]
    rfl
  rw [sdmmcStorageAccess_local env]
  rcases x.s.sdmmcStorageAccess env false (add32 x.s.lun.offset x.lbaOffset)
    (min (min x.verificationLength (usbEpBufferMaxSize / lbaSize))
      (x.s.lun.numSectors - x.lbaOffset)) x.s.bulk.inBuf with ⟨_ | _, t⟩
  · dsimp only
    rw [senseAt_inContext]
    rfl
  · rfl

theorem scsiVerify_local (env : Env) : Local (scsiVerify env) := by
  intro κ s
  have hcmnd : (s.inContext κ).cmnd = s.cmnd := rfl
  rw [scsiVerify, scsiVerify, inContext_lun, hcmnd]
  split
  · exact refuse_local _ κ s
  split
  · exact refuse_local _ κ s
  split
  · rfl
  · have hrun := Loop.run_map (fun y ↦ verifyPass_inContext env κ y) (be16 s.cmnd 7 + 1)
      ⟨be32 s.cmnd 2, be16 s.cmnd 7, s⟩
    refine congrArg (Prod.mk (Reply.len 0)) ?_
    rw [verifyLoop, verifyLoop]
    dsimp only [VerifyLoop.inContext] at hrun
    rw [hrun]
    cases Loop.run (verifyPass env) (be16 s.cmnd 7 + 1) ⟨be32 s.cmnd 2, be16 s.cmnd 7, s⟩ <;> rfl

/-! ### The other commands -/

theorem scsiInquiry_local : Local scsiInquiry := by
  intro κ s
  have htext : (s.inContext κ).serialText = s.serialText ∧
      (s.inContext κ).productId = s.productId ∧ (s.inContext κ).cmnd = s.cmnd := by
    rw [serialText, serialText, productId, productId, inContext_lun]
    exact ⟨rfl, rfl, rfl⟩
  rw [scsiInquiry, scsiInquiry, inContext_lun, htext.1, htext.2.1, htext.2.2]
  split
  · exact replyWith_local _ _ κ s
  · exact replyWith_local _ _ κ s

theorem scsiRequestSense_local : Local scsiRequestSense := by
  intro κ s
  rw [scsiRequestSense, scsiRequestSense, inContext_lun, setLun_inContext]
  exact replyWith_local _ _ κ _

theorem scsiReadCapacity_local : Local scsiReadCapacity := by
  intro κ s
  have hcmnd : (s.inContext κ).cmnd = s.cmnd := rfl
  rw [scsiReadCapacity, scsiReadCapacity, inContext_lun, hcmnd]
  split
  · exact refuse_local _ κ s
  · exact replyWith_local _ _ κ s

theorem scsiLogSense_local : Local scsiLogSense := by
  intro κ s
  have hcmnd : (s.inContext κ).cmnd = s.cmnd := rfl
  rw [scsiLogSense, scsiLogSense, hcmnd]
  split
  · exact refuse_local _ κ s
  split
  · exact refuse_local _ κ s
  split
  · exact replyWith_local _ _ κ s
  split
  · exact replyWith_local _ _ κ s
  · exact refuse_local _ κ (s.put _)

theorem scsiModeSense_local (six : Bool) : Local (scsiModeSense six) := by
  intro κ s
  have hcmnd : (s.inContext κ).cmnd = s.cmnd := rfl
  rw [scsiModeSense, scsiModeSense, inContext_lun, hcmnd]
  split
  · exact refuse_local _ κ s
  split
  · exact refuse_local _ κ s
  split
  · split
    · exact replyWith_local _ _ κ s
    · exact replyWith_local _ _ κ s
  · exact refuse_local _ κ (s.put _)

/-- Of the other units, it is asked whether they are mounted. -/
theorem unmounted_inContext (κ : Context) (s : Ums) :
    (s.inContext κ).units.all (·.unmounted) = s.units.all (·.unmounted) := by
  rw [units, units, List.all_map, List.all_map]
  have hcomp : (fun i ↦ ((s.inContext κ).luns i).unmounted) = fun i ↦ (s.luns i).unmounted :=
    funext fun i ↦ inContext_unmounted κ s i
  exact congrArg (List.all (List.range s.lunCnt)) hcomp

theorem scsiStartStop_local : Local scsiStartStop := by
  intro κ s
  have hcmnd : (s.inContext κ).cmnd = s.cmnd := rfl
  rw [scsiStartStop, scsiStartStop, inContext_lun, hcmnd]
  split
  · exact refuse_local _ κ s
  split
  · exact refuse_local _ κ s
  split
  · split
    · exact refuse_local _ κ s
    · rfl
  split
  · exact refuse_local _ κ s
  split
  · rfl
  · obtain ⟨t, ht⟩ : ∃ t, t = s.setLun fun l ↦ { l with unmounted := true } := ⟨_, rfl⟩
    rw [setLun_inContext, ← ht]
    dsimp only
    rw [unmounted_inContext]
    rfl

theorem scsiPreventAllowRemoval_local : Local scsiPreventAllowRemoval := by
  intro κ s
  have hcmnd : (s.inContext κ).cmnd = s.cmnd := rfl
  rw [scsiPreventAllowRemoval, scsiPreventAllowRemoval, inContext_lun, hcmnd, setLun_inContext]
  split
  · exact refuse_local _ κ s
  split
  · exact refuse_local _ κ s
  · rfl

theorem scsiReadFormatCapacities_local : Local scsiReadFormatCapacities := by
  intro κ s
  rw [scsiReadFormatCapacities, scsiReadFormatCapacities, inContext_lun]
  exact replyWith_local _ _ κ s

theorem scsiWrite_inContext (six : Bool) (κ : Context) (s : Ums) :
    (s.inContext κ).scsiWrite six = (s.scsiWrite six).inContext κ := by
  have hlba : (s.inContext κ).lbaOffset six = s.lbaOffset six := rfl
  rw [scsiWrite, scsiWrite, inContext_lun, hlba, refuse_local, refuse_local, refuse_local]
  split
  · rfl
  rcases s.lbaOffset six with ⟨lba, _ | _⟩
  · rfl
  · dsimp only
    split <;> rfl

/-- The result of a handler, in a context. -/
theorem Local.of {f : Ums → Reply × Ums} (h : Local f) (κ : Context) (s : Ums) :
    Parsed.of (f (s.inContext κ)) = (Parsed.of (f s)).inContext κ := by
  rw [h κ s]
  rfl

/-- **What is done with a command** is the same in every context. -/
theorem handle_inContext (env : Env) (κ : Context) (s : Ums) (c : ScsiCmd) :
    c.handle env (s.inContext κ) = (c.handle env s).inContext κ := by
  cases c with
  | inquiry => exact scsiInquiry_local.of κ s
  | logSense => exact scsiLogSense_local.of κ s
  | modeSelect6 => exact (refuse_local _).of κ s
  | modeSelect10 => exact (refuse_local _).of κ s
  | modeSense6 => exact (scsiModeSense_local _).of κ s
  | modeSense10 => exact (scsiModeSense_local _).of κ s
  | preventAllowMediumRemoval => exact scsiPreventAllowRemoval_local.of κ s
  | read6 => exact (scsiRead_local env _).of κ s
  | read10 => exact (scsiRead_local env _).of κ s
  | read12 => exact (scsiRead_local env _).of κ s
  | readCapacity => exact scsiReadCapacity_local.of κ s
  | readFormatCapacities => exact scsiReadFormatCapacities_local.of κ s
  | requestSense => exact scsiRequestSense_local.of κ s
  | startStopUnit => exact scsiStartStop_local.of κ s
  | synchronizeCache => rfl
  | testUnitReady => rfl
  | verify => exact (scsiVerify_local env).of κ s
  | write6 => exact scsiWrite_inContext true κ s
  | write10 => exact scsiWrite_inContext false κ s
  | write12 => exact scsiWrite_inContext false κ s
  | other => exact (refuse_local _).of κ s

theorem parseScsiCmd_inContext (env : Env) (κ : Context) (s : Ums) :
    (s.inContext κ).parseScsiCmd env = (s.parseScsiCmd env).inContext κ := by
  rw [parseScsiCmd, parseScsiCmd, checked_local κ s]
  rcases s.checked with ⟨_ | _, t⟩
  · rfl
  · exact handle_inContext env κ t s.cmd

theorem setUpReply_inContext (r : Reply) (κ : Context) (s : Ums) :
    (s.inContext κ).setUpReply r = (s.setUpReply r).inContext κ := by
  have hdir : (s.inContext κ).dataDir = s.dataDir := rfl
  cases r with
  | ioError => rfl
  | invalidArg | len n =>
    simp only [setUpReply, hdir]
    split <;> rfl

/-! ### Writing -/

/-- A write under way in a context. -/
def WriteLoop.inContext (κ : Context) (x : WriteLoop) : WriteLoop := { x with s := x.s.inContext κ }

theorem writeRequest_inContext (env : Env) (κ : Context) (x : WriteLoop) :
    writeRequest env (x.inContext κ) =
      (writeRequest env x).map (·.inContext κ) (·.inContext κ) := by
  have hx : (x.inContext κ).s = x.s.inContext κ ∧ (x.inContext κ).usbLbaOffset = x.usbLbaOffset ∧
      (x.inContext κ).amountLeftToReq = x.amountLeftToReq := ⟨rfl, rfl, rfl⟩
  rw [writeRequest, writeRequest]
  simp only [hx.1, hx.2.1, hx.2.2, inContext_lun]
  split
  · rfl
  split
  · rw [senseAt_inContext]
    rfl
  · rfl

theorem emptyWrite_inContext (κ : Context) (x : WriteLoop) :
    emptyWrite (x.inContext κ) = (emptyWrite x).map (·.inContext κ) (·.inContext κ) := by
  have hbulk : (x.inContext κ).s.bulk = x.s.bulk := rfl
  rw [emptyWrite, emptyWrite, hbulk]
  split <;> rfl

theorem writeAmount_inContext (lba : ℕ) (κ : Context) (s : Ums) :
    (s.inContext κ).writeAmount lba = s.writeAmount lba := by
  rw [writeAmount, writeAmount, inContext_lun]
  rfl

theorem writeBuffer_inContext (env : Env) (κ : Context) (x : WriteLoop) :
    writeBuffer env (x.inContext κ) = (writeBuffer env x).map (·.inContext κ) (·.inContext κ) := by
  obtain ⟨t, ht⟩ : ∃ t : Ums, t = { x.s with bulk.outBufState := .empty } := ⟨_, rfl⟩
  have ht' : { (x.inContext κ).s with bulk.outBufState := .empty } = t.inContext κ := by
    rw [ht]
    rfl
  have hx : (x.inContext κ).s.bulk = x.s.bulk ∧ (x.inContext κ).lbaOffset = x.lbaOffset :=
    ⟨rfl, rfl⟩
  rw [writeBuffer, writeBuffer]
  dsimp only at ht ht' ⊢
  simp only [ht', ← ht]
  rw [hx.1, hx.2, writeAmount_inContext, inContext_lun]
  split
  · rfl
  split
  · rw [senseAt_inContext]
    rfl
  split
  · exact emptyWrite_inContext κ { x with s := t }
  rw [sdmmcStorageAccess_local env]
  rcases t.sdmmcStorageAccess env true (add32 t.lun.offset x.lbaOffset)
    (t.writeAmount x.lbaOffset / lbaSize) x.s.bulk.outBuf with ⟨_ | _, u⟩
  · dsimp only
    rw [senseAt_inContext]
    rfl
  · exact emptyWrite_inContext κ
      { x with
        lbaOffset := x.lbaOffset + t.writeAmount x.lbaOffset / lbaSize
        amountLeftToWrite := x.amountLeftToWrite - t.writeAmount x.lbaOffset
        s := { u with residue := u.residue - t.writeAmount x.lbaOffset } }

/-- **A pass of a write** is the same in every context. -/
theorem writePass_inContext (env : Env) (κ : Context) (x : WriteLoop) :
    writePass env (x.inContext κ) = (writePass env x).map (·.inContext κ) (·.inContext κ) := by
  have hleft : (x.inContext κ).amountLeftToWrite = x.amountLeftToWrite := rfl
  rw [writePass, writePass, hleft, writeRequest_inContext]
  split
  · rfl
  · cases writeRequest env x with
    | leave t => rfl
    | again y => exact writeBuffer_inContext env κ y

/-! ### The data phase -/

/-- A padding under way in a context. -/
def PadLoop.inContext (κ : Context) (x : PadLoop) : PadLoop := { x with s := x.s.inContext κ }

theorem padPass_inContext (env : Env) (κ : Context) (x : PadLoop) :
    padPass env (x.inContext κ) = (padPass env x).map (·.inContext κ) (·.inContext κ) := by
  have hleft : (x.inContext κ).s.usbAmountLeft = x.s.usbAmountLeft := rfl
  rw [padPass, padPass]
  dsimp only
  rw [hleft]
  split <;> rfl

theorem padWithZeros_inContext (env : Env) (κ : Context) (s : Ums) :
    (s.inContext κ).padWithZeros env = (s.padWithZeros env).inContext κ := by
  obtain ⟨t, ht⟩ : ∃ t : Ums, t = { s with
    bulk.inBufState := .empty, usbAmountLeft := add32 s.bulk.inLength s.residue } := ⟨_, rfl⟩
  have ht' : ({ s.inContext κ with
      bulk.inBufState := .empty
      usbAmountLeft := add32 s.bulk.inLength s.residue } : Ums) = t.inContext κ := by
    rw [ht]
    rfl
  have hrun := Loop.run_map (fun y ↦ padPass_inContext env κ y)
    (add32 s.bulk.inLength s.residue + 1) ⟨s.bulk.inLength, t⟩
  have hs : (s.inContext κ).bulk = s.bulk ∧ (s.inContext κ).residue = s.residue := ⟨rfl, rfl⟩
  rw [padWithZeros, padWithZeros]
  dsimp only [PadLoop.inContext] at ht ht' hrun ⊢
  rw [hs.1] at ht' ⊢
  simp only [hs.2] at ht' ⊢
  rw [ht', ← ht, hrun]
  cases Loop.run (padPass env) (add32 s.bulk.inLength s.residue + 1) ⟨s.bulk.inLength, t⟩ <;> rfl

theorem throwAwayData_local (env : Env) : Local (throwAwayData env) := by
  intro κ s
  have hs : (s.inContext κ).bulk = s.bulk ∧ (s.inContext κ).usbAmountLeft = s.usbAmountLeft :=
    ⟨rfl, rfl⟩
  have hdrop : (s.inContext κ).dropBuffer = s.dropBuffer.inContext κ := by
    rw [dropBuffer, dropBuffer, hs.1]
    split <;> rfl
  rw [throwAwayData, throwAwayData, hs.1, hs.2, hdrop, raiseException_inContext]
  split
  · rfl
  split
  · rfl
  split <;> rfl

theorem sendReply_inContext (env : Env) (κ : Context) (s : Ums) :
    (s.inContext κ).sendReply env = (s.sendReply env).inContext κ := by
  have hs : (s.inContext κ).dataSize = s.dataSize ∧ (s.inContext κ).residue = s.residue ∧
      (s.inContext κ).canStall = s.canStall := ⟨rfl, rfl, rfl⟩
  rw [sendReply, sendReply, hs.1, hs.2.1, hs.2.2, padWithZeros_inContext]
  split
  · rfl
  split <;> rfl

theorem finishReply_local (env : Env) : Local (finishReply env) := by
  intro κ s
  have hs : (s.inContext κ).dataDir = s.dataDir ∧ (s.inContext κ).residue = s.residue ∧
      (s.inContext κ).shortPacketReceived = s.shortPacketReceived := ⟨rfl, rfl, rfl⟩
  rw [finishReply, finishReply, hs.1, hs.2.1, hs.2.2, sendReply_inContext,
    raiseException_inContext, throwAwayData_local env κ]
  cases s.dataDir with
  | none => rfl
  | unknown => rfl
  | toHost => rfl
  | fromHost =>
    dsimp only
    split
    · rfl
    split <;> rfl

theorem sendStatus_inContext (env : Env) (κ : Context) (s : Ums) :
    (s.inContext κ).sendStatus env = (s.sendStatus env).inContext κ := by
  have hcsw : (s.inContext κ).csw = s.csw := by
    rw [csw, csw, status, status, inContext_lun]
    rfl
  rw [sendStatus, sendStatus, hcsw]
  rfl

end Ums

/-! ## The steps of a command -/

namespace Gadget

variable {env : Env} {κ : Context} {g : Gadget}

/-- The gadget in a context. -/
def inContext (κ : Context) : Gadget → Gadget
  | top s => .top (s.inContext κ)
  | parse s => .parse (s.inContext κ)
  | writing x => .writing (x.inContext κ)
  | reply s => .reply (s.inContext κ)
  | status s => .status (s.inContext κ)
  | exited s => .exited (s.inContext κ)

theorem ums_inContext (κ : Context) (g : Gadget) : (g.inContext κ).ums = g.ums.inContext κ := by
  cases g <;> rfl

theorem loopEnd_inContext (κ : Context) (s : Ums) :
    loopEnd (s.inContext κ) = (loopEnd s).inContext κ := by
  have hstate : (s.inContext κ).state = s.state := rfl
  rw [loopEnd, loopEnd, hstate]
  split <;> rfl

theorem parsed_inContext (κ : Context) (s : Ums) :
    parsed (s.inContext κ) = (parsed s).inContext κ := by
  have hstate : (s.inContext κ).state = s.state := rfl
  rw [parsed, parsed, hstate, loopEnd_inContext]
  split <;> rfl

/-- **A step of a command** is the same in every context. -/
theorem step_inContext (env : Env) (κ : Context) (htop : ∀ s, g ≠ .top s) :
    step (g.inContext κ) env = (step g env).inContext κ := by
  cases g with
  | top s => exact absurd rfl (htop s)
  | parse s =>
    rw [inContext, step, step, Ums.handleEp0Ctrl_inContext, Ums.parseScsiCmd_inContext]
    cases (s.handleEp0Ctrl env).parseScsiCmd env with
    | replied r t =>
      dsimp only [Ums.Parsed.inContext]
      rw [Ums.setUpReply_inContext, parsed_inContext]
    | writing x => rfl
  | writing x =>
    rw [inContext, step, step, Ums.writePass_inContext]
    cases Ums.writePass env x with
    | again y => rfl
    | leave t =>
      dsimp only [Loop.Pass.map]
      rw [Ums.setUpReply_inContext, parsed_inContext]
  | reply s =>
    rw [inContext, step, step, Ums.handleEp0Ctrl_inContext, Ums.finishReply_local]
    rcases (s.handleEp0Ctrl env).finishReply env with ⟨fatal, t⟩
    have hstate : (t.inContext κ).state = t.state := rfl
    dsimp only
    rw [hstate, loopEnd_inContext]
    split <;> rfl
  | status s =>
    rw [inContext, step, step, Ums.sendStatus_inContext, loopEnd_inContext]
  | exited s => rfl

/-- **A step of a command leaves its context as it is.** -/
theorem step_context (env : Env) (htop : ∀ s, g ≠ .top s) :
    step g env = (step g env).inContext g.ums.context := by
  have hself : g.inContext g.ums.context = g := by
    cases g with
    | writing x =>
      rw [inContext, Ums.WriteLoop.inContext, ums, Ums.inContext_context]
    | top s | parse s | reply s | status s | exited s => rw [inContext, ums, Ums.inContext_context]
  rw [← step_inContext env g.ums.context htop, hself]

end Gadget

end Usb
end SdLoader
