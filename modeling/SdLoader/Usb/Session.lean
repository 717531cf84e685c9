import SdLoader.Lib.Machine
import SdLoader.Usb.Scsi

/-!
# The mass storage gadget: a session

The bulk-only protocol of `usb_gadget_ums.c`: command blocks, the data phase, status, exceptions,
and the main loop of `usb_device_gadget_ums`.

A `Gadget` is the gadget at one of the places its main loop goes through, and `step` takes it to the
next one.  The loop of `_scsi_write` is gone through a pass at a time, so that a write that does not
end is a session that does not get any further.  Every step has an `Env` of its own, which stands
for what host, controller and cards do during it.
-/

set_option autoImplicit false

namespace SdLoader
namespace Usb

/-- `USB_BULK_CB_WRAP_LEN` -/
def usbBulkCbWrapLen : ℕ := 31
/-- `USB_BULK_CB_SIG` -/
def usbBulkCbSig : ℕ := 0x43425355
/-- `USB_BULK_CS_WRAP_LEN` -/
def usbBulkCsWrapLen : ℕ := 13
/-- `USB_BULK_CS_SIG` -/
def usbBulkCsSig : ℕ := 0x53425355
/-- `USB_ERROR_TIMEOUT` -/
def usbErrorTimeout : ℕ := 3
/-- `USB2_ERROR_XFER_EP_DISABLED` -/
def usb2ErrorXferEpDisabled : ℕ := 28

namespace Ums

/-! ## The data phase -/

/-- The variables of `_pad_with_zeros`. -/
structure PadLoop where
  /-- `current_len_to_keep` -/
  currentLenToKeep : ℕ
  /-- The gadget. -/
  s : Ums

/-- One pass through the loop of `_pad_with_zeros`. -/
def padPass (env : Env) (x : PadLoop) : Loop.Pass PadLoop Ums :=
  let s := x.s
  if s.usbAmountLeft = 0 then .leave s
  else
    let nsend := min s.usbAmountLeft usbEpBufferMaxSize
    let s :=
      s.fillMem (s.bulk.inBuf + x.currentLenToKeep) (sub32 nsend x.currentLenToKeep) fun _ ↦ 0
    let s := { s with bulk.inLength := nsend }.transferStartIn env true
    .again ⟨0, { s with usbAmountLeft := s.usbAmountLeft - nsend }⟩

/-- `_pad_with_zeros`.  Every pass leaves fewer bytes to send. -/
def padWithZeros (env : Env) (s : Ums) : Ums :=
  let keep := s.bulk.inLength
  let s := { s with bulk.inBufState := .empty, usbAmountLeft := add32 keep s.residue }
  match Loop.run (padPass env) (s.usbAmountLeft + 1) ⟨keep, s⟩ with
  | .leave s => s
  | .again x => x.s

/-- The data in a filled buffer is thrown away. -/
def dropBuffer (s : Ums) : Ums :=
  if s.bulk.outBufState = .full then { s with bulk.outBufState := .empty } else s

/-- `_throw_away_data`: is the result an error? -/
def throwAwayData (env : Env) (s : Ums) : Bool × Ums :=
  if s.bulk.outBufState = .empty ∧ s.usbAmountLeft = 0 then (false, s)
  else if s.bulk.outBufState = .empty ∧ 0 < s.usbAmountLeft then
    let amount := min s.usbAmountLeft usbEpBufferMaxSize
    let s := { s with bulk.outLength := amount }.transferStartOut env
    (false, { s with usbAmountLeft := s.usbAmountLeft - amount })
  else if s.bulk.outLengthActual ≠ s.bulk.outLength ∨ s.bulk.outStatus ≠ 0 then
    -- A short packet or an error ends everything.
    (true, s.dropBuffer.raiseException .abortBulkOut)
  else (false, s.dropBuffer)

/-- The case `DATA_DIR_TO_HOST` of `_finish_reply`: the last buffer is sent, and the rest of what
the host expects is padding, if the endpoint cannot be halted instead. -/
def sendReply (env : Env) (s : Ums) : Ums :=
  if s.dataSize = 0 then s
  else if s.residue = 0 ∨ s.canStall ≠ 0 then s.transferStartIn env true
  else s.padWithZeros env

/-- `_finish_reply`: is the result an error?  Halting an endpoint changes nothing here. -/
def finishReply (env : Env) (s : Ums) : Bool × Ums :=
  match s.dataDir with
  | .none => (false, s)
  | .unknown => (false, s)
  | .toHost => (false, (s.sendReply env).resetBufferIn)
  | .fromHost =>
    if s.residue = 0 then (false, s)
    else if s.shortPacketReceived ≠ 0 then (true, s.raiseException .abortBulkOut)
    else s.throwAwayData env

/-- The status byte of `_send_status`. -/
def status (s : Ums) : UInt8 :=
  if s.phaseError ≠ 0 then 2 else if s.lun.senseData ≠ ssNoSense then 1 else 0

/-- The status wrapper. -/
def csw (s : Ums) : List UInt8 :=
  ([usbBulkCsSig, s.tag, s.residue].flatMap fun v ↦ (List.range 4).map (Store.wordByte v)) ++
    [s.status]

/-- `_send_status` -/
def sendStatus (env : Env) (s : Ums) : Ums :=
  let s := s.put s.csw
  { s with bulk.inLength := usbBulkCsWrapLen }.transferStartIn env true

/-! ## Command blocks -/

/-- The timeouts `_received_cbw` adds if the endpoint was disabled, or if nothing came in time while
all media may be removed. -/
def countEpTimeouts (env : Env) (s : Ums) : Ums :=
  if s.bulk.outStatus = usb2ErrorXferEpDisabled then { s with timeouts := s.timeouts + 4 }
  else if s.bulk.outStatus = usbErrorTimeout ∧ s.units.all (·.removable ≠ 0) ∧
      s.units.all (·.preventMediumRemoval = 0) then
    match s.poll env with
    | (true, s) => { s with timeouts := s.timeouts + 14 }
    | (false, s) => if s.xusb then s else { s with timeouts := s.timeouts + 4 }
  else s

/-- The timeouts it adds if no medium is mounted. -/
def countUnmounted (s : Ums) : Ums :=
  if s.allLunsUnmounted then
    { s with timeouts := s.timeouts + if s.bulk.outStatus = 0 then 4 else 1 }
  else s

/-- What `_received_cbw` does when there is no command block, or nothing is mounted. -/
def countTimeouts (env : Env) (s : Ums) : Ums :=
  let s := (s.countEpTimeouts env).countUnmounted
  if 20 < s.timeouts then s.raiseException .exit else s

/-- Byte `k` of the command block wrapper. -/
def cbw (s : Ums) (k : ℕ) : UInt8 := s.w.mem (s.bulk.outBuf + k)

/-- The command block is saved. -/
def saveCommand (s : Ums) : Ums :=
  let size := (s.cbw 14).toNat
  let dataSize := Store.word s.w.mem (s.bulk.outBuf + 8)
  { s with
    cmndSize := size
    cmnd := fun k ↦ if k < size then s.cbw (15 + k) else s.cmnd k
    dataDir :=
      if dataSize = 0 then .none else if s.cbw 12 &&& 0x80 ≠ 0 then .toHost else .fromHost
    dataSize := dataSize
    tag := Store.word s.w.mem (s.bulk.outBuf + 4)
    timeouts := if s.allLunsUnmounted then s.timeouts else 0 }

/-- The hardware partition of an eMMC unit. -/
def hwPartition (l : LogicalUnit) : ℕ := sub32 l.partition 1

/-- The active unit is changed. -/
def changeLun (env : Env) (lun : ℕ) (s : Ums) : Ums :=
  let s :=
    if (s.luns lun).type = .emmc ∧ hwPartition (s.luns lun) ≠ s.w.partition then
      s.sdmmcStorageSetMmcPartition env (hwPartition (s.luns lun))
    else s
  { s with lunIdx := lun }

/-- The end of `_received_cbw`: a meaningful command block is taken over. -/
def acceptCbw (env : Env) (s : Ums) : Ums :=
  let lun := (s.cbw 13).toNat
  if lun = s.lunIdx then s.saveCommand else s.saveCommand.changeLun env lun

/-- The command block wrapper is not meaningful. -/
def cbwMeaningless (s : Ums) : Prop :=
  s.lunCnt ≤ (s.cbw 13).toNat ∨ s.cbw 12 &&& 0x7F ≠ 0 ∨ s.cbw 14 = 0 ∨ 16 < s.cbw 14

instance (s : Ums) : Decidable s.cbwMeaningless :=
  inferInstanceAs (Decidable (_ ∨ _ ∨ _ ∨ _))

/-- The part of `_received_cbw` that looks at the command block wrapper. -/
def readCbw (env : Env) (s : Ums) : Bool × Ums :=
  if s.bulk.outLengthActual ≠ usbBulkCbWrapLen ∨
      Store.word s.w.mem s.bulk.outBuf ≠ usbBulkCbSig then
    (false, { s with bulk.outIgnore := true })
  else if s.cbwMeaningless then (false, s)
  else (true, s.acceptCbw env)

/-- `_received_cbw`: is there a command to carry out? -/
def receivedCbw (env : Env) (s : Ums) : Bool × Ums :=
  let s := if s.bulk.outStatus ≠ 0 ∨ s.allLunsUnmounted then s.countTimeouts env else s
  if s.bulk.outStatus ≠ 0 ∨ s.bulk.outIgnore then (false, s)
  else { s with cbwReqQueued := false }.readCbw env

/-- A command block wrapper is asked for, or waited for again. -/
def awaitCbw (env : Env) (s : Ums) : Ums :=
  let s := { s with bulk.outLength := usbBulkCbWrapLen }
  let s := if s.cbwReqQueued then s.transferFinishOut env else s.transferStartOut env
  { s with cbwReqQueued := s.xusb || s.cbwReqQueued }

/-- `_get_next_command` -/
def getNextCommand (env : Env) (s : Ums) : Bool × Ums :=
  match (s.awaitCbw env).receivedCbw env with
  | (ok, s) => (ok, { s with bulk.outBufState := .empty })

/-! ## Exceptions -/

/-- What an exception does to the active unit.  There is none before the first command, and the
fields written through `luns[16]` are then those that follow the table.  Which ones these are
depends on the layout of the structure: here, an enumeration has 4 bytes.  With shorter ones, as a
compiler may choose them, they are others. -/
def resetLun (s : Ums) : Ums :=
  if s.lunIdx < 16 then
    s.setLun fun l ↦ { l with
      preventMediumRemoval := 0
      senseData := ssNoSense
      unitAttentionData := ssNoSense
      senseDataInfo := 0
      infoValid := 0 }
  else { s with phaseError := 0, timeouts := 0, canStall := 0, shortPacketReceived := 0 }

/-- `unit_attention_data = SS_RESET_OCCURRED`.  In the same layout, that of `luns[16]` is
`timeouts`. -/
def resetOccurred (s : Ums) : Ums :=
  if s.lunIdx < 16 then s.setLun fun l ↦ { l with unitAttentionData := ssResetOccurred }
  else { s with timeouts := ssResetOccurred }

/-- The first half of `_handle_exception`: the buffers are empty again, the active unit is reset
unless data from the host was given up, and the exception is taken back. -/
def takeException (s : Ums) : Ums :=
  let t := { s with bulk.inBufState := .empty, bulk.outBufState := .empty, state := .normal }
  if s.state ≠ .abortBulkOut then t.resetLun else t

/-- `_handle_exception`.  The endpoints are not flushed: `xusb_device_get_ops` sets no function for
it. -/
def handleException (env : Env) (s : Ums) : Ums :=
  let t := s.takeException
  match s.state with
  | .normal => t
  | .abortBulkOut => t.sendStatus env
  | .protocolReset => { t with bulk.outIgnore := false }.resetOccurred
  | .exit => { t with state := .terminated }
  | .terminated => t

/-- `_handle_ep0_ctrl` -/
def handleEp0Ctrl (env : Env) (s : Ums) : Ums :=
  match s.poll env with
  | (true, s) => s.raiseException .protocolReset
  | (false, s) => s

/-- `_get_prevent_media_removal` -/
def preventMediaRemoval (s : Ums) : Bool := s.units.any (·.preventMediumRemoval ≠ 0)

end Ums

/-! ## The main loop -/

/-- The gadget, at a place of the main loop of `usb_device_gadget_ums`. -/
inductive Gadget
  /-- The start of an iteration. -/
  | top (s : Ums)
  /-- A command block has been taken over. -/
  | parse (s : Ums)
  /-- A write is under way. -/
  | writing (x : Ums.WriteLoop)
  /-- The command has been carried out. -/
  | reply (s : Ums)
  /-- The data phase is over. -/
  | status (s : Ums)
  /-- The main loop has been left. -/
  | exited (s : Ums)

namespace Gadget

/-- The variables of the gadget. -/
def ums : Gadget → Ums
  | top s => s
  | parse s => s
  | writing x => x.s
  | reply s => s
  | status s => s
  | exited s => s

/-- The condition at the end of an iteration. -/
def loopEnd (s : Ums) : Gadget := if s.state = .terminated then .exited s else .top s

/-- A command has been parsed. -/
def parsed (s : Ums) : Gadget := if s.state ≠ .normal then loopEnd s else .reply s

/-- From one place of the main loop to the next. -/
def step (g : Gadget) (env : Env) : Gadget :=
  match g with
  | top s =>
    match s.poll env with
    | (combo, s) =>
      if combo && !s.preventMediaRemoval then .exited s
      else if s.state ≠ .normal then loopEnd (s.handleException env)
      else
        match (s.handleEp0Ctrl env).getNextCommand env with
        | (ok, s) => if !ok || s.state ≠ .normal then loopEnd s else .parse s
  | parse s =>
    match (s.handleEp0Ctrl env).parseScsiCmd env with
    | .replied r s => parsed (s.setUpReply r)
    | .writing x => .writing x
  | writing x =>
    match Ums.writePass env x with
    | .again x => .writing x
    | .leave s => parsed (s.setUpReply .ioError)
  | reply s =>
    match (s.handleEp0Ctrl env).finishReply env with
    | (fatal, s) => if fatal || s.state ≠ .normal then loopEnd s else .status s
  | status s => loopEnd (s.sendStatus env)
  | exited s => .exited s

end Gadget

/-! ## The start -/

/-- `usb_ctxt_vol_t` -/
structure Volume where
  /-- `type` -/
  type : MmcType
  /-- `partition` -/
  partition : ℕ
  /-- `offset` -/
  offset : ℕ
  /-- `sectors` -/
  sectors : ℕ
  /-- `ro` -/
  ro : ℕ

/-- The unit of a volume; `secCnt` is the size of its storage. -/
def Volume.unit (secCnt : MmcType → ℕ) (v : Volume) : LogicalUnit where
  numSectors := if v.sectors = 0 then secCnt v.type else v.sectors
  offset := v.offset
  unmounted := false
  ro := v.ro
  type := v.type
  partition := v.partition
  removable := 1
  preventMediumRemoval := 0
  infoValid := 0
  senseData := ssNoSense
  senseDataInfo := 0
  unitAttentionData := ssResetOccurred

/-- A unit with all its fields zero. -/
def LogicalUnit.zero : LogicalUnit := ⟨0, 0, false, 0, .emmc, 0, 0, 0, 0, 0, 0, 0⟩

/-- The gadget as the main loop of `usb_device_gadget_ums` is entered. -/
def Ums.start (volumes : List Volume) (secCnt : MmcType → ℕ) (w : World) : Ums where
  bulk :=
    { inLength := 0
      inBuf := usbEpBulkInBufAddr
      inBufState := .empty
      outStatus := 0
      outLength := 0
      outLengthActual := 0
      outIgnore := false
      outBuf := usbEpBulkOutBufAddr
      outBufState := .empty }
  cmndSize := 0
  cmnd := fun _ ↦ 0
  lunIdx := 16
  lunCnt := volumes.length
  luns := fun i ↦ ((volumes[i]?).map (Volume.unit secCnt)).getD .zero
  allLunsUnmounted := false
  state := .normal
  dataDir := .unknown
  dataSize := 0
  dataSizeFromCmnd := 0
  tag := 0
  residue := 0
  usbAmountLeft := 0
  cbwReqQueued := false
  phaseError := 0
  shortPacketReceived := 0
  canStall := 0
  timeouts := 0
  xusb := true
  w := w

/-- The world as it is when the volumes have been mounted: nothing is outstanding or on record, and
the initialisation of the eMMC has selected its user area. -/
structure World.Fresh (w : World) : Prop where
  inQueue : w.inQueue = []
  trace : w.trace = []
  partition : w.partition = 0
  selected : w.selected = 0

/-- The gadgets a session with these volumes starts as.  The table has sixteen places. -/
def Starts (volumes : List Volume) (secCnt : MmcType → ℕ) (g : Gadget) : Prop :=
  volumes.length ≤ 16 ∧ ∃ w, w.Fresh ∧ g = .top (.start volumes secCnt w)

/-- The gadgets a session with these volumes can get to. -/
abbrev Reachable (volumes : List Volume) (secCnt : MmcType → ℕ) : Gadget → Prop :=
  Machine.Reachable Gadget.step (Starts volumes secCnt)

end Usb
end SdLoader
