import SdLoader.Usb.Endpoint

/-!
# The mass storage gadget: commands

The SCSI commands of `usb_gadget_ums.c`, up to `_parse_scsi_cmd`.

* `checkScsiCmd` — `_check_scsi_cmd`, the checks every command goes through first.
* `ScsiCmd.spec` — what each command passes to it.
* `ScsiCmd.handle` — what is done with a command that passes.
* `parseScsiCmd` — `_parse_scsi_cmd`.  A write that passes is not carried out on the spot: what is
  returned is the loop of `_scsi_write` as it is entered, because that loop need not end.

A handler returns a `Reply`: the length of a reply it has put in the buffer, or one of the two
errors.  Nothing on the screen is modelled.

Subtractions that cannot go below zero in 32 bits are subtractions of natural numbers.  `sub32` and
`add32` stand where a number can wrap around.
-/

set_option autoImplicit false

namespace SdLoader
namespace Usb

/-! ## Codes -/

/-- `SC_REQUEST_SENSE` -/
def scRequestSense : UInt8 := 0x03

/-- `SC_INQUIRY` -/
def scInquiry : UInt8 := 0x12

/-- The commands `_parse_scsi_cmd` tells apart. -/
inductive ScsiCmd
  | inquiry
  | logSense
  | modeSelect6
  | modeSelect10
  | modeSense6
  | modeSense10
  | preventAllowMediumRemoval
  | read6
  | read10
  | read12
  | readCapacity
  | readFormatCapacities
  | requestSense
  | startStopUnit
  | synchronizeCache
  | testUnitReady
  | verify
  | write6
  | write10
  | write12
  | other
  deriving DecidableEq

/-- The codes of the commands. -/
def ScsiCmd.codes : List (UInt8 × ScsiCmd) :=
  [(scInquiry, .inquiry), (0x4D, .logSense), (0x15, .modeSelect6), (0x55, .modeSelect10),
    (0x1A, .modeSense6), (0x5A, .modeSense10), (0x1E, .preventAllowMediumRemoval), (0x08, .read6),
    (0x28, .read10), (0xA8, .read12), (0x25, .readCapacity), (0x23, .readFormatCapacities),
    (scRequestSense, .requestSense), (0x1B, .startStopUnit), (0x35, .synchronizeCache),
    (0x00, .testUnitReady), (0x2F, .verify), (0x0A, .write6), (0x2A, .write10), (0xAA, .write12)]

/-- The command of a code. -/
def ScsiCmd.ofCode (code : UInt8) : ScsiCmd := (ScsiCmd.codes.lookup code).getD .other

/-- `SS_NO_SENSE` -/
def ssNoSense : ℕ := 0x0
/-- `SS_COMMUNICATION_FAILURE` -/
def ssCommunicationFailure : ℕ := 0x40800
/-- `SS_INVALID_COMMAND` -/
def ssInvalidCommand : ℕ := 0x52000
/-- `SS_INVALID_FIELD_IN_CDB` -/
def ssInvalidFieldInCdb : ℕ := 0x52400
/-- `SS_LOGICAL_BLOCK_ADDRESS_OUT_OF_RANGE` -/
def ssLogicalBlockAddressOutOfRange : ℕ := 0x52100
/-- `SS_MEDIUM_NOT_PRESENT` -/
def ssMediumNotPresent : ℕ := 0x23A00
/-- `SS_MEDIUM_REMOVAL_PREVENTED` -/
def ssMediumRemovalPrevented : ℕ := 0x55302
/-- `SS_RESET_OCCURRED` -/
def ssResetOccurred : ℕ := 0x62900
/-- `SS_SAVING_PARAMETERS_NOT_SUPPORTED` -/
def ssSavingParametersNotSupported : ℕ := 0x53900
/-- `SS_UNRECOVERED_READ_ERROR` -/
def ssUnrecoveredReadError : ℕ := 0x31100
/-- `SS_WRITE_ERROR` -/
def ssWriteError : ℕ := 0x30C02
/-- `SS_WRITE_PROTECTED` -/
def ssWriteProtected : ℕ := 0x72700

/-! ## Bytes -/

/-- `get_array_be_to_le16` -/
def be16 (c : ℕ → UInt8) (i : ℕ) : ℕ := (c i).toNat * 0x100 + (c (i + 1)).toNat

/-- `get_array_be_to_le24` -/
def be24 (c : ℕ → UInt8) (i : ℕ) : ℕ := (c i).toNat * 0x10000 + be16 c (i + 1)

/-- `get_array_be_to_le32` -/
def be32 (c : ℕ → UInt8) (i : ℕ) : ℕ := (c i).toNat * 0x1000000 + be24 c (i + 1)

/-- `put_array_le_to_be16` -/
def toBe16 (v : ℕ) : List UInt8 := [UInt8.ofNat (v / 0x100), UInt8.ofNat v]

/-- `put_array_le_to_be32` -/
def toBe32 (v : ℕ) : List UInt8 :=
  [UInt8.ofNat (v / 0x1000000), UInt8.ofNat (v / 0x10000)] ++ toBe16 v

/-- `n << UMS_DISK_LBA_SHIFT` -/
def lbaBytes (n : ℕ) : ℕ := n * lbaSize % 2 ^ 32

/-- The characters of a string. -/
def ascii (t : String) : List UInt8 := t.toList.map fun c ↦ UInt8.ofNat c.toNat

/-- `t` filled up with `c` to the length `n`. -/
def padTo (n : ℕ) (c : UInt8) (t : List UInt8) : List UInt8 := t ++ List.replicate (n - t.length) c

/-- A hexadecimal digit. -/
def hexDigit (d : ℕ) : UInt8 := UInt8.ofNat (if d < 10 then 0x30 + d else 0x37 + d)

/-- `%04X` of a number of 32 bits: its eight digits, less zeros in front of the last four. -/
def hex04 (v : ℕ) : List UInt8 :=
  let digits := ([7, 6, 5, 4, 3, 2, 1, 0] : List ℕ).map fun i ↦ hexDigit (v / 16 ^ i % 16)
  (digits.take 4).dropWhile (· = hexDigit 0) ++ digits.drop 4

/-! ## Replies -/

/-- What a command handler returns. -/
inductive Reply
  /-- The length of a reply, `UMS_RES_OK` if it is zero. -/
  | len (n : ℕ)
  /-- `UMS_RES_IO_ERROR`: there is no default reply. -/
  | ioError
  /-- `UMS_RES_INVALID_ARG` -/
  | invalidArg

namespace Ums

/-- `l` written to the start of the bulk-IN buffer. -/
def put (l : List UInt8) (s : Ums) : Ums := s.fillMem s.bulk.inBuf l.length fun k ↦ l.getD k 0

/-- A reply of `n` bytes, with what is written to the buffer for it. -/
def replyWith (n : ℕ) (l : List UInt8) (s : Ums) : Reply × Ums :=
  let s := s.put l
  (.len n, { s with w.reply := l.take n })

/-- A command refused with a sense code. -/
def refuse (code : ℕ) (s : Ums) : Reply × Ums := (.invalidArg, s.sense code)

/-! ## The checks -/

/-- The data phase is limited to what the host has announced. -/
def limitData (s : Ums) : Ums :=
  let s :=
    if s.dataSize < s.dataSizeFromCmnd then
      { s with dataSizeFromCmnd := s.dataSize, phaseError := 1 }
    else s
  { s with residue := s.dataSize, usbAmountLeft := s.dataSize }

/-- Every command but REQUEST SENSE clears the sense data. -/
def clearSense (s : Ums) : Ums :=
  if s.cmnd 0 ≠ scRequestSense then
    s.setLun fun l ↦ { l with senseData := ssNoSense, senseDataInfo := 0, infoValid := 0 }
  else s

/-- The unit number masked away from the command block. -/
def maskLun (s : Ums) : Ums :=
  { s with cmnd := Function.update s.cmnd 1 (s.cmnd 1 &&& 0x1F) }

/-- The second half of `_check_scsi_cmd`: unit attention, the command block and the medium. -/
def checkUnit (mask : ℕ) (needsMedium : Bool) (s : Ums) : Bool × Ums :=
  if s.lun.unitAttentionData ≠ ssNoSense ∧ s.cmnd 0 ≠ scInquiry ∧ s.cmnd 0 ≠ scRequestSense then
    (false, s.setLun fun l ↦
      { l with senseData := l.unitAttentionData, unitAttentionData := ssNoSense })
  else if (List.range' 1 (s.cmndSize - 1)).any fun i ↦ s.maskLun.cmnd i ≠ 0 && !mask.testBit i then
    (false, s.maskLun.sense ssInvalidFieldInCdb)
  else if s.lun.unmounted && needsMedium then (false, s.maskLun.sense ssMediumNotPresent)
  else (true, s.maskLun)

/-- The host has announced data in another direction than the command's. -/
def directionDiffers (dataDir : DataDir) (s : Ums) : Bool :=
  s.dataDir ≠ (if s.dataSizeFromCmnd = 0 then .none else dataDir) &&
    0 < s.limitData.dataSizeFromCmnd

/-- `_check_scsi_cmd`: does the command pass?  A command block that is longer than it has to be is
checked as a whole. -/
def checkScsiCmd (cmndSize : ℕ) (dataDir : DataDir) (mask : ℕ) (needsMedium : Bool) (s : Ums) :
    Bool × Ums :=
  if s.directionDiffers dataDir ∨ s.cmndSize < cmndSize then
    (false, { s.limitData with phaseError := 1 })
  else s.limitData.clearSense.checkUnit mask needsMedium

/-! ## Reading -/

/-- The variables of `_scsi_read`. -/
structure ReadLoop where
  /-- `lba_offset` -/
  lbaOffset : ℕ
  /-- `amount_left` -/
  amountLeft : ℕ
  /-- `first_read` -/
  firstRead : Bool
  /-- `use_buf1` -/
  useBuf1 : Bool
  /-- `sdmmc_buf_current` -/
  bufCurrent : ℕ
  /-- The gadget. -/
  s : Ums

/-- The middle of a pass through the loop of `_scsi_read`: `amount` sectors have been read into the
current buffer.  The transfer of the buffer before is waited for. -/
def readChunk (env : Env) (x : ReadLoop) (amount : ℕ) (s : Ums) : Ums :=
  let got := Store.slice s.w.mem x.bufCurrent (amount * lbaSize)
  let s := if x.firstRead then s else s.transferFinishIn env
  { s with
    residue := s.residue - amount * lbaSize
    bulk.inLength := amount * lbaSize
    bulk.inBufState := .full
    bulk.inBuf := x.bufCurrent
    w.reply := s.w.reply ++ got }

/-- One pass through the loop of `_scsi_read`. -/
def readPass (env : Env) (maxIoTransfer : ℕ) (x : ReadLoop) : Loop.Pass ReadLoop Ums :=
  let amount := min (min x.amountLeft maxIoTransfer) (x.s.lun.numSectors - x.lbaOffset)
  if amount = 0 then
    let s := x.s.senseAt ssLogicalBlockAddressOutOfRange x.lbaOffset
    .leave { s with bulk.inLength := 0, bulk.inBufState := .full }
  else
    match x.s.sdmmcStorageAccess env false (add32 x.s.lun.offset x.lbaOffset) amount
      x.bufCurrent with
    | (false, s) =>
      .leave ((readChunk env x 0 s).senseAt ssUnrecoveredReadError x.lbaOffset)
    | (true, s) =>
      let s := readChunk env x amount s
      let useBuf1 := !x.useBuf1
      if x.amountLeft - amount = 0 then .leave s
      else
        let bufCurrent := if useBuf1 then usbEpBulkInBufAddr else usbEpBulkOutBufAddr
        .again ⟨x.lbaOffset + amount, x.amountLeft - amount, false, useBuf1, bufCurrent,
          s.transferStartIn env false⟩

/-- `max_io_transfer`, in sectors -/
def maxIoTransfer (amountLeft : ℕ) : ℕ :=
  let most := if 0x80000 / lbaSize ≤ amountLeft then usbEpBufferMaxSize / lbaSize
    else usbEpBufferMaxSize / lbaSize / 2
  min (min most (usbEpBulkInMaxXfer / lbaSize)) (usbEpBulkOutMaxXfer / lbaSize)

/-- The end of the loop of `_scsi_read`.  Every pass that goes round again leaves fewer sectors. -/
def readLoop (env : Env) (x : ReadLoop) : Ums :=
  match Loop.run (readPass env (maxIoTransfer x.amountLeft)) (x.amountLeft + 1) x with
  | .leave s => s
  | .again x => x.s

/-- The address of a read or a write, and whether the rest of the block is in order. -/
def lbaOffset (six : Bool) (s : Ums) : ℕ × Bool :=
  if six then (be24 s.cmnd 1, true) else (be32 s.cmnd 2, s.cmnd 1 &&& 0xE7 = 0)

/-- `_scsi_read` -/
def scsiRead (env : Env) (six : Bool) (s : Ums) : Reply × Ums :=
  match s.lbaOffset six with
  | (_, false) => s.refuse ssInvalidFieldInCdb
  | (lba, true) =>
    if s.lun.numSectors ≤ lba then s.refuse ssLogicalBlockAddressOutOfRange
    else
      let amountLeft := s.dataSizeFromCmnd / lbaSize
      if amountLeft = 0 then (.ioError, s)
      else (.ioError, readLoop env ⟨lba, amountLeft, true, true, usbEpBulkInBufAddr, s⟩)

/-! ## Writing -/

/-- The variables of `_scsi_write`. -/
structure WriteLoop where
  /-- `usb_lba_offset` -/
  usbLbaOffset : ℕ
  /-- `lba_offset` -/
  lbaOffset : ℕ
  /-- `amount_left_to_req` -/
  amountLeftToReq : ℕ
  /-- `amount_left_to_write` -/
  amountLeftToWrite : ℕ
  /-- The gadget. -/
  s : Ums

/-- The first half of a pass through the loop of `_scsi_write`: more data is asked for. -/
def writeRequest (env : Env) (x : WriteLoop) : Loop.Pass WriteLoop Ums :=
  if x.amountLeftToReq = 0 then .again x
  else
    let amount := min x.amountLeftToReq usbEpBulkOutMaxXfer
    if x.s.lun.numSectors ≤ x.usbLbaOffset then
      .leave (x.s.senseAt ssLogicalBlockAddressOutOfRange x.usbLbaOffset)
    else
      let s := { x.s with usbAmountLeft := x.s.usbAmountLeft - amount, bulk.outLength := amount }
      .again { x with
        usbLbaOffset := add32 x.usbLbaOffset (amount / lbaSize)
        amountLeftToReq := x.amountLeftToReq - amount
        s := s.transferOutBigRead env }

/-- The label `empty_write`: a transfer that was short ends the loop. -/
def emptyWrite (x : WriteLoop) : Loop.Pass WriteLoop Ums :=
  if x.s.bulk.outLengthActual < x.s.bulk.outLength then
    .leave { x.s with shortPacketReceived := 1 }
  else .again x

/-- How much of a buffer is written: `amount`, from `bulk_out_length_actual`. -/
def writeAmount (lbaOffset : ℕ) (s : Ums) : ℕ :=
  let amount := s.bulk.outLengthActual
  let left := s.lun.numSectors - lbaOffset
  let amount := if left < amount / lbaSize then left * lbaSize else amount
  let amount := min amount s.bulk.outLength
  amount - amount % lbaSize

/-- The second half: a full buffer is written. -/
def writeBuffer (env : Env) (x : WriteLoop) : Loop.Pass WriteLoop Ums :=
  if x.s.bulk.outBufState ≠ .full then .again x
  else
    let s := { x.s with bulk.outBufState := .empty }
    if s.bulk.outStatus ≠ 0 then .leave (s.senseAt ssCommunicationFailure x.lbaOffset)
    else
      let amount := s.writeAmount x.lbaOffset
      if amount = 0 then emptyWrite { x with s := s }
      else
        match s.sdmmcStorageAccess env true (add32 s.lun.offset x.lbaOffset) (amount / lbaSize)
          s.bulk.outBuf with
        | (false, s) => .leave (s.senseAt ssWriteError x.lbaOffset)
        | (true, s) =>
          emptyWrite { x with
            lbaOffset := x.lbaOffset + amount / lbaSize
            amountLeftToWrite := x.amountLeftToWrite - amount
            s := { s with residue := s.residue - amount } }

/-- One pass through the loop of `_scsi_write`. -/
def writePass (env : Env) (x : WriteLoop) : Loop.Pass WriteLoop Ums :=
  if x.amountLeftToWrite = 0 then .leave x.s
  else
    match writeRequest env x with
    | .leave s => .leave s
    | .again x => writeBuffer env x

/-- What parsing a command comes to. -/
inductive Parsed
  /-- The command has been carried out or refused. -/
  | replied (r : Reply) (s : Ums)
  /-- It is a write, at the start of its loop. -/
  | writing (x : WriteLoop)

/-- The result of a handler that always returns. -/
def Parsed.of (r : Reply × Ums) : Parsed := .replied r.1 r.2

/-- `_scsi_write`, up to its loop. -/
def scsiWrite (six : Bool) (s : Ums) : Parsed :=
  if s.lun.ro ≠ 0 then .of (s.refuse ssWriteProtected)
  else
    match s.lbaOffset six with
    | (_, false) => .of (s.refuse ssInvalidFieldInCdb)
    | (lba, true) =>
      if s.lun.numSectors ≤ lba then .of (s.refuse ssLogicalBlockAddressOutOfRange)
      else .writing ⟨lba, lba, s.dataSizeFromCmnd, s.dataSizeFromCmnd, s⟩

/-! ## Verifying -/

/-- The variables of `_scsi_verify`. -/
structure VerifyLoop where
  /-- `lba_offset` -/
  lbaOffset : ℕ
  /-- `verification_length` -/
  verificationLength : ℕ
  /-- The gadget. -/
  s : Ums

/-- One pass through the loop of `_scsi_verify`. -/
def verifyPass (env : Env) (x : VerifyLoop) : Loop.Pass VerifyLoop Ums :=
  if x.verificationLength = 0 then .leave x.s
  else
    let amount := min (min x.verificationLength (usbEpBufferMaxSize / lbaSize))
      (x.s.lun.numSectors - x.lbaOffset)
    if amount = 0 then .leave (x.s.senseAt ssLogicalBlockAddressOutOfRange x.lbaOffset)
    else
      match x.s.sdmmcStorageAccess env false (add32 x.s.lun.offset x.lbaOffset) amount
        x.s.bulk.inBuf with
      | (false, s) => .leave (s.senseAt ssUnrecoveredReadError x.lbaOffset)
      | (true, s) => .again ⟨x.lbaOffset + amount, x.verificationLength - amount, s⟩

/-- The end of the loop of `_scsi_verify`. -/
def verifyLoop (env : Env) (x : VerifyLoop) : Ums :=
  match Loop.run (verifyPass env) (x.verificationLength + 1) x with
  | .leave s => s
  | .again x => x.s

/-- `_scsi_verify` -/
def scsiVerify (env : Env) (s : Ums) : Reply × Ums :=
  let lba := be32 s.cmnd 2
  if s.lun.numSectors ≤ lba then s.refuse ssLogicalBlockAddressOutOfRange
  else if s.cmnd 1 &&& 0xEF ≠ 0 then s.refuse ssInvalidFieldInCdb
  else if be16 s.cmnd 7 = 0 then (.ioError, s)
  else (.len 0, verifyLoop env ⟨lba, be16 s.cmnd 7, s⟩)

/-! ## The other commands -/

/-- The name of a volume. -/
def volumeName : ℕ → Option (List UInt8)
  | 1 => some (ascii "GPP")
  | 2 => some (ascii "BOOT0")
  | 3 => some (ascii "BOOT1")
  | _ => none

/-- The text of the serial number page. -/
def serialText (s : Ums) : List UInt8 :=
  let l := s.lun
  hex04 (s.w.serial l.type) ++ ascii (if l.type = .sd then " SD " else " eMMC ") ++
    if l.partition = 0 then ascii "RAW" else (volumeName l.partition).getD []

/-- The product id of the standard inquiry. -/
def productId (s : Ums) : List UInt8 :=
  let l := s.lun
  if l.partition = 0 then ascii "SD RAW"
  else
    match volumeName l.partition with
    | some t => ascii (if l.type = .sd then "SD " else "eMMC ") ++ t
    | none => []

/-- `_scsi_inquiry` -/
def scsiInquiry (s : Ums) : Reply × Ums :=
  if s.cmnd 1 = 1 ∧ s.cmnd 2 = 0x80 then
    s.replyWith 24 (padTo 36 0 ([0, s.cmnd 2, 0, 20] ++ padTo 20 0x20 s.serialText))
  else
    let head := [0, if s.lun.removable ≠ 0 then 0x80 else 0, 6, 2, 31, 0, 0, 0]
    s.replyWith 36
      (head ++ padTo 8 0 (ascii "hekate") ++ padTo 16 0 s.productId ++ ascii "1.00" ++ [0])

/-- `_scsi_request_sense` -/
def scsiRequestSense (s : Ums) : Reply × Ums :=
  let l := s.lun
  let s := s.setLun fun l ↦ { l with senseData := ssNoSense, senseDataInfo := 0, infoValid := 0 }
  s.replyWith 18
    ([UInt8.ofNat (l.infoValid * 0x80) ||| 0x70, 0, UInt8.ofNat (l.senseData / 0x10000)] ++
      toBe32 l.senseDataInfo ++ [10, 0, 0, 0, 0, UInt8.ofNat (l.senseData / 0x100),
        UInt8.ofNat l.senseData, 0, 0, 0, 0])

/-- `_scsi_read_capacity` -/
def scsiReadCapacity (s : Ums) : Reply × Ums :=
  let pmi := s.cmnd 8
  if 1 < pmi ∨ pmi = 0 ∧ be32 s.cmnd 2 ≠ 0 then s.refuse ssInvalidFieldInCdb
  else s.replyWith 8 (toBe32 (sub32 s.lun.numSectors 1) ++ toBe32 lbaSize)

/-- `_scsi_log_sense` -/
def scsiLogSense (s : Ums) : Reply × Ums :=
  let pc := s.cmnd 2 / 0x40
  let page := s.cmnd 2 &&& 0x3F
  if s.cmnd 1 &&& 1 ≠ 0 then s.refuse ssSavingParametersNotSupported
  else if pc ≠ 1 then s.refuse ssInvalidFieldInCdb
  else if page = 0 ∧ s.cmnd 3 = 0 then s.replyWith 6 [0, 0, 0, 2, 0, 0x0D, 0, 0]
  else if page = 0x0D ∧ s.cmnd 3 = 0 then
    s.replyWith 16 [0x0D, 0, 0, 12, 0, 0, 1, 2, 0, 35, 0, 0, 1, 2, 0, 60]
  else (s.put (List.replicate 8 0)).refuse ssInvalidFieldInCdb

/-- The caching page of `_scsi_mode_sense`. -/
def cachingPage (changeable : Bool) : List UInt8 :=
  padTo 20 0
    ([0x08, 18] ++ if changeable then [] else [4, 0, 0xFF, 0xFF, 0, 0, 0xFF, 0xFF, 0xFF, 0xFF])

/-- `_scsi_mode_sense` -/
def scsiModeSense (six : Bool) (s : Ums) : Reply × Ums :=
  let pc := s.cmnd 2 / 0x40
  let page := s.cmnd 2 &&& 0x3F
  let wp := if s.lun.ro ≠ 0 then 0x80 else 0
  if s.cmnd 1 &&& 0xF7 ≠ 0 then s.refuse ssInvalidFieldInCdb
  else if pc = 3 then s.refuse ssSavingParametersNotSupported
  else if page = 0x08 ∨ page = 0x3F then
    if six then s.replyWith 24 ([23, 0, wp, 0] ++ cachingPage (pc = 1))
    else s.replyWith 28 (toBe16 26 ++ [0, wp, 0, 0, 0, 0] ++ cachingPage (pc = 1))
  else
    let head := if six then [0, 0, wp, 0, 0, 0, 0, 0] else [0, 0, 0, wp, 0, 0, 0, 0]
    (s.put head).refuse ssInvalidFieldInCdb

/-- The units of the table. -/
def units (s : Ums) : List LogicalUnit := (List.range s.lunCnt).map s.luns

/-- `_scsi_start_stop` -/
def scsiStartStop (s : Ums) : Reply × Ums :=
  let l := s.lun
  if l.removable = 0 then s.refuse ssInvalidCommand
  else if s.cmnd 1 &&& 0xFE ≠ 0 ∨ s.cmnd 4 &&& 0xFC ≠ 0 then s.refuse ssInvalidFieldInCdb
  else if s.cmnd 4 &&& 1 ≠ 0 then
    if l.unmounted then s.refuse ssMediumNotPresent else (.len 0, s)
  else if l.preventMediumRemoval ≠ 0 then s.refuse ssMediumRemovalPrevented
  else if s.cmnd 4 &&& 2 = 0 then (.len 0, s)
  else
    let s := s.setLun fun l ↦ { l with unmounted := true }
    (.len 0, { s with allLunsUnmounted := s.units.all (·.unmounted) })

/-- `_scsi_prevent_allow_removal` -/
def scsiPreventAllowRemoval (s : Ums) : Reply × Ums :=
  if s.lun.removable = 0 then s.refuse ssInvalidCommand
  else if s.cmnd 4 &&& 0xFE ≠ 0 then s.refuse ssInvalidFieldInCdb
  else (.len 0, s.setLun fun l ↦ { l with preventMediumRemoval := (s.cmnd 4 &&& 1).toNat })

/-- `_scsi_read_format_capacities` -/
def scsiReadFormatCapacities (s : Ums) : Reply × Ums :=
  s.replyWith 12 ([0, 0, 0, 8] ++ toBe32 s.lun.numSectors ++ [2, 0, 2, 0])

end Ums

/-! ## Parsing -/

/-- What a command passes to `_check_scsi_cmd`, and the `data_size_from_cmnd` it sets before. -/
structure CmdSpec where
  /-- `data_size_from_cmnd` -/
  dataSize : ℕ
  /-- `cmnd_size` -/
  cmndSize : ℕ
  /-- `data_dir` -/
  dataDir : DataDir
  /-- `mask` -/
  mask : ℕ
  /-- `needs_medium` -/
  needsMedium : Bool

/-- The arguments of each command. -/
def ScsiCmd.spec (s : Ums) : ScsiCmd → CmdSpec
  | .inquiry =>
    let serial := s.cmnd 1 = 1 ∧ s.cmnd 2 = 0x80
    ⟨(s.cmnd 4).toNat, 6, .toHost, if serial then 1 <<< 1 ||| 1 <<< 2 ||| 1 <<< 4 else 1 <<< 4,
      false⟩
  | .logSense => ⟨be16 s.cmnd 7, 10, .toHost, 1 <<< 1 ||| 1 <<< 2 ||| 3 <<< 7, false⟩
  | .modeSelect6 => ⟨(s.cmnd 4).toNat, 6, .fromHost, 1 <<< 1 ||| 1 <<< 4, false⟩
  | .modeSelect10 => ⟨be16 s.cmnd 7, 10, .fromHost, 1 <<< 1 ||| 3 <<< 7, false⟩
  | .modeSense6 => ⟨(s.cmnd 4).toNat, 6, .toHost, 1 <<< 1 ||| 1 <<< 2 ||| 1 <<< 4, false⟩
  | .modeSense10 => ⟨be16 s.cmnd 7, 10, .toHost, 1 <<< 1 ||| 1 <<< 2 ||| 3 <<< 7, false⟩
  | .preventAllowMediumRemoval => ⟨0, 6, .none, 1 <<< 4, false⟩
  | .read6 =>
    ⟨lbaBytes (if s.cmnd 4 = 0 then 256 else (s.cmnd 4).toNat), 6, .toHost,
      7 <<< 1 ||| 1 <<< 4, true⟩
  | .read10 =>
    ⟨lbaBytes (be16 s.cmnd 7), 10, .toHost, 1 <<< 1 ||| 0xf <<< 2 ||| 3 <<< 7, true⟩
  | .read12 =>
    ⟨lbaBytes (be32 s.cmnd 6), 12, .toHost, 1 <<< 1 ||| 0xf <<< 2 ||| 0xf <<< 6, true⟩
  | .readCapacity => ⟨8, 10, .toHost, 0xf <<< 2 ||| 1 <<< 8, true⟩
  | .readFormatCapacities => ⟨be16 s.cmnd 7, 10, .toHost, 3 <<< 7, true⟩
  | .requestSense => ⟨(s.cmnd 4).toNat, 6, .toHost, 1 <<< 4, false⟩
  | .startStopUnit => ⟨0, 6, .none, 1 <<< 1 ||| 1 <<< 4, false⟩
  | .synchronizeCache => ⟨0, 10, .none, 0xf <<< 2 ||| 3 <<< 7, true⟩
  | .testUnitReady => ⟨0, 6, .none, 0, true⟩
  | .verify => ⟨0, 10, .none, 1 <<< 1 ||| 0xf <<< 2 ||| 3 <<< 7, true⟩
  | .write6 =>
    ⟨lbaBytes (if s.cmnd 4 = 0 then 256 else (s.cmnd 4).toNat), 6, .fromHost,
      7 <<< 1 ||| 1 <<< 4, true⟩
  | .write10 =>
    ⟨lbaBytes (be16 s.cmnd 7), 10, .fromHost, 1 <<< 1 ||| 0xf <<< 2 ||| 3 <<< 7, true⟩
  | .write12 =>
    ⟨lbaBytes (be32 s.cmnd 6), 12, .fromHost, 1 <<< 1 ||| 0xf <<< 2 ||| 0xf <<< 6, true⟩
  | .other => ⟨0, s.cmndSize, .unknown, 0xFF, false⟩

/-- What is done with a command that passes its checks. -/
def ScsiCmd.handle (env : Env) (s : Ums) : ScsiCmd → Ums.Parsed
  | .inquiry => .of s.scsiInquiry
  | .logSense => .of s.scsiLogSense
  | .modeSelect6 => .of (s.refuse ssInvalidCommand)
  | .modeSelect10 => .of (s.refuse ssInvalidCommand)
  | .modeSense6 => .of (s.scsiModeSense true)
  | .modeSense10 => .of (s.scsiModeSense false)
  | .preventAllowMediumRemoval => .of s.scsiPreventAllowRemoval
  | .read6 => .of (s.scsiRead env true)
  | .read10 => .of (s.scsiRead env false)
  | .read12 => .of (s.scsiRead env false)
  | .readCapacity => .of s.scsiReadCapacity
  | .readFormatCapacities => .of s.scsiReadFormatCapacities
  | .requestSense => .of s.scsiRequestSense
  | .startStopUnit => .of s.scsiStartStop
  | .synchronizeCache => .replied (.len 0) s
  | .testUnitReady => .replied (.len 0) s
  | .verify => .of (s.scsiVerify env)
  | .write6 => s.scsiWrite true
  | .write10 => s.scsiWrite false
  | .write12 => s.scsiWrite false
  | .other => .of (s.refuse ssInvalidCommand)

namespace Ums

/-- The command in the command block. -/
def cmd (s : Ums) : ScsiCmd := .ofCode (s.cmnd 0)

/-- The gadget as `_check_scsi_cmd` is called for the command in the block. -/
def opened (s : Ums) : Ums := { s with
  phaseError := 0
  shortPacketReceived := 0
  dataSizeFromCmnd := (s.cmd.spec s).dataSize
  w.reply := [] }

/-- `_check_scsi_cmd` for the command in the block. -/
def checked (s : Ums) : Bool × Ums :=
  let spec := s.cmd.spec s
  s.opened.checkScsiCmd spec.cmndSize spec.dataDir spec.mask spec.needsMedium

/-- `_parse_scsi_cmd`, up to the reply. -/
def parseScsiCmd (env : Env) (s : Ums) : Parsed :=
  match s.checked with
  | (false, s) => .replied .invalidArg s
  | (true, s') => s.cmd.handle env s'

/-- The end of `_parse_scsi_cmd`: the reply buffer is set up, unless there is no default reply. -/
def setUpReply (r : Reply) (s : Ums) : Ums :=
  let reply (n : ℕ) : Ums :=
    if s.dataDir = .toHost then
      let n := min n s.dataSizeFromCmnd
      { s with
        bulk.inLength := n
        bulk.inBufState := .full
        residue := s.residue - n
        w.reply := s.w.reply.take n }
    else s
  match r with
  | .ioError => s
  | .invalidArg => reply 0
  | .len n => reply n

end Ums

end Usb
end SdLoader
