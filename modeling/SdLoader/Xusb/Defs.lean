import SdLoader.Lib.Loop
import SdLoader.Lib.Machine
import SdLoader.Lib.Ring
import SdLoader.MemoryMap
import SdLoader.Usb.Defs
import Mathlib.Logic.Function.Basic

/-!
# The XUSB device controller driver

`bdk/usb/xusbd.c`.  The driver and the controller talk through rings of TRBs in memory: one for each
endpoint, to which the driver adds requests, and one for events, to which the controller adds.

* `Trb` — an entry of a ring, four words in which the kinds of entry have their fields.
* `RingPtrs.queue` — `_xusb_queue_trb`, which does the same for each of three endpoints;
  `epInitContext` sets a ring up.  `Fetcher.step` is the controller at the other end.
* `handleTransferEvent`, `handlePortChange`, `handleEp0` — what an event does.
* `eventPass` — the body of the loop of `_xusb_ep_operation`.

The registers of the controller are left out, but for those bits of `EP_HALT` a request can read
back.  What a register shows when it is read is part of the event that is handled: `Seen`.
-/

set_option autoImplicit false

namespace SdLoader
namespace Xusb

open Loop (Pass)

/-! ## TRBs -/

/-- An entry of a ring. -/
structure Trb where
  dword0 : ℕ
  dword1 : ℕ
  dword2 : ℕ
  dword3 : ℕ
  deriving DecidableEq, Inhabited

/-- The memory of the rings, by address. -/
abbrev Trbs := ℕ → Trb

namespace Trb

/-- `cycle`, which every kind of TRB has in the same place. -/
def cycle (t : Trb) : ℕ := t.dword3 % 2

/-- `trb_type`, likewise. -/
def trbType (t : Trb) : ℕ := t.dword3 / 2 ^ 10 % 2 ^ 6

/-- `toggle_cycle` of a link TRB. -/
def toggleCycle (t : Trb) : ℕ := t.dword3 / 2 % 2

/-- `ring_seg_ptrlo << 4` of a link TRB, and `databufptr_lo & 0xFFFFFFF0` of any other. -/
def segPtr (t : Trb) : ℕ := t.dword0 / 16 * 16

/-- `comp_code` of an event. -/
def compCode (t : Trb) : ℕ := t.dword2 / 2 ^ 24 % 2 ^ 8

/-- `trb_tx_len` of a transfer event. -/
def residue (t : Trb) : ℕ := t.dword2 % 2 ^ 24

/-- `ep_id` of an event. -/
def epId (t : Trb) : ℕ := t.dword3 / 2 ^ 16 % 2 ^ 5

/-- `ctrl_seq_num` of a setup event. -/
def ctrlSeqNum (t : Trb) : ℕ := t.dword2 % 2 ^ 16

/-- A link TRB with `cycle` set, and `toggle_cycle` set to one. -/
def relink (t : Trb) (cycle : ℕ) : Trb :=
  { t with dword3 := t.dword3 / 4 * 4 + 2 + cycle % 2 }

end Trb

/-- `XUSB_TRB_NORMAL`, `XUSB_TRB_DATA`, `XUSB_TRB_STATUS`, `XUSB_TRB_LINK`, `XUSB_TRB_TRANSFER`,
`XUSB_TRB_PORT_CHANGE` and `XUSB_TRB_SETUP` -/
def trbNormal : ℕ := 1
def trbData : ℕ := 3
def trbStatus : ℕ := 4
def trbLink : ℕ := 6
def trbTransfer : ℕ := 32
def trbPortChange : ℕ := 34
def trbSetup : ℕ := 63

/-- `sizeof(data_trb_t)` -/
def trbSize : ℕ := 16

/-- `XUSB_TRB_SLOTS` -/
def trbSlots : ℕ := 16

/-- `usb_dir_t` -/
inductive Dir
  | out
  | into
  deriving DecidableEq

def Dir.toNat : Dir → ℕ
  | .out => 0
  | .into => 1

/-- `_xusb_create_normal_trb` -/
def createNormalTrb (producerCycle buf len : ℕ) : Trb where
  dword0 := buf
  dword1 := 0
  dword2 := len % 2 ^ 17
  dword3 := producerCycle % 2 + 2 ^ 2 + 2 ^ 5 + trbNormal * 2 ^ 10

/-- `_xusb_create_data_trb` -/
def createDataTrb (producerCycle buf len : ℕ) (direction : Dir) : Trb where
  dword0 := buf
  dword1 := 0
  dword2 := len % 2 ^ 17
  dword3 := producerCycle % 2 + 2 ^ 2 + 2 ^ 5 + trbData * 2 ^ 10 + direction.toNat * 2 ^ 16

/-- `_xusb_create_status_trb` -/
def createStatusTrb (producerCycle : ℕ) (direction : Dir) : Trb where
  dword0 := 0
  dword1 := 0
  dword2 := 0
  dword3 := producerCycle % 2 + 2 ^ 5 + trbStatus * 2 ^ 10 + direction.toNat * 2 ^ 16

/-! ## The ring of an endpoint -/

/-- `cntrl_epenqueue_ptr`, `cntrl_epdequeue_ptr` and `cntrl_producer_cycle`, or those of another
endpoint. -/
structure RingPtrs where
  enqueue : ℕ
  dequeue : ℕ
  producerCycle : ℕ
  deriving DecidableEq, Inhabited

/-- What `_xusb_ep_init_context` does to the ring at `base`. -/
def epInitContext (m : Trbs) (base : ℕ) : Trbs × RingPtrs :=
  let link := m (base + trbSize * (trbSlots - 1))
  (Function.update m (base + trbSize * (trbSlots - 1))
      { dword0 := link.dword0 % 16 + base / 16 * 16
        dword1 := 0
        dword2 := link.dword2
        dword3 := link.dword3 % 2 + 2 + link.dword3 / 4 % 2 ^ 8 * 4 + trbLink * 2 ^ 10 +
          link.dword3 / 2 ^ 16 * 2 ^ 16 },
    { enqueue := base, dequeue := base, producerCycle := 1 })

/-- `_xusb_queue_trb`, for one endpoint. -/
def RingPtrs.queue (m : Trbs) (r : RingPtrs) (trb : Trb) : Trbs × RingPtrs :=
  let m := Function.update m r.enqueue trb
  let nextTrb := r.enqueue + trbSize
  if (m nextTrb).trbType = trbLink then
    let linkTrb := (m nextTrb).relink r.producerCycle
    (Function.update m nextTrb linkTrb,
      { r with enqueue := linkTrb.segPtr, producerCycle := r.producerCycle ^^^ 1 })
  else (m, { r with enqueue := nextTrb })

/-- How `_xusb_handle_transfer_event` advances the dequeue list of one endpoint. -/
def RingPtrs.advance (m : Trbs) (r : RingPtrs) : RingPtrs :=
  let nextTrb := r.dequeue + trbSize
  if (m nextTrb).trbType = trbLink then { r with dequeue := (m nextTrb).segPtr }
  else { r with dequeue := nextTrb }

/-- The controller at the other end: the TRB it looks at next, and the cycle bit of the TRBs that
are its own.  It starts with `trd_dequeueptr_lo` and `dcs`. -/
structure Fetcher where
  ptr : ℕ
  ccs : ℕ

/-- The controller looks at a TRB.  One that is its own it takes, or follows if it is a link. -/
def Fetcher.step (m : Trbs) (f : Fetcher) : Fetcher × Option Trb :=
  let trb := m f.ptr
  if trb.cycle ≠ f.ccs then (f, none)
  else if trb.trbType = trbLink then
    ({ ptr := trb.segPtr, ccs := if trb.toggleCycle = 1 then 1 - f.ccs else f.ccs }, none)
  else ({ f with ptr := f.ptr + trbSize }, some trb)

/-! ## What the driver keeps -/

/-- `xusb_dev_state_t` -/
inductive DevState
  | default
  | addressedStsWait
  | addressed
  | configuredStsWait
  | configured
  | lunConfiguredStsWait
  | lunConfigured
  | hidConfiguredStsWait
  | hidConfigured
  deriving DecidableEq, Inhabited

/-- The state after a status stage. -/
def DevState.next : DevState → DevState
  | .addressedStsWait => .addressed
  | .configuredStsWait => .configured
  | .lunConfiguredStsWait => .lunConfigured
  | .hidConfiguredStsWait => .hidConfigured
  | s => s

/-- `usb_gadget_type` -/
inductive Gadget
  | ums
  | hidGamepad
  | hidTouchpad
  deriving DecidableEq, Inhabited

/-- A descriptor: where it is, the size of the object, and the length that a field of it says. -/
structure Descr where
  addr : ℕ
  size : ℕ
  len : ℕ
  deriving Inhabited

/-- The objects an answer is read from: those of `usb_desc_t`, and the static ones of `xusbd.c`. -/
structure Objects where
  dev : Descr
  devQual : Option Descr
  cfg : Descr
  cfgOther : Option Descr
  devBot : Descr
  vendor : Descr
  product : Descr
  serial : Descr
  langId : Descr
  msOs : Descr
  msCid : Descr
  mxExt : Descr
  /-- `hid_report_descriptor_jc` -/
  hidJc : Descr
  /-- `hid_report_descriptor_touch` -/
  hidTouch : Descr
  /-- `xusb_dev_status_descriptor` -/
  devStatus : Descr
  /-- `xusb_interface_descriptor` -/
  interface : Descr
  /-- `xusb_configuration_descriptor` -/
  configuration : Descr
  /-- `xusb_status_descriptor` -/
  status : Descr
  /-- `xusb_ep_status_descriptor` -/
  epStatus : Descr
  /-- `usbd_xotg->max_lun` -/
  maxLun : Descr
  deriving Inhabited

/-- `usb_gadget_ums_descriptors` and the rest, wherever they are. -/
def umsObjects (addr : ℕ → ℕ) : Objects where
  dev := ⟨addr 0, 18, 18⟩
  devQual := some ⟨addr 1, 10, 10⟩
  cfg := ⟨addr 2, 32, 0x20⟩
  cfgOther := some ⟨addr 3, 32, 0x20⟩
  devBot := ⟨addr 4, 22, 22⟩
  vendor := ⟨addr 5, 32, 26⟩
  product := ⟨addr 6, 22, 8⟩
  serial := ⟨addr 7, 26, 26⟩
  langId := ⟨addr 8, 4, 4⟩
  msOs := ⟨addr 9, 18, 0x28⟩
  msCid := ⟨addr 10, 40, 0x28⟩
  mxExt := ⟨addr 11, 72, 0x48⟩
  hidJc := ⟨addr 12, 67, 67⟩
  hidTouch := ⟨addr 13, 86, 86⟩
  devStatus := ⟨addr 14, 2, 2⟩
  interface := ⟨addr 15, 4, 4⟩
  configuration := ⟨addr 16, 2, 2⟩
  status := ⟨addr 17, 2, 2⟩
  epStatus := ⟨addr 18, 2, 2⟩
  maxLun := ⟨addr 19, 1, 1⟩

/-- `xusbd_controller_t`, with the rings, and what the answers to requests are read from. -/
structure Xotg where
  trbs : Trbs
  cntrl : RingPtrs
  bulkOut : RingPtrs
  bulkIn : RingPtrs
  eventEnqueue : ℕ
  eventDequeue : ℕ
  eventCcs : ℕ
  deviceState : DevState
  txBytes : Dir → ℕ
  txCount : Dir → ℕ
  ctrlSeqNum : ℕ
  configNum : ℕ
  interfaceNum : ℕ
  waitForEventTrb : ℕ
  portSpeed : ℕ
  gadget : Gadget
  maxLun : ℕ
  maxLunSet : Bool
  bulkResetReq : Bool
  /-- `ep_state` of an endpoint is not `EP_DISABLED`. -/
  running : ℕ → Bool
  /-- The bit of an endpoint in `EP_HALT`. -/
  halted : ℕ → Bool
  /-- `device_addr` of the control endpoint. -/
  deviceAddr : ℕ
  /-- `wMaxPacketSize` in `desc->cfg`. -/
  cfgMaxPacket : ℕ
  /-- `bInterval` in `desc->cfg`. -/
  cfgInterval : ℕ
  /-- `wMaxPacketSize` in `desc->cfg_other`. -/
  cfgOtherMaxPacket : ℕ
  /-- `bNumOtherConfigs` -/
  numOtherConfigs : ℕ
  /-- `xusb_configuration_descriptor[0]` -/
  configuration0 : ℕ
  /-- `xusb_interface_descriptor[0]` -/
  interface0 : ℕ
  /-- `xusb_ep_status_descriptor[0]` -/
  epStatus0 : ℕ
  /-- Where the data in the control buffer was copied from, and how much of it. -/
  controlBuf : ℕ × ℕ
  deriving Inhabited

/-- What registers show while an event is handled. -/
structure Seen where
  /-- `EP0_IN` was seen cleared in `EP_HALT`. -/
  unhalted : Bool
  /-- The bit of a bulk endpoint was seen cleared in `EP_RELOAD`. -/
  reloaded : ℕ → Bool
  /-- `PORTSC` when it is read for the connection change. -/
  portscConnect : ℕ
  /-- `PORTSC` when it is read for the changes after that. -/
  portscLink : ℕ

/-- `usb_ctrl_setup_t` -/
structure Setup where
  bmRequestType : ℕ
  bRequest : ℕ
  wValue : ℕ
  wIndex : ℕ
  wLength : ℕ

/-- `ctrl_setup_data` of a setup event. -/
def Trb.setup (t : Trb) : Setup where
  bmRequestType := t.dword0 % 2 ^ 8
  bRequest := t.dword0 / 2 ^ 8 % 2 ^ 8
  wValue := t.dword0 / 2 ^ 16 % 2 ^ 16
  wIndex := t.dword1 % 2 ^ 16
  wLength := t.dword1 / 2 ^ 16 % 2 ^ 16

/-- `USB_RES_OK`, `USB_ERROR_TIMEOUT` and `USB_ERROR_XFER_ERROR` -/
def usbResOk : ℕ := 0
def usbErrorTimeout : ℕ := 3
def usbErrorXferError : ℕ := 5

/-- `XUSB_ERROR_XFER_BULK_IN_RESIDUE`, `XUSB_ERROR_INVALID_CYCLE`, `XUSB_ERROR_BABBLE_DETECTED`,
`XUSB_ERROR_SEQ_NUM`, `XUSB_ERROR_XFER_DIR` and `XUSB_ERROR_PORT_CFG` -/
def xusbErrorXferBulkInResidue : ℕ := 7
def xusbErrorInvalidCycle : ℕ := 28
def xusbErrorBabbleDetected : ℕ := 50
def xusbErrorSeqNum : ℕ := 51
def xusbErrorXferDir : ℕ := 52
def xusbErrorPortCfg : ℕ := 54

/-- `XUSB_EP_CTRL_IN`, `XUSB_EP_CTRL_OUT`, `USB_EP_BULK_OUT` and `USB_EP_BULK_IN` -/
def epCtrlIn : ℕ := 0
def epCtrlOut : ℕ := 1
def epBulkOut : ℕ := 2
def epBulkIn : ℕ := 3

/-- `XUSB_HIGH_SPEED` -/
def xusbHighSpeed : ℕ := 3

/-- `USB_EP_CONTROL_BUF_ADDR` -/
def usbEpControlBufAddr : ℕ := xusbRingAddr + 0x400 + 0x200

/-- `xusb_event_ring_seg0`, and behind it `xusb_event_ring_seg1` -/
def eventRing : ℕ := xusbRingAddr

/-- `xusb_cntrl_event_queue`, `xusb_bulkin_event_queue` and `xusb_bulkout_event_queue` -/
def cntrlQueue : ℕ := eventRing + 2 * (trbSlots * trbSize)
def bulkInQueue : ℕ := cntrlQueue + trbSlots * trbSize
def bulkOutQueue : ℕ := bulkInQueue + trbSlots * trbSize

namespace Xotg

/-! ## Requests on the rings -/

/-- `_xusb_queue_trb` for the control endpoint. -/
def queueCntrl (x : Xotg) (trb : Trb) : Xotg :=
  let (trbs, cntrl) := x.cntrl.queue x.trbs trb
  { x with trbs, cntrl }

/-- `_xusb_queue_trb` for a bulk endpoint. -/
def queueBulk (x : Xotg) (trb : Trb) : Dir → Xotg
  | .out =>
    let (trbs, bulkOut) := x.bulkOut.queue x.trbs trb
    { x with trbs, bulkOut }
  | .into =>
    let (trbs, bulkIn) := x.bulkIn.queue x.trbs trb
    { x with trbs, bulkIn }

/-- `_xusb_issue_status_trb` -/
def issueStatusTrb (x : Xotg) (direction : Dir) : Xotg :=
  if x.cntrl.enqueue = x.cntrl.dequeue ∨ direction = .out then
    { x.queueCntrl (createStatusTrb x.cntrl.producerCycle direction) with
      waitForEventTrb := trbStatus }
  else x

/-- `_xusb_issue_normal_trb` -/
def issueNormalTrb (x : Xotg) (buf len : ℕ) (direction : Dir) : Xotg :=
  let producerCycle := match direction with
    | .into => x.bulkIn.producerCycle
    | .out => x.bulkOut.producerCycle
  { x.queueBulk (createNormalTrb producerCycle buf len) direction with
    waitForEventTrb := trbNormal }

/-- `_xusb_issue_data_trb` -/
def issueDataTrb (x : Xotg) (buf len : ℕ) (direction : Dir) : Xotg :=
  if x.cntrl.enqueue = x.cntrl.dequeue then
    { x.queueCntrl (createDataTrb x.cntrl.producerCycle buf len direction) with
      waitForEventTrb := trbData }
  else x

/-- `xusb_set_ep_stall` -/
def setEpStall (x : Xotg) (endpoint : ℕ) (epStall : Bool) : Xotg :=
  { x with halted := Function.update x.halted endpoint epStall }

/-! ## Endpoints -/

/-- `_xusbd_ep_initialize` for a bulk endpoint. -/
def epInitialize (x : Xotg) (seen : Seen) : Dir → Xotg
  | .out =>
    let (trbs, bulkOut) := epInitContext x.trbs bulkOutQueue
    { x with
      trbs, bulkOut
      running := Function.update x.running epBulkOut true
      halted := if seen.reloaded epBulkOut then Function.update x.halted epBulkOut false
        else x.halted }
  | .into =>
    let (trbs, bulkIn) := epInitContext x.trbs bulkInQueue
    { x with
      trbs, bulkIn
      running := Function.update x.running epBulkIn true
      halted := if seen.reloaded epBulkIn then Function.update x.halted epBulkIn false
        else x.halted }

/-- `_xusbd_ep1_disable` -/
def ep1Disable (x : Xotg) (ep : ℕ) : Xotg :=
  if x.running ep then
    { x with
      halted := Function.update x.halted ep true
      running := Function.update x.running ep false }
  else x

/-- `_xusb_disable_ep1` -/
def disableEp1 (x : Xotg) : Xotg :=
  { (x.ep1Disable epBulkOut).ep1Disable epBulkIn with
    configNum := 0
    interfaceNum := 0
    maxLunSet := false
    deviceState := .default }

/-! ## Requests of the host -/

/-- `_xusb_handle_set_request_dev_address` -/
def handleSetRequestDevAddress (x : Xotg) (s : Setup) : Xotg :=
  let x := { x with deviceAddr := s.wValue % 2 ^ 8 }
  { x.issueStatusTrb .into with deviceState := .addressedStsWait }

/-- `_xusb_handle_set_request_configuration` -/
def handleSetRequestConfiguration (x : Xotg) (seen : Seen) (s : Setup) : Xotg :=
  let x := { x with configNum := s.wValue }
  if x.configNum = 0 then x.disableEp1.issueStatusTrb .into
  else
    let x := (x.epInitialize seen .out).epInitialize seen .into
    { x.issueStatusTrb .into with deviceState := .configuredStsWait }

/-- `_xusb_handle_get_class_request` -/
def handleGetClassRequest (x : Xotg) (o : Objects) (s : Setup) : Xotg :=
  let validInterface := s.wIndex = x.interfaceNum
  let validLen := if s.bRequest = 0xFE then 1 else 0
  if ¬validInterface ∨ s.wValue ≠ 0 ∨ s.wLength ≠ validLen then x.setEpStall epCtrlIn true
  -- USB_REQUEST_BULK_RESET
  else if s.bRequest = 0xFF then { x with bulkResetReq := true }.issueStatusTrb .into
  -- USB_REQUEST_BULK_GET_MAX_LUN
  else if s.bRequest = 0xFE then
    if x.maxLunSet then
      { x with deviceState := .lunConfiguredStsWait }.issueDataTrb o.maxLun.addr 1 .into
    else x.setEpStall epCtrlIn true
  else x.setEpStall epCtrlIn true

/-- What `_xusb_handle_get_descriptor` does to the configuration descriptor before it answers. -/
def fitCfg (x : Xotg) : Xotg :=
  match x.gadget with
  | .ums => { x with cfgMaxPacket := if x.portSpeed = xusbHighSpeed then 0x200 else 0x40 }
  | .hidGamepad =>
    if x.portSpeed = xusbHighSpeed then { x with cfgMaxPacket := 0x200, cfgInterval := 4 }
    else { x with cfgMaxPacket := 0x40, cfgInterval := 8 }
  | .hidTouchpad =>
    if x.portSpeed = xusbHighSpeed then { x with cfgMaxPacket := 0x200, cfgInterval := 3 }
    else { x with cfgMaxPacket := 0x40, cfgInterval := 4 }

/-- The descriptor that is asked for, if there is one. -/
def getDescriptor (x : Xotg) (o : Objects) (s : Setup) : Xotg × Option Descr :=
  match s.wValue / 2 ^ 8 % 2 ^ 8, s.wValue % 2 ^ 8 with
  -- USB_DESCRIPTOR_DEVICE
  | 1, _ => (x, some o.dev)
  -- USB_DESCRIPTOR_CONFIGURATION
  | 2, _ => (x.fitCfg, some o.cfg)
  -- USB_DESCRIPTOR_STRING
  | 3, 1 => (x, some o.vendor)
  | 3, 2 => (x, some o.product)
  | 3, 3 => (x, some o.serial)
  | 3, 0xEE => (x, some o.msOs)
  | 3, _ => (x, some { o.langId with len := 4 })
  -- USB_DESCRIPTOR_DEVICE_QUALIFIER
  | 6, _ =>
    match o.devQual with
    | some d => ({ x with numOtherConfigs := 0 }, some d)
    | none => (x, none)
  -- USB_DESCRIPTOR_OTHER_SPEED_CONFIGURATION
  | 7, _ =>
    match o.cfgOther with
    | some d =>
      ({ x with cfgOtherMaxPacket := if x.portSpeed = xusbHighSpeed then 0x40 else 0x200 }, some d)
    | none => (x, none)
  -- USB_DESCRIPTOR_DEVICE_BINARY_OBJECT
  | 15, _ => (x, some o.devBot)
  | _, _ => (x, none)

/-- `_xusb_handle_get_descriptor` -/
def handleGetDescriptor (x : Xotg) (o : Objects) (s : Setup) : Xotg :=
  match x.getDescriptor o s with
  | (x, some d) => x.issueDataTrb d.addr (if s.wLength < d.len then s.wLength else d.len) .into
  | (x, none) => x.setEpStall epCtrlIn true

/-- The endpoint of an address. -/
def epOfAddr : ℕ → Option ℕ
  | 0x00 => some epCtrlOut
  | 0x80 => some epCtrlIn
  | 0x01 => some epBulkOut
  | 0x81 => some epBulkIn
  | _ => none

/-- `_xusb_handle_get_ep_status` -/
def handleGetEpStatus (x : Xotg) (o : Objects) (ep : ℕ) : Xotg :=
  { x with epStatus0 := if x.halted ep then 1 else 0 }.issueDataTrb o.epStatus.addr 2 .into

/-- `transmit_data`: the answer goes through the control buffer. -/
def transmitData (x : Xotg) (s : Setup) (d : Descr) : Xotg :=
  { x with controlBuf := (d.addr, d.len) }.issueDataTrb usbEpControlBufAddr
    (if s.wLength < d.len then s.wLength else d.len) .into

/-- The `switch` of `_xusbd_handle_ep0_control_transfer`. -/
def answerSetup (x : Xotg) (o : Objects) (seen : Seen) (s : Setup) : Xotg :=
  match s.bmRequestType with
  -- USB_SETUP_HOST_TO_DEVICE | USB_SETUP_TYPE_STANDARD | USB_SETUP_RECIPIENT_DEVICE
  | 0x00 =>
    if s.bRequest = 5 then x.handleSetRequestDevAddress s
    else if s.bRequest = 9 then x.handleSetRequestConfiguration seen s
    else x
  -- the same for an interface
  | 0x01 => { x with interfaceNum := s.wValue }.issueStatusTrb .into
  -- the same for an endpoint: USB_FEATURE_ENDPOINT_HALT is cleared or set
  | 0x02 =>
    if s.wValue % 2 ^ 8 = 0 ∧ (s.bRequest = 1 ∨ s.bRequest = 3) then
      match epOfAddr s.wIndex with
      | some ep => (x.setEpStall ep (s.bRequest = 3)).issueStatusTrb .into
      | none => x.setEpStall epCtrlIn true
    else x.setEpStall epCtrlIn true
  -- USB_SETUP_HOST_TO_DEVICE | USB_SETUP_TYPE_CLASS | USB_SETUP_RECIPIENT_INTERFACE
  | 0x21 => x.handleGetClassRequest o s
  -- USB_SETUP_DEVICE_TO_HOST | USB_SETUP_TYPE_STANDARD | USB_SETUP_RECIPIENT_DEVICE
  | 0x80 =>
    match s.bRequest with
    | 0 => x.transmitData s o.devStatus
    | 6 => x.handleGetDescriptor o s
    | 8 => { x with configuration0 := x.configNum % 2 ^ 8 }.transmitData s o.configuration
    | _ => x.setEpStall epCtrlIn true
  -- the same for an interface
  | 0x81 =>
    if s.bRequest = 10 then
      { x with interface0 := x.interfaceNum % 2 ^ 8 }.transmitData s o.interface
    else if s.bRequest = 0 then x.transmitData s o.status
    else if s.bRequest = 6 ∧ s.wValue / 2 ^ 8 = 34 ∧ x.gadget ≠ Gadget.ums then
      { x with deviceState := .hidConfiguredStsWait }.transmitData s
        (if x.gadget = Gadget.hidGamepad then o.hidJc else o.hidTouch)
    else x.setEpStall epCtrlIn true
  -- the same for an endpoint
  | 0x82 =>
    if s.bRequest = 0 then
      match epOfAddr s.wIndex with
      | some ep => x.handleGetEpStatus o ep
      | none => x.setEpStall epCtrlIn true
    else x.setEpStall epCtrlIn true
  -- USB_SETUP_DEVICE_TO_HOST | USB_SETUP_TYPE_CLASS | USB_SETUP_RECIPIENT_INTERFACE
  | 0xA1 => x.handleGetClassRequest o s
  -- USB_SETUP_DEVICE_TO_HOST | USB_SETUP_TYPE_VENDOR, for an interface and for the device
  | 0xC1 | 0xC0 =>
    if s.bRequest = 0x99 then
      match s.wIndex with
      -- USB_DESCRIPTOR_MS_COMPAT_ID and USB_DESCRIPTOR_MS_EXTENDED_PROPERTIES
      | 4 => x.transmitData s o.msCid
      | 5 => x.transmitData s o.mxExt
      | _ => x.setEpStall epCtrlIn true
    else x.setEpStall epCtrlIn true
  | _ => x.setEpStall epCtrlIn true

/-- `_xusbd_handle_ep0_control_transfer` -/
def handleEp0 (x : Xotg) (o : Objects) (seen : Seen) (s : Setup) : ℕ × Xotg :=
  let x := { x with halted := Function.update x.halted epCtrlIn false }
  if seen.unhalted then (usbResOk, x.answerSetup o seen s) else (usbErrorTimeout, x)

/-! ## Events -/

/-- The dequeue pointer of the endpoint an event is for moves on. -/
def advanceDequeue (x : Xotg) (trb : Trb) : Xotg :=
  if trb.epId = epCtrlIn then { x with cntrl := x.cntrl.advance x.trbs }
  else if trb.epId = epBulkOut then { x with bulkOut := x.bulkOut.advance x.trbs }
  else if trb.epId = epBulkIn then { x with bulkIn := x.bulkIn.advance x.trbs }
  else x

/-- A transfer on a bulk endpoint is over. -/
def countTransfer (x : Xotg) (direction : Dir) (residue : ℕ) : Xotg :=
  { x with
    txBytes := Function.update x.txBytes direction (Usb.sub32 (x.txBytes direction) residue)
    txCount := Function.update x.txCount direction (x.txCount direction - 1) }

/-- `_xusb_handle_transfer_event` -/
def handleTransferEvent (x : Xotg) (trb : Trb) : ℕ × Xotg :=
  let x := x.advanceDequeue trb
  -- XUSB_COMP_SUCCESS and XUSB_COMP_SHORT_PKT
  if trb.compCode = 1 ∨ trb.compCode = 13 then
    if trb.epId = epCtrlIn then
      if x.waitForEventTrb = trbData then (usbResOk, x.issueStatusTrb .out)
      else if x.waitForEventTrb = trbStatus then
        (usbResOk, { x with deviceState := x.deviceState.next })
      else (usbResOk, x)
    else if trb.epId = epBulkIn then
      let x := x.countTransfer .into trb.residue
      (if trb.residue ≠ 0 then xusbErrorXferBulkInResidue else usbResOk, x)
    else if trb.epId = epBulkOut then (usbResOk, x.countTransfer .out trb.residue)
    else (usbResOk, x)
  -- XUSB_COMP_BABBLE_DETECTED_ERROR
  else if trb.compCode = 3 then (xusbErrorBabbleDetected, x.setEpStall trb.epId true)
  -- XUSB_COMP_CTRL_DIR_ERROR
  else if trb.compCode = 222 then (xusbErrorXferDir, x)
  -- XUSB_COMP_CTRL_SEQ_NUM_ERROR
  else if trb.compCode = 223 then (xusbErrorSeqNum, x)
  else (usbErrorXferError, x)

/-- `_xusb_handle_port_change`, less what it does to `PORTSC` and `PORTHALT`. -/
def handlePortChange (x : Xotg) (seen : Seen) : ℕ × Xotg :=
  -- XHCI_PORTSC_CSC and XHCI_PORTSC_PS
  let x := if seen.portscConnect.testBit 17 then
      { x with portSpeed := seen.portscConnect / 2 ^ 10 % 2 ^ 4 }
    else x
  -- XHCI_PORTSC_CEC
  (if seen.portscLink.testBit 23 then xusbErrorPortCfg else usbResOk, x)

/-- What an event does, and the result that is kept of it. -/
def handleEvent (x : Xotg) (o : Objects) (seen : Seen) (res : ℕ) (trb : Trb) : ℕ × Xotg :=
  if trb.trbType = trbTransfer then x.handleTransferEvent trb
  else if trb.trbType = trbPortChange then x.handlePortChange seen
  else if trb.trbType = trbSetup then
    { x with ctrlSeqNum := trb.ctrlSeqNum }.handleEp0 o seen trb.setup
  else (res, x)

/-- The dequeue pointer of the event ring moves on. -/
def nextEvent (x : Xotg) : Xotg :=
  if x.eventDequeue = eventRing + (2 * trbSlots - 1) * trbSize then
    { x with eventDequeue := eventRing, eventCcs := x.eventCcs ^^^ 1 }
  else { x with eventDequeue := x.eventDequeue + trbSize }

/-- The event at the dequeue pointer is the driver's. -/
def ownsEvent (x : Xotg) : Prop := (x.trbs x.eventDequeue).cycle = x.eventCcs

instance (x : Xotg) : Decidable x.ownsEvent := inferInstanceAs (Decidable (_ = _))

/-- The body of the loop of `_xusb_ep_operation`, which is left in front of the event that was the
first free one when the interrupt was taken. -/
def eventPass (o : Objects) (seen : Seen) (r : ℕ × Xotg) : Pass (ℕ × Xotg) (ℕ × Xotg) :=
  if r.2.ownsEvent then
    let (res, x) := r.2.handleEvent o seen r.1 (r.2.trbs r.2.eventDequeue)
    let x := x.nextEvent
    if x.eventDequeue = x.eventEnqueue then .leave (res, x) else .again (res, x)
  else .leave r

end Xotg

end Xusb
end SdLoader
