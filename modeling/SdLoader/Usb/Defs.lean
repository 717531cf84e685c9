import SdLoader.Lib.Store
import SdLoader.MemoryMap
import Mathlib.Logic.Function.Basic

/-!
# The mass storage gadget: its state

The variables of `bdk/usb/usb_gadget_ums.c`, and the world they are used in.

* `Ums` is `usbd_gadget_ums_t`, with `bulk_ctxt_t` and the table of `logical_unit_t`.
* `World` is everything the gadget reaches through a pointer or a driver: memory, the request ring
  of the bulk-IN endpoint, the byte counters of `xusbd.c`, and which hardware partition of the eMMC
  is selected, next to the one the storage driver believes to be.
* `Outcome` says how one operation on an endpoint or on a card turns out; an `Env` has one for every
  operation, in the order they are done.
* `Event` is what a run leaves on record: every transfer of sectors, every range of memory that is
  filled, and every request put on a ring.

Four fields of `World` are for statements only and no branch reads them: `trace`; `reply`, the data
the command in hand has produced for its reply; `received`, the data the host has sent; and `moved`,
the sectors that have been read and written, with what was in them.
-/

set_option autoImplicit false

namespace SdLoader
namespace Usb

/-! ## Numbers of 32 bits -/

/-- The difference of two numbers of 32 bits. -/
def sub32 (a b : ℕ) : ℕ := if b ≤ a then a - b else 0xFFFFFFFF - (b - a - 1)

/-- The sum of two numbers of 32 bits. -/
def add32 (a b : ℕ) : ℕ := (a + b) % 2 ^ 32

theorem sub32_of_le {a b : ℕ} (h : b ≤ a) : sub32 a b = a - b := if_pos h

theorem add32_of_lt {a b : ℕ} (h : a + b < 2 ^ 32) : add32 a b = a + b := Nat.mod_eq_of_lt h

/-- `USB_EP_BUFFER_MAX_SIZE` -/
def usbEpBufferMaxSize : ℕ := 0x10000

/-- `UMS_DISK_LBA_SIZE` -/
def lbaSize : ℕ := 512

@[simp] theorem usbEpBufferMaxSize_eq : usbEpBufferMaxSize = 0x10000 := rfl

@[simp] theorem lbaSize_eq : lbaSize = 512 := rfl

/-! ## Logical units -/

/-- `MMC_SD` and `MMC_EMMC` -/
inductive MmcType
  | sd
  | emmc
  deriving DecidableEq

/-- `logical_unit_t`.  The type says which of the two storages its `storage` points to. -/
structure LogicalUnit where
  /-- `num_sectors` -/
  numSectors : ℕ
  /-- `offset` -/
  offset : ℕ
  /-- `unmounted` -/
  unmounted : Bool
  /-- `ro` -/
  ro : ℕ
  /-- `type` -/
  type : MmcType
  /-- `partition`: one more than the hardware partition of an eMMC unit -/
  partition : ℕ
  /-- `removable` -/
  removable : ℕ
  /-- `prevent_medium_removal` -/
  preventMediumRemoval : ℕ
  /-- `info_valid` -/
  infoValid : ℕ
  /-- `sense_data` -/
  senseData : ℕ
  /-- `sense_data_info` -/
  senseDataInfo : ℕ
  /-- `unit_attention_data` -/
  unitAttentionData : ℕ

/-! ## What is left on record -/

/-- A call of `sdmmc_storage_read` or `sdmmc_storage_write`. -/
structure Access where
  /-- The index of the unit it is made for. -/
  lun : ℕ
  /-- That unit, as it was. -/
  unit : LogicalUnit
  /-- Is it a write? -/
  isWrite : Bool
  /-- The first sector, counted from the start of the storage. -/
  sector : ℕ
  /-- The number of sectors. -/
  count : ℕ
  /-- The address in memory. -/
  buf : ℕ
  /-- The hardware partition that was selected on the eMMC when the call was made. -/
  part : ℕ
  /-- The one that was selected when it returned. -/
  part' : ℕ

/-- The sectors moved by a call of `sdmmc_storage_read` or `sdmmc_storage_write` that succeeded. -/
structure Transfer where
  /-- The storage. -/
  type : MmcType
  /-- The hardware partition that was selected on the eMMC when the call returned. -/
  part : ℕ
  /-- Is it a write? -/
  isWrite : Bool
  /-- The first sector, counted from the start of the storage. -/
  sector : ℕ
  /-- The contents of the sectors: what was in the buffer when the call returned. -/
  data : List UInt8

/-- One entry of the record. -/
inductive Event
  /-- A transfer of sectors. -/
  | access (a : Access)
  /-- A range of memory filled by the gadget. -/
  | fill (addr len : ℕ)
  /-- A request for data from the host, and the number of bytes it is taken to have brought. -/
  | bulkOut (addr len actual : ℕ)
  /-- A request that sends a range of memory to the host. -/
  | bulkIn (addr len : ℕ)

/-! ## The world -/

/-- How one operation turns out. -/
structure Outcome where
  /-- What the wait for an endpoint returns: `USB_RES_OK` is zero. -/
  usb : ℕ
  /-- Was the request of a wait that returned an error completed all the same? -/
  done : Bool
  /-- The bytes `tx_bytes` is reduced by while a bulk-OUT request is waited for. -/
  residual : ℕ
  /-- The bulk-IN requests completed on top of those that are waited for. -/
  more : ℕ
  /-- The bytes a bulk-IN request fetched from memory at once, and not when it was completed. -/
  early : ℕ → Bool
  /-- Did the transfer of sectors, or the switch of partitions, succeed? -/
  ok : Bool
  /-- Did the card go through its initialisation again during the transfer? -/
  reinit : Bool
  /-- Did a switch of partitions that failed reach the card? -/
  took : Bool
  /-- The memory changed by what came from the host or the card, where not all of it was. -/
  hit : ℕ → Bool
  /-- What came. -/
  bytes : ℕ → UInt8
  /-- What the initialisation left in the scratch buffer of the storage driver. -/
  scratch : ℕ → UInt8
  /-- A condition the gadget polls: the button combination, a bulk reset, a sleeping port. -/
  flag : Bool

/-- The outcome of every operation. -/
abbrev Env := ℕ → Outcome

/-- A request on the ring of the bulk-IN endpoint. -/
structure Trb where
  /-- Where its data starts. -/
  addr : ℕ
  /-- How long it is. -/
  len : ℕ
  /-- The memory when it was put on the ring. -/
  first : ℕ → UInt8

/-- The bytes the request sends if it is completed when memory is `mem`: each as it was either then
or at the start. -/
def Trb.bytes (t : Trb) (early : ℕ → Bool) (mem : ℕ → UInt8) : List UInt8 :=
  (List.range t.len).map fun k ↦
    if early (t.addr + k) then t.first (t.addr + k) else mem (t.addr + k)

/-- Memory, endpoints and storages. -/
structure World where
  /-- Memory, by address. -/
  mem : ℕ → UInt8
  /-- Operations done so far. -/
  tick : ℕ
  /-- The requests outstanding on the bulk-IN ring, oldest first. -/
  inQueue : List Trb
  /-- `tx_count[USB_DIR_IN]` -/
  txCountIn : ℕ
  /-- `tx_count[USB_DIR_OUT]` -/
  txCountOut : ℕ
  /-- `tx_bytes[USB_DIR_OUT]` -/
  txBytesOut : ℕ
  /-- `port_speed` -/
  portSpeed : ℕ
  /-- The bytes sent on the bulk-IN endpoint so far. -/
  sent : List UInt8
  /-- `emmc_storage.partition` -/
  partition : ℕ
  /-- The partition selected on the eMMC. -/
  selected : ℕ
  /-- `cid.serial` of the two storages. -/
  serial : MmcType → ℕ
  /-- The data the command in hand replies with. -/
  reply : List UInt8
  /-- The record, latest first. -/
  trace : List Event
  /-- The data requests on the bulk-OUT endpoint have brought so far. -/
  received : List UInt8
  /-- The transfers of sectors that have succeeded, latest first. -/
  moved : List Transfer

/-- The world with one more operation done. -/
def World.next (w : World) : World := { w with tick := w.tick + 1 }

/-- The world with one more event on record. -/
def World.log (e : Event) (w : World) : World := { w with trace := e :: w.trace }

/-! ## The gadget -/

/-- `enum buffer_state`, of which the gadget uses two. -/
inductive BufState
  | empty
  | full
  deriving DecidableEq

/-- `bulk_ctxt_t` -/
structure BulkCtxt where
  /-- `bulk_in_length` -/
  inLength : ℕ
  /-- `bulk_in_buf` -/
  inBuf : ℕ
  /-- `bulk_in_buf_state` -/
  inBufState : BufState
  /-- `bulk_out_status` -/
  outStatus : ℕ
  /-- `bulk_out_length` -/
  outLength : ℕ
  /-- `bulk_out_length_actual` -/
  outLengthActual : ℕ
  /-- `bulk_out_ignore` -/
  outIgnore : Bool
  /-- `bulk_out_buf` -/
  outBuf : ℕ
  /-- `bulk_out_buf_state` -/
  outBufState : BufState

/-- `enum ums_state` -/
inductive UmsState
  | normal
  | abortBulkOut
  | protocolReset
  | exit
  | terminated
  deriving DecidableEq

/-- The number `enum ums_state` gives a state. -/
def UmsState.rank : UmsState → ℕ
  | .normal => 0
  | .abortBulkOut => 1
  | .protocolReset => 2
  | .exit => 3
  | .terminated => 4

/-- `enum data_direction` -/
inductive DataDir
  | unknown
  | fromHost
  | toHost
  | none
  deriving DecidableEq

/-- `usbd_gadget_ums_t`, and the world. -/
structure Ums where
  /-- `bulk_ctxt` -/
  bulk : BulkCtxt
  /-- `cmnd_size` -/
  cmndSize : ℕ
  /-- `cmnd` -/
  cmnd : ℕ → UInt8
  /-- `lun_idx`: 16 until the first command -/
  lunIdx : ℕ
  /-- `lun_cnt` -/
  lunCnt : ℕ
  /-- `luns` -/
  luns : ℕ → LogicalUnit
  /-- `all_luns_unmounted` -/
  allLunsUnmounted : Bool
  /-- `state` -/
  state : UmsState
  /-- `data_dir` -/
  dataDir : DataDir
  /-- `data_size` -/
  dataSize : ℕ
  /-- `data_size_from_cmnd` -/
  dataSizeFromCmnd : ℕ
  /-- `tag` -/
  tag : ℕ
  /-- `residue` -/
  residue : ℕ
  /-- `usb_amount_left` -/
  usbAmountLeft : ℕ
  /-- `cbw_req_queued` -/
  cbwReqQueued : Bool
  /-- `phase_error` -/
  phaseError : ℕ
  /-- `short_packet_received` -/
  shortPacketReceived : ℕ
  /-- `can_stall` -/
  canStall : ℕ
  /-- `timeouts` -/
  timeouts : ℕ
  /-- `xusb` -/
  xusb : Bool
  /-- Memory, endpoints and storages. -/
  w : World

namespace Ums

/-- `ums->luns[ums->lun_idx]` -/
def lun (s : Ums) : LogicalUnit := s.luns s.lunIdx

/-- A change of `ums->luns[ums->lun_idx]`. -/
def setLun (f : LogicalUnit → LogicalUnit) (s : Ums) : Ums :=
  { s with luns := Function.update s.luns s.lunIdx (f s.lun) }

/-- `sense_data` of the active unit set. -/
def sense (code : ℕ) (s : Ums) : Ums := s.setLun fun l ↦ { l with senseData := code }

/-- `sense_data`, `sense_data_info` and `info_valid` of the active unit set. -/
def senseAt (code info : ℕ) (s : Ums) : Ums :=
  s.setLun fun l ↦ { l with senseData := code, senseDataInfo := info, infoValid := 1 }

/-- `raise_exception` -/
def raiseException (st : UmsState) (s : Ums) : Ums :=
  if s.state.rank ≤ st.rank then { s with state := st } else s

/-- A range of memory written by the gadget. -/
def fillMem (addr len : ℕ) (src : ℕ → UInt8) (s : Ums) : Ums :=
  { s with w := { s.w.log (.fill addr len) with mem := Store.blit s.w.mem addr len src } }

/-- A condition that is polled. -/
def poll (env : Env) (s : Ums) : Bool × Ums := ((env s.w.tick).flag, { s with w := s.w.next })

@[simp] theorem setLun_lun (f : LogicalUnit → LogicalUnit) (s : Ums) :
    (s.setLun f).lun = f s.lun :=
  Function.update_self ..

end Ums

end Usb
end SdLoader
