import SdLoader.Lib.Loop
import SdLoader.Usb.Defs

/-!
# The mass storage gadget: endpoints and storages

The transfer functions of `bdk/usb/xusbd.c`, the ones of `usb_gadget_ums.c` that call them, and the
calls of the storage driver.

A request is put on the ring of its endpoint and stays there until the controller has completed it.
A wait counts completions only, so it cannot tell the request it was made for from an older one that
a wait before it gave up on, or that was never waited for.  `tx_count` is set to zero before each
request, and the ring is not.

* On bulk-IN the ring is part of the state.  A request that is waited for is completed with what is
  in memory then; one that is not may have fetched any part of its data before.
* A wait for either endpoint handles what is completed on the bulk-IN ring in the meantime.
* On bulk-OUT the environment says what a wait sees: its status, how much `tx_bytes` was reduced by,
  and what was written to the buffer, the length of which is that of the longest request there is.

The storage driver is taken at the level of one call: it succeeds or fails, and on the way it may
have initialised the card again, which selects the user area of an eMMC and uses the scratch buffer
of the driver, the bulk-IN buffer.  Both buffers meet its alignment.
-/

set_option autoImplicit false

namespace SdLoader
namespace Usb

/-! ## `xusbd.c` -/

namespace World

/-- `_xusb_issue_normal_trb` on the bulk-IN endpoint, and the count of the request. -/
def pushIn (addr len : ℕ) (w : World) : World :=
  { w.log (.bulkIn addr len) with
    inQueue := w.inQueue ++ [⟨addr, len, w.mem⟩], txCountIn := w.txCountIn + 1 }

/-- The `n` oldest requests of the bulk-IN ring completed. -/
def complete (n : ℕ) (early : ℕ → Bool) (w : World) : World :=
  { w with
    inQueue := w.inQueue.drop n
    sent := w.sent ++ (w.inQueue.take n).flatMap fun t ↦ t.bytes early w.mem }

/-- The wait for the bulk-IN endpoint: `_xusb_ep_operation` until `tx_count` is zero or an error is
returned. -/
def waitIn (env : Env) (w : World) : ℕ × World :=
  let o := env w.tick
  if w.txCountIn = 0 then (0, w)
  else if o.usb = 0 then
    (0, { complete (w.txCountIn + o.more) o.early w.next with txCountIn := 0 })
  else (o.usb, { complete o.more o.early w.next with txCountIn := w.txCountIn - o.more })

/-- The wait for the bulk-OUT endpoint. -/
def waitOut (env : Env) (w : World) : ℕ × World :=
  let o := env w.tick
  if w.txCountOut = 0 then (0, w)
  else
    (o.usb, { complete o.more o.early w.next with
      txCountIn := w.txCountIn - o.more
      txCountOut := if o.usb = 0 ∨ o.done then 0 else w.txCountOut
      txBytesOut := sub32 w.txBytesOut o.residual
      mem := Store.smear w.mem usbEpBulkOutBufAddr usbEpBufferMaxSize o.hit o.bytes })

end World

/-- `XUSB_FULL_SPEED`, `XUSB_HIGH_SPEED` and `XUSB_SUPER_SPEED`, each with the length of a
packet. -/
def fullPacket (portSpeed len : ℕ) : Bool :=
  (portSpeed, len) ∈ [(1, 64), (3, 512), (4, 1024)]

/-- `xusb_device_ep1_in_write`.  A request that is not waited for is followed by an empty one if its
data ends with a packet. -/
def xusbDeviceEp1InWrite (env : Env) (buf len : ℕ) (sync : Bool) (w : World) : ℕ × World :=
  let len := min len usbEpBufferMaxSize
  let w := { w with txCountIn := 0 }.pushIn buf len
  if sync then w.waitIn env
  else (0, if fullPacket w.portSpeed len then w.pushIn buf 0 else w)

/-- `xusb_device_ep1_in_writing_finish` -/
def xusbDeviceEp1InWritingFinish (env : Env) (w : World) : ℕ × World := w.waitIn env

/-- `xusb_device_ep1_out_reading_finish`: the status and the bytes read. -/
def xusbDeviceEp1OutReadingFinish (env : Env) (w : World) : ℕ × ℕ × World :=
  match w.waitOut env with
  | (res, w) => (res, if res = 0 then w.txBytesOut else 0, w)

/-- `xusb_device_ep1_out_read`.  It is always waited for. -/
def xusbDeviceEp1OutRead (env : Env) (buf len : ℕ) (w : World) : ℕ × ℕ × World :=
  let len := min len usbEpBufferMaxSize
  match xusbDeviceEp1OutReadingFinish env { w with txCountOut := 1, txBytesOut := len } with
  | (res, actual, w) =>
    (res, actual, { w.log (.bulkOut buf len actual) with
      received := w.received ++ Store.slice w.mem buf actual })

/-- The variables of `xusb_device_ep1_out_read_big`. -/
structure BigRead where
  /-- `len` -/
  len : ℕ
  /-- `buf_curr` -/
  bufCurr : ℕ
  /-- `*bytes_read` -/
  bytesRead : ℕ
  /-- The world. -/
  w : World

/-- One pass through the loop of `xusb_device_ep1_out_read_big`. -/
def bigReadPass (env : Env) (x : BigRead) : Loop.Pass BigRead (ℕ × ℕ × World) :=
  if x.len = 0 then .leave (0, x.bytesRead, x.w)
  else
    let lenEp := min x.len usbEpBufferMaxSize
    match xusbDeviceEp1OutRead env x.bufCurr lenEp x.w with
    | (res, bytes, w) =>
      if res ≠ 0 then .leave (res, x.bytesRead, w)
      else .again ⟨x.len - lenEp, x.bufCurr + lenEp, add32 x.bytesRead bytes, w⟩

/-- `xusb_device_ep1_out_read_big`.  Every pass makes the length smaller. -/
def xusbDeviceEp1OutReadBig (env : Env) (buf len : ℕ) (w : World) : ℕ × ℕ × World :=
  let len := min len usbEpBulkOutMaxXfer
  match Loop.run (bigReadPass env) (len + 1) ⟨len, buf, 0, w⟩ with
  | .leave r => r
  | .again x => (0, x.bytesRead, x.w)

/-! ## The transfers of the gadget -/

namespace Ums

/-- `_transfer_start` on the bulk-IN endpoint. -/
def transferStartIn (env : Env) (sync : Bool) (s : Ums) : Ums :=
  { s with
    w := (xusbDeviceEp1InWrite env s.bulk.inBuf s.bulk.inLength sync s.w).2
    bulk.inBufState := if sync then .empty else s.bulk.inBufState }

/-- `_transfer_finish` on the bulk-IN endpoint. -/
def transferFinishIn (env : Env) (s : Ums) : Ums :=
  { s with w := (xusbDeviceEp1InWritingFinish env s.w).2, bulk.inBufState := .empty }

/-- A bulk-OUT buffer that has been waited for. -/
def received (r : ℕ × ℕ × World) (s : Ums) : Ums :=
  { s with
    w := r.2.2
    bulk.outStatus := r.1
    bulk.outLengthActual := r.2.1
    bulk.outBufState := .full }

/-- `_transfer_start` on the bulk-OUT endpoint. -/
def transferStartOut (env : Env) (s : Ums) : Ums :=
  s.received (xusbDeviceEp1OutRead env s.bulk.outBuf s.bulk.outLength s.w)

/-- `_transfer_finish` on the bulk-OUT endpoint. -/
def transferFinishOut (env : Env) (s : Ums) : Ums :=
  s.received (xusbDeviceEp1OutReadingFinish env s.w)

/-- `_transfer_out_big_read` -/
def transferOutBigRead (env : Env) (s : Ums) : Ums :=
  s.received (xusbDeviceEp1OutReadBig env s.bulk.outBuf s.bulk.outLength s.w)

/-- `_reset_buffer` on the bulk-IN endpoint. -/
def resetBufferIn (s : Ums) : Ums := { s with bulk.inBuf := usbEpBulkInBufAddr }

/-! ## The storage driver -/

/-- The memory after a transfer of sectors. -/
def accessMem (o : Outcome) (isWrite : Bool) (count buf : ℕ) (mem : ℕ → UInt8) : ℕ → UInt8 :=
  let mem := if o.reinit then Store.smear mem sdmmcUpperBuffer lbaSize o.hit o.scratch else mem
  if isWrite then mem
  else if o.ok then Store.blit mem buf (lbaSize * count) o.bytes
  else Store.smear mem buf (lbaSize * count) o.hit o.bytes

/-- The initialisation of the eMMC selects its user area. -/
def partAfter (o : Outcome) (type : MmcType) (part : ℕ) : ℕ :=
  if type = .emmc ∧ o.reinit then 0 else part

/-- `sdmmc_storage_read` and `sdmmc_storage_write` for the active unit. -/
def sdmmcStorageAccess (env : Env) (isWrite : Bool) (sector count buf : ℕ) (s : Ums) : Bool × Ums :=
  let o := env s.w.tick
  let part' := partAfter o s.lun.type s.w.selected
  let a : Access := ⟨s.lunIdx, s.lun, isWrite, sector, count, buf, s.w.selected, part'⟩
  let mem := accessMem o isWrite count buf s.w.mem
  let t : Transfer := ⟨s.lun.type, part', isWrite, sector, Store.slice mem buf (lbaSize * count)⟩
  (o.ok, { s with w := { s.w.next.log (.access a) with
    mem := mem
    partition := partAfter o s.lun.type s.w.partition
    selected := part'
    moved := if o.ok then t :: s.w.moved else s.w.moved } })

/-- `sdmmc_storage_set_mmc_partition`, the result of which the gadget does not look at. -/
def sdmmcStorageSetMmcPartition (env : Env) (partition : ℕ) (s : Ums) : Ums :=
  let o := env s.w.tick
  { s with w := { s.w.next with
    partition := if o.ok then partition else s.w.partition
    selected := if o.ok ∨ o.took then partition else s.w.selected } }

end Ums

end Usb
end SdLoader
