import Mathlib.Algebra.Order.Ring.Nat
import Mathlib.Data.Nat.Notation

/-!
# The memory map

The addresses of `sdloader/memory_map.h`, in the branch the build uses.  Each is defined the way
the header computes it, and has a lemma with its value for the arithmetic of the proofs.

The payload buffer, the USB bulk-IN buffer and the scratch buffer of the storage driver are one
and the same address.
-/

set_option autoImplicit false

namespace SdLoader

/-- `IPL_LOAD_ADDR` -/
def iplLoadAddr : ℕ := 0x40003000

/-- `IPL_SIZE_MAX` -/
def iplSizeMax : ℕ := 0x10000

/-- `USB_EP_BULK_IN_BUF_ADDR` -/
def usbEpBulkInBufAddr : ℕ := iplLoadAddr + iplSizeMax

/-- `USB_EP_BULK_IN_MAX_XFER` -/
def usbEpBulkInMaxXfer : ℕ := 0x10000 / 2

/-- `USB_EP_BULK_OUT_BUF_ADDR` -/
def usbEpBulkOutBufAddr : ℕ := usbEpBulkInBufAddr + usbEpBulkInMaxXfer

/-- `USB_EP_BULK_OUT_MAX_XFER` -/
def usbEpBulkOutMaxXfer : ℕ := 0x10000 / 2

/-- `XUSB_RING_ADDR`, the first byte after the two bulk buffers -/
def xusbRingAddr : ℕ := usbEpBulkOutBufAddr + usbEpBulkOutMaxXfer

/-- `IPL_SMALL_FB_SZ` -/
def iplSmallFbSz : ℕ := 0x8000 + 0x4000 + 0x2000 + 0x1000

/-- `IPL_STACK_TOP` -/
def iplStackTop : ℕ := 0x40040000

/-- `IPL_HEAP_START` -/
def iplHeapStart : ℕ := iplStackTop - 0x400 * 8 - 0x400

/-- `IPL_SMALL_FB_ADDR` -/
def iplSmallFbAddr : ℕ := iplHeapStart - iplSmallFbSz

/-- `PAYLOAD_BUF_ADDR` -/
def payloadBufAddr : ℕ := usbEpBulkInBufAddr

/-- `PAYLOAD_SIZE_MAX` -/
def payloadSizeMax : ℕ := iplHeapStart - payloadBufAddr

/-- `PAYLOAD_LOAD_ADDR` -/
def payloadLoadAddr : ℕ := 0x40010000

/-- `PAYLOAD_SIZE_SAFE` -/
def payloadSizeSafe : ℕ := iplSmallFbAddr - payloadBufAddr

/-- `SDMMC_UPPER_BUFFER` -/
def sdmmcUpperBuffer : ℕ := payloadBufAddr

/-- `SDMMC_UP_BUF_SZ` -/
def sdmmcUpBufSz : ℕ := payloadSizeSafe

@[simp] theorem usbEpBulkInBufAddr_eq : usbEpBulkInBufAddr = 0x40013000 := rfl

@[simp] theorem usbEpBulkInMaxXfer_eq : usbEpBulkInMaxXfer = 0x8000 := rfl

@[simp] theorem usbEpBulkOutBufAddr_eq : usbEpBulkOutBufAddr = 0x4001B000 := rfl

@[simp] theorem usbEpBulkOutMaxXfer_eq : usbEpBulkOutMaxXfer = 0x8000 := rfl

@[simp] theorem xusbRingAddr_eq : xusbRingAddr = 0x40023000 := rfl

@[simp] theorem payloadBufAddr_eq : payloadBufAddr = 0x40013000 := rfl

@[simp] theorem payloadSizeMax_eq : payloadSizeMax = 0x2AC00 := rfl

@[simp] theorem payloadLoadAddr_eq : payloadLoadAddr = 0x40010000 := rfl

@[simp] theorem sdmmcUpperBuffer_eq : sdmmcUpperBuffer = 0x40013000 := rfl

@[simp] theorem sdmmcUpBufSz_eq : sdmmcUpBufSz = 0x1BC00 := rfl

end SdLoader
