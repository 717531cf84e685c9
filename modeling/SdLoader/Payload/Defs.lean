import SdLoader.Disk.Read

/-!
# Loading and launching a payload

`read_payload`, `load_payload` and `launch_payload` of `sdloader/main.c`, with `reloc` of
`sdloader/loader.c`, from the point where `payload.bin` has been opened.

What `f_read` does with a file is a list of `Piece`s, one for each call of `disk_read` it makes:
sectors of the FAT and the last, partial sector of the file go into windows of FatFs, all others
straight into the buffer.  How the list comes about is the fragmentation of the file; nothing here
depends on it.

The buffer is the memory from `PAYLOAD_BUF_ADDR` on, and its first 512 bytes are the scratch sector
of the storage driver.
-/

set_option autoImplicit false

namespace SdLoader

namespace Payload

open Storage Disk
open Modchip (DResult FResult)

/-! ## Files -/

/-- One `disk_read` of `f_read`, and what becomes of the data. -/
inductive Piece
  /-- A sector of the FAT, read by `get_fat`. -/
  | fat (sector : ℕ)
  /-- Whole sectors of the file. -/
  | run (sector count : ℕ)
  /-- The first `n` bytes of a sector: the end of the file. -/
  | part (sector n : ℕ)

namespace Piece

/-- The first sector read. -/
def sector : Piece → ℕ
  | fat sector => sector
  | run sector _ => sector
  | part sector _ => sector

/-- The sectors read. -/
def count : Piece → ℕ
  | fat _ => 1
  | run _ count => count
  | part _ _ => 1

/-- The bytes of the file it brings. -/
def size : Piece → ℕ
  | fat _ => 0
  | run _ count => blockSize * count
  | part _ n => n

/-- These bytes, on a volume. -/
def bytes (vol : ℕ → UInt8) (p : Piece) : List UInt8 :=
  Store.slice vol (blockSize * p.sector) p.size

end Piece

/-- The bytes of several pieces. -/
def sizeOf (ps : List Piece) : ℕ := (ps.map Piece.size).sum

/-- What they are on a volume. -/
def bytesOf (vol : ℕ → UInt8) (ps : List Piece) : List UInt8 := ps.flatMap (Piece.bytes vol)

/-- The pieces a file is read in: a run is not empty, and only the last of them is partial. -/
def Ordered : List Piece → Prop
  | [] => True
  | .fat _ :: ps => Ordered ps
  | .run _ count :: ps => count ≠ 0 ∧ Ordered ps
  | .part _ n :: ps => n ≤ blockSize ∧ ps = []

/-- A file, as `f_read` sees it. -/
structure File where
  /-- What it is read in. -/
  pieces : List Piece
  ordered : Ordered pieces

/-- `f_size` -/
def File.size (file : File) : ℕ := sizeOf file.pieces

/-- The bytes of the file. -/
def File.contents (vol : ℕ → UInt8) (file : File) : List UInt8 := bytesOf vol file.pieces

/-- Where FatFs keeps the sectors it reads for itself: the window of the volume and that of the
file.  Both are aligned, and neither is in the payload buffer. -/
structure Windows where
  /-- `fs->win` -/
  fs : ℕ
  /-- `fp->buf` -/
  fil : ℕ
  aligned : (fs ≠ 0 ∧ fs % 8 = 0) ∧ fil ≠ 0 ∧ fil % 8 = 0
  outside : (fs + blockSize ≤ payloadBufAddr ∨ payloadBufAddr + payloadSizeMax ≤ fs) ∧
    (fil + blockSize ≤ payloadBufAddr ∨ payloadBufAddr + payloadSizeMax ≤ fil)

/-! ## Reading -/

section
variable (env : Env) (rec : Recovery) (drive : Drive) (w : Windows)

/-- Where the sectors of a piece are read to. -/
def Piece.dst (rbuff : ℕ) : Piece → ℕ
  | fat _ => w.fs
  | run _ _ => rbuff
  | part _ _ => w.fil

/-- What follows a `disk_read` that succeeds: a partial sector is copied from its window. -/
def Piece.finish (rbuff : ℕ) (p : Piece) (d : Disks) : Disks :=
  match p with
  | part _ n => { d with emmc := { d.emmc with
      mem := Store.blit d.emmc.mem rbuff n fun k ↦ d.emmc.mem (w.fil + k) } }
  | _ => d

/-- The loop of `f_read`, with the bytes read so far. -/
def fReadLoop : List Piece → ℕ → ℕ → Disks → FResult × ℕ × Disks
  | [], _, br, d => (.ok, br, d)
  | p :: ps, rbuff, br, d =>
    match diskRead env rec drive (p.dst w rbuff) p.sector p.count d with
    | (.ok, d) => fReadLoop ps (rbuff + p.size) (br + p.size) (p.finish w rbuff d)
    | (.error, d) => (.diskErr, br, d)

/-- `f_read` of a whole file. -/
def fRead (file : File) (buff : ℕ) (d : Disks) : FResult × ℕ × Disks :=
  fReadLoop env rec drive w file.pieces buff 0 d

/-- `SD_LOADER_STATUS`, as far as reading a payload can set it. -/
inductive Status
  | ok
  | invPayloadSz
  | errPayload
  deriving DecidableEq

/-- `payload_ctx_t` -/
structure Ctx where
  addr : ℕ
  size : ℕ

/-- `read_payload` -/
def readPayload (file : File) (ctx : Ctx) (d : Disks) : Status × Ctx × Disks :=
  if payloadSizeMax < file.size then (.invPayloadSz, ctx, d)
  else
    match fRead env rec drive w file payloadBufAddr d with
    | (res, br, d) =>
      if res ≠ .ok ∨ br ≠ file.size then (.errPayload, ctx, d)
      else (.ok, ⟨payloadBufAddr, file.size⟩, d)

/-! ## Launching -/

/-- `deinit`, as far as it concerns the cards.  `sd_end` does nothing unless `sd_init_done` is
set. -/
def deinit (sdInitDone : Bool) (d : Disks) : Disks :=
  let d := if sdInitDone then d.withSdView (storageEnd env d.sdView) else d
  { d with emmc := storageEnd env d.emmc }

/-- `reloc` -/
def reloc (dst src size : ℕ) (m : ℕ → UInt8) : ℕ → UInt8 :=
  if dst < src then Store.copyUp m dst src size
  else if src < dst then Store.copyDown m dst src size
  else m

/-- `launch_payload`: memory at the moment of the jump. -/
def launchPayload (sdInitDone : Bool) (ctx : Ctx) (d : Disks) : ℕ → UInt8 :=
  reloc payloadLoadAddr ctx.addr ctx.size (deinit env sdInitDone d).emmc.mem

/-- `try_launch_payload`, once `load_payload` has opened the file on a drive: memory at the moment
of the jump, if it comes to that. -/
def tryLaunchPayload (sdInitDone : Bool) (file : File) (ctx : Ctx) (d : Disks) :
    Option (ℕ → UInt8) :=
  match readPayload env rec drive w file ctx d with
  | (.ok, ctx, d) => some (launchPayload env sdInitDone ctx d)
  | _ => none

end

end Payload
end SdLoader
