import SdLoader.Lib.Loop
import SdLoader.Lib.Store
import SdLoader.MemoryMap

/-!
# Talking to the modchip through BOOT0

`sdloader/modchip.c`.  The modchip takes its orders from the eMMC: sector 1 of the BOOT0 partition
holds a command, the last 128 KiB of the partition hold the image the command names, and the last
sector also holds the firmware descriptor and the loader's own configuration.  Everything here is
a sequence of sector reads, sector writes and file reads through the one staging buffer
`SDMMC_UPPER_BUFFER`.

The disk layer is taken at its word: a `disk_read` or a `disk_write` that reports success moved
whole sectors faithfully.  One that reports failure may have changed any part of the range it was
given, in any way; an `Env` says, operation by operation, which of the two happens.  What happens
underneath is `SdLoader.Storage`.

A disk read or write, a file read, and a `memset` or `memcpy` into the staging buffer each leave a
record in the state, so that what was written can be spoken of apart from what is there at the
end.
-/

set_option autoImplicit false

namespace SdLoader
namespace Modchip

/-! ## The disk and the file under the updater -/

/-- Bytes in a sector. -/
def sectorSize : ℕ := 0x200

@[simp] theorem sectorSize_eq : sectorSize = 0x200 := rfl

/-- The result of a disk operation, `DRESULT`. -/
inductive DResult
  | ok
  | error
  deriving DecidableEq

/-- The enumeration's value: `RES_OK` is zero. -/
def DResult.val : DResult → ℕ
  | .ok => 0
  | .error => 1

/-- The result of a file operation, `FRESULT`, as far as the callers tell its values apart. -/
inductive FResult
  | ok
  | diskErr
  deriving DecidableEq

/-- How one operation turns out.  `hit` and `junk` are what a failed transfer does to the range it
was given, `br` is how far a failed file read got. -/
structure Outcome where
  /-- Did the operation succeed? -/
  ok : Bool
  /-- Bytes a failed `f_read` reports. -/
  br : ℕ
  /-- The cells a failed transfer changes. -/
  hit : ℕ → Bool
  /-- What it leaves in them. -/
  junk : ℕ → UInt8

/-- The outcome of every operation, in the order they are issued. -/
abbrev Env := ℕ → Outcome

/-- One call of `disk_read` or `disk_write` on BOOT0. -/
structure DiskOp where
  /-- Is it a write? -/
  isWrite : Bool
  /-- First sector. -/
  sector : ℕ
  /-- Number of sectors. -/
  count : ℕ
  /-- The bytes a write was handed, from the first. -/
  data : ℕ → UInt8
  /-- Did it report success? -/
  ok : Bool

/-- Memory, the BOOT0 partition, and what has been done so far. -/
structure State where
  /-- Memory, by address. -/
  mem : ℕ → UInt8
  /-- BOOT0, by byte. -/
  boot0 : ℕ → UInt8
  /-- Operations issued so far. -/
  tick : ℕ
  /-- The disk operations issued so far, latest first. -/
  diskOps : List DiskOp
  /-- The memory ranges written so far, as address and length, latest first. -/
  memWrites : List (ℕ × ℕ)

/-- The state an update starts from. -/
def State.start (mem boot0 : ℕ → UInt8) : State := ⟨mem, boot0, 0, [], []⟩

/-- `disk_read(DEV_BOOT0, buf, sector, count)` -/
def diskRead (env : Env) (buf sector count : ℕ) (s : State) : DResult × State :=
  let o := env s.tick
  let n := sectorSize * count
  let op : DiskOp := ⟨false, sector, count, fun _ ↦ 0, o.ok⟩
  let s := { s with
    tick := s.tick + 1, diskOps := op :: s.diskOps, memWrites := (buf, n) :: s.memWrites }
  if o.ok then
    (.ok, { s with mem := Store.blit s.mem buf n fun k ↦ s.boot0 (sectorSize * sector + k) })
  else
    (.error, { s with mem := Store.smear s.mem buf n o.hit o.junk })

/-- `disk_write(DEV_BOOT0, buf, sector, count)` -/
def diskWrite (env : Env) (buf sector count : ℕ) (s : State) : DResult × State :=
  let o := env s.tick
  let a := sectorSize * sector
  let n := sectorSize * count
  let op : DiskOp := ⟨true, sector, count, fun k ↦ s.mem (buf + k), o.ok⟩
  let s := { s with tick := s.tick + 1, diskOps := op :: s.diskOps }
  if o.ok then
    (.ok, { s with boot0 := Store.blit s.boot0 a n op.data })
  else
    (.error, { s with boot0 := Store.smear s.boot0 a n o.hit o.junk })

/-- `memset(a, v, n)` -/
def memset (a : ℕ) (v : UInt8) (n : ℕ) (s : State) : State :=
  { s with mem := Store.fill s.mem a n v, memWrites := (a, n) :: s.memWrites }

/-- `memcpy(a, src, n)` -/
def memcpy (a : ℕ) (src : ℕ → UInt8) (n : ℕ) (s : State) : State :=
  { s with mem := Store.blit s.mem a n src, memWrites := (a, n) :: s.memWrites }

/-- An open file, `FIL`: its bytes and the read position. -/
structure Fil where
  /-- Size in bytes. -/
  size : ℕ
  /-- The bytes. -/
  content : ℕ → UInt8
  /-- The read position. -/
  fptr : ℕ

/-- The file as `f_open` leaves it. -/
def Fil.opened (size : ℕ) (content : ℕ → UInt8) : Fil := ⟨size, content, 0⟩

/-- `u32 size = f_size(f)`: the size, which is 64 bits wide, cut to 32. -/
def Fil.fSize (f : Fil) : ℕ := f.size % 2 ^ 32

/-- `f_read(f, buf, btr, &br)`: the next bytes of the file, as many as are asked for and left.  A
read that fails reports how far it got. -/
def fRead (env : Env) (f : Fil) (buf btr : ℕ) (s : State) : FResult × ℕ × Fil × State :=
  let o := env s.tick
  let n := min btr (f.size - f.fptr)
  let s := { s with tick := s.tick + 1, memWrites := (buf, n) :: s.memWrites }
  if o.ok then
    (.ok, n, { f with fptr := f.fptr + n },
      { s with mem := Store.blit s.mem buf n fun k ↦ f.content (f.fptr + k) })
  else
    (.diskErr, min o.br n, { f with fptr := f.fptr + min o.br n },
      { s with mem := Store.smear s.mem buf n o.hit o.junk })

/-! ## Where things live

`sdloader/modchip.h` -/

/-- `MODCHIP_BL_START_SECTOR` -/
def blStartSector : ℕ := 0x1f80

/-- `MODCHIP_BL_MAX_SIZE` -/
def blMaxSize : ℕ := 0x10000 - 0x200

/-- `MODCHIP_FW_START_SECTOR` -/
def fwStartSector : ℕ := 0x1f00

/-- `MODCHIP_FW_MAX_SIZE` -/
def fwMaxSize : ℕ := 0x20000

/-- `MODCHIP_RP_BL_START_SECTOR` -/
def rpBlStartSector : ℕ := 0x1f00

/-- `MODCHIP_RP_BL_MAX_SIZE` -/
def rpBlMaxSize : ℕ := 0x20000

/-- `MODCHIP_CMD_SECTOR` -/
def cmdSector : ℕ := 0x1

/-- `MODCHIP_CMD_OFFSET` -/
def cmdOffset : ℕ := 0x0

/-- `MODCHIP_DESC_SECTOR` -/
def descSector : ℕ := 0x1fff

/-- `MODCHIP_DESC_OFFSET` -/
def descOffset : ℕ := 0x0

/-- `MODCHIP_CFG_SECTOR` -/
def cfgSector : ℕ := 0x1fff

/-- `MODCHIP_CFG_OFFSET` -/
def cfgOffset : ℕ := 0x100

/-- `MODCHIP_CMD_FW_UPDATE` -/
def cmdFwUpdate : ℕ := 0x6db92148

/-- `MODCHIP_CMD_RST` -/
def cmdRst : ℕ := 0x515205c5

/-- `MODCHIP_CMD_BL_UPDATE` -/
def cmdBlUpdate : ℕ := 0x7a21cae1

/-! ## Commands -/

/-- `modchip_cmd_t` -/
structure Cmd where
  /-- The command word. -/
  cmd : ℕ
  /-- `fw_update_info.fw_sector_start` -/
  fwSectorStart : ℕ
  /-- `fw_update_info.fw_sector_cnt` -/
  fwSectorCnt : ℕ

/-- The twelve bytes of a command: three little-endian words. -/
def Cmd.bytes (c : Cmd) (k : ℕ) : UInt8 :=
  if k < 4 then Store.wordByte c.cmd k
  else if k < 8 then Store.wordByte c.fwSectorStart (k - 4)
  else Store.wordByte c.fwSectorCnt (k - 8)

/-- `modchip_write_cmd` -/
def modchipWriteCmd (env : Env) (cmd : Cmd) (s : State) : Bool × State :=
  let buf := sdmmcUpperBuffer
  match diskRead env buf cmdSector 1 s with
  | (.error, s) => (false, s)
  | (.ok, s) =>
    let s := memset (buf + cmdOffset) 0 0x10 s
    let s := memcpy (buf + cmdOffset) cmd.bytes 12 s
    let (res, s) := diskWrite env buf cmdSector 1 s
    (res == .ok, s)

/-- `modchip_write_rst_cmd`.  Its two tests take a `DRESULT` for a truth value: a read or a write
counts as done when its code is not zero, that is, when it failed. -/
def modchipWriteRstCmd (env : Env) (s : State) : Bool × State :=
  let cmd : Cmd := ⟨cmdRst, 0, 0⟩
  let buf := sdmmcUpperBuffer
  let (res, s) := diskRead env buf 1 1 s
  if res.val = 0 then (false, s)
  else
    let s := memset buf 0 256 s
    let (res, s) := diskWrite env buf 1 1 s
    if res.val = 0 then (false, s) else modchipWriteCmd env cmd s

/-- `modchip_write_fw_update_cmd` -/
def modchipWriteFwUpdateCmd (env : Env) (sectorStart sectorCnt : ℕ) (s : State) : Bool × State :=
  modchipWriteCmd env ⟨cmdFwUpdate, sectorStart, sectorCnt⟩ s

/-- `modchip_write_bl_update_cmd` -/
def modchipWriteBlUpdateCmd (env : Env) (sectorStart sectorCnt : ℕ) (s : State) : Bool × State :=
  modchipWriteCmd env ⟨cmdBlUpdate, sectorStart, sectorCnt⟩ s

/-- `modchip_write_rollback_cmd` -/
def modchipWriteRollbackCmd (env : Env) (s : State) : Bool × State :=
  modchipWriteFwUpdateCmd env 0xffffffff 0xffffffff s

/-! ## Updates -/

/-- The body the three writers of an image share: write the staged sectors, then go on with `next`,
or send a reset if the write fails. -/
def writeImage (env : Env) (start : ℕ) (next : ℕ → State → Bool × State) (buf size : ℕ)
    (s : State) : Bool × State :=
  let secCnt := (size + 0x1ff) / 0x200
  match diskWrite env buf start secCnt s with
  | (.ok, s) => next secCnt s
  | (.error, s) => (false, (modchipWriteRstCmd env s).2)

/-- `modchip_write_fw_update` -/
def modchipWriteFwUpdate (env : Env) : ℕ → ℕ → State → Bool × State :=
  writeImage env fwStartSector (modchipWriteFwUpdateCmd env fwStartSector)

/-- `modchip_write_bl_update` -/
def modchipWriteBlUpdate (env : Env) : ℕ → ℕ → State → Bool × State :=
  writeImage env rpBlStartSector (modchipWriteBlUpdateCmd env rpBlStartSector)

/-- `modchip_write_ipl_update`: no command, the modchip is not told. -/
def modchipWriteIplUpdate (env : Env) : ℕ → ℕ → State → Bool × State :=
  writeImage env blStartSector fun _ s ↦ (true, s)

/-- `x & ~(0x200 - 1)` -/
def alignDown (x : ℕ) : ℕ := x - x % 0x200

/-- `max_btr` of `modchip_write_fw_update_from_file` -/
def maxBtr : ℕ := alignDown sdmmcUpBufSz

/-- One pass of the chunk loop of `modchip_write_fw_update_from_file`, at offset `i` of the file.
The loop is left with the value of `res`. -/
def fwChunk (env : Env) (size : ℕ) (p : ℕ × Fil × State) :
    Loop.Pass (ℕ × Fil × State) (Bool × State) :=
  let (i, f, s) := p
  let buf := sdmmcUpperBuffer
  if i < size then
    let btr := min (size - i) maxBtr
    let s := if btr < maxBtr then memset (buf + alignDown btr) 0 0x200 s else s
    match fRead env f buf btr s with
    | (.diskErr, _, _, s) => .leave (false, s)
    | (.ok, br, f, s) =>
      if br ≠ btr then .leave (false, s)
      else
        match diskWrite env buf (fwStartSector + i / 0x200) ((btr + (0x200 - 1)) / 0x200) s with
        | (.error, s) => .leave (false, s)
        | (.ok, s) => .again ((i + maxBtr) % 2 ^ 32, f, s)
  else .leave (true, s)

/-- The chunk loop.  A pass that goes round has read something, so as many passes as the file has
bytes, and one more, are enough. -/
def fwChunks (env : Env) (size : ℕ) (f : Fil) (s : State) : Bool × State :=
  match Loop.run (fwChunk env size) (f.size + 1) (0, f, s) with
  | .leave r => r
  | .again (_, _, s) => (false, s)

/-- The part of the three readers of an update file for an image that fits the buffer: pad the last
sector with `pad`, read the file whole, hand it to `write`. -/
def readThenWrite (env : Env) (pad : UInt8) (write : ℕ → ℕ → State → Bool × State) (size : ℕ)
    (f : Fil) (s : State) : Bool × State :=
  let buf := sdmmcUpperBuffer
  let s := memset (buf + alignDown size) pad 0x200 s
  match fRead env f buf size s with
  | (.diskErr, _, _, s) => (false, s)
  | (.ok, br, _, s) => if br ≠ size then (false, s) else write buf size s

/-- `modchip_write_fw_update_from_file` -/
def modchipWriteFwUpdateFromFile (env : Env) (f : Fil) (s : State) : Bool × State :=
  let size := f.fSize
  if size < sdmmcUpBufSz then readThenWrite env 0 (modchipWriteFwUpdate env) size f s
  else
    match fwChunks env size f s with
    -- `(size + (0x200 - 1) / 0x200)`: the division binds tighter than the sum
    | (true, s) => modchipWriteFwUpdateCmd env fwStartSector (size + (0x200 - 1) / 0x200) s
    | (false, s) => (false, (modchipWriteRstCmd env s).2)

/-- `modchip_write_bl_update_from_file` -/
def modchipWriteBlUpdateFromFile (env : Env) (f : Fil) (s : State) : Bool × State :=
  let size := f.fSize
  if size > sdmmcUpBufSz then (false, s)
  else readThenWrite env 0xff (modchipWriteBlUpdate env) size f s

/-- `modchip_write_ipl_update_from_file` -/
def modchipWriteIplUpdateFromFile (env : Env) (f : Fil) (s : State) : Bool × State :=
  let size := f.fSize
  if size > sdmmcUpBufSz then (false, s)
  else readThenWrite env 0 (modchipWriteIplUpdate env) size f s

/-! ## Configuration and descriptor -/

/-- `MODCHIP_MAGIC` -/
def magic : ℕ := 0xAA5458BA

/-- `sd_loader_cfg_t` -/
structure Cfg where
  magic1 : ℕ
  magic2 : ℕ
  /-- three bits -/
  defaultPayloadVol : ℕ
  /-- two bits -/
  defaultAction : ℕ
  disableOfwBtnCombo : Bool
  disableMenuBtnCombo : Bool
  /-- the bit of the flag byte no field uses, and the three bytes of padding behind it -/
  unused : ℕ → UInt8
  deriving Inhabited

/-- `sizeof(sd_loader_cfg_t)` -/
def cfgSize : ℕ := 12

/-- The flag byte: the bit fields from the lowest bit up. -/
def Cfg.flags (c : Cfg) : UInt8 :=
  UInt8.ofNat (c.defaultPayloadVol % 8 + 8 * (c.defaultAction % 4)
    + 32 * c.disableOfwBtnCombo.toNat + 64 * c.disableMenuBtnCombo.toNat
    + 128 * ((c.unused 0).toNat / 128))

/-- The bytes of a configuration in memory. -/
def Cfg.bytes (c : Cfg) (k : ℕ) : UInt8 :=
  if k < 4 then Store.wordByte c.magic1 k
  else if k < 8 then Store.wordByte c.magic2 (k - 4)
  else if k = 8 then c.flags
  else c.unused (k - 8)

/-- A configuration read from memory. -/
def Cfg.ofBytes (b : ℕ → UInt8) : Cfg where
  magic1 := Store.word b 0
  magic2 := Store.word b 4
  defaultPayloadVol := (b 8).toNat % 8
  defaultAction := (b 8).toNat / 8 % 4
  disableOfwBtnCombo := (b 8).toNat / 32 % 2 = 1
  disableMenuBtnCombo := (b 8).toNat / 64 % 2 = 1
  unused k := b (8 + k)

/-- `default_cfg` -/
def defaultCfg : Cfg where
  magic1 := magic
  magic2 := magic
  defaultPayloadVol := 0
  defaultAction := 0
  disableOfwBtnCombo := false
  disableMenuBtnCombo := false
  unused _ := 0

/-- `modchip_get_cfg` -/
def modchipGetCfg (env : Env) (cfg : Cfg) (s : State) : Bool × Cfg × State :=
  let buf := sdmmcUpperBuffer
  match diskRead env buf cfgSector 1 s with
  | (.ok, s) => (true, Cfg.ofBytes fun k ↦ s.mem (buf + cfgOffset + k), s)
  | (.error, s) => (false, cfg, s)

/-- `modchip_is_cfg_valid` -/
def modchipIsCfgValid (cfg : Cfg) : Bool := cfg.magic1 == magic && cfg.magic2 == magic

/-- `modchip_get_cfg_or_default` -/
def modchipGetCfgOrDefault (env : Env) (cfg : Cfg) (s : State) : Cfg × State :=
  match modchipGetCfg env cfg s with
  | (res, cfg, s) => (if res && modchipIsCfgValid cfg then cfg else defaultCfg, s)

/-- `modchip_set_cfg` -/
def modchipSetCfg (env : Env) (cfg : Cfg) (s : State) : Bool × State :=
  let buf := sdmmcUpperBuffer
  match diskRead env buf cfgSector 1 s with
  | (.error, s) => (false, s)
  | (.ok, s) =>
    let s := memcpy (buf + cfgOffset) cfg.bytes cfgSize s
    let (res, s) := diskWrite env buf cfgSector 1 s
    (res == .ok, s)

/-- `modchip_desc_t` -/
structure Desc where
  signature : ℕ
  fwMajor : ℕ
  fwMinor : ℕ
  sdloaderHash : ℕ
  firmwareHash : ℕ
  fuseCnt : ℕ

/-- A descriptor read from memory. -/
def Desc.ofBytes (b : ℕ → UInt8) : Desc where
  signature := Store.word b 0
  fwMajor := Store.word b 4
  fwMinor := Store.word b 8
  sdloaderHash := Store.word b 12
  firmwareHash := Store.word b 16
  fuseCnt := Store.word b 20

/-- `modchip_read_desc` -/
def modchipReadDesc (env : Env) (desc : Desc) (s : State) : Bool × Desc × State :=
  let buf := sdmmcUpperBuffer
  match diskRead env buf descSector 1 s with
  | (.error, s) => (false, desc, s)
  | (.ok, s) => (true, Desc.ofBytes fun k ↦ s.mem (buf + descOffset + k), s)

end Modchip
end SdLoader
