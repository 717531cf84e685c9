import SdLoader.Files.Defs
import SdLoader.Lib.Bytes

/-!
# FatFs

`bdk/libs/fatfs/ff.c`, as it is configured: for reading only, with sectors of 512 bytes, sector
numbers of 64 bits, exFAT, and one volume a drive.

What is read through the window of the filesystem object is a `Scan`: `check_fs` throws the window
away first, every other `move_window` does not.

* `findVolume`, `mountVolume` — from the sector 0 of a drive to a `Volume`, which is what a mount
  finds out about it;
* `getFat` — an entry of the FAT;
* `fRead` — a call of `f_read`, on a drive of which `read` reads sectors.

Numbers of the source are natural numbers, with the `% 2 ^ 32` and `% 2 ^ 64` of its types wherever
a result need not fit.  `(LBA_t)0 - 1`, which is in `winsect` when the window holds no sector, is a
sector number like any other here.
-/

set_option autoImplicit false

namespace SdLoader
namespace Fat

open Files (Block FError)
open Payload (Piece)

/-! ## The bytes of a sector -/

/-- `n` bytes of a sector, from byte `k` on. -/
def cut (b : Block) (k n : ℕ) : List UInt8 := Store.slice (fun i ↦ b.getD i 0) k n

/-- A byte. -/
def ldByte (b : Block) (k : ℕ) : ℕ := (b.getD k 0).toNat

/-- `ld_word` -/
def ldWord (b : Block) (k : ℕ) : ℕ := Bytes.ofLe (cut b k 2)

/-- `ld_dword` -/
def ldDword (b : Block) (k : ℕ) : ℕ := Bytes.ofLe (cut b k 4)

/-- `ld_qword` -/
def ldQword (b : Block) (k : ℕ) : ℕ := Bytes.ofLe (cut b k 8)

/-! ## Objects -/

/-- `fs_type`, of a filesystem object that is mounted. -/
inductive FsType
  | fat12
  | fat16
  | fat32
  | exfat
  deriving DecidableEq

/-- `FATFS`, as far as a mount sets it and reading uses it. -/
structure Volume where
  /-- `fs_type` -/
  fsType : FsType
  /-- `n_rootdir` -/
  nRootdir : ℕ
  /-- `csize` -/
  csize : ℕ
  /-- `n_fatent` -/
  nFatent : ℕ
  /-- `fsize` -/
  fsize : ℕ
  /-- `volbase` -/
  volbase : ℕ
  /-- `fatbase` -/
  fatbase : ℕ
  /-- `dirbase` -/
  dirbase : ℕ
  /-- `database` -/
  database : ℕ
  deriving DecidableEq

/-! ## Finding a volume -/

/-- What `check_fs` and `find_volume` return, with `winsect` and `win` where there is a volume, and
`win` where there is a valid boot sector. -/
inductive Fmt
  /-- 0 -/
  | fat (sect : ℕ) (win : Block)
  /-- 1 -/
  | exfat (sect : ℕ) (win : Block)
  /-- 2 -/
  | bootSector (win : Block)
  /-- 3 -/
  | invalid
  /-- 4 -/
  | diskErr

/-- `"\xEB\x76\x90" "EXFAT   "` -/
def exfatSign : List UInt8 := [0xEB, 0x76, 0x90, 0x45, 0x58, 0x46, 0x41, 0x54, 0x20, 0x20, 0x20]

/-- `"FAT32   "` -/
def fat32Sign : List UInt8 := [0x46, 0x41, 0x54, 0x33, 0x32, 0x20, 0x20, 0x20]

/-- `"EFI PART" "\0\0\1"`, and the zero that ends it. -/
def gptSign : List UInt8 := [0x45, 0x46, 0x49, 0x20, 0x50, 0x41, 0x52, 0x54, 0, 0, 1, 0]

/-- `GUID_MS_Basic` -/
def guidMsBasic : List UInt8 :=
  [0xA2, 0xA0, 0xD0, 0xEB, 0xE5, 0xB9, 0x33, 0x44, 0x87, 0xC0, 0x68, 0xB6, 0xB7, 0x26, 0x99, 0xC7]

/-- A number of which one bit is set, or none. -/
abbrev AtMostOneBit (n : ℕ) : Prop := n &&& (n - 1) = 0

/-- The checks `check_fs` makes of a boot sector without the name of FAT32 in it. -/
def ProperBpb (win : Block) : Prop :=
  AtMostOneBit (ldWord win 11) ∧ 512 ≤ ldWord win 11 ∧ ldWord win 11 ≤ 512 ∧
    ldByte win 13 ≠ 0 ∧ AtMostOneBit (ldByte win 13) ∧
    ldWord win 14 ≠ 0 ∧
    (1 ≤ ldByte win 16 ∧ ldByte win 16 - 1 ≤ 1) ∧
    ldWord win 17 ≠ 0 ∧
    (128 ≤ ldWord win 19 ∨ 0x10000 ≤ ldDword win 32) ∧
    ldWord win 22 ≠ 0

instance (win : Block) : Decidable (ProperBpb win) := inferInstanceAs (Decidable (_ ∧ _))

/-- `check_fs`, once `move_window` has returned. -/
def checkFs (sect : ℕ) : Option Block → Fmt
  | none => .diskErr
  | some win =>
    let sign := ldWord win 510
    let b := ldByte win 0
    if sign = 0xAA55 ∧ cut win 0 11 = exfatSign then .exfat sect win
    else if (b = 0xEB ∨ b = 0xE9 ∨ b = 0xE8) ∧
        (sign = 0xAA55 ∧ cut win 82 8 = fat32Sign ∨ ProperBpb win) then .fat sect win
    else if sign = 0xAA55 then .bootSector win else .invalid

/-- `crc32` -/
def crc32 (crc : UInt32) (d : UInt8) : UInt32 :=
  (List.range 8).foldl (fun crc k ↦
    let crc := crc ^^^ (if d.toNat.testBit k then 1 else 0)
    if crc &&& 1 ≠ 0 then crc >>> 1 ^^^ 0xEDB88320 else crc >>> 1) crc

/-- The BCC of a GPT header of `hlen` bytes: its own field counts as zeros. -/
def headerBcc (gpth : Block) (hlen : ℕ) : UInt32 :=
  ~~~(List.range hlen).foldl
    (fun bcc i ↦ crc32 bcc (if 16 ≤ i ∧ i - 16 < 4 then 0 else gpth.getD i 0)) 0xFFFFFFFF

/-- `test_gpt_header` -/
def TestGptHeader (gpth : Block) : Prop :=
  cut gpth 0 12 = gptSign ∧
    (92 ≤ ldDword gpth 12 ∧ ldDword gpth 12 ≤ 512) ∧
    (headerBcc gpth (ldDword gpth 12)).toNat = ldDword gpth 16 ∧
    ldDword gpth 84 = 128 ∧
    ldDword gpth 80 ≤ 128

instance (gpth : Block) : Decidable (TestGptHeader gpth) := inferInstanceAs (Decidable (_ ∧ _))

/-- `find_volume` ends with a volume that has been found, and goes on otherwise. -/
def Fmt.elseTry (fmt : Fmt) (next : Fmt → Scan Block Fmt) : Scan Block Fmt :=
  match fmt with
  | fat sect win => .done (fat sect win)
  | exfat sect win => .done (exfat sect win)
  | bootSector win => next (bootSector win)
  | invalid => next invalid
  | diskErr => next diskErr

/-- The loop of `find_volume` over the partitions of a GPT: `n` entries are left, from entry `i`
on. -/
def gptLoop (ptLba : ℕ) : ℕ → ℕ → Scan Block Fmt
  | 0, _ => .done .invalid
  | n + 1, i => .look false ((ptLba + i * 128 / 512) % 2 ^ 64) fun
    | none => .done .diskErr
    | some win =>
      let ofs := i * 128 % 512
      if cut win ofs 16 = guidMsBasic then
        let sect := ldQword win (ofs + 32)
        .look true sect fun b ↦ (checkFs sect b).elseTry fun _ ↦ gptLoop ptLba n (i + 1)
      else gptLoop ptLba n (i + 1)

/-- The loop of `find_volume` over the partitions of an MBR that are left, with what has become of
the one before. -/
def mbrLoop : List ℕ → Fmt → Scan Block Fmt
  | [], fmt => .done fmt
  | sect :: rest, _ =>
    if sect = 0 then mbrLoop rest .invalid
    else .look true sect fun b ↦ (checkFs sect b).elseTry (mbrLoop rest)

/-- `mbr_pt` -/
def mbrPt (win : Block) : List ℕ := (List.range 4).map fun i ↦ ldDword win (446 + i * 16 + 8)

/-- `find_volume`, with `part` 0, once `check_fs` has read sector 0. -/
def findVolume (b : Option Block) : Scan Block Fmt :=
  match checkFs 0 b with
  | .bootSector win =>
    if ldByte win (446 + 4) = 0xEE then
      .look false 1 fun
        | none => .done .diskErr
        | some gpth =>
          if TestGptHeader gpth then gptLoop (ldQword gpth 72) (ldDword gpth 80) 0
          else .done .invalid
    else mbrLoop (mbrPt win) .invalid
  | fmt => .done fmt

/-! ## Mounting it -/

section
variable (win : Block)

/-- `fs->fsize`: the sectors of a FAT. -/
def fatSectors : ℕ := if ldWord win 22 = 0 then ldDword win 36 else ldWord win 22

/-- `fasize`, in the end: the sectors of all FATs, in 32 bits. -/
def fasize : ℕ := fatSectors win * ldByte win 16 % 2 ^ 32

/-- `tsect` -/
def tsect : ℕ := if ldWord win 19 = 0 then ldDword win 32 else ldWord win 19

/-- `sysect` -/
def sysect : ℕ := (ldWord win 14 + fasize win + ldWord win 17 / 16) % 2 ^ 32

/-- `nclst` -/
def nclst : ℕ := (tsect win - sysect win) / ldByte win 13

/-- `fmt`, from the number of clusters. -/
def fatType (nclst : ℕ) : Option FsType :=
  if nclst ≤ 0xFF5 then some .fat12
  else if nclst ≤ 0xFFF5 then some .fat16
  else if nclst ≤ 0x0FFFFFF5 then some .fat32
  else none

/-- `szbfat`, in bytes. -/
def szbfat (fsType : FsType) (nFatent : ℕ) : ℕ :=
  match fsType with
  | .fat12 => nFatent * 3 / 2 + (nFatent &&& 1)
  | .fat16 => nFatent * 2
  | .fat32 => nFatent * 4
  | .exfat => nFatent * 4

/-- The checks `mount_volume` makes of a boot sector of FAT12, FAT16 or FAT32. -/
def FatAccepted (fsType : FsType) : Prop :=
  ldWord win 11 = 512 ∧
    (ldByte win 16 = 1 ∨ ldByte win 16 = 2) ∧
    (ldByte win 13 ≠ 0 ∧ AtMostOneBit (ldByte win 13)) ∧
    ldWord win 17 % 16 = 0 ∧
    ldWord win 14 ≠ 0 ∧
    sysect win ≤ tsect win ∧
    nclst win ≠ 0 ∧
    (if fsType = .fat32 then ldWord win 42 = 0 ∧ ldWord win 17 = 0 else ldWord win 17 ≠ 0) ∧
    (szbfat fsType (nclst win + 2) + 511) / 512 ≤ fatSectors win

instance (fsType : FsType) : Decidable (FatAccepted win fsType) :=
  inferInstanceAs (Decidable (_ ∧ _))

/-- The volume such a boot sector describes. -/
def fatVolume (bsect : ℕ) (fsType : FsType) : Volume where
  fsType := fsType
  nRootdir := ldWord win 17
  csize := ldByte win 13
  nFatent := nclst win + 2
  fsize := fatSectors win
  volbase := bsect
  fatbase := (bsect + ldWord win 14) % 2 ^ 64
  dirbase :=
    if fsType = .fat32 then ldDword win 44
    else ((bsect + ldWord win 14) % 2 ^ 64 + fasize win) % 2 ^ 64
  database := (bsect + sysect win) % 2 ^ 64

/-- The part of `mount_volume` for FAT12, FAT16 and FAT32. -/
def mountFat (bsect : ℕ) : Except FError Volume :=
  match fatType (nclst win) with
  | none => .error .noFilesystem
  | some fsType =>
    if FatAccepted win fsType then .ok (fatVolume win bsect fsType) else .error .noFilesystem

/-- `maxlba` -/
def maxlba (bsect : ℕ) : ℕ := (ldQword win 72 + bsect) % 2 ^ 64

/-- The volume a boot sector of exFAT describes. -/
def exfatVolume (bsect : ℕ) : Volume where
  fsType := .exfat
  nRootdir := 0
  csize := 2 ^ ldByte win 109 % 2 ^ 16
  nFatent := ldDword win 92 + 2
  fsize := ldDword win 84
  volbase := bsect
  fatbase := (bsect + ldDword win 80) % 2 ^ 64
  dirbase := ldDword win 96
  database := (bsect + ldDword win 88) % 2 ^ 64

/-- The checks `mount_volume` makes of a boot sector of exFAT.  The size of all clusters is a number
of 32 bits. -/
def ExfatAccepted (bsect : ℕ) : Prop :=
  cut win 11 53 = List.replicate 53 0 ∧
    ldWord win 104 = 0x100 ∧
    2 ^ ldByte win 108 = 512 ∧
    ldByte win 110 = 1 ∧
    2 ^ ldByte win 109 % 2 ^ 16 ≠ 0 ∧
    ldDword win 92 ≤ 0x7FFFFFFD ∧
    ((exfatVolume win bsect).database +
      ldDword win 92 * (exfatVolume win bsect).csize % 2 ^ 32) % 2 ^ 64 ≤ maxlba win bsect

instance (bsect : ℕ) : Decidable (ExfatAccepted win bsect) := inferInstanceAs (Decidable (_ ∧ _))

end

/-- `clst2sect`: below 2 the subtraction wraps round, to a number that is too large. -/
def clst2sect (v : Volume) (clst : ℕ) : ℕ :=
  if clst < 2 ∨ v.nFatent ≤ clst then 0 else (v.database + v.csize * (clst - 2)) % 2 ^ 64

/-- The offset of the bitmap entry in a sector of the root directory. -/
def bitmapEntry (win : Block) : Option ℕ :=
  ((List.range 16).map (· * 32)).find? fun i ↦ ldByte win i = 0x81

/-- The first loop of `mount_volume` for exFAT, over the sectors of a cluster of the root directory:
`n` sectors are left, from `sect` on. -/
def findBitmap : ℕ → ℕ → Scan Block (Except FError (Block × ℕ))
  | 0, _ => .done (.error .noFilesystem)
  | n + 1, sect => .look false (sect % 2 ^ 64) fun
    | none => .done (.error .diskErr)
    | some win =>
      match bitmapEntry win with
      | some i => .done (.ok (win, i))
      | none => findBitmap n (sect + 1)

/-- The second loop, over the entries of the FAT from `bcl` on, of which there are `n` up to the
last number of 32 bits. -/
def contiguousBitmap (v : Volume) : ℕ → ℕ → Scan Block (Except FError Volume)
  | 0, _ => .done (.error .noFilesystem)
  | n + 1, bcl => .look false ((v.fatbase + bcl / 128) % 2 ^ 64) fun
    | none => .done (.error .diskErr)
    | some win =>
      let cv := ldDword win (bcl % 128 * 4)
      if cv = 0xFFFFFFFF then .done (.ok v)
      else if cv ≠ bcl + 1 then .done (.error .noFilesystem)
      else contiguousBitmap v n (bcl + 1)

/-- The part of `mount_volume` for exFAT. -/
def mountExfat (bsect : ℕ) (win : Block) : Scan Block (Except FError Volume) :=
  let v := exfatVolume win bsect
  if ExfatAccepted win bsect then
    (findBitmap v.csize (clst2sect v v.dirbase)).bind fun
      | .error e => .done (.error e)
      | .ok (win, i) =>
        let bcl := ldDword win (i + 20)
        if bcl < 2 ∨ v.nFatent ≤ bcl then .done (.error .noFilesystem)
        else contiguousBitmap v (0xFFFFFFFF - bcl) bcl
  else .done (.error .noFilesystem)

/-- The part of `mount_volume` after `find_volume`. -/
def mountFmt : Fmt → Scan Block (Except FError Volume)
  | .fat bsect win => .done (mountFat win bsect)
  | .exfat bsect win => mountExfat bsect win
  | .bootSector _ => .done (.error .noFilesystem)
  | .invalid => .done (.error .noFilesystem)
  | .diskErr => .done (.error .diskErr)

/-- `mount_volume` from `find_volume` on, once `check_fs` has read sector 0. -/
def mountVolume (b : Option Block) : Scan Block (Except FError Volume) :=
  (findVolume b).bind mountFmt

/-! ## The FAT -/

/-- `FFOBJID`, without the volume. -/
structure Obj where
  /-- `stat` -/
  stat : ℕ
  /-- `sclust` -/
  sclust : ℕ
  /-- `objsize` -/
  objsize : ℕ
  /-- `n_cont` -/
  nCont : ℕ
  /-- `n_frag` -/
  nFrag : ℕ
  deriving DecidableEq

/-- The entry in a sector of the FAT, of `size` bytes, that `get_fat` takes out of it. -/
def fatWord (v : Volume) (size mask clst : ℕ) : Scan Block ℕ :=
  .look false ((v.fatbase + clst / (512 / size)) % 2 ^ 64) fun
    | none => .done 0xFFFFFFFF
    | some win => .done (Bytes.ofLe (cut win (clst * size % 512) size) % mask)

/-- `get_fat`: a disk error is 0xFFFFFFFF, and an internal error is 1. -/
def getFat (v : Volume) (obj : Obj) (clst : ℕ) : Scan Block ℕ :=
  if clst < 2 ∨ v.nFatent ≤ clst then .done 1
  else
    match v.fsType with
    | .fat12 =>
      let bc := clst + clst / 2
      .look false ((v.fatbase + bc / 512) % 2 ^ 64) fun
        | none => .done 0xFFFFFFFF
        | some win =>
          let wc := ldByte win (bc % 512)
          .look false ((v.fatbase + (bc + 1) / 512) % 2 ^ 64) fun
            | none => .done 0xFFFFFFFF
            | some win =>
              let wc := wc ||| ldByte win ((bc + 1) % 512) <<< 8
              .done (if clst % 2 = 1 then wc >>> 4 else wc &&& 0xFFF)
    | .fat16 => fatWord v 2 (2 ^ 16) clst
    | .fat32 => fatWord v 4 (2 ^ 28) clst
    | .exfat =>
      if obj.objsize ≠ 0 ∧ obj.sclust ≠ 0 ∨ obj.stat = 0 then
        let cofs := (clst + (2 ^ 32 - obj.sclust)) % 2 ^ 32
        let clen := (obj.objsize + (2 ^ 64 - 1)) % 2 ^ 64 / 512 / v.csize % 2 ^ 32
        if obj.stat = 2 ∧ cofs ≤ clen then
          .done (if cofs = clen then 0x7FFFFFFF else clst + 1)
        else if obj.stat = 3 ∧ cofs < obj.nCont then .done (clst + 1)
        else if obj.stat ≠ 2 then
          if obj.nFrag ≠ 0 then .done 0x7FFFFFFF else fatWord v 4 (2 ^ 31) clst
        else .done 1
      else .done 1

/-! ## Reading a file -/

/-- What `ABORT` is called with. -/
inductive Abort
  /-- `FR_DISK_ERR` -/
  | diskErr
  /-- `FR_INT_ERR` -/
  | intErr
  deriving DecidableEq

/-- `FIL`, and the fields of its `FFOBJID` that `validate` looks at. -/
structure Fil where
  /-- `obj.id`, unless `obj.fs` is 0. -/
  id : Option ℕ
  obj : Obj
  /-- `flag`: is `FA_READ` set? -/
  readable : Bool
  /-- `err` -/
  err : Option Abort
  /-- `fptr` -/
  fptr : ℕ
  /-- `clust` -/
  clust : ℕ
  /-- `sect` -/
  sect : ℕ
  /-- `buf` -/
  buf : Block
  deriving DecidableEq

/-- A filesystem object that is mounted: its `id`, and the volume. -/
structure Mounted where
  id : ℕ
  vol : Volume

/-- The `FRESULT` of `f_read`. -/
inductive ReadResult
  | ok
  | invalidObject
  | denied
  | abort (e : Abort)
  deriving DecidableEq

/-- `validate`: `disk_status` always says that a drive is there. -/
def validate (fs : Option Mounted) (fp : Fil) : Option Volume :=
  match fs with
  | some m => if fp.id = some m.id then some m.vol else none
  | none => none

section
variable {σ : Type} (read : Piece → σ → Option Block × σ) (v : Volume)

/-- The window, and the drive. -/
abbrev Access (σ : Type) := Scan.Cache Block × σ

/-- `csect`: the sector of the cluster that `fptr` is in. -/
def Fil.csect (fp : Fil) : ℕ := fp.fptr / 512 &&& (v.csize - 1)

/-- The cluster after the one `fptr` has come to the end of. -/
def followChain (fp : Fil) (x : Access σ) : ℕ × Access σ :=
  if fp.fptr = 0 then (fp.obj.sclust, x)
  else (getFat v fp.obj fp.clust).run (fun s ↦ read (.fat s)) x

/-- `f_read` at the beginning of a sector: `clust` is the cluster of it. -/
def enterCluster (fp : Fil) (x : Access σ) : Option Abort × Fil × Access σ :=
  if fp.csect v = 0 then
    match followChain read v fp x with
    | (clst, x) =>
      if clst < 2 then (some .intErr, fp, x)
      else if clst = 0xFFFFFFFF then (some .diskErr, fp, x)
      else (none, { fp with clust := clst }, x)
  else (none, fp, x)

/-- The sectors that are read at once, of `cc` that are wanted. -/
def clip (fp : Fil) (cc : ℕ) : ℕ :=
  if v.csize < fp.csect v + cc then v.csize - fp.csect v else cc

/-- `f_read` at the beginning of a sector of a cluster. -/
def readSectors (btr : ℕ) (fp : Fil) (x : Access σ) :
    Except Abort (List UInt8) × Fil × Access σ :=
  let sect := clst2sect v fp.clust
  if sect = 0 then (.error .intErr, fp, x)
  else
    let sect := (sect + fp.csect v) % 2 ^ 64
    if 0 < btr / 512 then
      let cc := clip v fp (btr / 512)
      match read (.run sect cc) x.2 with
      | (none, d) => (.error .diskErr, fp, x.1, d)
      | (some b, d) => (.ok (cut b 0 (512 * cc)), fp, x.1, d)
    else if fp.sect ≠ sect then
      match read (.part sect btr) x.2 with
      | (none, d) => (.error .diskErr, fp, x.1, d)
      | (some b, d) => (.ok (cut b 0 btr), { fp with sect := sect, buf := b }, x.1, d)
    else (.ok (cut fp.buf 0 btr), fp, x)

/-- One round of the loop of `f_read`, with the bytes it brings. -/
def readRound (btr : ℕ) (fp : Fil) (x : Access σ) : Except Abort (List UInt8) × Fil × Access σ :=
  if fp.fptr % 512 = 0 then
    match enterCluster read v fp x with
    | (some e, fp, x) => (.error e, fp, x)
    | (none, fp, x) => readSectors read v btr fp x
  else (.ok (cut fp.buf (fp.fptr % 512) (min (512 - fp.fptr % 512) btr)), fp, x)

/-- The loop of `f_read`, for at most so many rounds. -/
def readLoop : ℕ → ℕ → Fil → Access σ → ReadResult × List UInt8 × Fil × Access σ
  | 0, _, fp, x => (.ok, [], fp, x)
  | n + 1, btr, fp, x =>
    if btr = 0 then (.ok, [], fp, x)
    else
      match readRound read v btr fp x with
      | (.error e, fp, x) => (.abort e, [], { fp with err := some e }, x)
      | (.ok bytes, fp, x) =>
        match readLoop n (btr - bytes.length) { fp with fptr := fp.fptr + bytes.length } x with
        | (res, rest, fp, x) => (res, bytes ++ rest, fp, x)

/-- `f_read`: the bytes it puts into the buffer, of which `*br` is the number.  A round brings at
least one. -/
def fRead (fs : Option Mounted) (btr : ℕ) (fp : Fil) (x : Access σ) :
    ReadResult × List UInt8 × Fil × Access σ :=
  match validate fs fp with
  | none => (.invalidObject, [], fp, x)
  | some v =>
    match fp.err with
    | some e => (.abort e, [], fp, x)
    | none =>
      if fp.readable then
        let btr := min btr (fp.obj.objsize - fp.fptr)
        readLoop read v btr btr fp x
      else (.denied, [], fp, x)

end

end Fat
end SdLoader
