import SdLoader.Modchip.Defs
import SdLoader.Storage.Sd

/-!
# The disk layer

`sdloader/storage/diskio.c`, through which both FatFs and the modchip functions reach the cards.
There are five drives: the SD card, and four views of the eMMC, which differ in the hardware
partition they select.  Each call on one of these first looks at `emmc_storage.partition`, the
driver's word for what is selected, and switches if it differs from what the call wants.

`Disks` is the two storages, and what they share: memory, and the clock that says which outcome of
an `Env` is next.

A transfer that has failed five times goes on with a re-initialisation of its card.  That part of it
is a parameter, a `Recovery`: `Recovery.full` is the one of the source, and with `Recovery.none`
transfers give up instead.
-/

set_option autoImplicit false

namespace SdLoader
namespace Disk

open Storage
open Modchip (DResult)

/-- `EMMC_GPP` -/
def emmcGpp : ℕ := 0

/-- `EMMC_BOOT0` -/
def emmcBoot0 : ℕ := 1

/-- `EMMC_BOOT1` -/
def emmcBoot1 : ℕ := 2

/-- `DEV_SD` and the other four. -/
inductive Drive
  | sd
  | boot1
  | boot1_1mb
  | gpp
  | boot0
  deriving DecidableEq

/-! ## The state -/

/-- The SD storage: what the driver knows, and the card. -/
structure Sd where
  /-- `sd_storage` -/
  dev : Dev
  /-- `sd_mode` -/
  mode : ℕ
  /-- The card's registers. -/
  card : Card
  /-- The card's sectors, by byte. -/
  medium : ℕ → UInt8

/-- Both storages.  Memory and the clock are those of `emmc`. -/
structure Disks where
  /-- The eMMC. -/
  emmc : State
  /-- The SD card. -/
  sd : Sd

namespace Disks

/-- The SD storage as the storage driver sees it. -/
def sdView (d : Disks) : State where
  dev := d.sd.dev
  mode := d.sd.mode
  card := d.sd.card
  selected := 0
  media _ := d.sd.medium
  mem := d.emmc.mem
  tick := d.emmc.tick
  moves := []

/-- The state after the storage driver has worked on the SD storage. -/
def withSdView (d : Disks) (v : State) : Disks where
  emmc := { d.emmc with mem := v.mem, tick := v.tick }
  sd := ⟨v.dev, v.mode, v.card, v.media 0⟩

/-- An operation of the storage driver on the SD storage. -/
def onSd (f : State → Bool × State) (d : Disks) : Bool × Disks :=
  match f d.sdView with
  | (res, v) => (res, d.withSdView v)

/-- An operation of the storage driver on the eMMC. -/
def onEmmc (f : State → Bool × State) (d : Disks) : Bool × Disks :=
  match f d.emmc with
  | (res, s) => (res, { d with emmc := s })

end Disks

/-- How a transfer goes on after five failures, on either storage: the last part of
`_sdmmc_storage_readwrite`. -/
structure Recovery where
  /-- On the eMMC. -/
  emmc : Bool → State → Bool × State
  /-- On the SD card. -/
  sd : Bool → State → Bool × State

/-- The card is initialised again. -/
def Recovery.full (env : Env) : Recovery := ⟨emmcReinit env, sdReinit env⟩

/-- The transfer gives up. -/
def Recovery.none : Recovery := ⟨fun _ s ↦ (false, s), fun _ s ↦ (false, s)⟩

/-! ## The calls -/

variable (env : Env)

/-- The partition a drive is a view of; the SD card has none. -/
def Drive.part : Drive → Option ℕ
  | .sd => none
  | .boot1 => some emmcBoot1
  | .boot1_1mb => some emmcBoot1
  | .gpp => some emmcGpp
  | .boot0 => some emmcBoot0

/-- `ensure_partition` -/
def ensurePartition (drive : Drive) (d : Disks) : Bool × Disks :=
  match drive.part with
  | none => (true, d)
  | some part =>
    if d.emmc.dev.partition ≠ part then d.onEmmc (sdmmcStorageSetMmcPartition env part)
    else (true, d)

/-- `disk_initialize`.  The partition is set whether the initialisation has succeeded or not. -/
def diskInitialize (drive : Drive) (d : Disks) : Bool × Disks :=
  match drive.part with
  | none => d.onSd (sdInitialize env false)
  | some part =>
    match d.onEmmc (emmcInitialize env false) with
    | (res, d) =>
      match d.onEmmc (sdmmcStorageSetMmcPartition env part) with
      | (res', d) => (res && res', d)

/-- `actual_sector`: 32 bits of a sector number that has 64. -/
def Drive.actualSector (drive : Drive) (sector : ℕ) : ℕ :=
  match drive with
  | .boot1_1mb => (sector + 0x100000 / 512) % 2 ^ 32
  | _ => sector % 2 ^ 32

/-- `sdmmc_storage_read` and `sdmmc_storage_write`: the buffer has to be aligned. -/
def sdmmcStorageTransfer (reinit : Bool → State → Bool × State) (sector numSectors buf : ℕ)
    (isWrite : Bool) (s : State) : Bool × State :=
  if buf ≠ 0 ∧ buf % 8 = 0 then sdmmcStorageReadwrite env reinit sector numSectors buf isWrite s
  else (false, s)

/-- The transfer at the end of `disk_read` and `disk_write`. -/
def transfer (rec : Recovery) (drive : Drive) (isWrite : Bool) (buf sector count : ℕ) (d : Disks) :
    Bool × Disks :=
  let actual := drive.actualSector sector
  if drive = .sd then d.onSd (sdmmcStorageTransfer env rec.sd actual count buf isWrite)
  else d.onEmmc (sdmmcStorageTransfer env rec.emmc actual count buf isWrite)

/-- The `DRESULT` of a transfer. -/
def dresult (res : Bool) : DResult := if res then .ok else .error

/-- `disk_read`.  What `ensure_partition` returns is not looked at. -/
def diskRead (rec : Recovery) (drive : Drive) (buf sector count : ℕ) (d : Disks) :
    DResult × Disks :=
  match transfer env rec drive false buf sector count (ensurePartition env drive d).2 with
  | (res, d) => (dresult res, d)

/-- `disk_write`.  Only BOOT0 is ever written; the other drives are refused when their partition has
been selected. -/
def diskWrite (rec : Recovery) (drive : Drive) (buf sector count : ℕ) (d : Disks) :
    DResult × Disks :=
  let d := (ensurePartition env drive d).2
  if drive = .boot0 then
    match transfer env rec drive true buf sector count d with
    | (res, d) => (dresult res, d)
  else (.error, d)

end Disk
end SdLoader
