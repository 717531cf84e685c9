import SdLoader.Lib.Scan
import SdLoader.Payload.Defs
import SdLoader.Volumes.Defs

/-!
# Files

`sdloader/files.c`, with what it uses of FatFs, and everything else of the program that initialises
or ends a storage.

There is one filesystem object, and `cur_drive` says which of four drives it has been mounted on.
FatFs knows a volume by the number it is registered under, and that number, the one of the drive and
the one of the physical drive are all the same here, a `Disk.Drive`.

What FatFs makes of the sectors it reads, from the boot sector to the directory entry of a file, is
a parameter, `FatFs`.  It reads through the window of the filesystem object, which keeps the sector
read last, so what it does is a `Scan`.

* `unmountDrive`, `mountDrive`, `openFileOn`, `openFileOnAny` — the functions of `files.c`;
* `initUmsCfg`, `volumeLoadPartTable`, `usbDeviceGadgetUms` — what a visit to the menu of `ums.c`
  does to the storages;
* `step` — one of these calls, the way into the toolbox, an access to a drive that the toolbox or
  the reading of a file makes, or an exchange of the SD card.

`sd_end` looks at `sd_init_done`, which nothing else does.  It is not part of the state: what it is
at the time is part of the step.
-/

set_option autoImplicit false

namespace SdLoader
namespace Files

open Storage Disk
open Payload (Windows)
open Usb (MmcType)

/-- A sector. -/
abbrev Block := List UInt8

/-- An `FRESULT` other than `FR_OK`. -/
inductive FError
  | diskErr
  | notReady
  | noFile
  | invalidDrive
  | notEnabled
  | noFilesystem
  | other
  deriving DecidableEq

/-- FatFs, as far as it is about what is on a volume. -/
structure FatFs (Path Meta Fil : Type) where
  /-- `find_volume` and what `mount_volume` reads after it, from the sector 0 that `check_fs` has
  loaded. -/
  findVolume : Option Block → Scan Block (Except FError Meta)
  /-- `follow_path`, and what `f_open` makes of the entry found. -/
  followPath : Path → Meta → Scan Block (Except FError Fil)
  /-- No volume is found once a sector could not be read, and no other could after it. -/
  honest : (Scan.look true 0 findVolume).Honest

/-! ## The state -/

section
variable {Path Meta Fil : Type}

/-- `FATFS` -/
structure Fs (Meta : Type) where
  /-- `pdrv` -/
  pdrv : Drive
  /-- What the mount has found; there is nothing if `fs_type` is 0. -/
  found : Option Meta
  /-- `winsect` and `win`; there is nothing if `winsect` is `(LBA_t)0 - 1`. -/
  win : Scan.Cache Block

/-- The variables of `files.c`, those of FatFs, and the storages. -/
structure State (Meta : Type) where
  /-- `cur_drive`; it is none for `SDLOADER_DRIVE_INVALID`. -/
  curDrive : Option Drive
  /-- Is `FatFs[vol]` the filesystem object? -/
  registered : Drive → Bool
  /-- `CurrVol` -/
  currVol : Drive
  /-- `fs` -/
  fs : Fs Meta
  /-- The storages. -/
  disks : Disks

/-! ## FatFs -/

variable (env : Env) (w : Windows) (fat : FatFs Path Meta Fil)

/-- The `disk_read` of `move_window`. -/
def readWindow (drive : Drive) (sector : ℕ) (d : Disks) : Option Block × Disks :=
  match diskRead env (.full env) drive w.fs sector 1 d with
  | (.ok, d) => (some (Store.slice d.emmc.mem w.fs blockSize), d)
  | (.error, d) => (none, d)

/-- What FatFs does with the sectors of the volume that is mounted. -/
def onVolume {α : Type} (scan : Scan Block α) (x : State Meta) : α × State Meta :=
  match scan.run (readWindow env w x.fs.pdrv) (x.fs.win, x.disks) with
  | (a, win, d) => (a, { x with fs.win := win, disks := d })

/-- `mount_volume`.  A volume that has been mounted is taken to be there, since `disk_status` always
says so. -/
def mountVolume (vol : Drive) (x : State Meta) : Except FError Meta × State Meta :=
  if !x.registered vol then (.error .notEnabled, x)
  else
    match x.fs.found with
    | some found => (.ok found, x)
    | none =>
      match diskInitialize env x.fs.pdrv x.disks with
      | (false, d) => (.error .notReady, { x with disks := d })
      | (true, d) =>
        match onVolume env w (.look true 0 fat.findVolume) { x with disks := d } with
        | (.error e, x) => (.error e, x)
        | (.ok found, x) => (.ok found, { x with fs.found := some found })

/-- `f_mount` without a filesystem object. -/
def fUnmount (vol : Drive) (x : State Meta) : State Meta :=
  if x.registered vol then
    { x with registered := Function.update x.registered vol false, fs.found := none }
  else x

/-- The filesystem object, registered for a volume. -/
def register (vol : Drive) (x : State Meta) : State Meta :=
  { x with
    registered := Function.update x.registered vol true
    fs.pdrv := vol
    fs.found := none }

/-- `f_mount` with `fs`, and `opt` set. -/
def fMount (vol : Drive) (x : State Meta) : Except FError Meta × State Meta :=
  mountVolume env w fat vol (register vol (fUnmount vol x))

/-- `f_open` for reading. -/
def fOpen (path : Path) (x : State Meta) : Except FError Fil × State Meta :=
  match mountVolume env w fat x.currVol x with
  | (.error e, x) => (.error e, x)
  | (.ok found, x) => onVolume env w (fat.followPath path found) x

/-! ## `files.c` -/

/-- `SDLOADER_DRIVE_SD`, `SDLOADER_DRIVE_BOOT1_1MB`, `SDLOADER_DRIVE_BOOT1` and
`SDLOADER_DRIVE_GPP`, in the order of their numbers. -/
def drives : List Drive := [.sd, .boot1_1mb, .boot1, .gpp]

/-- `unmount_drive` -/
def unmountDrive (x : State Meta) : State Meta :=
  match x.curDrive with
  | some drive => fUnmount drive x
  | none => x

/-- `mount_drive` -/
def mountDrive (drive : Drive) (x : State Meta) : Except FError Unit × State Meta :=
  if x.curDrive ≠ some drive then
    match fMount env w fat drive { unmountDrive x with curDrive := none } with
    | (.ok _, x) => (.ok (), { x with curDrive := some drive })
    | (.error e, x) => (.error e, x)
  else (.ok (), x)

/-- `open_file_on`, for a drive there is. -/
def openOn (path : Path) (drive : Drive) (x : State Meta) : Except FError Fil × State Meta :=
  match mountDrive env w fat drive x with
  | (.error e, x) => (.error e, x)
  | (.ok (), x) => fOpen env w fat path { x with currVol := drive }

/-- `open_file_on` -/
def openFileOn (path : Path) (drive : ℕ) (x : State Meta) : Except FError Fil × State Meta :=
  match drives[drive]? with
  | none => (.error .invalidDrive, x)
  | some drive => openOn env w fat path drive x

/-- The loop of `open_file_on_any`, over the drives that are left. -/
def openFileOnAnyLoop (path : Path) :
    List Drive → State Meta → Except FError Fil × Option Drive × State Meta
  | [], x => (.error .noFile, none, x)
  | drive :: rest, x =>
    match mountDrive env w fat drive x with
    | (.error _, x) => openFileOnAnyLoop path rest x
    | (.ok (), x) =>
      match openOn env w fat path drive x with
      | (.error .noFile, x) => openFileOnAnyLoop path rest x
      | (res, x) => (res, some drive, x)

/-- `open_file_on_any` -/
def openFileOnAny (path : Path) (x : State Meta) : Except FError Fil × Option Drive × State Meta :=
  openFileOnAnyLoop env w fat path drives x

/-! ## The menus -/

/-- `sd_end` -/
def endSd (sdInitDone : Bool) (d : Disks) : Disks := d.withSdView (sdEnd env sdInitDone d.sdView)

/-- `emmc_end` -/
def endEmmc (d : Disks) : Disks := { d with emmc := storageEnd env d.emmc }

/-- `init_ums_cfg`: on the way into the menu, and when `Reload` is chosen. -/
def initUmsCfg (sdInitDone : Bool) (d : Disks) : Disks :=
  endEmmc env (endSd env sdInitDone (d.onSd (sdInitialize env false)).2
    |>.onEmmc (emmcInitialize env false)).2

/-- The sectors of a GPT. -/
def gptSectors : ℕ := 33

/-- The part of `volume_load_part_table` that is the same for both storages. -/
def loadPartTable (reinit : Bool → Storage.State → Bool × Storage.State) (s : Storage.State) :
    Storage.State :=
  match sdmmcStorageTransfer env reinit 1 gptSectors sdmmcUpperBuffer false s with
  | (false, s) => storageEnd env s
  | (true, s) =>
    if Volumes.gptSignature (fun k ↦ s.mem (sdmmcUpperBuffer - blockSize + k)) =
        Volumes.efiPart then
      storageEnd env s
    else storageEnd env (sdmmcStorageTransfer env reinit 0 1 sdmmcUpperBuffer false s).2

/-- `volume_load_part_table`: on the way into the menu of a volume.  The SD storage is ended here
without `sd_end`. -/
def volumeLoadPartTable (device : Volumes.Device) (d : Disks) : Disks :=
  match device with
  | .sd =>
    match d.onSd (sdInitialize env false) with
    | (false, d) => d
    | (true, d) => d.withSdView (loadPartTable env (sdReinit env) d.sdView)
  | .emmcGpp =>
    match d.onEmmc (emmcInitialize env false) with
    | (false, d) => d
    | (true, d) =>
      let d := (d.onEmmc (sdmmcStorageSetMmcPartition env emmcGpp)).2
      { d with emmc := loadPartTable env (emmcReinit env) d.emmc }
  | .emmcBoot0 => d
  | .emmcBoot1 => d

/-- `sd_used` and `mmc_used` -/
structure Used where
  sd : Bool
  mmc : Bool

/-- The loop of `usb_device_gadget_ums` over the volumes, up to the first that does not come up. -/
def initLuns : List MmcType → Used → Disks → Bool × Used × Disks
  | [], used, d => (true, used, d)
  | .sd :: luns, used, d =>
    if used.sd then initLuns luns used d
    else
      match d.onSd (sdInitialize env false) with
      | (false, d) => (false, { used with sd := true }, d)
      | (true, d) => initLuns luns { used with sd := true } d
  | .emmc :: luns, used, d =>
    if used.mmc then initLuns luns used d
    else
      match d.onEmmc (emmcInitialize env false) with
      | (false, d) => (false, { used with mmc := true }, d)
      | (true, d) => initLuns luns { used with mmc := true } d

/-- What a session does to storage and memory, for the host. -/
inductive UmsCall
  /-- `sdmmc_storage_read` or `sdmmc_storage_write` of a volume. -/
  | transfer (type : MmcType) (isWrite : Bool) (sector count buf : ℕ)
  /-- `emmc_set_partition` -/
  | setPartition (part : ℕ)
  /-- Bytes come in. -/
  | receive (buf : ℕ) (bytes : List UInt8)

/-- One of these.  There are volumes of the storages that are used, and no others. -/
def UmsCall.perform (used : Used) (d : Disks) : UmsCall → Disks
  | transfer .sd isWrite sector count buf =>
    if used.sd then
      (d.onSd (sdmmcStorageTransfer env (sdReinit env) sector count buf isWrite)).2
    else d
  | transfer .emmc isWrite sector count buf =>
    if used.mmc then
      (d.onEmmc (sdmmcStorageTransfer env (emmcReinit env) sector count buf isWrite)).2
    else d
  | setPartition part =>
    if used.mmc then (d.onEmmc (sdmmcStorageSetMmcPartition env part)).2 else d
  | receive buf bytes =>
    { d with emmc.mem := Store.blit d.emmc.mem buf bytes.length fun k ↦ bytes.getD k 0 }

/-- The label `exit` of `usb_device_gadget_ums`. -/
def exitUms (sdInitDone : Bool) (used : Used) (d : Disks) : Disks :=
  let d := if used.mmc then endEmmc env d else d
  if used.sd then endSd env sdInitDone d else d

/-- `usb_device_gadget_ums` -/
def usbDeviceGadgetUms (luns : List MmcType) (calls : List UmsCall) (sdInitDone : Bool)
    (d : Disks) : Disks :=
  match initLuns env luns ⟨false, false⟩ d with
  | (false, used, d) => exitUms env sdInitDone used d
  | (true, used, d) => exitUms env sdInitDone used (calls.foldl (UmsCall.perform env used) d)

end

/-! ## Steps -/

/-- One thing that happens. -/
inductive Step (Path : Type)
  /-- `open_file_on` -/
  | openFileOn (path : Path) (drive : ℕ)
  /-- `open_file_on_any` -/
  | openFileOnAny (path : Path)
  /-- `unmount_drive` -/
  | unmountDrive
  /-- `init_ums_cfg` -/
  | initUmsCfg (sdInitDone : Bool)
  /-- `volume_load_part_table` -/
  | volumeLoadPartTable (device : Volumes.Device)
  /-- `usb_device_gadget_ums` -/
  | usbDeviceGadgetUms (luns : List MmcType) (calls : List UmsCall) (sdInitDone : Bool)
  /-- `toolbox`, up to its menu. -/
  | toolbox
  /-- `disk_read`, of the toolbox or of `f_read`. -/
  | diskRead (drive : Drive) (buf sector count : ℕ)
  /-- `disk_write`, of the toolbox. -/
  | diskWrite (drive : Drive) (buf sector count : ℕ)
  /-- `move_window`, of `f_read`. -/
  | moveWindow (sector : ℕ)
  /-- Another SD card is put into the slot. -/
  | exchange (card : Card) (medium : ℕ → UInt8)

section
variable {Path Meta Fil : Type} (w : Windows) (fat : FatFs Path Meta Fil)

/-- The state after a step, with the outcomes of its commands. -/
def step (x : State Meta) (i : Env × Step Path) : State Meta :=
  match i.2 with
  | .openFileOn path drive => (openFileOn i.1 w fat path drive x).2
  | .openFileOnAny path => (openFileOnAny i.1 w fat path x).2.2
  | .unmountDrive => unmountDrive x
  | .initUmsCfg sdInitDone => { x with disks := initUmsCfg i.1 sdInitDone x.disks }
  | .volumeLoadPartTable device => { x with disks := volumeLoadPartTable i.1 device x.disks }
  | .usbDeviceGadgetUms luns calls sdInitDone =>
    { x with disks := usbDeviceGadgetUms i.1 luns calls sdInitDone x.disks }
  | .toolbox => { x with disks := (x.disks.onEmmc (emmcInitialize i.1 false)).2 }
  | .diskRead drive buf sector count =>
    { x with disks := (diskRead i.1 (.full i.1) drive buf sector count x.disks).2 }
  | .diskWrite drive buf sector count =>
    { x with disks := (diskWrite i.1 (.full i.1) drive buf sector count x.disks).2 }
  | .moveWindow sector =>
    match x.fs.found with
    | none => x -- `FR_INVALID_OBJECT`
    | some _ => (onVolume i.1 w (.look false sector .done) x).2
  | .exchange card medium => { x with disks.sd.card := card, disks.sd.medium := medium }

/-- The state `main` has come to when it first opens a file: nothing has been mounted, and the SD
card has not been tried. -/
structure Booted (x : State Meta) : Prop where
  curDrive : x.curDrive = none
  found : x.fs.found = none
  mode : x.disks.sd.mode ≠ 0

end

end Files
end SdLoader
