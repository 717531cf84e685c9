import SdLoader.Lib.Store
import SdLoader.Lib.Machine
import SdLoader.Usb.Session

/-!
# The volumes of a USB session

`sdloader/ums.c`.  A menu has an entry for each of four volumes, the SD card and three partitions of
the eMMC.  The entry of a volume opens a second menu beside it, in which it is chosen how the volume
is mounted and which window of the storage it is: a partition, or an offset and a size.  `Start`
hands the volumes that are mounted to the gadget.

* `configU32Selector` — the number an offset or a size is changed to, byte by byte.
* `volumeLoadPartTable` — what is read when the menu of a volume is opened: the GPT of the storage
  or its MBR, and its size.
* `configOffsetUpdate`, `configSizeUpdate`, `configPartUpdate`, `configModeUpdate` — the updates of
  that menu; each callback ends in one of them.
* `Ui.step` — one callback, or the way into a menu or out of it.
* `UmsCfg.volumes` — what `ums_start_ums` hands over.

A step has an `Input`, which says what is chosen and what the storages are at the time: another card
may be in the slot each time something is read.

The partition table is a variable of the callback that opens the menu, so it is there as long as the
menu is.  `VolumeCfg.medium` is for statements only: what was on the storage when its table was last
read.
-/

set_option autoImplicit false

namespace SdLoader
namespace Volumes

open Usb (MmcType sub32 add32)

/-! ## Numbers chosen by byte -/

/-- Byte `i` of `v`. -/
def byteOf (i v : ℕ) : ℕ := v / 256 ^ i % 256

/-- `(v & ~mask) | (b << 8 * i)` -/
def withByte (i v b : ℕ) : ℕ := v - byteOf i v * 256 ^ i + b * 256 ^ i

/-- `BTN_VOL_DOWN` and `BTN_VOL_UP` -/
inductive Press
  | down
  | up

/-- `while(temp > max) temp -= step`.  After so many passes `temp` has taken every value it can
take, and if none of them will do the loop does not end. -/
def lowerTo (max step : ℕ) : ℕ → ℕ → Option ℕ
  | 0, _ => none
  | fuel + 1, temp =>
    if temp ≤ max then some temp else lowerTo max step fuel (sub32 temp step)

/-- The number after a button has been read once, with byte `i` selected. -/
def press (max i : ℕ) (btn : Press) (val : ℕ) : Option ℕ :=
  let step := 256 ^ i
  match btn with
  | .down =>
    (lowerTo max step (2 ^ 32) (withByte i val (byteOf i (sub32 val step)))).map
      fun temp ↦ withByte i val (byteOf i temp)
  | .up =>
    let temp := withByte i val (byteOf i (add32 val step))
    let temp := if max < temp then 0 else temp
    some (withByte i val (byteOf i temp))

/-- The number after a list of readings, with byte `i` selected. -/
def pressAll (max i : ℕ) (val : ℕ) (btns : List Press) : Option ℕ :=
  btns.foldlM (fun val btn ↦ press max i btn val) val

/-- `config_u32_selector`: `presses i` are the buttons that are read while byte `i` is selected. -/
def configU32Selector (initial max : ℕ) (presses : ℕ → List Press) : Option ℕ :=
  [3, 2, 1, 0].foldlM (fun val i ↦ pressAll max i val (presses i)) initial

/-! ## Storages -/

/-- A storage: how many sectors it has, and what is on it, by byte. -/
structure Medium where
  /-- `sec_cnt` -/
  secCnt : ℕ
  /-- What is on it. -/
  data : ℕ → UInt8
  /-- There are some. -/
  some : 1 ≤ secCnt
  /-- Their number has 32 bits. -/
  small : secCnt < 2 ^ 32

/-- The storages at the time of a step, and how the operations on them turn out. -/
structure Storages where
  /-- The SD card. -/
  sd : Medium
  /-- The eMMC. -/
  emmc : Medium
  /-- How many sectors each of the two boot partitions of the eMMC has.  Nothing reads it. -/
  boot : ℕ
  /-- `sd_initialize(false)` -/
  sdInitialize : Bool
  /-- `emmc_initialize(false)` -/
  emmcInitialize : Bool
  /-- Can the sectors of the GPT be read? -/
  readGpt : Bool
  /-- Can the sector of the MBR be read? -/
  readMbr : Bool

/-- The number of sectors, by storage. -/
def Storages.secCnt (w : Storages) : MmcType → ℕ
  | .sd => w.sd.secCnt
  | .emmc => w.emmc.secCnt

/-! ## Partition tables -/

/-- `part_entry_t` -/
structure PartEntry where
  /-- `offset` -/
  offset : ℕ
  /-- `size` -/
  size : ℕ

/-- `part_table_t` -/
structure PartTable where
  /-- `n_parts` -/
  nParts : ℕ
  /-- `parts`, of which there are 30. -/
  parts : ℕ → PartEntry

/-- The table as it is cleared. -/
def PartTable.zero : PartTable := ⟨0, fun _ ↦ ⟨0, 0⟩⟩

/-- A number of 64 bits. -/
def long (d : ℕ → UInt8) (a : ℕ) : ℕ := Store.word d a + 2 ^ 32 * Store.word d (a + 4)

/-- `EFI_PART` -/
def efiPart : ℕ := 0x5452415020494645

/-- `gpt->header.signature` -/
def gptSignature (d : ℕ → UInt8) : ℕ := long d 512

/-- `gpt->header.num_part_ents` -/
def numPartEnts (d : ℕ → UInt8) : ℕ := Store.word d (512 + 0x50)

/-- Where `gpt->entries[i]` is. -/
def gptEntry (i : ℕ) : ℕ := 1024 + 128 * i

/-- `gpt->entries[i].type_guid`, which is zero if the entry is not used. -/
def gptType (d : ℕ → UInt8) (i : ℕ) : List UInt8 := Store.slice d (gptEntry i) 16

/-- `gpt->entries[i].lba_start` -/
def lbaStart (d : ℕ → UInt8) (i : ℕ) : ℕ := long d (gptEntry i + 0x20)

/-- `gpt->entries[i].lba_end` -/
def lbaEnd (d : ℕ → UInt8) (i : ℕ) : ℕ := long d (gptEntry i + 0x28)

/-- The table of a GPT.  The entries are numbers of 64 bits, those of the table are not. -/
def gptTable (d : ℕ → UInt8) : PartTable where
  nParts := min 30 (numPartEnts d)
  parts i :=
    if i < min 30 (numPartEnts d) then
      ⟨lbaStart d i % 2 ^ 32, (lbaEnd d i + (2 ^ 64 - lbaStart d i) + 1) % 2 ^ 32⟩
    else ⟨0, 0⟩

/-- `mbr->partitions[i].start_sct` -/
def startSct (d : ℕ → UInt8) (i : ℕ) : ℕ := Store.word d (0x1BE + 16 * i + 8)

/-- `mbr->partitions[i].size_sct` -/
def sizeSct (d : ℕ → UInt8) (i : ℕ) : ℕ := Store.word d (0x1BE + 16 * i + 12)

/-- The loop over the entries of an MBR, from entry `i` on.  It ends at the first that is empty. -/
def mbrLoop (d : ℕ → UInt8) : ℕ → ℕ → PartTable → PartTable
  | 0, _, table => table
  | rest + 1, i, table =>
    if sizeSct d i = 0 then table
    else mbrLoop d rest (i + 1) ⟨i, Function.update table.parts i ⟨startSct d i, sizeSct d i⟩⟩

/-- The table of an MBR.  `n_parts` is the index of the last entry, not the number of them. -/
def mbrTable (d : ℕ → UInt8) : PartTable := mbrLoop d 4 0 .zero

/-! ## Volumes -/

/-- `MEMLOADER_SD`, `MEMLOADER_EMMC_GPP`, `MEMLOADER_EMMC_BOOT0` and `MEMLOADER_EMMC_BOOT1` -/
inductive Device
  | sd
  | emmcGpp
  | emmcBoot0
  | emmcBoot1
  deriving DecidableEq

/-- `MEMLOADER_NO_MOUNT`, `MEMLOADER_RO` and `MEMLOADER_RW` -/
inductive MountMode
  | noMount
  | ro
  | rw
  deriving DecidableEq

/-- `MEMLOADER_SUBSTORAGE_BY_PART` and `MEMLOADER_SUBSTORAGE_BY_OFFSET` -/
inductive Substorage
  | byPart
  | byOffset
  deriving DecidableEq

/-- `ums_volume_cfg_t` -/
structure VolumeCfg where
  /-- `mount_mode` -/
  mountMode : MountMode
  /-- `offset` -/
  offset : ℕ
  /-- `size` -/
  size : ℕ
  /-- `mode` -/
  mode : Substorage
  /-- `part` -/
  part : ℕ
  /-- `phys_size` -/
  physSize : ℕ
  /-- What was on the storage when its table was last read. -/
  medium : ℕ → UInt8

/-- The sectors `volume_load_part_table` takes a boot partition to have. -/
def bootSectors : ℕ := 0x2000

/-- The end of `volume_load_part_table`: the table and the size of a storage that could be
initialised. -/
def readPartTable (w : Storages) (m : Medium) (c : VolumeCfg) : PartTable × VolumeCfg :=
  if !w.readGpt then (.zero, { c with physSize := 0 })
  else
    let loaded := { c with physSize := m.secCnt, size := m.secCnt, medium := m.data }
    if gptSignature m.data = efiPart then (gptTable m.data, loaded)
    else if !w.readMbr then (.zero, { c with physSize := 0 })
    else (mbrTable m.data, loaded)

/-- `volume_load_part_table`.  If nothing can be read, the size is left as it was. -/
def volumeLoadPartTable (device : Device) (w : Storages) (c : VolumeCfg) : PartTable × VolumeCfg :=
  match device with
  | .sd => if !w.sdInitialize then (.zero, { c with physSize := 0 }) else readPartTable w w.sd c
  | .emmcGpp =>
    if !w.emmcInitialize then (.zero, { c with physSize := 0 }) else readPartTable w w.emmc c
  | .emmcBoot0 => (.zero, { c with physSize := bootSectors, size := bootSectors })
  | .emmcBoot1 => (.zero, { c with physSize := bootSectors, size := bootSectors })

/-! ## The menu of a volume -/

/-- The menu of a volume that is open: the configuration of the volume, the table, and which entries
are disabled. -/
structure Page where
  /-- The configuration. -/
  cfg : VolumeCfg
  /-- `part_table` -/
  table : PartTable
  /-- `disabled` of the entry `Mode` -/
  modeDisabled : Bool
  /-- `disabled` of the entry `Part.` -/
  partDisabled : Bool
  /-- `disabled` of the entry `Offset` -/
  offsetDisabled : Bool
  /-- `disabled` of the entry `Size` -/
  sizeDisabled : Bool

namespace Page

/-- The entries of the window are disabled, unless the volume is mounted and the window is given
that way. -/
def hides (p : Page) (mode : Substorage) : Bool := p.cfg.mode ≠ mode || p.cfg.mountMode = .noMount

/-- `config_offset_update` -/
def configOffsetUpdate (p : Page) : Page := { p with offsetDisabled := p.hides .byOffset }

/-- `config_size_update` -/
def configSizeUpdate (p : Page) : Page :=
  let rest := sub32 p.cfg.physSize p.cfg.offset
  let size := min p.cfg.size rest
  { p with
    sizeDisabled := p.hides .byOffset
    cfg.size := if size = 0 then rest else size }

/-- `config_part_update`, up to the updates it ends with. -/
def selectPart (p : Page) : Page :=
  let p := if 99 < p.cfg.part then { p with cfg.part := 99 } else p
  if p.hides .byPart then { p with partDisabled := true }
  else
    { p with
      partDisabled := false
      cfg.offset := (p.table.parts p.cfg.part).offset
      cfg.size := (p.table.parts p.cfg.part).size }

/-- `config_part_update` -/
def configPartUpdate (p : Page) : Page := p.selectPart.configOffsetUpdate.configSizeUpdate

/-- `config_mode_update`, up to the updates it ends with. -/
def selectMode (p : Page) : Page :=
  if p.table.nParts = 0 then { p with modeDisabled := true, cfg.mode := .byOffset }
  else { p with modeDisabled := p.cfg.mountMode = .noMount }

/-- `config_mode_update` -/
def configModeUpdate (p : Page) : Page :=
  p.selectMode.configPartUpdate.configOffsetUpdate.configSizeUpdate

/-- `mount_mode++` and `mount_mode %= 3` -/
def nextMount : MountMode → MountMode
  | .noMount => .ro
  | .ro => .rw
  | .rw => .noMount

/-- `config_mount_mode_cb`, as far as it is about the volume. -/
def configMountModeCb (p : Page) : Page :=
  { p with cfg.mountMode := nextMount p.cfg.mountMode }.configModeUpdate

/-- The other way to give the window, if there is one. -/
def nextMode (p : Page) : Substorage :=
  match p.cfg.mode with
  | .byOffset => if 0 < p.table.nParts then .byPart else .byOffset
  | .byPart => .byOffset

/-- `config_mode_cb` -/
def configModeCb (p : Page) : Page := { p with cfg.mode := p.nextMode }.configModeUpdate

/-- The next partition. -/
def nextPart (p : Page) : ℕ := (p.cfg.part + 1) % p.table.nParts

/-- `config_part_cb` -/
def configPartCb (p : Page) : Page := { p with cfg.part := p.nextPart }.configPartUpdate

/-- `config_offset_cb`, unless the choice of the number does not come to an end. -/
def configOffsetCb (presses : ℕ → List Press) (p : Page) : Option Page :=
  (configU32Selector p.cfg.offset (sub32 p.cfg.physSize 1) presses).map fun v ↦
    { p with cfg.offset := v }.configOffsetUpdate.configSizeUpdate

/-- `config_size_cb`, unless the choice of the number does not come to an end. -/
def configSizeCb (presses : ℕ → List Press) (p : Page) : Option Page :=
  (configU32Selector p.cfg.size (sub32 p.cfg.physSize p.cfg.offset) presses).map fun v ↦
    { p with cfg.size := v }.configSizeUpdate

/-- The menu of a volume as `config_volume_cb` opens it. -/
def opened (device : Device) (w : Storages) (c : VolumeCfg) : Page :=
  match volumeLoadPartTable device w c with
  | (table, c) => configModeUpdate ⟨c, table, false, false, false, false⟩

end Page

/-! ## The menu of the volumes -/

/-- `ums_loader_ums_cfg_t` -/
structure UmsCfg where
  /-- `volume_cfgs` -/
  volumeCfgs : Device → VolumeCfg
  /-- `storage_state & MEMLOADER_ERROR_SD` -/
  errorSd : Bool
  /-- `storage_state & MEMLOADER_ERROR_EMMC` -/
  errorEmmc : Bool

/-- A configuration as it is cleared, with the mode `init_ums_cfg` gives it. -/
def VolumeCfg.init (mountMode : MountMode) : VolumeCfg :=
  ⟨mountMode, 0, 0, .byOffset, 0, 0, fun _ ↦ 0⟩

/-- `init_ums_cfg` -/
def initUmsCfg (w : Storages) : UmsCfg where
  volumeCfgs
    | .sd => .init (if w.sdInitialize then .rw else .noMount)
    | .emmcGpp => .init .noMount
    | .emmcBoot0 => .init .noMount
    | .emmcBoot1 => .init .noMount
  errorSd := !w.sdInitialize
  errorEmmc := !w.emmcInitialize

/-- What `ums_start_ums` hands over for a volume. -/
def handOver (type : MmcType) (partition : ℕ) (error : Bool) (c : VolumeCfg) : Option Usb.Volume :=
  if c.mountMode = .noMount ∨ error then none
  else some ⟨type, partition, c.offset, c.size, if c.mountMode = .ro then 1 else 0⟩

namespace UmsCfg

/-- What `ums_start_ums` hands over for each of the volumes. -/
def volume (u : UmsCfg) : Device → Option Usb.Volume
  | .sd => handOver .sd 0 u.errorSd (u.volumeCfgs .sd)
  | .emmcGpp => handOver .emmc 1 u.errorEmmc (u.volumeCfgs .emmcGpp)
  | .emmcBoot0 => handOver .emmc 2 u.errorEmmc (u.volumeCfgs .emmcBoot0)
  | .emmcBoot1 => handOver .emmc 3 u.errorEmmc (u.volumeCfgs .emmcBoot1)

/-- The volumes, in the order of the menu. -/
def devices : List Device := [.sd, .emmcGpp, .emmcBoot0, .emmcBoot1]

/-- The volumes `ums_start_ums` hands to the gadget. -/
def volumes (u : UmsCfg) : List Usb.Volume := devices.filterMap u.volume

/-- `disabled` of the entry of a volume, as `config_volume_update` sets it. -/
def entryDisabled (u : UmsCfg) : Device → Bool
  | .sd => u.errorSd
  | _ => u.errorEmmc

/-- `disabled` of the entry `Start`, as `config_volume_update` sets it. -/
def startDisabled (u : UmsCfg) : Bool := devices.all fun d ↦ (u.volumeCfgs d).mountMode = .noMount

/-- The configuration of a volume changed. -/
def set (u : UmsCfg) (d : Device) (c : VolumeCfg) : UmsCfg :=
  { u with volumeCfgs := Function.update u.volumeCfgs d c }

end UmsCfg

/-- What is on the screen. -/
inductive Screen
  /-- The menu the volumes are opened from. -/
  | closed
  /-- The menu of the volumes. -/
  | menu
  /-- The menu of a volume.  Its configuration is the one in `page`. -/
  | volume (device : Device) (page : Page)
  /-- A number is being chosen, and that does not come to an end. -/
  | stuck

/-- The program, while the volumes are configured.  The entries of the menu of the volumes are
always disabled as `config_volume_update` has set them, since everything they depend on is followed
by it. -/
structure Ui where
  /-- `ums_cfg` -/
  cfg : UmsCfg
  /-- What is on the screen. -/
  screen : Screen

/-- What is chosen in a menu. -/
inductive Pick
  /-- The menu of the volumes is opened. -/
  | enter
  /-- A volume. -/
  | volume (device : Device)
  /-- `Start` -/
  | start
  /-- `Reload` -/
  | reload
  /-- `Back` -/
  | back
  /-- `Mount` -/
  | mount
  /-- `Mode` -/
  | mode
  /-- `Part.` -/
  | part
  /-- `Offset`, and the buttons that are read. -/
  | offset (presses : ℕ → List Press)
  /-- `Size`, and the buttons that are read. -/
  | size (presses : ℕ → List Press)

/-- What a step is given. -/
structure Input where
  /-- What is chosen. -/
  pick : Pick
  /-- The storages. -/
  storages : Storages

namespace Ui

/-- The menu of a volume shown, with its configuration. -/
def show_ (u : Ui) (d : Device) (p : Page) : Ui := ⟨u.cfg.set d p.cfg, .volume d p⟩

/-- The same, if there is one to show. -/
def showOr (u : Ui) (d : Device) : Option Page → Ui
  | some p => u.show_ d p
  | none => { u with screen := .stuck }

/-- What is chosen in the menu of the volumes. -/
def onMenu (u : Ui) (i : Input) : Ui :=
  match i.pick with
  | .volume d =>
    if u.cfg.entryDisabled d then u else u.show_ d (.opened d i.storages (u.cfg.volumeCfgs d))
  | .reload => { u with cfg := initUmsCfg i.storages }
  | .back => { u with screen := .closed }
  | _ => u

/-- What is chosen in the menu of a volume. -/
def onPage (u : Ui) (d : Device) (p : Page) (i : Input) : Ui :=
  match i.pick with
  | .mount => u.show_ d p.configMountModeCb
  | .mode => if p.modeDisabled then u else u.show_ d p.configModeCb
  | .part => if p.partDisabled then u else u.show_ d p.configPartCb
  | .offset presses => if p.offsetDisabled then u else u.showOr d (p.configOffsetCb presses)
  | .size presses => if p.sizeDisabled then u else u.showOr d (p.configSizeCb presses)
  | .back => { u with screen := .menu }
  | _ => u

/-- One choice. -/
def step (u : Ui) (i : Input) : Ui :=
  match u.screen with
  | .closed => match i.pick with
    | .enter => ⟨initUmsCfg i.storages, .menu⟩
    | _ => u
  | .menu => u.onMenu i
  | .volume d p => u.onPage d p i
  | .stuck => u

/-- Does the step hand volumes to the gadget? -/
def Starts (u : Ui) (i : Input) : Prop :=
  u.screen = .menu ∧ i.pick = .start ∧ u.cfg.startDisabled = false

end Ui

end Volumes
end SdLoader
