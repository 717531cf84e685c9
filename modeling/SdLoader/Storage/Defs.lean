import SdLoader.Lib.Loop
import SdLoader.Lib.Store
import SdLoader.MemoryMap

/-!
# The eMMC under the disk layer

`bdk/storage/sdmmc.c` and `bdk/storage/emmc.c`.  A transfer is split into commands of at most
`0xFFFF` blocks; a command that fails is tried again, and when five tries in a row have failed the
card is taken through its initialisation again, at a lower speed, and the transfer starts over.

The card is at the other end of the wire: it has media of its own, one for each hardware partition,
and of these one is selected.  What the driver believes to be selected is `Storage.partition`, which
its initialisation clears together with everything else it knows.  `CMD0` puts the card back to its
power-on state, in which the user area is selected.

An `Env` says how each command turns out.  A command that fails may have reached the card all the
same, so a failed `CMD0` may have reset it and a failed transfer may have moved any part of its
data.  Every transfer command is recorded as a `Move`, with the partition that was selected when it
was given.
-/

set_option autoImplicit false

namespace SdLoader
namespace Storage

/-- `SDMMC_DAT_BLOCKSIZE` -/
def blockSize : ℕ := 512

@[simp] theorem blockSize_eq : blockSize = 512 := rfl

/-- How one command turns out. -/
structure Outcome where
  /-- Did it succeed? -/
  ok : Bool
  /-- Did a command that failed reach the card? -/
  took : Bool
  /-- The cells a failed transfer changes. -/
  hit : ℕ → Bool
  /-- What it leaves in them. -/
  junk : ℕ → UInt8

/-- The outcome of every command, in the order they are given. -/
abbrev Env := ℕ → Outcome

/-- What the registers of the card say.  They do not change. -/
structure Card where
  /-- `MMC_CARD_CCS`: are blocks addressed by number? -/
  ccs : Bool
  /-- `mmca_vsn` of the CSD. -/
  mmcaVsn : ℕ
  /-- `capacity` of the CSD. -/
  capacity : ℕ
  /-- The 512 bytes of the extended CSD. -/
  extCsd : ℕ → UInt8

/-- `sdmmc_storage_t`: what the driver knows about the card. -/
structure Dev where
  /-- `initialized` -/
  initialized : Bool
  /-- `partition` -/
  partition : ℕ
  /-- `has_sector_access` -/
  hasSectorAccess : Bool
  /-- `sec_cnt` -/
  secCnt : ℕ

/-- The storage after `memset(storage, 0, sizeof(sdmmc_storage_t))`. -/
def Dev.zero : Dev := ⟨false, 0, false, 0⟩

/-- One transfer command. -/
structure Move where
  /-- The partition that was selected on the card. -/
  part : ℕ
  /-- Is it a write? -/
  isWrite : Bool
  /-- The first sector, as the driver counts them. -/
  sector : ℕ
  /-- The number of sectors. -/
  count : ℕ
  /-- The address in memory. -/
  buf : ℕ
  /-- Did it succeed? -/
  ok : Bool
  deriving DecidableEq

/-- Driver, card and memory. -/
structure State where
  /-- `emmc_storage` -/
  dev : Dev
  /-- `emmc_mode` -/
  mode : ℕ
  /-- The card's registers. -/
  card : Card
  /-- The partition selected on the card. -/
  selected : ℕ
  /-- The card's media, by partition and byte. -/
  media : ℕ → ℕ → UInt8
  /-- Memory, by address. -/
  mem : ℕ → UInt8
  /-- Commands given so far. -/
  tick : ℕ
  /-- Transfer commands given so far, latest first. -/
  moves : List Move

/-! ## Commands -/

/-- A command without data, of which only the result matters. -/
def command (env : Env) (s : State) : Bool × State :=
  ((env s.tick).ok, { s with tick := s.tick + 1 })

/-- Operations one after the other, given up at the first that fails. -/
def inOrder : List (State → Bool × State) → State → Bool × State
  | [], s => (true, s)
  | f :: fs, s =>
    match f s with
    | (true, s) => inOrder fs s
    | (false, s) => (false, s)

/-- `_sdmmc_storage_go_idle_state`: `CMD0`. -/
def goIdleState (env : Env) (s : State) : Bool × State :=
  let o := env s.tick
  (o.ok, { s with tick := s.tick + 1, selected := if o.ok || o.took then 0 else s.selected })

/-- The block the card takes the address `sector` for.  The shift to a byte address is 32 bits
wide. -/
def cardBlock (s : State) (sector : ℕ) : ℕ :=
  let arg := if s.dev.hasSectorAccess then sector else sector * 512 % 2 ^ 32
  if s.card.ccs then arg else arg / 512

/-- What a transfer that succeeds does. -/
def moveData (isWrite : Bool) (block count buf : ℕ) (s : State) : State :=
  let a := blockSize * block
  let n := blockSize * count
  if isWrite then
    { s with media := fun p ↦
        if p = s.selected then Store.blit (s.media p) a n fun k ↦ s.mem (buf + k) else s.media p }
  else
    { s with mem := Store.blit s.mem buf n fun k ↦ s.media s.selected (a + k) }

/-- What a transfer that fails may have done. -/
def smearData (o : Outcome) (isWrite : Bool) (block count buf : ℕ) (s : State) : State :=
  let a := blockSize * block
  let n := blockSize * count
  if isWrite then
    { s with media := fun p ↦
        if p = s.selected then Store.smear (s.media p) a n o.hit o.junk else s.media p }
  else { s with mem := Store.smear s.mem buf n o.hit o.junk }

/-- `_sdmmc_storage_readwrite_ex`, with `blkcnt_out`.  What is done to stop a transfer that failed
has no result. -/
def readwriteEx (env : Env) (sector numSectors buf : ℕ) (isWrite : Bool) (s : State) :
    Bool × ℕ × State :=
  let o := env s.tick
  let count := min numSectors 0xFFFF
  let block := cardBlock s sector
  let mv : Move := ⟨s.selected, isWrite, sector, count, buf, o.ok⟩
  let s := { s with tick := s.tick + 1, moves := mv :: s.moves }
  if o.ok then (true, count, moveData isWrite block count buf s)
  else (false, 0, smearData o isWrite block count buf s)

/-! ## Initialisation -/

/-- `sdmmc_storage_end` -/
def storageEnd (env : Env) (s : State) : State :=
  match goIdleState env s with
  | (false, s) => s
  | (true, s) => { s with dev := { s.dev with initialized := false } }

/-- `_mmc_storage_get_op_cond` -/
def getOpCond (env : Env) (s : State) : Bool × State :=
  ((env s.tick).ok, { s with
    tick := s.tick + 1
    dev := { s.dev with
      hasSectorAccess := if (env s.tick).ok then s.dev.hasSectorAccess || s.card.ccs
        else s.dev.hasSectorAccess } })

/-- `_mmc_storage_parse_csd` -/
def parseCsd (s : State) : Bool × State :=
  (true, { s with dev := { s.dev with secCnt := s.card.capacity } })

/-- `mmc_storage_get_ext_csd`, into `SDMMC_UPPER_BUFFER` -/
def getExtCsd (env : Env) (s : State) : Bool × State :=
  let o := env s.tick
  let buf := sdmmcUpperBuffer
  let s := { s with tick := s.tick + 1 }
  if o.ok then
    let mem := Store.blit s.mem buf blockSize s.card.extCsd
    (true, { s with mem := mem, dev := { s.dev with secCnt := Store.word s.card.extCsd 212 } })
  else (false, { s with mem := Store.smear s.mem buf blockSize o.hit o.junk })

/-- `_mmc_storage_switch_buswidth`: there is nothing to do for a width of one. -/
def switchBuswidth (env : Env) (oneBit : Bool) (s : State) : Bool × State :=
  if oneBit then (true, s) else command env s

/-- The part of `sdmmc_storage_init_mmc` for cards of version 4 and later.  The last command stands
for those of `_mmc_storage_enable_highspeed`. -/
def initMmcV4 (env : Env) (oneBit : Bool) (s : State) : Bool × State :=
  if s.card.mmcaVsn < 4 then (true, s)
  else inOrder [switchBuswidth env oneBit, getExtCsd env, command env] s

/-- `storage->initialized = 1` -/
def initDone (s : State) : Bool × State :=
  (true, { s with dev := { s.dev with initialized := true } })

/-- `sdmmc_storage_init_mmc` -/
def sdmmcStorageInitMmc (env : Env) (oneBit : Bool) (s : State) : Bool × State :=
  inOrder
    [command env, -- `sdmmc_init`
      goIdleState env, getOpCond env,
      command env, -- `_sdmmc_storage_get_cid`
      command env, -- `_mmc_storage_set_relative_addr`
      command env, -- `_sdmmc_storage_get_csd`
      parseCsd,
      command env, -- `sdmmc_setup_clock`
      command env, -- `_sdmmc_storage_select_card`
      command env, -- `_sdmmc_storage_set_blocklen`
      initMmcV4 env oneBit, initDone] { s with dev := .zero }

/-- `EMMC_MMC_HS400` -/
def emmcMmcHs400 : ℕ := 4

/-- `emmc_mode--` on 32 bits. -/
def modeDec (mode : ℕ) : ℕ := if mode = 0 then 0xffffffff else mode - 1

/-- `emmc_init_retry` -/
def emmcInitRetry (env : Env) (powerCycle : Bool) (s : State) : Bool × State :=
  let s := if powerCycle then storageEnd env { s with mode := modeDec s.mode } else s
  match s.mode with
  | 0 => (false, s)
  | 1 => sdmmcStorageInitMmc env true s
  | 2 => sdmmcStorageInitMmc env false s
  | 3 => sdmmcStorageInitMmc env false s
  | 4 => sdmmcStorageInitMmc env false s
  | _ => sdmmcStorageInitMmc env false { s with mode := emmcMmcHs400 }

/-- The loop of `emmc_initialize`: one pass is one look at the result of the attempt before. -/
def emmcInitializePass (env : Env) (p : Bool × State) : Loop.Pass (Bool × State) (Bool × State) :=
  match p with
  | (true, s) => .leave (true, s)
  | (false, s) => if s.mode = 0 then .leave (false, s) else .again (emmcInitRetry env true s)

/-- `emmc_initialize`.  The mode drops on every pass, from four at the most. -/
def emmcInitialize (env : Env) (powerCycle : Bool) (s : State) : Bool × State :=
  let s := if s.mode = 0 then { s with mode := emmcMmcHs400 } else s
  let s := if powerCycle then storageEnd env s else s
  match Loop.run (emmcInitializePass env) 6 (emmcInitRetry env false s) with
  | .leave (true, s) => (true, s)
  | .leave (false, s) => (false, storageEnd env s)
  | .again (_, s) => (false, s)

/-! ## The transfer loop -/

/-- The re-initialisation of `_sdmmc_storage_readwrite` for the eMMC; `first` is `first_reinit`. -/
def emmcReinit (env : Env) (first : Bool) (s : State) : Bool × State :=
  if first then emmcInitialize env true s else emmcInitRetry env true s

/-- The variables of `_sdmmc_storage_readwrite`. -/
structure Xfer where
  /-- `sct_off` -/
  sctOff : ℕ
  /-- `sct_total` -/
  sctTotal : ℕ
  /-- `bbuf` -/
  bbuf : ℕ
  /-- `retries` -/
  retries : ℕ
  /-- `first_reinit` -/
  firstReinit : Bool
  /-- Driver, card and memory. -/
  s : State

/-- The variables as the loop is entered, and again when the transfer starts over. -/
def Xfer.start (sector numSectors buf retries : ℕ) (first : Bool) (s : State) : Xfer :=
  ⟨sector, numSectors, buf, retries, first, s⟩

/-- One pass through the label `reinit_try`: a command, and what follows from its result. -/
def readwritePass (env : Env) (reinit : Bool → State → Bool × State) (sector numSectors buf : ℕ)
    (isWrite : Bool) (x : Xfer) : Loop.Pass Xfer (Bool × State) :=
  match readwriteEx env x.sctOff (min x.sctTotal 0xFFFF) x.bbuf isWrite x.s with
  | (true, blkcnt, s) =>
    let sctTotal := x.sctTotal - blkcnt
    if sctTotal = 0 then .leave (true, s)
    else
      .again ⟨(x.sctOff + blkcnt) % 2 ^ 32, sctTotal, x.bbuf + blockSize * blkcnt, 5,
        x.firstReinit, s⟩
  | (false, _, s) =>
    let retries := x.retries - 1
    if retries ≠ 0 then .again { x with retries := retries, s := s }
    else
      match reinit x.firstReinit s with
      | (true, s) => .again (.start sector numSectors buf 3 false s)
      | (false, s) => .leave (false, s)

/-- `_sdmmc_storage_readwrite`.  The transfer starts over five times at the most, and a command that
does not make it shorter uses up one of five tries. -/
def sdmmcStorageReadwrite (env : Env) (reinit : Bool → State → Bool × State)
    (sector numSectors buf : ℕ) (isWrite : Bool) (s : State) : Bool × State :=
  if !s.dev.initialized then (false, s)
  else if numSectors = 0 then (true, s)
  else
    match Loop.run (readwritePass env reinit sector numSectors buf isWrite) (30 * numSectors + 36)
      (.start sector numSectors buf 5 true s) with
    | .leave r => r
    | .again x => (false, x.s)

/-- `sdmmc_storage_set_mmc_partition`.  A switch that fails may have reached the card, and so has
one whose status check fails. -/
def sdmmcStorageSetMmcPartition (env : Env) (partition : ℕ) (s : State) : Bool × State :=
  let o := env s.tick
  let s := { s with
    tick := s.tick + 1, selected := if o.ok || o.took then partition else s.selected }
  if !o.ok then (false, s)
  else
    match command env s with
    | (false, s) => (false, s)
    | (true, s) => (true, { s with dev := { s.dev with partition := partition } })

end Storage
end SdLoader
