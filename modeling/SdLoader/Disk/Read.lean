import SdLoader.Disk.Integrity

/-!
# What a read that reports success has read

`disk_read` of any drive, with the re-initialisation that may happen inside it.  A drive is a `view`
of one of the two storages, a number of sectors into it, and what is said here is said of the view,
for all the drives at once.

* `diskRead_eq` — a read is its transfer;
* `diskRead_done` — a read that returns `RES_OK` has brought the sectors of a partition that is
  `Possible`: the drive's own, the one selected before, or the user area.  Outside its buffer it has
  changed nothing but what `Spills` into memory from the card's registers;
* `diskRead_one` — a read whose transfer needs one command, and gets it;
* `diskRead_of_ok`, `diskRead_stays` — the case in which everything succeeds, and that in which
  everything does but the switch;
* `diskRead_relapse` — the case in which the first five transfer commands fail, and nothing else.
-/

set_option autoImplicit false

namespace SdLoader
namespace Disk

open Storage

variable {env : Env} {d : Disks} {drive : Drive} {buf sector count : ℕ}

/-! ## A drive as a view of its storage -/

/-- The storage behind a drive. -/
def Drive.view (drive : Drive) (d : Disks) : State := if drive = .sd then d.sdView else d.emmc

/-- The sectors of the partition before the first one of the drive. -/
def Drive.shift : Drive → ℕ
  | .boot1_1mb => 0x100000 / 512
  | _ => 0

/-- The re-initialisation of the storage behind a drive. -/
def Drive.reinit (drive : Drive) (env : Env) : Bool → State → Bool × State :=
  if drive = .sd then sdReinit env else emmcReinit env

theorem reinit_sd (h : drive = .sd) (env : Env) : drive.reinit env = sdReinit env := if_pos h

theorem reinit_emmc (h : drive ≠ .sd) (env : Env) : drive.reinit env = emmcReinit env := if_neg h

/-- A partition that a read of the drive may end up on. -/
def Drive.Possible (drive : Drive) (d : Disks) (p : ℕ) : Prop :=
  p = 0 ∨ p = (drive.view d).selected ∨ drive.part = some p

/-- A byte that a transfer may leave at an address that is not in its buffer.  An SD card in mode
zero is not initialised again. -/
def Drive.spill (drive : Drive) (s : State) (a : ℕ) (b : UInt8) : Prop :=
  if drive = .sd then s.mode ≠ 0 ∧ registerSpill s.card a b else extCsdSpill s.card a b

/-- The same for a read of the drive. -/
def Drive.Spills (drive : Drive) (d : Disks) : ℕ → UInt8 → Prop := drive.spill (drive.view d)

theorem view_emmc (hdrive : drive ≠ .sd) (d : Disks) : drive.view d = d.emmc := if_neg hdrive

/-- Memory and the clock are those of either storage. -/
theorem view_mem (drive : Drive) (d : Disks) :
    (drive.view d).mem = d.emmc.mem ∧ (drive.view d).tick = d.emmc.tick := by
  rw [Drive.view]
  split <;> exact ⟨rfl, rfl⟩

theorem actualSector_eq (h : drive.shift + sector < 2 ^ 32) :
    drive.actualSector sector = drive.shift + sector := by
  cases drive
  case boot1_1mb =>
    change (sector + 0x100000 / 512) % 2 ^ 32 = 0x100000 / 512 + sector
    rw [Nat.add_comm sector]
    exact Nat.mod_eq_of_lt h
  all_goals
    change sector % 2 ^ 32 = 0 + sector
    rw [Nat.zero_add]
    exact Nat.mod_eq_of_lt (by simpa only [Drive.shift, Nat.zero_add] using h)

/-- Everything the disk layer knows of a storage, but for its record of transfers. -/
structure Same (s s' : State) : Prop where
  dev : s'.dev = s.dev
  mode : s'.mode = s.mode
  card : s'.card = s.card
  selected : s'.selected = s.selected
  media : s'.media = s.media
  mem : s'.mem = s.mem
  tick : s'.tick = s.tick

theorem Same.addressed {s s' : State} (h : Same s s') (haddr : Addressed s) : Addressed s' := by
  rw [Addressed, h.dev, h.card]
  exact haddr

/-- The storages with another state of the one behind the drive. -/
def put (drive : Drive) (d : Disks) (s : State) : Disks :=
  if drive = .sd then d.withSdView s else { d with emmc := s }

/-- The state is the one that has been put there; the SD storage has one medium, which is always
selected. -/
theorem view_put {s : State} (h : drive = .sd → s.selected = 0 ∧ ∀ p, s.media p = s.media 0) :
    Same s (drive.view (put drive d s)) := by
  by_cases hdrive : drive = .sd
  · subst hdrive
    exact ⟨rfl, rfl, rfl, (h rfl).1.symm, funext fun p ↦ ((h rfl).2 p).symm, rfl, rfl⟩
  · rw [put, if_neg hdrive, view_emmc hdrive]
    exact ⟨rfl, rfl, rfl, rfl, rfl, rfl, rfl⟩

/-- The transfer of a read. -/
def readOf (env : Env) (drive : Drive) (buf sector count : ℕ) (d : Disks) : Bool × State :=
  sdmmcStorageTransfer env (drive.reinit env) (drive.actualSector sector) count buf false
    (drive.view (ensurePartition env drive d).2)

/-- **A read is its transfer**: the result is that of the transfer, and so is the state behind the
drive. -/
theorem diskRead_eq (env : Env) (drive : Drive) (buf sector count : ℕ) (d : Disks) :
    diskRead env (.full env) drive buf sector count d =
      (dresult (readOf env drive buf sector count d).1,
        put drive (ensurePartition env drive d).2 (readOf env drive buf sector count d).2) := by
  rw [diskRead, transfer, put, readOf]
  by_cases hdrive : drive = .sd
  · subst hdrive
    rw [if_pos rfl, if_pos rfl]
    rfl
  · rw [if_neg hdrive, if_neg hdrive, view_emmc hdrive, reinit_emmc hdrive]
    rfl

section
variable {res : Bool} {s' : State} (hbuf : buf ≠ 0 ∧ buf % 8 = 0)
  (hsector : drive.shift + sector < 2 ^ 32)
  (hrun : sdmmcStorageReadwrite env (drive.reinit env) (drive.shift + sector) count buf false
    (drive.view (ensurePartition env drive d).2) = (res, s'))
include hbuf hsector hrun

/-- The transfer, for a buffer and a sector that it takes as they are. -/
theorem diskRead_run :
    diskRead env (.full env) drive buf sector count d =
      (dresult res, put drive (ensurePartition env drive d).2 s') := by
  rw [diskRead_eq, readOf, actualSector_eq hsector, sdmmcStorageTransfer, if_pos hbuf, hrun]

theorem diskRead_view (hmedia : s'.media = (drive.view d).media)
    (hsel : drive = .sd → s'.selected = 0) :
    Same s' (drive.view (diskRead env (.full env) drive buf sector count d).2) := by
  rw [diskRead_run hbuf hsector hrun]
  refine view_put fun hdrive ↦ ?_
  subst hdrive
  refine ⟨hsel rfl, fun p ↦ ?_⟩
  rw [hmedia]
  rfl

end

/-- A read of an unaligned buffer, or of a storage that is not initialised, fails. -/
theorem diskRead_fails (h : buf = 0 ∨ buf % 8 ≠ 0 ∨ (drive.view d).dev.initialized = false) :
    (diskRead env (.full env) drive buf sector count d).1 = .error := by
  have hsame : (drive.view (ensurePartition env drive d).2).dev.initialized =
      (drive.view d).dev.initialized := by
    by_cases hdrive : drive = .sd
    · subst hdrive
      rfl
    · rw [view_emmc hdrive, view_emmc hdrive]
      exact (ensurePartition_spec env drive d).2.2.2
  have hnone : (readOf env drive buf sector count d).1 = false := by
    rw [readOf, sdmmcStorageTransfer]
    split
    · next hbuf =>
      have hoff := (h.resolve_left hbuf.1).resolve_left (not_not_intro hbuf.2)
      rw [sdmmcStorageReadwrite, hsame, hoff]
      rfl
    · rfl
  rw [diskRead_eq, hnone]
  rfl

/-! ## The switch before it -/

/-- What the switch leaves alone, and what it may have selected. -/
structure Ensured (drive : Drive) (s s' : State) : Prop where
  card : s'.card = s.card
  media : s'.media = s.media
  mem : s'.mem = s.mem
  mode : s'.mode = s.mode
  initialized : s'.dev.initialized = s.dev.initialized
  access : s'.dev.hasSectorAccess = s.dev.hasSectorAccess
  selected : s'.selected = s.selected ∨ drive.part = some s'.selected

theorem ensurePartition_ensured (env : Env) (drive : Drive) (d : Disks) :
    Ensured drive (drive.view d) (drive.view (ensurePartition env drive d).2) := by
  by_cases hdrive : drive = .sd
  · subst hdrive
    exact ⟨rfl, rfl, rfl, rfl, rfl, rfl, .inl rfl⟩
  · obtain ⟨-, hmedia, hcard, hinit⟩ := ensurePartition_spec env drive d
    obtain ⟨hmem, haccess⟩ := ensurePartition_keeps env drive d
    rw [view_emmc hdrive, view_emmc hdrive]
    refine ⟨hcard, hmedia, hmem, ?_, hinit, haccess, ?_⟩ <;> rw [ensurePartition] <;> split
    · rfl
    · split
      · next part _ _ =>
        change (sdmmcStorageSetMmcPartition env part d.emmc).2.mode = d.emmc.mode
        rw [sdmmcStorageSetMmcPartition]
        cases h0 : (env d.emmc.tick).ok <;> cases h1 : (env (d.emmc.tick + 1)).ok <;>
          simp [command, h1]
      · rfl
    · exact .inl rfl
    · next part hpart =>
      split
      · obtain ⟨-, -, -, -, hok, hfail⟩ := setMmcPartition_spec env part d.emmc
        by_cases hs : SwitchOk env d.emmc
        · exact .inr (hpart.trans (congrArg some (hok hs).2.symm))
        · have hsel := (hfail hs).2
          split at hsel
          · exact .inr (hpart.trans (congrArg some hsel.symm))
          · exact .inl hsel
      · exact .inl rfl

theorem Ensured.addressed {s s' : State} (h : Ensured drive s s') (haddr : Addressed s) :
    Addressed s' := by
  rw [Addressed, h.initialized, h.access, h.card]
  exact haddr

/-! ## A read that succeeds -/

/-- What a read that returns `RES_OK` has done. -/
structure ReadDone (drive : Drive) (sector count buf : ℕ) (d d' : Disks) : Prop where
  card : (drive.view d').card = (drive.view d).card
  addressed : Addressed (drive.view d')
  media : (drive.view d').media = (drive.view d).media
  /-- The next read can end up where this one could. -/
  possible : ∀ p, drive.Possible d' p → drive.Possible d p
  /-- And it can spill what this one could. -/
  spills : ∀ a b, drive.Spills d' a b → drive.Spills d a b
  /-- Memory outside the buffer. -/
  mem : ∀ a, a < buf ∨ buf + blockSize * count ≤ a →
    d'.emmc.mem a = d.emmc.mem a ∨ drive.Spills d a (d'.emmc.mem a)
  /-- Memory inside. -/
  data : ∃ p, drive.Possible d p ∧ ∀ k < blockSize * count,
    d'.emmc.mem (buf + k) = (drive.view d).media p (blockSize * (drive.shift + sector) + k)

theorem sdInitialize_mode_zero {s : State} (h : s.mode = 0) :
    (sdInitialize env true s).1 = false := by
  have hend : (storageEnd env s).mode = 0 := (storageEnd_mode env s).trans h
  have hretry : sdInitRetry env false (storageEnd env s) = (false, storageEnd env s) := by
    rw [sdInitRetry]
    simp only [Bool.false_eq_true, ↓reduceIte, hend]
  have hpass : ∃ t, sdInitializePass env (false, storageEnd env s) = .leave (false, t) := by
    rw [sdInitializePass]
    have hmode : (command env (storageEnd env s)).2.mode = 0 := hend
    rcases hc : command env (storageEnd env s) with ⟨_ | _, t⟩ <;> rw [hc] at hmode <;> dsimp only
    · exact ⟨_, rfl⟩
    · exact ⟨_, if_pos hmode⟩
  obtain ⟨t, ht⟩ := hpass
  rw [sdInitialize]
  simp only [↓reduceIte]
  rw [hretry, Loop.run_succ_leave ht]

/-- What a transfer has brought into memory, for the partition it has ended up on. -/
structure Brought (spills : ℕ → UInt8 → Prop) (sector count buf : ℕ) (s s' : State) : Prop where
  card : s'.card = s.card
  addressed : Addressed s'
  media : s'.media = s.media
  selected : s'.selected = s.selected ∨ s'.selected = 0
  mem : ∀ a, a < buf ∨ buf + blockSize * count ≤ a → s'.mem a = s.mem a ∨ spills a (s'.mem a)
  copied : Copied s' sector count buf

theorem brought_of_ended {P : ℕ → Prop} {spill : Spill} {s s' : State}
    (h : Ended P spill false sector count buf s (true, s'))
    (hP : ∀ p, P p → p = s.selected ∨ p = 0) :
    Brought (spill s.card) sector count buf s s' := by
  have hkept := h.kept rfl
  exact ⟨hkept.card, fun _ ↦ hkept.access,
    funext fun p ↦ funext fun y ↦ h.media p y (fun h ↦ by cases h),
    hP _ hkept.part, fun a hout ↦ hkept.mem a fun _ ↦ hout, h.copied rfl⟩

/-- **A transfer that succeeds has brought its sectors**, on either storage. -/
theorem readwrite_brought {s s' : State} (haddr : Addressed s)
    (hreach : sector + count ≤ reach s.card)
    (hrun : sdmmcStorageReadwrite env (drive.reinit env) sector count buf false s = (true, s')) :
    Brought (drive.spill s) sector count buf s s' ∧ (drive = .sd → s.mode = 0 → s'.mode = 0) := by
  by_cases hdrive : drive = .sd
  · have hspill : drive.spill s = fun a b ↦ s.mode ≠ 0 ∧ registerSpill s.card a b :=
      funext fun a ↦ funext fun b ↦ if_pos hdrive
    rw [hspill]
    rw [reinit_sd hdrive] at hrun
    have hor : ∀ p, p = s.selected ∨ p = 0 → p = s.selected ∨ p = 0 := fun _ ↦ id
    by_cases hmode : s.mode = 0
    · -- There is no re-initialisation in this mode.
      have hzero : ∀ s : State, s.mode = 0 → (sdReinit env true s).1 = false :=
        fun s ↦ sdInitialize_mode_zero
      have hnone := readwrite_unrecovered (I := fun s ↦ s.mode = 0)
        (fun sector n buf s hs ↦ (readwriteEx_mode env sector n buf false s).trans hs) hzero hmode
        (congrArg Prod.fst hrun)
      have hended :=
        readwrite_ended env buf false (restores_none fun p ↦ p = s.selected ∨ p = 0) haddr
        (.inl rfl) hreach
      have hstill := readwrite_still env sector count buf false s
      rw [hrun] at hnone
      rw [← hnone] at hended hstill
      obtain ⟨hcard, haddr', hmedia, hsel, hmem, hcopied⟩ := brought_of_ended hended hor
      exact ⟨⟨hcard, haddr', hmedia, hsel, fun a hout ↦ (hmem a hout).imp id False.elim, hcopied⟩,
        fun _ h ↦ hstill.mode.trans h⟩
    · have hended := readwrite_ended env buf false
        (sdReinit_restores env (P := fun p ↦ p = s.selected ∨ p = 0) (.inr rfl)) haddr
          (.inl rfl) hreach
      rw [hrun] at hended
      obtain ⟨hcard, haddr', hmedia, hsel, hmem, hcopied⟩ := brought_of_ended hended hor
      exact ⟨⟨hcard, haddr', hmedia, hsel, fun a hout ↦ (hmem a hout).imp id fun h ↦ ⟨hmode, h⟩,
        hcopied⟩, fun _ h ↦ absurd h hmode⟩
  · have hspill : drive.spill s = extCsdSpill s.card :=
      funext fun a ↦ funext fun b ↦ if_neg hdrive
    rw [hspill]
    rw [reinit_emmc hdrive] at hrun
    have hended := readwrite_ended env buf false
      (emmcReinit_restores env (P := fun p ↦ p = s.selected ∨ p = 0) (.inr rfl)) haddr
        (.inl rfl) hreach
    rw [hrun] at hended
    exact ⟨brought_of_ended hended fun _ ↦ id, fun h ↦ absurd h hdrive⟩

/-- A read that returns `RES_OK` is a transfer that has brought its sectors. -/
theorem diskRead_brought (haddr : Addressed (drive.view d)) (hcount : count ≠ 0)
    (hreach : drive.shift + sector + count ≤ reach (drive.view d).card)
    (hok : (diskRead env (.full env) drive buf sector count d).1 = .ok) :
    ∃ s', Same s' (drive.view (diskRead env (.full env) drive buf sector count d).2) ∧
      Brought (drive.spill (drive.view (ensurePartition env drive d).2))
        (drive.shift + sector) count buf (drive.view (ensurePartition env drive d).2) s' ∧
      (drive = .sd → (drive.view (ensurePartition env drive d).2).mode = 0 → s'.mode = 0) := by
  have hensured := ensurePartition_ensured env drive d
  have hle := Nat.le_trans hreach (reach_le (drive.view d).card)
  have hpos := Nat.pos_of_ne_zero hcount
  have hbuf : buf ≠ 0 ∧ buf % 8 = 0 := by
    by_contra hcon
    have herr : (diskRead env (.full env) drive buf sector count d).1 = .error := by
      refine diskRead_fails ?_
      by_cases hzero : buf = 0
      · exact .inl hzero
      · exact .inr (.inl fun h ↦ hcon ⟨hzero, h⟩)
    rw [herr] at hok
    cases hok
  have hsector : drive.shift + sector < 2 ^ 32 := by omega
  rcases hrun : sdmmcStorageReadwrite env (drive.reinit env) (drive.shift + sector) count buf false
    (drive.view (ensurePartition env drive d).2) with ⟨_ | _, s'⟩
  · rw [diskRead_run hbuf hsector hrun] at hok
    cases hok
  obtain ⟨hbrought, hmode⟩ :=
    readwrite_brought (hensured.addressed haddr) (by rw [hensured.card]; exact hreach) hrun
  have hsd : drive = .sd → s'.selected = 0 := by
    intro hdrive
    subst hdrive
    exact hbrought.selected.elim id id
  exact ⟨s', diskRead_view hbuf hsector hrun (hbrought.media.trans hensured.media) hsd, hbrought,
    hmode⟩

/-- **A read that returns `RES_OK`.** -/
theorem diskRead_done (haddr : Addressed (drive.view d)) (hcount : count ≠ 0)
    (hreach : drive.shift + sector + count ≤ reach (drive.view d).card)
    (hok : (diskRead env (.full env) drive buf sector count d).1 = .ok) :
    ReadDone drive sector count buf d (diskRead env (.full env) drive buf sector count d).2 := by
  have hensured := ensurePartition_ensured env drive d
  obtain ⟨s', hsame, ⟨hcard, haddr', hmedia, hsel, hmem, hcopied⟩, hmode⟩ :=
    diskRead_brought haddr hcount hreach hok
  generalize (diskRead env (.full env) drive buf sector count d).2 = d' at hsame ⊢
  have hselected : drive.Possible d s'.selected := by
    rcases hsel with hsel | hsel
    · rw [hsel]
      exact .inr (hensured.selected)
    · exact .inl hsel
  have hmem' : d'.emmc.mem = s'.mem := (view_mem drive d').1.symm.trans hsame.mem
  refine ⟨hsame.card.trans (hcard.trans hensured.card), hsame.addressed haddr',
    hsame.media.trans (hmedia.trans hensured.media), fun p hp ↦ ?_, fun a b hspill ↦ ?_,
    fun a hout ↦ ?_, s'.selected, hselected, fun k hk ↦ ?_⟩
  · rcases hp with hp | hp | hp
    · exact .inl hp
    · rw [hp, hsame.selected]
      exact hselected
    · exact .inr (.inr hp)
  · rw [Drive.Spills, Drive.spill] at hspill ⊢
    rw [hsame.card, hsame.mode, hcard, hensured.card] at hspill
    split at hspill
    · next hdrive =>
      rw [if_pos hdrive]
      refine ⟨fun hzero ↦ hspill.1 (hmode hdrive (hensured.mode.trans hzero)), hspill.2⟩
    · next hdrive =>
      rw [if_neg hdrive]
      exact hspill
  · have hspill : drive.spill (drive.view (ensurePartition env drive d).2) = drive.Spills d := by
      funext a b
      rw [Drive.Spills, Drive.spill, Drive.spill, hensured.mode, hensured.card]
    have h := hmem a hout
    rw [hspill, hensured.mem, (view_mem drive d).1] at h
    rw [hmem']
    exact h
  · rw [hmem', hcopied k hk, hmedia, hensured.media]

/-! ## A read of one command -/

/-- The storage behind the drive is initialised. -/
structure Ready (drive : Drive) (d : Disks) : Prop where
  initialized : (drive.view d).dev.initialized = true
  addressed : Addressed (drive.view d)

/-- The sectors can be read into the buffer. -/
structure Readable (drive : Drive) (sector count buf : ℕ) (d : Disks) : Prop where
  some : count ≠ 0
  aligned : buf ≠ 0 ∧ buf % 8 = 0
  within : drive.shift + sector + count ≤ reach (drive.view d).card

theorem Readable.lt (h : Readable drive sector count buf d) : drive.shift + sector < 2 ^ 32 := by
  have hle := Nat.le_trans h.within (reach_le (drive.view d).card)
  have hpos := Nat.pos_of_ne_zero h.some
  omega

/-- What one read command has done to the storage behind the drive. -/
structure Taken (sector count buf : ℕ) (s s' : State) : Prop where
  dev : s'.dev = s.dev
  mode : s'.mode = s.mode
  card : s'.card = s.card
  selected : s'.selected = s.selected
  media : s'.media = s.media
  tick : s'.tick = s.tick + 1
  mem : ∀ a, a < buf ∨ buf + blockSize * count ≤ a → s'.mem a = s.mem a
  copied : Copied s' sector count buf

/-- **A read whose transfer is one command, which succeeds**, after whatever the switch has done. -/
theorem diskRead_one (hready : Ready drive d) (h : Readable drive sector count buf d)
    (hle : count ≤ 0xFFFF)
    (hok : (env (drive.view (ensurePartition env drive d).2).tick).ok = true) :
    (diskRead env (.full env) drive buf sector count d).1 = .ok ∧
      Taken (drive.shift + sector) count buf (drive.view (ensurePartition env drive d).2)
        (drive.view (diskRead env (.full env) drive buf sector count d).2) := by
  have hensured := ensurePartition_ensured env drive d
  have hsd : drive = .sd → (drive.view (ensurePartition env drive d).2).selected = 0 := by
    intro hdrive
    subst hdrive
    rfl
  generalize hs : drive.view (ensurePartition env drive d).2 = s at hensured hok hsd ⊢
  have hrun := readwrite_one (drive.reinit env) (drive.shift + sector) buf false
    (hensured.initialized.trans hready.initialized) h.some hle hok
  obtain ⟨hdev, hcard, hmem, hmedia⟩ :=
    readwriteEx_keeps env (drive.shift + sector) count buf false s
  obtain ⟨-, -, hsel, -, htick⟩ := readwriteEx_spec env (drive.shift + sector) count buf false s
  have hmode := readwriteEx_mode env (drive.shift + sector) count buf false s
  have hcopied := readwriteEx_copied (drive.shift + sector) count buf false hok
  have hmedia' : (readwriteEx env (drive.shift + sector) count buf false s).2.2.media = s.media :=
    funext fun p ↦ funext fun y ↦ hmedia p y (fun h ↦ by cases h)
  have hblock : cardBlock s (drive.shift + sector) = drive.shift + sector := by
    refine cardBlock_of_lt (hensured.addressed hready.addressed
      (hensured.initialized.trans hready.initialized)) ?_
    have hreach := h.within
    have hpos := Nat.pos_of_ne_zero h.some
    rw [hensured.card]
    omega
  rw [hblock, Nat.min_eq_left hle] at hcopied
  rw [Nat.min_eq_left hle] at hmem
  generalize (readwriteEx env (drive.shift + sector) count buf false s).2.2 = s' at *
  rw [← hs] at hrun
  have hsame := diskRead_view h.aligned h.lt hrun (hmedia'.trans hensured.media)
    fun hdrive ↦ hsel.trans (hsd hdrive)
  rw [diskRead_run h.aligned h.lt hrun] at hsame ⊢
  refine ⟨rfl, hsame.dev.trans hdev, hsame.mode.trans hmode, hsame.card.trans hcard,
    hsame.selected.trans hsel, hsame.media.trans hmedia', hsame.tick.trans htick, fun a hout ↦ ?_,
    fun k hk ↦ ?_⟩
  · rw [hsame.mem]
    exact hmem a fun _ ↦ hout
  · rw [hsame.mem, hsame.media, hsame.selected]
    exact hcopied k hk

/-- What a read leaves when nothing has gone wrong. -/
structure ReadOk (drive : Drive) (count buf : ℕ) (d d' : Disks) : Prop where
  ready : Ready drive d'
  /-- The next read begins with its transfer. -/
  tick : d'.emmc.tick + switchTime drive d' = d.emmc.tick + switchTime drive d + 1
  step : d.emmc.tick ≤ d'.emmc.tick
  mode : (drive.view d').mode = (drive.view d).mode
  card : (drive.view d').card = (drive.view d).card
  media : (drive.view d').media = (drive.view d).media
  mem : ∀ a, a < buf ∨ buf + blockSize * count ≤ a → d'.emmc.mem a = d.emmc.mem a

theorem switchTime_of_none (hpart : drive.part = none) : switchTime drive d = 0 := by
  rw [switchTime, hpart]

theorem switchTime_of_partition {part : ℕ} (hpart : drive.part = some part)
    (h : d.emmc.dev.partition = part) : switchTime drive d = 0 := by
  rw [switchTime, hpart]
  exact if_neg (not_not_intro h)

/-- **A read whose switch and transfer succeed.** -/
theorem diskRead_of_ok (hready : Ready drive d) (h : Readable drive sector count buf d)
    (hle : count ≤ 0xFFFF)
    (hok : OkBetween env d.emmc.tick (d.emmc.tick + switchTime drive d + 1)) :
    (diskRead env (.full env) drive buf sector count d).1 = .ok ∧
      ReadOk drive count buf d (diskRead env (.full env) drive buf sector count d).2 := by
  obtain ⟨htick, hpart⟩ := ensurePartition_of_ok fun n hn hn' ↦ hok n hn (Nat.lt_succ_of_lt hn')
  have hensured := ensurePartition_ensured env drive d
  have hnow : (drive.view (ensurePartition env drive d).2).tick =
      d.emmc.tick + switchTime drive d :=
    (view_mem drive _).2.trans htick
  obtain ⟨hres, htaken⟩ :=
    diskRead_one hready h hle (hnow ▸ hok _ (Nat.le_add_right _ _) (Nat.lt_succ_self _))
  refine ⟨hres, ⟨?_, ?_⟩, ?_, ?_, htaken.mode.trans hensured.mode, htaken.card.trans hensured.card,
    htaken.media.trans hensured.media, fun a hout ↦ ?_⟩
  · rw [htaken.dev]
    exact hensured.initialized.trans hready.initialized
  · rw [Addressed, htaken.dev, htaken.card]
    exact hensured.addressed hready.addressed
  · rw [← (view_mem drive _).2, htaken.tick, hnow]
    cases hdrive : drive.part with
    | none => rw [switchTime_of_none hdrive, switchTime_of_none hdrive]
    | some part =>
      have hne : drive ≠ .sd := by
        rintro rfl
        cases hdrive
      have hdev := htaken.dev
      rw [view_emmc hne, view_emmc hne] at hdev
      rw [switchTime_of_partition hdrive ((congrArg Dev.partition hdev).trans
        (hpart part hdrive).1)]
  · rw [← (view_mem drive (diskRead env _ drive buf sector count d).2).2, htaken.tick, hnow]
    omega
  · rw [← (view_mem drive _).1, htaken.mem a hout, hensured.mem, (view_mem drive d).1]

/-- A device on which every read of the drive is without a switch: the driver takes the partition to
be selected, and every command succeeds; or it does not, and every second command is lost. -/
def Stuck (drive : Drive) (env : Env) (s : State) : Prop :=
  (∀ part, drive.part = some part → s.dev.partition = part) ∧
      (∀ n, s.tick ≤ n → (env n).ok = true) ∨
    (∃ part, drive.part = some part ∧ s.dev.partition ≠ part) ∧
      ∀ i, (env (s.tick + 2 * i)).ok = false ∧ (env (s.tick + 2 * i)).took = false ∧
        (env (s.tick + 2 * i + 1)).ok = true

/-- What such a read leaves. -/
structure ReadStays (drive : Drive) (sector count buf : ℕ) (env : Env) (d d' : Disks) : Prop where
  ready : Ready drive d'
  stuck : Stuck drive env (drive.view d')
  selected : (drive.view d').selected = (drive.view d).selected
  card : (drive.view d').card = (drive.view d).card
  media : (drive.view d').media = (drive.view d).media
  mem : ∀ a, a < buf ∨ buf + blockSize * count ≤ a → d'.emmc.mem a = d.emmc.mem a
  data : ∀ k < blockSize * count, d'.emmc.mem (buf + k) =
    (drive.view d).media (drive.view d).selected (blockSize * (drive.shift + sector) + k)

/-- The switch of such a read. -/
theorem ensurePartition_stays (hstuck : Stuck drive env (drive.view d)) :
    (drive.view (ensurePartition env drive d).2).dev = (drive.view d).dev ∧
      (drive.view (ensurePartition env drive d).2).selected = (drive.view d).selected ∧
      (env (drive.view (ensurePartition env drive d).2).tick).ok = true ∧
      ∀ s' : State, s'.dev = (drive.view d).dev →
        s'.tick = (drive.view (ensurePartition env drive d).2).tick + 1 → Stuck drive env s' := by
  rcases hstuck with ⟨hrecord, hok⟩ | ⟨⟨part, hpart, hne⟩, hlost⟩
  · have hnone : drive.view (ensurePartition env drive d).2 = drive.view d := by
      rw [ensurePartition]
      cases hpart : drive.part with
      | none => rfl
      | some part =>
        have hdrive : drive ≠ .sd := by
          rintro rfl
          cases hpart
        have hsame := hrecord part hpart
        rw [view_emmc hdrive] at hsame
        dsimp only
        rw [if_neg (not_not_intro hsame)]
    rw [hnone]
    refine ⟨rfl, rfl, hok _ (Nat.le_refl _),
      fun s' hdev htick ↦ .inl ⟨hdev ▸ hrecord, fun n hn ↦ ?_⟩⟩
    exact hok n (by omega)
  · have hdrive : drive ≠ .sd := by
      rintro rfl
      cases hpart
    obtain ⟨hfail, htook, hok⟩ := hlost 0
    rw [view_emmc hdrive] at *
    have hswitch : (ensurePartition env drive d).2.emmc =
        { d.emmc with tick := d.emmc.tick + 1 } := by
      rw [ensurePartition, hpart]
      dsimp only
      rw [if_pos hne]
      change (sdmmcStorageSetMmcPartition env part d.emmc).2 = _
      rw [Nat.mul_zero, Nat.add_zero] at hfail htook
      rw [sdmmcStorageSetMmcPartition]
      simp only [hfail, htook, Bool.or_self, Bool.false_eq_true, ↓reduceIte, Bool.not_false]
    rw [view_emmc hdrive, hswitch]
    refine ⟨rfl, rfl, hok, fun s' hdev htick ↦ .inr ⟨⟨part, hpart, hdev ▸ hne⟩, fun i ↦ ?_⟩⟩
    have htick' : s'.tick + 2 * i = d.emmc.tick + 2 * (i + 1) := by
      rw [htick]
      dsimp only
      omega
    rw [htick']
    exact hlost (i + 1)

/-- **A read whose switch is lost** brings the sectors of the partition that is selected, and leaves
it selected. -/
theorem diskRead_stays (hready : Ready drive d) (h : Readable drive sector count buf d)
    (hle : count ≤ 0xFFFF) (hstuck : Stuck drive env (drive.view d)) :
    (diskRead env (.full env) drive buf sector count d).1 = .ok ∧
      ReadStays drive sector count buf env d
        (diskRead env (.full env) drive buf sector count d).2 := by
  have hensured := ensurePartition_ensured env drive d
  obtain ⟨hdev, hsel, hok, hnext⟩ := ensurePartition_stays hstuck
  obtain ⟨hres, htaken⟩ := diskRead_one hready h hle hok
  generalize drive.view (ensurePartition env drive d).2 = s at *
  generalize (diskRead env (.full env) drive buf sector count d).2 = d' at *
  have hmem' := (view_mem drive d').1
  refine ⟨hres, ⟨?_, ?_⟩, ?_, htaken.selected.trans hsel, htaken.card.trans hensured.card,
    htaken.media.trans hensured.media, fun a hout ↦ ?_, fun k hk ↦ ?_⟩
  · rw [htaken.dev]
    exact hensured.initialized.trans hready.initialized
  · rw [Addressed, htaken.dev, htaken.card]
    exact hensured.addressed hready.addressed
  · exact hnext _ (htaken.dev.trans hdev) htaken.tick
  · rw [← hmem', htaken.mem a hout, hensured.mem, (view_mem drive d).1]
  · rw [← hmem', htaken.copied k hk, htaken.media, htaken.selected, hensured.media, hsel]

/-! ## A read that is taken up again -/

section
variable {hit : ℕ → Bool} {junk : ℕ → UInt8}

/-- A re-initialisation whose commands all succeed: the card is ready, and its registers are in
memory. -/
theorem reinit_of_ok {s : State} (hok : OkFrom env s.tick) (hmode : drive = .sd → s.mode ≠ 0)
    (henv : ∀ n, (env n).hit = hit ∧ (env n).junk = junk) :
    ((drive.reinit env) true s).1 = true ∧
      (drive ≠ .sd → ∀ a b, extCsdSpill s.card a b → ((drive.reinit env) true s).2.mem a = b) ∧
      (drive = .sd → ∀ a, sdmmcUpperBuffer ≤ a → a < sdmmcUpperBuffer + cmdBlockSize →
        hit a = true → ((drive.reinit env) true s).2.mem a = junk a) := by
  by_cases hdrive : drive = .sd
  · obtain ⟨oneBit, s₁, -, heq, htrue⟩ := sdInitialize_of_ok true hok (hmode hdrive)
    have hre' : (drive.reinit env) true s = sdInitialize env true s := by rw [reinit_sd hdrive]; rfl
    rw [hre']
    refine ⟨htrue, fun h ↦ absurd hdrive h, fun _ a ha ha' hhit ↦ ?_⟩
    rw [heq] at htrue ⊢
    exact sdmmcStorageInitSd_junk htrue ha ha' hhit henv
  · have htrue : (emmcReinit env true s).1 = true := emmcInitialize_of_ok true hok
    rw [reinit_emmc hdrive]
    refine ⟨htrue, fun _ a b hspill ↦ ?_, fun h ↦ absurd h hdrive⟩
    obtain ⟨hvsn, k, hk, rfl, rfl⟩ := hspill
    have hcard := (emmcReinit_initialised env true s).1.card
    exact (emmcReinit_hasExtCsd htrue (hcard.symm ▸ hvsn) k hk).trans
      (congrFun (congrArg Card.extCsd hcard) k)

/-- What a read leaves that has been taken up again. -/
structure ReadAgain (drive : Drive) (sector count buf : ℕ) (hit : ℕ → Bool) (junk : ℕ → UInt8)
    (env : Env) (d d' : Disks) : Prop where
  ready : Ready drive d'
  ok : OkFrom env d'.emmc.tick
  card : (drive.view d').card = (drive.view d).card
  media : (drive.view d').media = (drive.view d).media
  /-- The sectors are those of the user area. -/
  data : ∀ k < blockSize * count,
    d'.emmc.mem (buf + k) = (drive.view d).media 0 (blockSize * (drive.shift + sector) + k)
  /-- The extended CSD is in the scratch sector. -/
  emmc : drive ≠ .sd → ∀ a b, a < buf ∨ buf + blockSize * count ≤ a →
    extCsdSpill (drive.view d).card a b → d'.emmc.mem a = b
  /-- Or what the SD card has left there. -/
  sd : drive = .sd → ∀ a, a < buf ∨ buf + blockSize * count ≤ a → sdmmcUpperBuffer ≤ a →
    a < sdmmcUpperBuffer + cmdBlockSize → hit a = true → d'.emmc.mem a = junk a

theorem reinit_restores (drive : Drive) (env : Env) :
    ∃ spill, Restores (· = 0) spill (drive.reinit env) := by
  by_cases hdrive : drive = .sd
  · rw [reinit_sd hdrive]
    exact ⟨registerSpill, sdReinit_restores env rfl⟩
  · rw [reinit_emmc hdrive]
    exact ⟨extCsdSpill, emmcReinit_restores env rfl⟩

/-- **A read whose first five transfer commands fail, and nothing else.** -/
theorem diskRead_relapse (hready : Ready drive d) (h : Readable drive sector count buf d)
    (hmode : drive = .sd → (drive.view d).mode ≠ 0)
    (henv : env = relapse (d.emmc.tick + switchTime drive d) hit junk) :
    (diskRead env (.full env) drive buf sector count d).1 = .ok ∧
      ReadAgain drive sector count buf hit junk env d
        (diskRead env (.full env) drive buf sector count d).2 := by
  have htick := (view_mem drive _).2.trans (ensurePartition_of_ok (henv ▸ relapse_between _ _)).1
  have hensured := ensurePartition_ensured env drive d
  have hsd : drive = .sd → (drive.view (ensurePartition env drive d).2).selected = 0 := by
    intro hdrive
    subst hdrive
    rfl
  generalize hs : drive.view (ensurePartition env drive d).2 = s at htick hensured hsd
  obtain ⟨spill, hre⟩ := reinit_restores drive env
  obtain ⟨-, hcard₅, -, -, hmedia₅⟩ :=
    attempts_keeps env (drive.shift + sector) count buf false s 5
  have htick₅ : (attempts env (drive.shift + sector) count buf false s 5).tick = s.tick + 5 :=
    attempts_tick 5
  have hok₅ : OkFrom env (s.tick + 5) := htick.symm ▸ henv ▸ relapse_after
  obtain ⟨hreinit, hemmc, hcsd⟩ := reinit_of_ok (htick₅.symm ▸ hok₅)
    (fun hdrive ↦ (attempts_mode env _ count buf false s 5).trans hensured.mode ▸ hmode hdrive)
    (fun _ ↦ henv ▸ ⟨rfl, rfl⟩ : ∀ n, (env n).hit = hit ∧ (env n).junk = junk)
  have hidle := hre.idle true (attempts env (drive.shift + sector) count buf false s 5)
  have hfresh := hre.fresh hreinit
  obtain ⟨s', hrun, hended⟩ :=
    readwrite_restarts hre (hensured.initialized.trans hready.initialized)
    h.some (htick.symm ▸ henv ▸ fun i hi ↦ relapse_during hi) hok₅ hreinit
    (hensured.card.symm ▸ h.within)
  generalize attempts env (drive.shift + sector) count buf false s 5 = s₅ at *
  generalize hs₁ : (drive.reinit env true s₅).2 = s₁ at *
  have hkept := hended.kept rfl
  have hcopied := hended.copied rfl
  dsimp only at hkept hcopied
  have hpart : s'.selected = 0 := hkept.part
  have hcard : s'.card = (drive.view d).card :=
    hkept.card.trans (hidle.card.trans (hcard₅.trans hensured.card))
  have hmedia : s'.media = (drive.view d).media := by
    refine Eq.trans (funext fun p ↦ funext fun y ↦ hended.media p y (fun h ↦ by cases h)) ?_
    exact hidle.media.trans ((hmedia₅ rfl).trans hensured.media)
  rw [← hs] at hrun
  have hsame := diskRead_view h.aligned h.lt hrun hmedia fun _ ↦ hpart
  rw [diskRead_run h.aligned h.lt hrun] at hsame ⊢
  refine ⟨rfl, ?_⟩
  dsimp only at hsame ⊢
  generalize put drive (ensurePartition env drive d).2 s' = d' at hsame ⊢
  have hmem' : d'.emmc.mem = s'.mem := (view_mem drive d').1.symm.trans hsame.mem
  have hout' : ∀ a, a < buf ∨ buf + blockSize * count ≤ a → d'.emmc.mem a = s₁.mem a := by
    intro a hout
    rw [hmem']
    exact (hkept.mem a fun _ ↦ hout).resolve_right id
  refine ⟨⟨?_, ?_⟩, fun n hn ↦ hok₅ n ?_, hsame.card.trans hcard, hsame.media.trans hmedia,
    fun k hk ↦ ?_, fun hne a b hout hspill ↦ ?_, fun hsd a hout ha ha' hhit ↦ ?_⟩
  · rw [hsame.dev]
    exact hkept.initialized
  · exact hsame.addressed fun _ ↦ hkept.access
  · have htick' : d'.emmc.tick = s'.tick := (view_mem drive d').2.symm.trans hsame.tick
    have hle := hkept.tick
    have hle' := hidle.tick
    omega
  · rw [hmem', hcopied k hk, hmedia, hpart]
  · rw [hout' a hout]
    exact hemmc hne a b (by rw [hcard₅, hensured.card]; exact hspill)
  · rw [hout' a hout]
    exact hcsd hsd a ha ha' hhit

end

end Disk
end SdLoader
