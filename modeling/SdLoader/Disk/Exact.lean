import SdLoader.Disk.Read
import SdLoader.Lib.Machine

/-!
# When a read that reports success has read what it was asked for

`disk_read` is given the number of a sector in 64 bits, and uses 32 of them.  It switches the
partition first and does not look at whether that has worked, and in the middle of a transfer the
switch can be undone by a re-initialisation.  So the sectors that are in the buffer in the end may
be those of another place or of another partition, and the call returns `RES_OK`.

* `diskRead_served` — a read whose transfer commands all succeed, whatever the sector is;
* `diskRead_lost` — one whose switch is lost, which brings the sectors of the partition that was
  selected before;
* `Exact` — what a caller relies on: if the call returns `RES_OK`, all the sectors are ones the card
  has, and the buffer holds them;
* `Agrees` — a partition holds in these sectors what the partition of the drive holds;
* `exact_iff` — exactly where this is so;
* `addressed_run` — that the driver is right about how a card is addressed, which all this rests on,
  holds after every run of calls.
-/

set_option autoImplicit false

namespace SdLoader
namespace Disk

open Storage

variable {env : Env} {d : Disks} {drive : Drive} {buf sector count : ℕ}

/-! ## A read whose transfer succeeds -/

/-- The call gets as far as a transfer command. -/
structure Tried (drive : Drive) (buf count : ℕ) (d : Disks) : Prop where
  initialized : (drive.view d).dev.initialized = true
  some : count ≠ 0
  aligned : buf ≠ 0 ∧ buf % 8 = 0

/-- A transfer whose commands all succeed, of sectors the driver can address, brings them. -/
theorem readwrite_copied_of_ok {s : State} (reinit : Bool → State → Bool × State) (buf : ℕ)
    (hinit : s.dev.initialized = true) (haddr : Addressed s) (hcount : count ≠ 0)
    (hreach : sector + count ≤ reach s.card) (hok : OkFrom env s.tick) :
    ∃ s', sdmmcStorageReadwrite env reinit sector count buf false s = (true, s') ∧
      s'.media = s.media ∧ s'.selected = s.selected ∧ Copied s' sector count buf := by
  obtain ⟨s', hrun, hended⟩ := readwriteLoop_ended_of_ok reinit buf false 5 true hok hinit hcount
    (haddr hinit) hreach (show 5 * count ≤ 30 * count + 36 by omega)
  refine ⟨s', ?_, ?_, (hended.kept rfl).part, hended.copied rfl⟩
  · rw [sdmmcStorageReadwrite]
    simp only [hinit, hcount, Bool.not_true, Bool.false_eq_true, ↓reduceIte]
    rw [hrun]
  · exact funext fun p ↦ funext fun y ↦ hended.media p y fun h ↦ by cases h

/-- **A read whose transfer commands all succeed returns `RES_OK`**, also if the card has no such
sectors. -/
theorem diskRead_served (h : Tried drive buf count d)
    (hok : OkFrom env (drive.view (ensurePartition env drive d).2).tick) :
    (diskRead env (.full env) drive buf sector count d).1 = .ok := by
  have hinit := (ensurePartition_ensured env drive d).initialized.trans h.initialized
  rw [diskRead_eq, readOf, sdmmcStorageTransfer, if_pos h.aligned,
    (readwrite_of_persists _ _ _ _ _ hok.persists).2 hinit]
  rfl

/-! ## A read whose switch is lost -/

/-- A device on which the first command of the switch is lost, if there is a switch, and every other
command succeeds. -/
def switchLost (drive : Drive) (d : Disks) : Env :=
  fun n ↦ ⟨decide (n ≠ d.emmc.tick ∨ switchTime drive d = 0), false, fun _ ↦ false, fun _ ↦ 0⟩

/-- The switch of such a read changes nothing. -/
theorem ensurePartition_lost (drive : Drive) (d : Disks) :
    (drive.view (ensurePartition (switchLost drive d) drive d).2).selected =
        (drive.view d).selected ∧
      OkFrom (switchLost drive d)
        (drive.view (ensurePartition (switchLost drive d) drive d).2).tick := by
  by_cases htime : switchTime drive d = 0
  · have hok : ∀ t, OkFrom (switchLost drive d) t := fun t n _ ↦ decide_eq_true (.inr htime)
    have hnone : (ensurePartition (switchLost drive d) drive d).2 = d := by
      rw [switchTime] at htime
      rw [ensurePartition]
      cases hpart : drive.part with
      | none => rfl
      | some part =>
        have hsame : ¬d.emmc.dev.partition ≠ part := fun hne ↦ by simp [hpart, hne] at htime
        exact congrArg Prod.snd (if_neg hsame)
    exact ⟨congrArg (fun d ↦ (drive.view d).selected) hnone, hok _⟩
  · obtain ⟨part, hpart, hne⟩ : ∃ part, drive.part = some part ∧ d.emmc.dev.partition ≠ part := by
      rw [switchTime] at htime
      cases hpart : drive.part with
      | none => simp [hpart] at htime
      | some part => exact ⟨part, rfl, fun heq ↦ by simp [hpart, heq] at htime⟩
    have hdrive : drive ≠ .sd := by
      rintro rfl
      cases hpart
    have hfail : (switchLost drive d d.emmc.tick).ok = false := decide_eq_false (by simp [htime])
    have htook : (switchLost drive d d.emmc.tick).took = false := rfl
    have hswitch : (ensurePartition (switchLost drive d) drive d).2.emmc =
        { d.emmc with tick := d.emmc.tick + 1 } := by
      rw [ensurePartition, hpart]
      dsimp only
      rw [if_pos hne]
      change (sdmmcStorageSetMmcPartition (switchLost drive d) part d.emmc).2 = _
      rw [sdmmcStorageSetMmcPartition]
      simp only [hfail, htook, Bool.or_self, Bool.false_eq_true, ↓reduceIte, Bool.not_false]
    rw [view_emmc hdrive, view_emmc hdrive, hswitch]
    refine ⟨rfl, fun n hn ↦ decide_eq_true (.inl fun heq ↦ ?_)⟩
    subst heq
    exact absurd hn (Nat.not_succ_le_self _)

/-- **A read whose switch is lost, and nothing else**, brings the sectors of the partition that is
selected. -/
theorem diskRead_lost (h : Tried drive buf count d) (haddr : Addressed (drive.view d))
    (hreach : drive.shift + sector + count ≤ reach (drive.view d).card) (k : ℕ)
    (hk : k < blockSize * count) :
    (diskRead (switchLost drive d) (.full (switchLost drive d)) drive buf sector count
        d).2.emmc.mem (buf + k) =
      (drive.view d).media (drive.view d).selected (blockSize * (drive.shift + sector) + k) := by
  obtain ⟨hsel, hok⟩ := ensurePartition_lost drive d
  have hensured := ensurePartition_ensured (switchLost drive d) drive d
  have hsector : drive.shift + sector < 2 ^ 32 :=
    Readable.lt ⟨h.some, h.aligned, hreach⟩
  obtain ⟨s', hrun, hmedia, hsel', hcopied⟩ := readwrite_copied_of_ok
    (drive.reinit (switchLost drive d)) buf (hensured.initialized.trans h.initialized)
    (hensured.addressed haddr) h.some (hensured.card.symm ▸ hreach) hok
  have hsd : drive = .sd → s'.selected = 0 := by
    intro hdrive
    subst hdrive
    exact hsel'.trans hsel
  have hsame := diskRead_view h.aligned hsector hrun (hmedia.trans hensured.media) hsd
  rw [← (view_mem drive _).1, hsame.mem, hcopied k hk, hmedia, hensured.media, hsel', hsel]

/-! ## The law -/

/-- The partition a drive is on. -/
def Drive.home (drive : Drive) : ℕ := drive.part.getD 0

/-- All the sectors are ones that can be addressed on the card, and the buffer holds those of the
drive. -/
structure Holds (drive : Drive) (sector count buf : ℕ) (d d' : Disks) : Prop where
  within : count ≠ 0 → drive.shift + sector + count ≤ reach (drive.view d).card
  data : ∀ k < blockSize * count, d'.emmc.mem (buf + k) =
    (drive.view d).media drive.home (blockSize * (drive.shift + sector) + k)

/-- Success means that the buffer holds the sectors of the drive, whichever commands fail. -/
def Exact (drive : Drive) (buf sector count : ℕ) (d : Disks) : Prop :=
  ∀ env, (diskRead env (.full env) drive buf sector count d).1 = .ok →
    Holds drive sector count buf d (diskRead env (.full env) drive buf sector count d).2

/-- The partition `p` holds in these sectors what the partition of the drive holds. -/
def Agrees (drive : Drive) (sector count p : ℕ) (d : Disks) : Prop :=
  ∀ k < blockSize * count, (drive.view d).media p (blockSize * (drive.shift + sector) + k) =
    (drive.view d).media drive.home (blockSize * (drive.shift + sector) + k)

/-- The SD card has one partition, and a partition of the eMMC is one of its drive. -/
theorem home_of_part {p : ℕ} (h : drive.part = some p) : p = drive.home := by
  rw [Drive.home, h]
  rfl

theorem home_sd (h : drive = .sd) : drive.home = 0 := by
  subst h
  rfl

/-- Everything that a read can bring is what the drive holds. -/
theorem agrees_of_possible {p : ℕ} (h : drive.Possible d p) (huser : Agrees drive sector count 0 d)
    (hselected : Agrees drive sector count (drive.view d).selected d) :
    Agrees drive sector count p d := by
  rcases h with rfl | rfl | hpart
  · exact huser
  · exact hselected
  · rw [home_of_part hpart]
    exact fun _ _ ↦ rfl

/-- A read that returns `RES_OK` has been tried, or there was nothing to read. -/
theorem tried_of_ok (hcount : count ≠ 0)
    (hok : (diskRead env (.full env) drive buf sector count d).1 = .ok) :
    Tried drive buf count d := by
  by_contra hcon
  have hfails : buf = 0 ∨ buf % 8 ≠ 0 ∨ (drive.view d).dev.initialized = false := by
    by_contra hnone
    simp only [not_or, not_not, Bool.not_eq_false] at hnone
    exact hcon ⟨hnone.2.2, hcount, hnone.1, hnone.2.1⟩
  rw [diskRead_fails hfails] at hok
  cases hok

/-- **A read of sectors that the card has**, and which are the same wherever it may end up. -/
theorem exact_of_agrees (haddr : Addressed (drive.view d))
    (hreach : drive.shift + sector + count ≤ reach (drive.view d).card)
    (huser : Agrees drive sector count 0 d)
    (hselected : Agrees drive sector count (drive.view d).selected d) :
    Exact drive buf sector count d := by
  intro env hok
  refine ⟨fun _ ↦ hreach, fun k hk ↦ ?_⟩
  have hcount : count ≠ 0 := by
    rintro rfl
    exact absurd hk (Nat.not_lt_zero k)
  obtain ⟨p, hp, hdata⟩ := (diskRead_done haddr hcount hreach hok).data
  rw [hdata k hk]
  exact agrees_of_possible hp huser hselected k hk

section
variable (haddr : Addressed (drive.view d))
include haddr

/-- The transfer may be taken up again, and that is on the user area. -/
theorem Exact.user (h : Exact drive buf sector count d) (htried : Tried drive buf count d)
    (hreach : drive.shift + sector + count ≤ reach (drive.view d).card) :
    Agrees drive sector count 0 d := by
  by_cases hdrive : drive = .sd
  · intro k _
    rw [home_sd hdrive]
  · obtain ⟨env, henv⟩ : ∃ env, env = relapse (d.emmc.tick + switchTime drive d) (fun _ ↦ false)
      fun _ ↦ 0 := ⟨_, rfl⟩
    obtain ⟨hok, hagain⟩ := diskRead_relapse ⟨htried.initialized, haddr⟩
      ⟨htried.some, htried.aligned, hreach⟩ (fun hsd ↦ absurd hsd hdrive) henv
    intro k hk
    rw [← hagain.data k hk]
    exact (h env hok).data k hk

/-- The switch before it may be lost. -/
theorem Exact.selected (h : Exact drive buf sector count d) (htried : Tried drive buf count d)
    (hreach : drive.shift + sector + count ≤ reach (drive.view d).card) :
    Agrees drive sector count (drive.view d).selected d := by
  intro k hk
  rw [← diskRead_lost htried haddr hreach k hk]
  exact (h _ (diskRead_served htried (ensurePartition_lost drive d).2)).data k hk

/-- **Where success means what it says.**  The buffer holds the sectors of the drive after every
success if and only if no transfer command is given at all, or the sectors can be addressed on the
card and the user area and the partition that is selected hold in them what the partition of the
drive holds. -/
theorem exact_iff :
    Exact drive buf sector count d ↔
      ¬Tried drive buf count d ∨
        drive.shift + sector + count ≤ reach (drive.view d).card ∧
          Agrees drive sector count 0 d ∧
          Agrees drive sector count (drive.view d).selected d := by
  constructor
  · intro h
    refine or_iff_not_imp_left.mpr fun htried ↦ ?_
    rw [not_not] at htried
    have hreach := (h _ (diskRead_served htried (ensurePartition_lost drive d).2)).within
      htried.some
    exact ⟨hreach, h.user haddr htried hreach, h.selected haddr htried hreach⟩
  · rintro (hnone | ⟨hreach, huser, hselected⟩)
    · intro env hok
      by_cases hcount : count = 0
      · refine ⟨fun hne ↦ absurd hcount hne, fun k hk ↦ ?_⟩
        rw [hcount] at hk
        exact absurd hk (Nat.not_lt_zero k)
      · exact absurd (tried_of_ok hcount hok) hnone
    · exact exact_of_agrees haddr hreach huser hselected

end

/-! ## The driver is right about how both cards are addressed -/

/-- The state after a call, with everything that may happen in its transfer. -/
def Call.perform (d : Disks) (c : Env × Call) : Disks :=
  match c.2 with
  | .init drive => (diskInitialize c.1 drive d).2
  | .read drive buf sector count => (diskRead c.1 (.full c.1) drive buf sector count d).2
  | .write drive buf sector count => (diskWrite c.1 (.full c.1) drive buf sector count d).2

theorem addressed_onSd {f : State → Bool × State} (hf : ∀ s, Addressed s → Addressed (f s).2)
    (h : Addressed d.sdView) : Addressed (d.onSd f).2.sdView := by
  have hview := hf _ h
  rw [Disks.onSd]
  rcases hv : f d.sdView with ⟨res, v⟩
  rw [hv] at hview
  exact hview

theorem transfer_sd_addressed (env : Env) (drive : Drive) (isWrite : Bool) (buf sector count : ℕ)
    (h : Addressed d.sdView) :
    Addressed (transfer env (.full env) drive isWrite buf sector count d).2.sdView := by
  rw [transfer]
  split
  · refine addressed_onSd (fun s hs ↦ ?_) h
    rw [sdmmcStorageTransfer]
    split
    · exact readwrite_addressed (fun first s ↦ sdReinit_addressed env first) _ _ _ _ hs
    · exact hs
  · exact h

/-- A switch is of the eMMC. -/
theorem ensurePartition_sd_addressed (env : Env) (drive : Drive) (h : Addressed d.sdView) :
    Addressed (ensurePartition env drive d).2.sdView := by
  have hsd := (ensurePartition_spec env drive d).1
  change ((ensurePartition env drive d).2.sd.dev.initialized = true →
    (ensurePartition env drive d).2.sd.dev.hasSectorAccess =
      (ensurePartition env drive d).2.sd.card.ccs)
  rw [hsd]
  exact h

/-- **Every call leaves the driver right about the addressing.** -/
theorem addressed_step (c : Env × Call) (h : ∀ v : Drive, Addressed (v.view d)) (v : Drive) :
    Addressed (v.view (Call.perform d c)) := by
  obtain ⟨env, call⟩ := c
  have hsd : Addressed d.sdView := h .sd
  have hemmc : Addressed d.emmc := h .gpp
  by_cases hv : v = .sd
  · subst hv
    cases call with
    | init drive =>
      change Addressed (diskInitialize env drive d).2.sdView
      rw [diskInitialize]
      split
      · exact addressed_onSd (fun s ↦ sdInitialize_addressed env false) hsd
      · exact hsd
    | read drive buf sector count =>
      exact transfer_sd_addressed env drive false buf sector count
        (ensurePartition_sd_addressed env drive hsd)
    | write drive buf sector count =>
      change Addressed (diskWrite env (.full env) drive buf sector count d).2.sdView
      rw [diskWrite]
      split
      · exact transfer_sd_addressed env drive true buf sector count
          (ensurePartition_sd_addressed env drive hsd)
      · exact ensurePartition_sd_addressed env drive hsd
  · rw [view_emmc hv]
    cases call with
    | init drive => exact (addressed_kept env drive 0 0 0 hemmc).1
    | read drive buf sector count => exact (addressed_kept env drive buf sector count hemmc).2.1
    | write drive buf sector count => exact (addressed_kept env drive buf sector count hemmc).2.2

/-- **So it is in every run of calls** that starts with neither card initialised. -/
theorem addressed_run (hoff : ∀ v : Drive, (v.view d).dev.initialized = false)
    (calls : List (Env × Call)) (v : Drive) :
    Addressed (v.view (Machine.run Call.perform d calls)) := by
  refine Machine.run_inv (I := fun d ↦ ∀ v : Drive, Addressed (v.view d))
    (fun d c h ↦ addressed_step c h) (fun v hinit ↦ ?_) calls v
  rw [hoff v] at hinit
  cases hinit

/-! ## A sector that is none -/

theorem exact_iff_started :
    Exact .boot1 usbEpBulkInBufAddr 1 1 started ↔
      ¬Tried .boot1 usbEpBulkInBufAddr 1 started ∨
        Drive.boot1.shift + 1 + 1 ≤ reach (Drive.boot1.view started).card ∧
          Agrees .boot1 1 1 0 started ∧
          Agrees .boot1 1 1 (Drive.boot1.view started).selected started :=
  exact_iff (fun _ ↦ rfl)

/-- Sector `2 ^ 32` of the user area is read, and sector `2 ^ 32 - 0x800` of BOOT1 behind its first
megabyte: both calls succeed, and bring the first sector. -/
theorem exact_counterexample :
    ¬Exact .gpp usbEpBulkInBufAddr (2 ^ 32) 1 started ∧
      ¬Exact .boot1_1mb usbEpBulkInBufAddr (2 ^ 32 - 0x800) 1 started := by
  have hok : (diskRead (failsAt 9 false) (.full (failsAt 9 false)) .gpp usbEpBulkInBufAddr (2 ^ 32)
      1 started).1 = .ok := by decide +kernel
  have hok' : (diskRead (failsAt 9 false) (.full (failsAt 9 false)) .boot1_1mb usbEpBulkInBufAddr
      (2 ^ 32 - 0x800) 1 started).1 = .ok := by decide +kernel
  exact ⟨fun h ↦ absurd ((h _ hok).within Nat.one_ne_zero) (by decide),
    fun h ↦ absurd ((h _ hok').within Nat.one_ne_zero) (by decide)⟩

end Disk
end SdLoader
