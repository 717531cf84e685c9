import SdLoader.Disk.Exact
import SdLoader.Files.Defs

/-!
# The storage behind a drive

What the operations of the disk layer and of the menus do to the storage behind a drive, seen by
FatFs, which has read some sectors of it and goes on from there.

* `contents` — the sectors of a drive, as they are on the card;
* `Up` — the storage behind the drive is initialised, addressed the way the card wants to be, and
  the driver is not wrong about the partition of the drive;
* `Untouched` — an operation has left the storage behind the drive alone;
* `Roamed` — what a transfer does to a storage, whatever happens in it;
* `Harmless`, `Decisive` — the conditions on the outcome of a read: what media failures it may have
  met without harm to a drive that is mounted, or to one that is being mounted;
* `readWindow_harmless`, `readWindow_decisive` — what reads bring under these.
-/

set_option autoImplicit false

namespace SdLoader
namespace Files

open Storage Disk
open Payload (Windows)
open Modchip (DResult)

variable {env : Env} {d d' : Disks} {drive : Drive}

/-! ## Drives -/

theorem sd_of_part (h : drive.part = none) : drive = .sd := by
  cases drive with
  | sd => rfl
  | _ => cases h

theorem ne_sd_of_part {part : ℕ} (h : drive.part = some part) : drive ≠ .sd := by
  rintro rfl
  cases h

/-- The sectors of the drive, as far as the card has them. -/
def contents (drive : Drive) (d : Disks) (sector : ℕ) : Option Block :=
  if drive.shift + sector + 1 ≤ reach (drive.view d).card then
    some (Store.slice ((drive.view d).media drive.home) (blockSize * (drive.shift + sector))
      blockSize)
  else none

/-- If the driver takes the partition of the drive to be selected, it is. -/
def Known (drive : Drive) (d : Disks) : Prop :=
  (drive.view d).dev.partition = drive.home → (drive.view d).selected = drive.home

/-- The storage behind the drive is ready for it. -/
structure Up (drive : Drive) (d : Disks) : Prop where
  ready : Ready drive d
  known : Known drive d

/-- The storage behind the drive is as it was. -/
structure Untouched (drive : Drive) (d d' : Disks) : Prop where
  dev : (drive.view d').dev = (drive.view d).dev
  card : (drive.view d').card = (drive.view d).card
  selected : (drive.view d').selected = (drive.view d).selected
  media : (drive.view d').media = (drive.view d).media

theorem Untouched.refl (drive : Drive) (d : Disks) : Untouched drive d d := ⟨rfl, rfl, rfl, rfl⟩

theorem Untouched.trans {d'' : Disks} (h : Untouched drive d d') (h' : Untouched drive d' d'') :
    Untouched drive d d'' :=
  ⟨h'.dev.trans h.dev, h'.card.trans h.card, h'.selected.trans h.selected, h'.media.trans h.media⟩

theorem Untouched.up (h : Untouched drive d d') (hup : Up drive d) : Up drive d' := by
  obtain ⟨⟨hinit, haddr⟩, hknown⟩ := hup
  rw [Addressed, ← h.dev, ← h.card] at haddr
  rw [Known, ← h.dev, ← h.selected] at hknown
  exact ⟨⟨h.dev ▸ hinit, haddr⟩, hknown⟩

/-- The contents are those of the card. -/
theorem contents_congr (hcard : (drive.view d').card = (drive.view d).card)
    (hmedia : (drive.view d').media drive.home = (drive.view d).media drive.home) :
    contents drive d' = contents drive d := by
  funext sector
  rw [contents, contents, hcard, hmedia]

theorem Untouched.contents (h : Untouched drive d d') : contents drive d' = contents drive d :=
  contents_congr h.card (congrFun h.media drive.home)

/-- What leaves the SD storage alone. -/
theorem untouched_sd (h : d'.sd = d.sd) : Untouched .sd d d' := by
  refine ⟨?_, ?_, rfl, ?_⟩
  · exact congrArg Sd.dev h
  · exact congrArg Sd.card h
  · exact congrArg (fun sd _ ↦ Sd.medium sd) h

/-- An operation on the eMMC does. -/
theorem untouched_onEmmc (hdrive : drive = .sd) (f : Storage.State → Bool × Storage.State)
    (d : Disks) : Untouched drive d (d.onEmmc f).2 := by
  subst hdrive
  exact untouched_sd rfl

/-- One on the SD storage leaves the eMMC alone. -/
theorem untouched_withSdView (hdrive : drive ≠ .sd) (d : Disks) (s : Storage.State) :
    Untouched drive d (d.withSdView s) := by
  refine ⟨?_, ?_, ?_, ?_⟩ <;> rw [view_emmc hdrive, view_emmc hdrive] <;> rfl

theorem untouched_onSd (hdrive : drive ≠ .sd) (f : Storage.State → Bool × Storage.State)
    (d : Disks) : Untouched drive d (d.onSd f).2 :=
  untouched_withSdView hdrive d (f d.sdView).2

/-! ## Transfers -/

section
variable {s s₀ s₁ : Storage.State} {isWrite : Bool}
  {reinit : Bool → Storage.State → Bool × Storage.State}

/-- What a transfer does to a storage: it writes to the partition that is selected, and if the
partition is another than the user area in the end, it has been selected all the time. -/
structure Roamed (isWrite : Bool) (s₀ s : Storage.State) : Prop where
  card : s.card = s₀.card
  selected : s.selected = s₀.selected ∨ s.selected = 0
  media : isWrite = false ∨ s.selected ≠ 0 → ∀ p, (isWrite = true → p ≠ s.selected) →
    s.media p = s₀.media p

theorem Roamed.refl (isWrite : Bool) (s : Storage.State) : Roamed isWrite s s :=
  ⟨rfl, .inl rfl, fun _ _ _ ↦ rfl⟩

theorem Roamed.command (h : Roamed isWrite s₀ s) (env : Env) (sector num buf : ℕ) :
    Roamed isWrite s₀ (readwriteEx env sector num buf isWrite s).2.2 := by
  obtain ⟨-, hcard, -, hmedia⟩ := readwriteEx_keeps env sector num buf isWrite s
  have hsel := (readwriteEx_spec env sector num buf isWrite s).2.2.1
  refine ⟨hcard.trans h.card, hsel ▸ h.selected, fun hon p hp ↦ ?_⟩
  rw [hsel] at hon hp
  rw [← h.media hon p hp]
  exact funext fun y ↦ hmedia p y fun hw heq ↦ absurd heq (hp hw)

theorem Roamed.idle (h : Roamed isWrite s₀ s) (hidle : Idle s s₁) : Roamed isWrite s₀ s₁ := by
  refine ⟨hidle.card.trans h.card, ?_, fun hon p hp ↦ ?_⟩
  · rcases hidle.selected with hsel | hsel
    · rw [hsel]
      exact h.selected
    · exact .inr hsel
  · rw [hidle.media]
    rcases hidle.selected with hsel | hsel
    · rw [hsel] at hon hp
      exact h.media hon p hp
    · have hread := hon.resolve_right (not_not_intro hsel)
      exact h.media (.inl hread) p fun hw ↦ absurd (hread.symm.trans hw) Bool.false_ne_true

/-- **What a transfer does**, whatever happens in it; and one that succeeds leaves the storage
initialised. -/
theorem transfer_roamed (hidle : ∀ first s, Idle s (reinit first s).2)
    (hfresh : ∀ first s, (reinit first s).1 = true → Fresh (reinit first s).2) (env : Env)
    (sector num buf : ℕ) (isWrite : Bool) (s : Storage.State) :
    Roamed isWrite s (sdmmcStorageTransfer env reinit sector num buf isWrite s).2 ∧
      ((sdmmcStorageTransfer env reinit sector num buf isWrite s).1 = true →
        (sdmmcStorageTransfer env reinit sector num buf isWrite s).2.dev.initialized = true) := by
  rw [sdmmcStorageTransfer]
  split
  · by_cases hinit : s.dev.initialized = true
    · have hcmd : ∀ sector n buf s₁, Roamed isWrite s s₁ ∧ s₁.dev.initialized = true →
          Roamed isWrite s (readwriteEx env sector n buf isWrite s₁).2.2 ∧
            (readwriteEx env sector n buf isWrite s₁).2.2.dev.initialized = true := by
        intro sector n buf s₁ hs
        rw [(readwriteEx_keeps env sector n buf isWrite s₁).1]
        exact ⟨hs.1.command env sector n buf, hs.2⟩
      obtain ⟨hok, hany⟩ := readwrite_rule (Q := Roamed isWrite s) hcmd
        (fun first s₁ hs hre ↦ ⟨hs.1.idle (hidle first s₁), (hfresh first s₁ hre).initialized⟩)
        (fun first s₁ hs _ ↦ hs.1.idle (hidle first s₁)) (fun _ hs ↦ hs.1) sector num buf
        ⟨.refl isWrite s, hinit⟩
      exact ⟨hany, fun h ↦ (hok h).2⟩
    · rw [sdmmcStorageReadwrite, Bool.eq_false_iff.mpr hinit]
      exact ⟨.refl isWrite s, fun h ↦ absurd h Bool.false_ne_true⟩
  · exact ⟨.refl isWrite s, fun h ↦ absurd h Bool.false_ne_true⟩

end

theorem reinit_idle (drive : Drive) (env : Env) (first : Bool) (s : Storage.State) :
    Idle s (drive.reinit env first s).2 := by
  rw [Drive.reinit]
  split
  · exact sdReinit_idle env first s
  · exact emmcReinit_idle env first s

theorem reinit_fresh (drive : Drive) (env : Env) (first : Bool) (s : Storage.State)
    (h : (drive.reinit env first s).1 = true) : Fresh (drive.reinit env first s).2 := by
  rw [Drive.reinit] at h ⊢
  split at h
  · next hdrive =>
    rw [if_pos hdrive]
    exact sdReinit_fresh h
  · next hdrive =>
    rw [if_neg hdrive]
    exact emmcReinit_fresh h

theorem reinit_addressed (drive : Drive) (env : Env) (first : Bool) (s : Storage.State)
    (h : Addressed s) : Addressed (drive.reinit env first s).2 := by
  rw [Drive.reinit]
  split
  · exact sdReinit_addressed env first h
  · exact emmcReinit_addressed env first h

/-! ## Reads -/

section
variable {buf sector count : ℕ}

/-- What any read leaves of the storage behind the drive. -/
structure Read (drive : Drive) (d d' : Disks) : Prop where
  card : (drive.view d').card = (drive.view d).card
  media : (drive.view d').media = (drive.view d).media
  addressed : Addressed (drive.view d) → Addressed (drive.view d')

/-- **What any read does**: nothing to the card, and if it succeeds, the storage is initialised. -/
theorem diskRead_read (env : Env) (drive : Drive) (buf sector count : ℕ) (d : Disks) :
    Read drive d (diskRead env (.full env) drive buf sector count d).2 ∧
      ((diskRead env (.full env) drive buf sector count d).1 = .ok →
        (drive.view (diskRead env (.full env) drive buf sector count d).2).dev.initialized =
          true) := by
  have hensured := ensurePartition_ensured env drive d
  obtain ⟨⟨hcard, hsel, hmedia⟩, hinit⟩ := transfer_roamed (reinit_idle drive env)
    (reinit_fresh drive env) env (drive.actualSector sector) count buf false
    (drive.view (ensurePartition env drive d).2)
  have haddr : Addressed (drive.view d) → Addressed (readOf env drive buf sector count d).2 := by
    intro h
    rw [readOf, sdmmcStorageTransfer]
    split
    · exact readwrite_addressed (reinit_addressed drive env) _ _ _ _ (hensured.addressed h)
    · exact hensured.addressed h
  rw [diskRead_eq]
  change (readOf env drive buf sector count d).2.card = _ at hcard
  change (readOf env drive buf sector count d).2.selected = _ ∨
    (readOf env drive buf sector count d).2.selected = 0 at hsel
  change _ → ∀ p, _ → (readOf env drive buf sector count d).2.media p = _ at hmedia
  change (readOf env drive buf sector count d).1 = true →
    (readOf env drive buf sector count d).2.dev.initialized = true at hinit
  generalize readOf env drive buf sector count d = r at *
  have hmedia' : r.2.media = (drive.view (ensurePartition env drive d).2).media :=
    funext fun p ↦ hmedia (.inl rfl) p fun h ↦ absurd h Bool.false_ne_true
  have hsame : Same r.2 (drive.view (put drive (ensurePartition env drive d).2 r.2)) := by
    refine view_put fun hdrive ↦ ?_
    subst hdrive
    exact ⟨hsel.elim id id, fun p ↦ by rw [hmedia']; rfl⟩
  refine ⟨⟨hsame.card.trans (hcard.trans hensured.card),
    hsame.media.trans (hmedia'.trans hensured.media), fun h ↦ hsame.addressed (haddr h)⟩,
    fun h ↦ ?_⟩
  rw [hsame.dev]
  exact hinit (dresult_eq_ok.mp h)

/-- **What a read has brought** is on the partition that is selected when it is done. -/
theorem diskRead_copied (haddr : Addressed (drive.view d)) (hcount : count ≠ 0)
    (hreach : drive.shift + sector + count ≤ reach (drive.view d).card)
    (hok : (diskRead env (.full env) drive buf sector count d).1 = .ok) {k : ℕ}
    (hk : k < blockSize * count) :
    (diskRead env (.full env) drive buf sector count d).2.emmc.mem (buf + k) =
      (drive.view d).media
        (drive.view (diskRead env (.full env) drive buf sector count d).2).selected
        (blockSize * (drive.shift + sector) + k) := by
  obtain ⟨s', hsame, hbrought, -⟩ := diskRead_brought haddr hcount hreach hok
  rw [← (view_mem drive _).1, hsame.mem, hsame.selected, hbrought.copied k hk, hbrought.media,
    (ensurePartition_ensured env drive d).media]

/-- A read of a storage that is not initialised fails, and leaves it so. -/
theorem diskRead_ended (h : (drive.view d).dev.initialized = false) :
    (diskRead env (.full env) drive buf sector count d).1 = .error ∧
      (drive.view (diskRead env (.full env) drive buf sector count d).2).dev.initialized =
        false := by
  refine ⟨diskRead_fails (.inr (.inr h)), ?_⟩
  have hensured := ensurePartition_ensured env drive d
  have hinit : (drive.view (ensurePartition env drive d).2).dev.initialized = false :=
    hensured.initialized.trans h
  have hsame : (readOf env drive buf sector count d).2 =
      drive.view (ensurePartition env drive d).2 :=
    transfer_nothing _ (.inr (.inr (.inl hinit)))
  rw [diskRead_eq, hsame, (view_put fun hdrive ↦ ?_).dev]
  · exact hinit
  · subst hdrive
    exact ⟨rfl, fun _ ↦ rfl⟩

/-- A read of the eMMC leaves the SD storage alone. -/
theorem diskRead_sd (hdrive : drive ≠ .sd) (env : Env) (buf sector count : ℕ) (d : Disks) :
    (diskRead env (.full env) drive buf sector count d).2.sd = d.sd := by
  rw [diskRead_eq, put, if_neg hdrive]
  exact (ensurePartition_spec env drive d).1

end

/-! ## Reads through the window -/

/-- A media failure that does no harm to a drive that is mounted: the storage is still initialised,
and the partition of the drive is selected if the read has succeeded or the driver takes it to
be. -/
structure Harmless (drive : Drive) (r : DResult × Disks) : Prop where
  mode : r.2.sd.mode ≠ 0
  initialized : (drive.view r.2).dev.initialized = true
  selected : r.1 = .ok ∨ (drive.view r.2).dev.partition = drive.home →
    (drive.view r.2).selected = drive.home

/-- One that does none to a drive that is being mounted: if the read has failed, the storage has
been ended. -/
structure Decisive (drive : Drive) (r : DResult × Disks) : Prop where
  mode : r.2.sd.mode ≠ 0
  selected : r.1 = .ok → (drive.view r.2).selected = drive.home
  ended : r.1 = .error → (drive.view r.2).dev.initialized = false

theorem Harmless.decisive {r : DResult × Disks} (h : Harmless drive r) (hok : r.1 = .ok) :
    Decisive drive r :=
  ⟨h.mode, fun _ ↦ h.selected (.inl hok), fun herr ↦ by
    rw [hok] at herr
    cases herr⟩

/-- The storage is ready for the drive, the contents of which are `table`, and the SD card has not
been given up. -/
structure Served (drive : Drive) (table : ℕ → Option Block) (d : Disks) : Prop where
  up : Up drive d
  contents : contents drive d = table
  mode : d.sd.mode ≠ 0

section
variable {w : Windows} {sector : ℕ} {table : ℕ → Option Block}

theorem readWindow_of_res_ok (h : (diskRead env (.full env) drive w.fs sector 1 d).1 = .ok) :
    readWindow env w drive sector d =
      (some (Store.slice (diskRead env (.full env) drive w.fs sector 1 d).2.emmc.mem w.fs
          blockSize),
        (diskRead env (.full env) drive w.fs sector 1 d).2) := by
  rw [readWindow]
  rcases hr : diskRead env (.full env) drive w.fs sector 1 d with ⟨_ | _, d'⟩
  · rfl
  · rw [hr] at h
    cases h

theorem readWindow_of_res_error (h : (diskRead env (.full env) drive w.fs sector 1 d).1 = .error) :
    readWindow env w drive sector d =
      (none, (diskRead env (.full env) drive w.fs sector 1 d).2) := by
  rw [readWindow]
  rcases hr : diskRead env (.full env) drive w.fs sector 1 d with ⟨_ | _, d'⟩
  · rw [hr] at h
    cases h
  · rfl

theorem readWindow_disks (env : Env) (w : Windows) (drive : Drive) (sector : ℕ) (d : Disks) :
    (readWindow env w drive sector d).2 = (diskRead env (.full env) drive w.fs sector 1 d).2 := by
  cases hr : (diskRead env (.full env) drive w.fs sector 1 d).1 with
  | ok => rw [readWindow_of_res_ok hr]
  | error => rw [readWindow_of_res_error hr]

theorem readWindow_ended (h : (drive.view d).dev.initialized = false) :
    (readWindow env w drive sector d).1 = none ∧
      (drive.view (readWindow env w drive sector d).2).dev.initialized = false := by
  obtain ⟨hres, hend⟩ : (diskRead env (.full env) drive w.fs sector 1 d).1 = .error ∧
    (drive.view (diskRead env (.full env) drive w.fs sector 1 d).2).dev.initialized = false :=
    diskRead_ended h
  rw [readWindow_of_res_error hres]
  exact ⟨rfl, hend⟩

/-- A read that ends on the partition of the drive has brought a sector of the drive. -/
theorem slice_eq_contents (haddr : Addressed (drive.view d))
    (hok : (diskRead env (.full env) drive w.fs sector 1 d).1 = .ok)
    (hsel : (drive.view (diskRead env (.full env) drive w.fs sector 1 d).2).selected = drive.home)
    {b : Block} (hb : contents drive d sector = some b) :
    Store.slice (diskRead env (.full env) drive w.fs sector 1 d).2.emmc.mem w.fs blockSize = b := by
  rw [contents] at hb
  split at hb
  · next hreach =>
    rw [← Option.some.inj hb]
    refine List.map_congr_left fun k hk ↦ ?_
    rw [List.mem_range] at hk
    rw [diskRead_copied haddr Nat.one_ne_zero hreach hok (by rwa [Nat.mul_one]), hsel]
  · cases hb

/-- A read that is harmless to the drive leaves it served. -/
theorem Served.read (h : Served drive table d)
    (hinit : (drive.view (diskRead env (.full env) drive w.fs sector 1 d).2).dev.initialized = true)
    (hknown : Known drive (diskRead env (.full env) drive w.fs sector 1 d).2)
    (hmode : (diskRead env (.full env) drive w.fs sector 1 d).2.sd.mode ≠ 0) :
    Served drive table (diskRead env (.full env) drive w.fs sector 1 d).2 := by
  obtain ⟨⟨hcard, hmedia, haddr⟩, -⟩ := diskRead_read env drive w.fs sector 1 d
  refine ⟨⟨⟨hinit, haddr h.up.ready.addressed⟩, hknown⟩, ?_, hmode⟩
  rw [← h.contents]
  exact contents_congr hcard (congrFun hmedia drive.home)

/-- **A read of a mounted drive.** -/
theorem readWindow_harmless (h : Served drive table d)
    (hr : Harmless drive (diskRead env (.full env) drive w.fs sector 1 d)) :
    Served drive table (readWindow env w drive sector d).2 ∧
      ∀ b b', (readWindow env w drive sector d).1 = some b → table sector = some b' → b = b' := by
  refine ⟨?_, fun b b' hb hb' ↦ ?_⟩
  · rw [readWindow_disks]
    exact h.read hr.initialized (fun hpart ↦ hr.selected (.inr hpart)) hr.mode
  · cases hres : (diskRead env (.full env) drive w.fs sector 1 d).1 with
    | ok =>
      rw [readWindow_of_res_ok hres] at hb
      rw [← h.contents] at hb'
      rw [← Option.some.inj hb]
      exact slice_eq_contents h.up.ready.addressed hres (hr.selected (.inl hres)) hb'
    | error =>
      rw [readWindow_of_res_error hres] at hb
      cases hb

/-- **A read of a drive that is being mounted.** -/
theorem readWindow_decisive (h : Served drive table d)
    (hr : Decisive drive (diskRead env (.full env) drive w.fs sector 1 d)) :
    ((readWindow env w drive sector d).1 = none ∧
        (drive.view (readWindow env w drive sector d).2).dev.initialized = false) ∨
      ∃ b, (readWindow env w drive sector d).1 = some b ∧
        Served drive table (readWindow env w drive sector d).2 ∧
        ∀ b', table sector = some b' → b = b' := by
  cases hres : (diskRead env (.full env) drive w.fs sector 1 d).1 with
  | error =>
    rw [readWindow_of_res_error hres]
    exact .inl ⟨rfl, hr.ended hres⟩
  | ok =>
    rw [readWindow_of_res_ok hres]
    refine .inr ⟨_, rfl, ?_, fun b' hb' ↦ ?_⟩
    · exact h.read ((diskRead_read env drive w.fs sector 1 d).2 hres)
        (fun _ ↦ hr.selected hres) hr.mode
    · rw [← h.contents] at hb'
      exact slice_eq_contents h.up.ready.addressed hres (hr.selected hres) hb'

end

/-! ## Initialisations -/

/-- An eMMC that has just been initialised is ready for any of its drives. -/
theorem up_of_fresh (hdrive : drive ≠ .sd) (h : Fresh d.emmc) : Up drive d := by
  refine ⟨⟨?_, ?_⟩, ?_⟩
  · rw [view_emmc hdrive]
    exact h.initialized
  · rw [view_emmc hdrive]
    exact h.addressed
  · rw [Known, view_emmc hdrive, h.partition, h.selected]
    exact id

theorem setMmcPartition_tick (env : Env) (part : ℕ) (s : Storage.State) :
    s.tick ≤ (sdmmcStorageSetMmcPartition env part s).2.tick := by
  rw [sdmmcStorageSetMmcPartition]
  cases h0 : (env s.tick).ok <;> cases h1 : (env (s.tick + 1)).ok <;> simp [command, h1] <;> omega

/-- A switch of the partition that reports success. -/
theorem switchOk_of_true {s : Storage.State} {part : ℕ}
    (h : (sdmmcStorageSetMmcPartition env part s).1 = true) : SwitchOk env s := by
  rw [sdmmcStorageSetMmcPartition] at h
  cases h0 : (env s.tick).ok with
  | false => simp [h0] at h
  | true =>
    cases h1 : (env (s.tick + 1)).ok with
    | false => simp [h0, h1, command] at h
    | true => exact ⟨h0, h1⟩

/-- **`disk_initialize`**: the storage is ready for the drive if it succeeds. -/
theorem diskInitialize_up (h : (diskInitialize env drive d).1 = true) :
    Up drive (diskInitialize env drive d).2 := by
  rw [diskInitialize] at h ⊢
  cases hpart : drive.part with
  | none =>
    obtain rfl := sd_of_part hpart
    have hfresh := ((sdInitialize_spec env false d.sdView).2 h).1
    exact ⟨⟨hfresh.initialized, hfresh.addressed⟩, fun _ ↦ rfl⟩
  | some part =>
    have hdrive := ne_sd_of_part hpart
    rw [hpart] at h
    obtain ⟨hinit, hset⟩ := Bool.and_eq_true_iff.mp h
    have hfresh := ((emmcInitialize_spec env false d.emmc).2 hinit).1
    obtain ⟨-, hcard, hinit', haccess, hok, -⟩ :=
      setMmcPartition_spec env part (emmcInitialize env false d.emmc).2
    have hsel := (hok (switchOk_of_true hset)).2
    refine ⟨⟨?_, ?_⟩, ?_⟩
    · rw [view_emmc hdrive]
      exact hinit'.trans hfresh.initialized
    · rw [view_emmc hdrive]
      change
        (sdmmcStorageSetMmcPartition env part
          (emmcInitialize env false d.emmc).2).2.dev.initialized = true →
        _ = (sdmmcStorageSetMmcPartition env part (emmcInitialize env false d.emmc).2).2.card.ccs
      rw [hinit', hcard]
      exact fun _ ↦ haccess.trans hfresh.access
    · rw [Known, view_emmc hdrive, ← home_of_part hpart]
      exact fun _ ↦ hsel

/-- It leaves the sectors of every drive alone. -/
theorem diskInitialize_contents (env : Env) (drive v : Drive) (d : Disks) :
    contents v (diskInitialize env drive d).2 = contents v d := by
  rw [diskInitialize]
  cases hpart : drive.part with
  | none =>
    obtain rfl := sd_of_part hpart
    by_cases hv : v = .sd
    · subst hv
      have hidle := (sdInitialize_spec env false d.sdView).1
      exact contents_congr hidle.card (congrFun hidle.media 0)
    · exact (untouched_onSd hv (sdInitialize env false) d).contents
  | some part =>
    by_cases hv : v = .sd
    · subst hv
      exact (untouched_sd rfl).contents
    · have hidle := (emmcInitialize_spec env false d.emmc).1
      obtain ⟨hmedia, hcard, -⟩ := setMmcPartition_spec env part (emmcInitialize env false d.emmc).2
      refine contents_congr ?_ ?_ <;> rw [view_emmc hv, view_emmc hv]
      · exact hcard.trans hidle.card
      · exact congrFun (hmedia.trans hidle.media) v.home

theorem diskInitialize_tick (env : Env) (drive : Drive) (d : Disks) :
    d.emmc.tick ≤ (diskInitialize env drive d).2.emmc.tick := by
  rw [diskInitialize]
  split
  · exact (sdInitialize_spec env false d.sdView).1.tick
  · next part _ =>
    exact Nat.le_trans (emmcInitialize_spec env false d.emmc).1.tick
      (setMmcPartition_tick env part (emmcInitialize env false d.emmc).2)

/-- It succeeds if nothing fails and the SD card has not been given up. -/
theorem diskInitialize_of_ok (drive : Drive) (hok : OkFrom env d.emmc.tick)
    (hmode : d.sd.mode ≠ 0) : (diskInitialize env drive d).1 = true := by
  rw [diskInitialize]
  cases hpart : drive.part with
  | none =>
    obtain ⟨-, -, -, -, htrue⟩ := sdInitialize_of_ok (s := d.sdView) false hok hmode
    exact htrue
  | some part =>
    have hidle := (emmcInitialize_spec env false d.emmc).1
    have hswitch : SwitchOk env (emmcInitialize env false d.emmc).2 :=
      ⟨hok _ hidle.tick, hok _ (Nat.le_succ_of_le hidle.tick)⟩
    refine Bool.and_eq_true_iff.mpr ⟨emmcInitialize_of_ok (s := d.emmc) false hok, ?_⟩
    change (sdmmcStorageSetMmcPartition env part (emmcInitialize env false d.emmc).2).1 = true
    simp [sdmmcStorageSetMmcPartition, hswitch.1, hswitch.2, command]

end Files
end SdLoader
