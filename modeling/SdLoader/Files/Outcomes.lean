import SdLoader.Files.Access

/-!
# Accesses that come through

What `Access.lean` says of an access is about what it leaves.  This is about the outcomes of its
commands: an access comes through if the switch of partitions before it succeeds, and no five
commands in a row fail, since then the card is not initialised again.

* `Heard` — the condition on the outcomes; `heard_of_ok` — it is met if nothing fails;
* `Passed` — what an access leaves that has come through, whichever drive it is of; so it meets the
  condition for the next one, `Passed.heard`;
* `diskRead_passed`, `diskWrite_passed` — reads and writes;
* `harmless_of_heard`, `readWindow_of_heard` — a read through the window does no harm, and brings
  what is there;
* `diskInitialize_heard`, `volumeLoadPartTable_mode` — initialisations that succeed.
-/

set_option autoImplicit false

namespace SdLoader
namespace Files

open Storage Disk
open Payload (Windows)
open Modchip (DResult)

variable {env : Env} {d d' d'' : Disks} {drive : Drive}

/-! ## The condition -/

/-- The switch to the partition of the drive succeeds, if one is needed. -/
def SwitchHeard (env : Env) (drive : Drive) (d : Disks) : Prop :=
  ∀ part, drive.part = some part → d.emmc.dev.partition ≠ part → SwitchOk env d.emmc

/-- **The condition on the outcomes of an access**: the switch succeeds, and no five commands in a
row fail. -/
structure Heard (env : Env) (drive : Drive) (d : Disks) : Prop where
  switch : SwitchHeard env drive d
  persists : Persists env d.emmc.tick

/-- It is met if nothing fails. -/
theorem heard_of_ok (drive : Drive) (hok : OkFrom env d.emmc.tick) : Heard env drive d :=
  ⟨fun _ _ _ ↦ ⟨hok _ (Nat.le_refl _), hok _ (Nat.le_succ _)⟩, hok.persists⟩

/-! ## What it leaves -/

/-- Where both storages are related, so is what a drive is on. -/
theorem views {P : Storage.State → Storage.State → Prop} (hsd : P d.sdView d'.sdView)
    (hemmc : P d.emmc d'.emmc) (v : Drive) : P (v.view d) (v.view d') := by
  by_cases h : v = .sd
  · subst h
    exact hsd
  · rw [view_emmc h, view_emmc h]
    exact hemmc

/-- The driver is always right about the SD card. -/
theorem known_of_emmc {v : Drive}
    (h : v ≠ .sd → d.emmc.dev.partition = v.home → d.emmc.selected = v.home) : Known v d := by
  by_cases hsd : v = .sd
  · subst hsd
    exact fun _ ↦ rfl
  · rw [Known, view_emmc hsd]
    exact h hsd

/-- What an access of the drive leaves that has come through. -/
structure Passed (drive : Drive) (d d' : Disks) : Prop where
  /-- No storage has been ended, or initialised again. -/
  initialized : ∀ v : Drive, (v.view d').dev.initialized = (v.view d).dev.initialized
  /-- The SD card has not been given up. -/
  mode : d'.sd.mode = d.sd.mode
  /-- Where the driver was right about a partition, it still is. -/
  known : ∀ v, Known v d → Known v d'
  /-- It takes the partition of the drive to be selected. -/
  partition : ∀ part, drive.part = some part → d'.emmc.dev.partition = part
  /-- Time has not run backwards. -/
  tick : d.emmc.tick ≤ d'.emmc.tick

/-- The partition of the drive is selected, if the driver was right about it. -/
theorem Passed.selected (h : Passed drive d d') (hknown : Known drive d) :
    (drive.view d').selected = drive.home := by
  cases hpart : drive.part with
  | none =>
    obtain rfl := sd_of_part hpart
    rfl
  | some part =>
    refine h.known drive hknown ?_
    rw [view_emmc (ne_sd_of_part hpart), h.partition part hpart, home_of_part hpart]

/-- The next access needs no switch. -/
theorem Passed.heard (h : Passed drive d d') (hheard : Heard env drive d) : Heard env drive d' :=
  ⟨fun part hpart hne ↦ absurd (h.partition part hpart) hne, hheard.persists.mono h.tick⟩

/-- What a transfer leaves alone that gives up instead of initialising the card again. -/
structure Calm (d d' : Disks) : Prop where
  dev : ∀ v : Drive, (v.view d').dev = (v.view d).dev
  selected : d'.emmc.selected = d.emmc.selected
  mode : d'.sd.mode = d.sd.mode
  tick : d.emmc.tick ≤ d'.emmc.tick

theorem Passed.calm (h : Passed drive d d') (hcalm : Calm d' d'') : Passed drive d d'' := by
  have hemmc : d''.emmc.dev = d'.emmc.dev := by
    have hdev := hcalm.dev .gpp
    rwa [view_emmc (by decide), view_emmc (by decide)] at hdev
  refine ⟨fun v ↦ ?_, hcalm.mode.trans h.mode, fun v hv ↦ known_of_emmc fun hsd hpart ↦ ?_,
    fun part hpart ↦ ?_, Nat.le_trans h.tick hcalm.tick⟩
  · rw [hcalm.dev]
    exact h.initialized v
  · have hsel := h.known v hv
    rw [Known, view_emmc hsd] at hsel
    rw [hemmc] at hpart
    exact hcalm.selected.trans (hsel hpart)
  · rw [hemmc]
    exact h.partition part hpart

/-- A switch that succeeds, or is not needed. -/
theorem ensurePartition_passed (h : SwitchHeard env drive d) :
    Passed drive d (ensurePartition env drive d).2 := by
  rw [ensurePartition]
  split
  · next hpart =>
    refine ⟨fun _ ↦ rfl, rfl, fun _ ↦ id, fun p hp ↦ ?_, Nat.le_refl _⟩
    rw [hpart] at hp
    cases hp
  · next part hpart =>
    have hsome : ∀ p, drive.part = some p → p = part := fun p hp ↦ by
      rw [hpart] at hp
      exact (Option.some.inj hp).symm
    split
    · next hne =>
      obtain ⟨-, -, hinit, -, hset, -⟩ := setMmcPartition_spec env part d.emmc
      obtain ⟨hpartition, hsel⟩ := hset (h part hpart hne)
      exact ⟨views (P := fun s s' ↦ s'.dev.initialized = s.dev.initialized) rfl hinit, rfl,
        fun v _ ↦ known_of_emmc fun _ hhome ↦ hsel.trans (hpartition.symm.trans hhome),
        fun p hp ↦ hsome p hp ▸ hpartition, setMmcPartition_tick env part d.emmc⟩
    · next heq =>
      exact ⟨fun _ ↦ rfl, rfl, fun _ ↦ id, fun p hp ↦ hsome p hp ▸ not_not.mp heq, Nat.le_refl _⟩

/-- **A transfer in which no five commands in a row fail** goes without a re-initialisation, and
succeeds if the storage is initialised. -/
theorem transfer_of_persists {s : Storage.State}
    (reinit : Bool → Storage.State → Bool × Storage.State)
    (sector count buf : ℕ) (isWrite : Bool) (hp : Persists env s.tick) :
    Disk.Still isWrite s (sdmmcStorageTransfer env reinit sector count buf isWrite s).2 ∧
      (buf ≠ 0 ∧ buf % 8 = 0 → s.dev.initialized = true →
        (sdmmcStorageTransfer env reinit sector count buf isWrite s).1 = true) := by
  have hstill := transfer_still env sector count buf isWrite s
  obtain ⟨hnone, htrue⟩ := readwrite_of_persists reinit sector count buf isWrite hp
  rw [sdmmcStorageTransfer] at hstill ⊢
  split
  · next hbuf =>
    rw [if_pos hbuf, ← hnone] at hstill
    exact ⟨hstill, fun _ ↦ htrue⟩
  · next hbuf =>
    rw [if_neg hbuf] at hstill
    exact ⟨hstill, fun h ↦ absurd h hbuf⟩

/-- So it is for the transfer of an access, on either storage. -/
theorem transfer_calm (drive : Drive) (isWrite : Bool) (buf sector count : ℕ)
    (hp : Persists env d.emmc.tick) :
    Calm d (transfer env (.full env) drive isWrite buf sector count d).2 ∧
      (buf ≠ 0 ∧ buf % 8 = 0 → (drive.view d).dev.initialized = true →
        (transfer env (.full env) drive isWrite buf sector count d).1 = true) := by
  rw [transfer]
  by_cases hdrive : drive = .sd
  · subst hdrive
    rw [if_pos rfl]
    obtain ⟨hstill, htrue⟩ := transfer_of_persists (s := d.sdView) (sdReinit env)
      (Drive.actualSector .sd sector) count buf isWrite hp
    exact ⟨⟨views (P := fun s s' ↦ s'.dev = s.dev) hstill.dev rfl, rfl, hstill.mode, hstill.tick⟩,
      htrue⟩
  · rw [if_neg hdrive, view_emmc hdrive]
    obtain ⟨hstill, htrue⟩ := transfer_of_persists (s := d.emmc) (emmcReinit env)
      (drive.actualSector sector) count buf isWrite hp
    exact ⟨⟨views (P := fun s s' ↦ s'.dev = s.dev) rfl hstill.dev, hstill.selected, rfl,
      hstill.tick⟩, htrue⟩

/-! ## Accesses -/

section
variable {buf sector count : ℕ}

/-- **A read that comes through**; it succeeds if the storage is initialised. -/
theorem diskRead_passed (buf sector count : ℕ) (h : Heard env drive d) :
    Passed drive d (diskRead env (.full env) drive buf sector count d).2 ∧
      (buf ≠ 0 ∧ buf % 8 = 0 → (drive.view d).dev.initialized = true →
        (diskRead env (.full env) drive buf sector count d).1 = .ok) := by
  have hensured := ensurePartition_passed h.switch
  obtain ⟨hcalm, htrue⟩ :=
    transfer_calm drive false buf sector count (h.persists.mono hensured.tick)
  refine ⟨hensured.calm hcalm, fun hbuf hinit ↦ ?_⟩
  rw [← hensured.initialized] at hinit
  exact dresult_eq_ok.mpr (htrue hbuf hinit)

/-- **A write that comes through.** -/
theorem diskWrite_passed (buf sector count : ℕ) (h : Heard env drive d) :
    Passed drive d (diskWrite env (.full env) drive buf sector count d).2 := by
  have hensured := ensurePartition_passed h.switch
  rw [diskWrite]
  split
  · exact hensured.calm
      (transfer_calm drive true buf sector count (h.persists.mono hensured.tick)).1
  · exact hensured

end

section
variable {w : Windows} {sector : ℕ} {table : ℕ → Option Block}

/-- **A read that comes through does no harm**, whatever the sector. -/
theorem harmless_of_heard (w : Windows) (sector : ℕ) (h : Served drive table d)
    (hheard : Heard env drive d) :
    (diskRead env (.full env) drive w.fs sector 1 d).1 = .ok ∧
      Harmless drive (diskRead env (.full env) drive w.fs sector 1 d) ∧
      Heard env drive (diskRead env (.full env) drive w.fs sector 1 d).2 := by
  obtain ⟨hpassed, hres⟩ := diskRead_passed w.fs sector 1 hheard
  refine ⟨hres w.aligned.1 h.up.ready.initialized, ⟨?_, ?_, fun _ ↦ ?_⟩, hpassed.heard hheard⟩
  · rw [hpassed.mode]
    exact h.mode
  · rw [hpassed.initialized]
    exact h.up.ready.initialized
  · exact hpassed.selected h.up.known

/-- It brings the sector, if the card has it. -/
theorem readWindow_of_heard (h : Served drive table d) (hheard : Heard env drive d) {b : Block}
    (hb : table sector = some b) :
    (readWindow env w drive sector d).1 = some b ∧
      Served drive table (readWindow env w drive sector d).2 ∧
      Heard env drive (readWindow env w drive sector d).2 := by
  obtain ⟨hres, hr, hheard'⟩ := harmless_of_heard w sector h hheard
  obtain ⟨hserved, hagrees⟩ := readWindow_harmless h hr
  refine ⟨?_, hserved, ?_⟩
  · rw [readWindow_of_res_ok hres] at hagrees ⊢
    exact congrArg some (hagrees _ b rfl hb)
  · rw [readWindow_disks]
    exact hheard'

end

/-! ## Initialisations -/

/-- The SD card is not given up in an initialisation that succeeds, or is one of the eMMC. -/
theorem diskInitialize_mode (h : drive = .sd → (diskInitialize env drive d).1 = true)
    (hmode : d.sd.mode ≠ 0) : (diskInitialize env drive d).2.sd.mode ≠ 0 := by
  cases hpart : drive.part with
  | none =>
    obtain rfl := sd_of_part hpart
    exact ((sdInitialize_spec env false d.sdView).2 (h rfl)).2
  | some part =>
    rw [diskInitialize, hpart]
    exact hmode

/-- **After an initialisation that succeeds** accesses need no switch. -/
theorem diskInitialize_heard (h : (diskInitialize env drive d).1 = true)
    (hp : Persists env d.emmc.tick) : Heard env drive (diskInitialize env drive d).2 := by
  refine ⟨fun part hpart hne ↦ absurd ?_ hne, hp.mono (diskInitialize_tick env drive d)⟩
  rw [diskInitialize, hpart] at h ⊢
  have hok := switchOk_of_true (Bool.and_eq_true_iff.mp h).2
  exact ((setMmcPartition_spec env part (emmcInitialize env false d.emmc).2).2.2.2.2.1 hok).1

/-- One in which nothing fails leaves the driver right about every partition it was right about. -/
theorem diskInitialize_known {v : Drive} (hok : OkFrom env d.emmc.tick) (hknown : Known v d) :
    Known v (diskInitialize env drive d).2 := by
  refine known_of_emmc fun hsd ↦ ?_
  rw [Known, view_emmc hsd] at hknown
  rw [diskInitialize]
  split
  · exact hknown
  · next part _ =>
    have hidle := (emmcInitialize_spec env false d.emmc).1
    obtain ⟨hpartition, hsel⟩ := (setMmcPartition_spec env part
      (emmcInitialize env false d.emmc).2).2.2.2.2.1
        ⟨hok _ hidle.tick, hok _ (Nat.le_succ_of_le hidle.tick)⟩
    exact fun hhome ↦ hsel.trans (hpartition.symm.trans hhome)

theorem loadPartTable_mode {s : Storage.State}
    (reinit : Bool → Storage.State → Bool × Storage.State) (hp : Persists env s.tick) :
    (loadPartTable env reinit s).mode = s.mode := by
  obtain ⟨hfirst, -⟩ := transfer_of_persists reinit 1 gptSectors sdmmcUpperBuffer false hp
  rw [loadPartTable]
  rcases hr : sdmmcStorageTransfer env reinit 1 gptSectors sdmmcUpperBuffer false s with
    ⟨_ | _, s'⟩ <;> rw [hr] at hfirst <;> dsimp only at hfirst ⊢
  · exact (storageEnd_mode env s').trans hfirst.mode
  · split
    · exact (storageEnd_mode env s').trans hfirst.mode
    · have hsecond := (transfer_of_persists reinit 0 1 sdmmcUpperBuffer false
        (hp.mono hfirst.tick)).1
      exact (storageEnd_mode env _).trans (hsecond.mode.trans hfirst.mode)

/-- The menu of the SD card does not give it up, if it can be initialised. -/
theorem volumeLoadPartTable_mode (hinit : (sdInitialize env false d.sdView).1 = true)
    (hp : Persists env d.emmc.tick) : (volumeLoadPartTable env .sd d).sd.mode ≠ 0 := by
  obtain ⟨hidle, hfresh⟩ := sdInitialize_spec env false d.sdView
  have hrun : d.onSd (sdInitialize env false) =
      (true, d.withSdView (sdInitialize env false d.sdView).2) :=
    congrArg (fun b ↦ (b, d.withSdView (sdInitialize env false d.sdView).2)) hinit
  have hload := loadPartTable_mode
    (s := (d.withSdView (sdInitialize env false d.sdView).2).sdView) (sdReinit env)
    (hp.mono hidle.tick)
  rw [volumeLoadPartTable, hrun]
  exact fun hzero ↦ (hfresh hinit).2 (hload.symm.trans hzero)

end Files
end SdLoader
