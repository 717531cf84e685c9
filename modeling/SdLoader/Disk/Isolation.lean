import SdLoader.Disk.Defs
import SdLoader.Lib.Machine
import SdLoader.Storage.Recovery

/-!
# What the disk layer writes

Four of the five drives are the same card with different partitions selected, and which one is
selected is known to the disk layer only through `emmc_storage.partition`.  That field follows the
card as long as every switch that gets to the card is seen to succeed.  A switch that gets there and
fails its status check leaves the two apart; and one that does not get there is not noticed at all,
since neither `disk_read` nor `disk_write` looks at what `ensure_partition` returns, so that a write
meant for BOOT0 goes to whatever is selected.

Transfers are taken without the re-initialisation that may happen inside one, which is the subject
of `SdLoader.Storage.Partition`.

* `transfer_none` — what such a transfer changes: the sectors it was given, on the partition that is
  selected, and nothing the driver knows;
* `Cached` — the invariant: what the driver has on record is what the card has selected;
* `Sound` — the condition on a call: its switch does not go wrong in one of the two ways;
* `isolated_step`, `isolated_run` — under it every call keeps the invariant, and a write changes no
  sector of any medium but those of BOOT0 it was given.
-/

set_option autoImplicit false

namespace SdLoader
namespace Disk

open Storage

variable {env : Env}

/-! ## A transfer that does not initialise the card -/

section
variable {s s₀ : State} {sector num buf : ℕ} {isWrite : Bool}

/-- `s` is left of `s₀` by a transfer of the sectors from `sector` on: it changes the medium only if
it is a write, and only these sectors of the partition that is selected. -/
structure Framed (isWrite : Bool) (sector num : ℕ) (s₀ s : State) : Prop where
  /-- What the driver knows. -/
  dev : s.dev = s₀.dev
  /-- The card. -/
  card : s.card = s₀.card
  /-- The partition selected. -/
  selected : s.selected = s₀.selected
  /-- The media. -/
  media : ∀ p y, (isWrite = true → p = s₀.selected →
    y < blockSize * sector ∨ blockSize * (sector + num) ≤ y) → s.media p y = s₀.media p y

/-- What such a transfer leaves alone wherever it goes. -/
structure Still (isWrite : Bool) (s₀ s : State) : Prop where
  dev : s.dev = s₀.dev
  card : s.card = s₀.card
  selected : s.selected = s₀.selected
  mode : s.mode = s₀.mode
  media : isWrite = false → s.media = s₀.media
  tick : s₀.tick ≤ s.tick

theorem Still.next (h : Still isWrite s₀ s) (env : Env) (sector num buf : ℕ) :
    Still isWrite s₀ (readwriteEx env sector num buf isWrite s).2.2 := by
  obtain ⟨hdev, hcard, -, hmedia⟩ := readwriteEx_keeps env sector num buf isWrite s
  have hsel := (readwriteEx_spec env sector num buf isWrite s).2.2.1
  have htick := (readwriteEx_spec env sector num buf isWrite s).2.2.2.2
  have hmode := readwriteEx_mode env sector num buf isWrite s
  refine ⟨hdev.trans h.dev, hcard.trans h.card, hsel.trans h.selected, hmode.trans h.mode,
    fun hr ↦ ?_, htick ▸ Nat.le_succ_of_le h.tick⟩
  refine Eq.trans (funext fun p ↦ funext fun y ↦ hmedia p y fun hw ↦ ?_) (h.media hr)
  exact absurd (hr.symm.trans hw) Bool.false_ne_true

theorem readwrite_still (env : Env) (sector num buf : ℕ) (isWrite : Bool) (s : State) :
    Still isWrite s
      (sdmmcStorageReadwrite env (fun _ s ↦ (false, s)) sector num buf isWrite s).2 :=
  (readwrite_rule (I := Still isWrite s) (fun sector n buf _ hs ↦ hs.next env sector n buf)
    (fun _ _ hs _ ↦ hs) (fun _ _ hs _ ↦ hs) (fun _ ↦ id) sector num buf
    ⟨rfl, rfl, rfl, rfl, fun _ ↦ rfl, Nat.le_refl _⟩).2

/-- A transfer of nothing, to nowhere, or before the initialisation. -/
theorem transfer_nothing (reinit : Bool → State → Bool × State)
    (h : buf = 0 ∨ buf % 8 ≠ 0 ∨ s.dev.initialized = false ∨ num = 0) :
    (sdmmcStorageTransfer env reinit sector num buf isWrite s).2 = s := by
  rw [sdmmcStorageTransfer]
  split
  · next hbuf =>
    rw [sdmmcStorageReadwrite]
    cases hinit : s.dev.initialized with
    | false => rfl
    | true =>
      have hnum : num = 0 := by
        rcases h with h | h | h | h
        · exact absurd h hbuf.1
        · exact absurd hbuf.2 h
        · rw [hinit] at h
          exact absurd h.symm Bool.false_ne_true
        · exact h
      simp only [hnum, Bool.not_true, Bool.false_eq_true, ↓reduceIte]
  · rfl

theorem transfer_still (env : Env) (sector num buf : ℕ) (isWrite : Bool) (s : State) :
    Still isWrite s
      (sdmmcStorageTransfer env (fun _ s ↦ (false, s)) sector num buf isWrite s).2 := by
  rw [sdmmcStorageTransfer]
  split
  · exact readwrite_still env sector num buf isWrite s
  · exact ⟨rfl, rfl, rfl, rfl, fun _ ↦ rfl, Nat.le_refl _⟩

/-- **A transfer without a re-initialisation.** -/
theorem transfer_none (env : Env) (buf : ℕ) (isWrite : Bool)
    (haccess : s.dev.initialized = true → s.dev.hasSectorAccess = s.card.ccs)
    (hreach : sector + num ≤ reach s.card) :
    Framed isWrite sector num s
      (sdmmcStorageTransfer env (fun _ s ↦ (false, s)) sector num buf isWrite s).2 := by
  obtain ⟨hdev, hcard, hsel, -, -, -⟩ := transfer_still env sector num buf isWrite s
  refine ⟨hdev, hcard, hsel, ?_⟩
  rw [sdmmcStorageTransfer]
  split
  · exact (readwrite_ended env buf isWrite (restores_none (· = s.selected)) haccess
      rfl hreach).media
  · exact fun _ _ _ ↦ rfl

end

/-! ## Switching -/

/-- The switch of partitions that begins in the state `s` does not go wrong unnoticed: it succeeds
with its status check, or what it leaves selected is what the driver has on record. -/
def SwitchSound (env : Env) (part : ℕ) (s : State) : Prop :=
  (env s.tick).ok = true ∧ (env (s.tick + 1)).ok = true ∨
    (if (env s.tick).ok || (env s.tick).took then part else s.selected) = s.dev.partition

/-- The switch succeeds. -/
def SwitchOk (env : Env) (s : State) : Prop :=
  (env s.tick).ok = true ∧ (env (s.tick + 1)).ok = true

/-- **What a switch does**, by its outcome. -/
theorem setMmcPartition_spec (env : Env) (part : ℕ) (s : State) :
    (sdmmcStorageSetMmcPartition env part s).2.media = s.media ∧
      (sdmmcStorageSetMmcPartition env part s).2.card = s.card ∧
      (sdmmcStorageSetMmcPartition env part s).2.dev.initialized = s.dev.initialized ∧
      (sdmmcStorageSetMmcPartition env part s).2.dev.hasSectorAccess = s.dev.hasSectorAccess ∧
      (SwitchOk env s → (sdmmcStorageSetMmcPartition env part s).2.dev.partition = part ∧
        (sdmmcStorageSetMmcPartition env part s).2.selected = part) ∧
      (¬ SwitchOk env s →
        (sdmmcStorageSetMmcPartition env part s).2.dev.partition = s.dev.partition ∧
        (sdmmcStorageSetMmcPartition env part s).2.selected =
          if (env s.tick).ok || (env s.tick).took then part else s.selected) := by
  rw [SwitchOk, sdmmcStorageSetMmcPartition]
  cases h0 : (env s.tick).ok <;> cases h1 : (env (s.tick + 1)).ok <;> simp [command, h1]

/-- What the driver has on record is what the card has selected, and it addresses a card it has
initialised the way the card wants to be. -/
structure Cached (s : State) : Prop where
  /-- The partition. -/
  partition : s.dev.partition = s.selected
  /-- The addressing. -/
  access : s.dev.initialized = true → s.dev.hasSectorAccess = s.card.ccs

/-- A switch that does not go wrong unnoticed keeps the invariant. -/
theorem cached_switch {part : ℕ} {s : State}
    (haccess : s.dev.initialized = true → s.dev.hasSectorAccess = s.card.ccs)
    (h : SwitchSound env part s) : Cached (sdmmcStorageSetMmcPartition env part s).2 := by
  obtain ⟨-, hcard, hinit, hacc, hok, hfail⟩ := setMmcPartition_spec env part s
  refine ⟨?_, by rw [hinit, hacc, hcard]; exact haccess⟩
  by_cases hs : SwitchOk env s
  · rw [(hok hs).1, (hok hs).2]
  · rw [(hfail hs).1, (hfail hs).2]
    rcases h with h | h
    · exact absurd h hs
    · exact h.symm

/-! ## Calls -/

/-- A call of the disk layer. -/
inductive Call
  | init (drive : Drive)
  | read (drive : Drive) (buf sector count : ℕ)
  | write (drive : Drive) (buf sector count : ℕ)

/-- The state after a call in which no transfer initialises its card. -/
def Call.run (env : Env) (d : Disks) : Call → Disks
  | .init drive => (diskInitialize env drive d).2
  | .read drive buf sector count => (diskRead env .none drive buf sector count d).2
  | .write drive buf sector count => (diskWrite env .none drive buf sector count d).2

/-- The bytes of the eMMC a call may change: those of the sectors of BOOT0 it is to write. -/
def Call.Writes (call : Call) (p y : ℕ) : Prop :=
  match call with
  | .write .boot0 _ sector count =>
    p = emmcBoot0 ∧ blockSize * sector ≤ y ∧ y < blockSize * (sector + count)
  | _ => False

/-- The call changes no sector of any medium other than those it is to write. -/
structure Isolated (call : Call) (d d' : Disks) : Prop where
  /-- The SD card. -/
  sd : d'.sd.medium = d.sd.medium
  /-- The partitions of the eMMC. -/
  emmc : ∀ p y, ¬ call.Writes p y → d'.emmc.media p y = d.emmc.media p y

/-- The switch of `ensure_partition`, if there is one, does not go wrong unnoticed. -/
def EnsureSound (env : Env) (drive : Drive) (s : State) : Prop :=
  ∀ part, drive.part = some part → s.dev.partition ≠ part → SwitchSound env part s

/-- The transfer of a write on BOOT0 goes to BOOT0: no switch is needed or it succeeds, and the
sectors are ones the driver can address; or else there is nothing to transfer. -/
def WriteSound (env : Env) (buf sector count : ℕ) (s : State) : Prop :=
  (s.dev.partition = emmcBoot0 ∨ SwitchOk env s) ∧ sector + count ≤ reach s.card ∨
    buf = 0 ∨ buf % 8 ≠ 0 ∨ s.dev.initialized = false ∨ count = 0

/-- The condition on a call. -/
def Sound (env : Env) (d : Disks) : Call → Prop
  | .init drive =>
    ∀ part, drive.part = some part → SwitchSound env part (emmcInitialize env false d.emmc).2
  | .read drive _ _ _ => EnsureSound env drive d.emmc
  | .write drive buf sector count =>
    EnsureSound env drive d.emmc ∧ (drive = .boot0 → WriteSound env buf sector count d.emmc)

/-! ## What a call keeps -/

theorem ensurePartition_spec (env : Env) (drive : Drive) (d : Disks) :
    (ensurePartition env drive d).2.sd = d.sd ∧
      (ensurePartition env drive d).2.emmc.media = d.emmc.media ∧
      (ensurePartition env drive d).2.emmc.card = d.emmc.card ∧
      (ensurePartition env drive d).2.emmc.dev.initialized = d.emmc.dev.initialized := by
  rw [ensurePartition]
  split
  · exact ⟨rfl, rfl, rfl, rfl⟩
  · next part hpart =>
    split
    · obtain ⟨hmedia, hcard, hinit, -⟩ := setMmcPartition_spec env part d.emmc
      exact ⟨rfl, hmedia, hcard, hinit⟩
    · exact ⟨rfl, rfl, rfl, rfl⟩

theorem ensurePartition_cached {drive : Drive} {d : Disks} (h : Cached d.emmc)
    (hsound : EnsureSound env drive d.emmc) : Cached (ensurePartition env drive d).2.emmc := by
  rw [ensurePartition]
  split
  · exact h
  · next part hpart =>
    split
    · next hne => exact cached_switch h.access (hsound part hpart hne)
    · exact h

/-- When no switch was needed, or it has succeeded, the drive's partition is selected. -/
theorem ensurePartition_selected {drive : Drive} {d : Disks} {part : ℕ}
    (hpart : drive.part = some part) (h : Cached d.emmc)
    (hok : d.emmc.dev.partition = part ∨ SwitchOk env d.emmc) :
    (ensurePartition env drive d).2.emmc.selected = part := by
  rw [ensurePartition, hpart]
  dsimp only
  by_cases hne : d.emmc.dev.partition = part
  · rw [if_neg (not_not_intro hne)]
    exact h.partition ▸ hne
  · rw [if_pos hne]
    exact ((setMmcPartition_spec env part d.emmc).2.2.2.2.1 (hok.resolve_left hne)).2

/-- A read of any drive changes no medium, and nothing the driver knows. -/
theorem transfer_read (env : Env) (drive : Drive) (buf sector count : ℕ) (d : Disks) :
    (transfer env .none drive false buf sector count d).2.sd.medium = d.sd.medium ∧
      Still false d.emmc (transfer env .none drive false buf sector count d).2.emmc := by
  rw [transfer]
  split
  · have hsd := transfer_still env (drive.actualSector sector) count buf false d.sdView
    exact ⟨congrFun (hsd.media rfl) 0, ⟨rfl, rfl, rfl, rfl, fun _ ↦ rfl, hsd.tick⟩⟩
  · exact ⟨rfl, transfer_still env (drive.actualSector sector) count buf false d.emmc⟩

/-- A write with BOOT0 selected changes the sectors it was given, and no others. -/
theorem transfer_write (env : Env) {d : Disks} (h : Cached d.emmc)
    (hsel : d.emmc.selected = emmcBoot0)
    (buf : ℕ) {sector count : ℕ} (hreach : sector + count ≤ reach d.emmc.card) :
    (transfer env .none .boot0 true buf sector count d).2.sd = d.sd ∧
      Cached (transfer env .none .boot0 true buf sector count d).2.emmc ∧
      ∀ p y, ¬ (Call.write .boot0 buf sector count).Writes p y →
        (transfer env .none .boot0 true buf sector count d).2.emmc.media p y =
          d.emmc.media p y := by
  rw [transfer, if_neg (by decide)]
  by_cases hnone : d.emmc.dev.initialized = false ∨ count = 0
  · have hsame : (sdmmcStorageTransfer env (fun _ s ↦ (false, s)) (Drive.actualSector .boot0 sector)
        count buf true d.emmc).2 = d.emmc := transfer_nothing _ (.inr (.inr hnone))
    refine ⟨rfl, ?_, fun p y _ ↦ congrFun (congrFun (congrArg State.media hsame) p) y⟩
    exact (congrArg Cached hsame).mpr h
  · obtain ⟨hinit, hcount⟩ := not_or.mp hnone
    rw [Bool.not_eq_false] at hinit
    have hle := reach_le d.emmc.card
    have hactual : Drive.actualSector .boot0 sector = sector := Nat.mod_eq_of_lt (by omega)
    rw [hactual]
    obtain ⟨hdev, hcard, hselected, hmedia⟩ := transfer_none env buf true h.access hreach
    refine ⟨rfl, ⟨?_, ?_⟩, fun p y hout ↦ hmedia p y fun _ hp ↦ ?_⟩
    · exact (congrArg Dev.partition hdev).trans (h.partition.trans hselected.symm)
    · intro hinit'
      exact (congrArg Dev.hasSectorAccess hdev).trans
        ((h.access hinit).trans (congrArg Card.ccs hcard.symm))
    · have hboot : p = emmcBoot0 := hp.trans hsel
      by_contra hin
      exact hout ⟨hboot, by omega, by omega⟩

/-! ## Runs -/

/-- An initialisation of the eMMC leaves the driver right about the card, if the switch after it
does not go wrong unnoticed. -/
theorem init_cached {d : Disks} {part : ℕ}
    (h : SwitchSound env part (emmcInitialize env false d.emmc).2) :
    Cached (sdmmcStorageSetMmcPartition env part (emmcInitialize env false d.emmc).2).2 := by
  refine cached_switch (fun hinit ↦ ?_) h
  cases hres : (emmcInitialize env false d.emmc).1 with
  | true => exact ((emmcInitialize_spec env false d.emmc).2 hres).1.access
  | false =>
    rw [(emmcInitialize_blank hres).initialized] at hinit
    exact absurd hinit Bool.false_ne_true

/-- **A call that meets the condition is isolated, and keeps the invariant.** -/
theorem isolated_step {d : Disks} (call : Call) (h : Cached d.emmc) (hsound : Sound env d call) :
    Isolated call d (call.run env d) ∧ Cached (call.run env d).emmc := by
  cases call with
  | init drive =>
    rw [Call.run, diskInitialize]
    cases hpart : drive.part with
    | none =>
      have hidle := (sdInitialize_spec env false d.sdView).1
      exact ⟨⟨congrFun hidle.media 0, fun _ _ _ ↦ rfl⟩, h.partition, h.access⟩
    | some part =>
      have hmedia := (setMmcPartition_spec env part (emmcInitialize env false d.emmc).2).1
      have hidle := (emmcInitialize_spec env false d.emmc).1
      exact ⟨⟨rfl, fun p y _ ↦ congrFun (congrFun (hmedia.trans hidle.media) p) y⟩,
        init_cached (hsound part hpart)⟩
  | read drive buf sector count =>
    obtain ⟨hsd, hmedia, -⟩ := ensurePartition_spec env drive d
    have hcached := ensurePartition_cached h hsound
    obtain ⟨hsd', hstill⟩ :=
      transfer_read env drive buf sector count (ensurePartition env drive d).2
    refine ⟨⟨hsd'.trans (congrArg Sd.medium hsd), fun p y _ ↦ ?_⟩, ?_, fun hinit ↦ ?_⟩
    · exact congrFun (congrFun ((hstill.media rfl).trans hmedia) p) y
    · exact (congrArg Dev.partition hstill.dev).trans
        (hcached.partition.trans hstill.selected.symm)
    · exact (congrArg Dev.hasSectorAccess hstill.dev).trans
        ((hcached.access ((congrArg Dev.initialized hstill.dev).symm.trans hinit)).trans
          (congrArg Card.ccs hstill.card.symm))
  | write drive buf sector count =>
    obtain ⟨hsd, hmedia, hcard, hinit⟩ := ensurePartition_spec env drive d
    have hcached := ensurePartition_cached h hsound.1
    rw [Call.run, diskWrite]
    by_cases hdrive : drive = .boot0
    swap
    · rw [if_neg hdrive]
      exact ⟨⟨congrArg Sd.medium hsd, fun p y _ ↦ congrFun (congrFun hmedia p) y⟩, hcached⟩
    rw [if_pos hdrive]
    subst hdrive
    rcases hsound.2 rfl with ⟨hok, hreach⟩ | hnone
    · have hpart : Drive.part .boot0 = some emmcBoot0 := rfl
      have hsel := ensurePartition_selected hpart h hok
      obtain ⟨hsd', hcached', hmedia'⟩ :=
        transfer_write env hcached hsel buf (hcard.symm ▸ hreach)
      exact ⟨⟨congrArg Sd.medium (hsd'.trans hsd), fun p y hout ↦
        (hmedia' p y hout).trans (congrFun (congrFun hmedia p) y)⟩, hcached'⟩
    · have hsame : (sdmmcStorageTransfer env (fun _ s ↦ (false, s))
          (Drive.actualSector .boot0 sector) count buf true
          (ensurePartition env .boot0 d).2.emmc).2 = (ensurePartition env .boot0 d).2.emmc :=
        transfer_nothing _ (hinit.symm ▸ hnone)
      have hemmc : (transfer env .none .boot0 true buf sector count
          (ensurePartition env .boot0 d).2).2.emmc = (ensurePartition env .boot0 d).2.emmc := hsame
      refine ⟨⟨congrArg Sd.medium hsd, fun p y _ ↦ ?_⟩, hemmc.symm ▸ hcached⟩
      exact congrFun (congrFun ((congrArg State.media hemmc).trans hmedia) p) y

/-- **Isolation of the disk layer.**  In a run of calls that all meet the condition, every call is
isolated, and after every call the partition on record is the one selected. -/
theorem isolated_run {d : Disks} (h : Cached d.emmc) {calls : List Call}
    (hsound : Machine.Along (fun d call ↦ call.run env d) (Sound env) d calls) :
    Machine.Along (fun d call ↦ call.run env d) (fun d call ↦ Isolated call d (call.run env d) ∧
      (call.run env d).emmc.dev.partition = (call.run env d).emmc.selected) d calls := by
  induction calls generalizing d with
  | nil => trivial
  | cons call calls ih =>
    obtain ⟨hisolated, hcached⟩ := isolated_step call h hsound.1
    exact ⟨⟨hisolated, hcached.partition⟩, ih hcached hsound.2⟩

/-! ## A switch that succeeds, one that is lost, and one that is not seen -/

/-- Both cards initialised, with the user area of the eMMC selected, and memory full of `0xAA`. -/
def started : Disks where
  emmc := { selectedOn emmcGpp with mem := fun _ ↦ 0xAA }
  sd := ⟨⟨true, 0, true, 0⟩, sdDefaultSpeed, ⟨true, 4, 0, fun _ ↦ 0⟩, fun _ ↦ 0⟩

/-- A device on which the command `t` fails, having reached the card or not. -/
def failsAt (t : ℕ) (took : Bool) : Env := fun n ↦ ⟨decide (n ≠ t), took, fun _ ↦ false, fun _ ↦ 0⟩

/-- The second command of a boot written, and a sector of the user area read, with one failure in
between. -/
theorem isolated_run_failsAt :
    Machine.Along (fun d call ↦ Call.run (failsAt 3 false) d call)
      (fun d call ↦ Isolated call d (call.run (failsAt 3 false) d) ∧
        (call.run (failsAt 3 false) d).emmc.dev.partition =
          (call.run (failsAt 3 false) d).emmc.selected)
      started [.write .boot0 usbEpBulkInBufAddr 1 1, .read .gpp usbEpBulkInBufAddr 0 1] :=
  isolated_run ⟨rfl, fun _ ↦ rfl⟩ ⟨⟨fun _ _ _ ↦ .inl ⟨rfl, rfl⟩,
    fun _ ↦ .inl ⟨.inr ⟨rfl, rfl⟩, by decide⟩⟩,
    fun part hpart _ ↦ .inr (by cases hpart; rfl), trivial⟩

/-- The switch to BOOT0 is lost, and the sector meant for BOOT0 is written to the user area; and one
whose status check fails leaves BOOT0 selected, with the user area on record. -/
theorem isolated_counterexample :
    ¬ Isolated (.write .boot0 usbEpBulkInBufAddr 1 1) started
        (Call.run (failsAt 0 false) started (.write .boot0 usbEpBulkInBufAddr 1 1)) ∧
      (Call.run (failsAt 1 false) started
          (.read .boot0 usbEpBulkInBufAddr 1 1)).emmc.dev.partition ≠
        (Call.run (failsAt 1 false) started
          (.read .boot0 usbEpBulkInBufAddr 1 1)).emmc.selected := by
  refine ⟨fun h ↦ ?_, by decide +kernel⟩
  have hsame := h.emmc emmcGpp 512 fun hw ↦ absurd hw.1 (by decide)
  have hnew : (Call.run (failsAt 0 false) started
      (.write .boot0 usbEpBulkInBufAddr 1 1)).emmc.media emmcGpp 512 = 0xAA := by decide +kernel
  rw [hnew] at hsame
  exact absurd hsame (by decide)

end Disk
end SdLoader
