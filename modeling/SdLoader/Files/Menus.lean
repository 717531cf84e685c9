import SdLoader.Files.Access

/-!
# The storages behind the menus

What the steps that do not open a file do to a drive that is mounted: the accesses of the toolbox
and of the reading of a file, and the menus of `ums.c`, which initialise the storages and end them.

* `Spared` — the sectors of a drive are as they were.  `diskRead_spared`, `diskWrite_spared` — reads
  spare every drive, writes those that are not on BOOT0, if BOOT0 is what they leave selected;
* `Used.Frame` — a session leaves the storage alone that is not in use;
* `initUmsCfg_mode`, `usbDeviceGadgetUms_mode` — the SD card that was given up is tried again after
  a visit to the menu and after a session.
-/

set_option autoImplicit false

namespace SdLoader
namespace Files

open Storage Disk
open Usb (MmcType)

variable {env : Env} {d d' : Disks} {drive : Drive}

/-! ## Accesses of the toolbox, and of the reading of a file -/

/-- The sectors of a drive are as they were, and so is the way the card is addressed. -/
structure Spared (drive : Drive) (d d' : Disks) : Prop where
  contents : contents drive d' = contents drive d
  addressed : Addressed (drive.view d) → Addressed (drive.view d')

theorem Untouched.spared (h : Untouched drive d d') : Spared drive d d' := by
  refine ⟨h.contents, fun haddr ↦ ?_⟩
  rw [Addressed, h.dev, h.card]
  exact haddr

/-- **A read of any drive spares every drive.** -/
theorem diskRead_spared (env : Env) (drive v : Drive) (buf sector count : ℕ) (d : Disks) :
    Spared v d (diskRead env (.full env) drive buf sector count d).2 := by
  obtain ⟨⟨hcard, hmedia, haddr⟩, -⟩ := diskRead_read env drive buf sector count d
  by_cases hdrive : drive = .sd
  · subst hdrive
    by_cases hv : v = .sd
    · subst hv
      exact ⟨contents_congr hcard (congrFun hmedia _), haddr⟩
    · refine Untouched.spared ?_
      rw [diskRead_eq]
      exact untouched_withSdView hv d _
  · by_cases hv : v = .sd
    · subst hv
      exact (untouched_sd (diskRead_sd hdrive env buf sector count d)).spared
    · rw [view_emmc hdrive, view_emmc hdrive] at hcard hmedia haddr
      refine ⟨contents_congr ?_ ?_, ?_⟩ <;> rw [view_emmc hv, view_emmc hv]
      · exact hcard
      · exact congrFun hmedia _
      · exact haddr

theorem ensurePartition_spared (env : Env) (drive v : Drive) (d : Disks) :
    Spared v d (ensurePartition env drive d).2 := by
  obtain ⟨hsd, hmedia, hcard, -⟩ := ensurePartition_spec env drive d
  by_cases hv : v = .sd
  · subst hv
    exact (untouched_sd hsd).spared
  · refine ⟨contents_congr ?_ ?_, ?_⟩ <;> rw [view_emmc hv, view_emmc hv]
    · exact hcard
    · exact congrFun hmedia _
    · exact ensurePartition_addressed env drive

/-- A write leaves the SD storage alone: BOOT0 is the only drive that is written. -/
theorem diskWrite_sd (env : Env) (drive : Drive) (buf sector count : ℕ) (d : Disks) :
    (diskWrite env (.full env) drive buf sector count d).2.sd = d.sd := by
  have hensured : (ensurePartition env drive d).2.sd = d.sd := (ensurePartition_spec env drive d).1
  rw [diskWrite]
  by_cases hdrive : drive = .boot0
  · subst hdrive
    rw [if_pos rfl]
    exact hensured
  · rw [if_neg hdrive]
    exact hensured

/-- **A write spares the drives of the eMMC that are not on BOOT0**, if BOOT0 is what is selected in
the end. -/
theorem diskWrite_spared {v : Drive} (hsd : v ≠ .sd) (hv : v.home ≠ emmcBoot0)
    {buf sector count : ℕ}
    (hsel : drive = .boot0 →
      (diskWrite env (.full env) drive buf sector count d).2.emmc.selected = emmcBoot0) :
    Spared v d (diskWrite env (.full env) drive buf sector count d).2 := by
  have hensured := ensurePartition_spared env drive v d
  rw [diskWrite] at hsel ⊢
  by_cases hdrive : drive = .boot0
  · rw [if_pos hdrive] at hsel ⊢
    replace hsel := hsel hdrive
    have hne : drive ≠ .sd := by
      subst hdrive
      decide
    rw [transfer, if_neg hne] at hsel ⊢
    have hroamed := (transfer_roamed (emmcReinit_idle env) (fun _ _ ↦ emmcReinit_fresh) env
      (drive.actualSector sector) count buf true (ensurePartition env drive d).2.emmc).1
    have haddr := transfer_addressed env drive true buf sector count
      (d := (ensurePartition env drive d).2)
    rw [transfer, if_neg hne] at haddr
    have hselected : (sdmmcStorageTransfer env (emmcReinit env) (drive.actualSector sector) count
        buf true (ensurePartition env drive d).2.emmc).2.selected = emmcBoot0 := hsel
    refine ⟨(contents_congr ?_ ?_).trans hensured.contents, fun h ↦ ?_⟩
    · rw [view_emmc hsd, view_emmc hsd]
      exact hroamed.card
    · rw [view_emmc hsd, view_emmc hsd]
      refine hroamed.media (.inr ?_) _ fun _ ↦ ?_ <;> rw [hselected]
      · decide
      · exact hv
    · have h' := hensured.addressed h
      rw [view_emmc hsd] at h' ⊢
      exact haddr h'
  · rw [if_neg hdrive]
    exact hensured

/-! ## Menus -/

/-- The storages that are not in use are left alone. -/
structure Used.Frame (used : Used) (d d' : Disks) : Prop where
  sd : used.sd = false → d'.sd = d.sd
  emmc : used.mmc = false → ∀ v : Drive, v ≠ .sd → Untouched v d d'

section
variable {used : Used} {d₀ : Disks}

theorem Used.Frame.refl (used : Used) (d : Disks) : used.Frame d d :=
  ⟨fun _ ↦ rfl, fun _ v _ ↦ .refl v d⟩

theorem Used.Frame.trans (h : used.Frame d₀ d) (h' : used.Frame d d') : used.Frame d₀ d' :=
  ⟨fun hsd ↦ (h'.sd hsd).trans (h.sd hsd),
    fun hmmc v hv ↦ (h.emmc hmmc v hv).trans (h'.emmc hmmc v hv)⟩

theorem Used.Frame.withSdView (h : used.sd = true) (d : Disks) (s : Storage.State) :
    used.Frame d (d.withSdView s) :=
  ⟨fun h' ↦ absurd (h.symm.trans h') Bool.noConfusion, fun _ _ hv ↦ untouched_withSdView hv d s⟩

theorem Used.Frame.withEmmc (h : used.mmc = true) (d : Disks) (s : Storage.State) :
    used.Frame d { d with emmc := s } :=
  ⟨fun _ ↦ rfl, fun h' ↦ absurd (h.symm.trans h') Bool.noConfusion⟩

/-- More may be in use. -/
theorem Used.Frame.mono {used' : Used} (h : used.Frame d d')
    (hsd : used.sd = true → used'.sd = true)
    (hmmc : used.mmc = true → used'.mmc = true) : used'.Frame d d' := by
  refine ⟨fun h' ↦ h.sd ?_, fun h' ↦ h.emmc ?_⟩
  · exact Bool.eq_false_iff.mpr fun ht ↦ absurd (hsd ht) (Bool.eq_false_iff.mp h')
  · exact Bool.eq_false_iff.mpr fun ht ↦ absurd (hmmc ht) (Bool.eq_false_iff.mp h')

theorem UmsCall.perform_frame (env : Env) (used : Used) (d : Disks) (c : UmsCall) :
    used.Frame d (c.perform env used d) := by
  cases c with
  | transfer type isWrite sector count buf =>
    cases type with
    | sd =>
      rw [UmsCall.perform]
      split
      · next h => exact .withSdView h d _
      · exact .refl used d
    | emmc =>
      rw [UmsCall.perform]
      split
      · next h => exact .withEmmc h d _
      · exact .refl used d
  | setPartition part =>
    rw [UmsCall.perform]
    split
    · next h => exact .withEmmc h d _
    · exact .refl used d
  | receive buf bytes =>
    refine ⟨fun _ ↦ rfl, fun _ v hv ↦ ?_⟩
    refine ⟨?_, ?_, ?_, ?_⟩ <;> rw [view_emmc hv, view_emmc hv] <;> rfl

theorem performAll_frame (env : Env) (used : Used) (calls : List UmsCall) (d : Disks) :
    used.Frame d (calls.foldl (UmsCall.perform env used) d) := by
  induction calls generalizing d with
  | nil => exact .refl used d
  | cons c calls ih => exact (c.perform_frame env used d).trans (ih _)

theorem exitUms_frame (env : Env) (sdInitDone : Bool) (used : Used) (d : Disks) :
    used.Frame d (exitUms env sdInitDone used d) := by
  have hemmc : used.Frame d (if used.mmc then endEmmc env d else d) := by
    split
    · next h => exact .withEmmc h d _
    · exact .refl used d
  rw [exitUms]
  split
  · next h => exact hemmc.trans (.withSdView h _ _)
  · exact hemmc

/-- What the loop over the volumes leaves: only storages in use have been touched, and what was in
use still is. -/
structure Inited (used : Used) (d : Disks) (r : Bool × Used × Disks) : Prop where
  frame : r.2.1.Frame d r.2.2
  sd : used.sd = true → r.2.1.sd = true
  mmc : used.mmc = true → r.2.1.mmc = true

/-- One volume before the others. -/
theorem Inited.cons {used' : Used} {r : Bool × Used × Disks} (h : Inited used' d' r)
    (hframe : used'.Frame d d') (hsd : used.sd = true → used'.sd = true)
    (hmmc : used.mmc = true → used'.mmc = true) : Inited used d r :=
  ⟨(hframe.mono h.sd h.mmc).trans h.frame, fun hu ↦ h.sd (hsd hu), fun hu ↦ h.mmc (hmmc hu)⟩

/-- The loop ends here. -/
theorem inited_stop (used : Used) (b : Bool) (d : Disks) : Inited used d (b, used, d) :=
  ⟨.refl used d, id, id⟩

theorem initLuns_inited (env : Env) (luns : List MmcType) (used : Used) (d : Disks) :
    Inited used d (initLuns env luns used d) := by
  induction luns generalizing used d with
  | nil => exact inited_stop used true d
  | cons type luns ih =>
    cases type with
    | sd =>
      rw [initLuns]
      split
      · exact ih used d
      · have hframe : Used.Frame { used with sd := true } d (d.onSd (sdInitialize env false)).2 :=
          .withSdView rfl d _
        rcases hr : d.onSd (sdInitialize env false) with ⟨_ | _, d'⟩ <;> rw [hr] at hframe
        · exact (inited_stop _ false d').cons hframe (fun _ ↦ rfl) id
        · exact (ih _ d').cons hframe (fun _ ↦ rfl) id
    | emmc =>
      rw [initLuns]
      split
      · exact ih used d
      · have hframe : Used.Frame { used with mmc := true } d
            (d.onEmmc (emmcInitialize env false)).2 :=
          .withEmmc rfl d _
        rcases hr : d.onEmmc (emmcInitialize env false) with ⟨_ | _, d'⟩ <;> rw [hr] at hframe
        · exact (inited_stop _ false d').cons hframe id (fun _ ↦ rfl)
        · exact (ih _ d').cons hframe id (fun _ ↦ rfl)

end

/-- The storages that are in use in a session: those of its volumes, up to one that does not come
up. -/
def usedBy (env : Env) (luns : List MmcType) (d : Disks) : Used :=
  (initLuns env luns ⟨false, false⟩ d).2.1

/-- **A session leaves a storage alone that is not in use.** -/
theorem usbDeviceGadgetUms_frame (env : Env) (luns : List MmcType) (calls : List UmsCall)
    (sdInitDone : Bool) (d : Disks) :
    (usedBy env luns d).Frame d (usbDeviceGadgetUms env luns calls sdInitDone d) := by
  have hframe := (initLuns_inited env luns ⟨false, false⟩ d).frame
  rw [usedBy, usbDeviceGadgetUms]
  rcases hr : initLuns env luns ⟨false, false⟩ d with ⟨_ | _, used, d'⟩ <;> rw [hr] at hframe
  · exact hframe.trans (exitUms_frame env sdInitDone used d')
  · exact hframe.trans ((performAll_frame env used calls d').trans
      (exitUms_frame env sdInitDone used _))

/-- After a session the SD card is not given up, unless it was before. -/
theorem usbDeviceGadgetUms_mode (env : Env) (luns : List MmcType) (calls : List UmsCall)
    (sdInitDone : Bool) (hmode : d.sd.mode ≠ 0) :
    (usbDeviceGadgetUms env luns calls sdInitDone d).sd.mode ≠ 0 := by
  have hexit : ∀ (used : Used) (d' : Disks), used.Frame d d' →
      (exitUms env sdInitDone used d').sd.mode ≠ 0 := by
    intro used d' hframe
    rw [exitUms]
    split
    · exact sdEnd_mode env sdInitDone _
    · next hsd =>
      have hsame := hframe.sd (Bool.eq_false_iff.mpr hsd)
      split
      · exact fun h0 ↦ hmode ((congrArg Sd.mode hsame).symm.trans h0)
      · exact fun h0 ↦ hmode ((congrArg Sd.mode hsame).symm.trans h0)
  have hframe := (initLuns_inited env luns ⟨false, false⟩ d).frame
  rw [usbDeviceGadgetUms]
  rcases hr : initLuns env luns ⟨false, false⟩ d with ⟨_ | _, used, d'⟩ <;> rw [hr] at hframe
  · exact hexit used d' hframe
  · exact hexit used _ (hframe.trans (performAll_frame env used calls d'))

/-- After a visit to the menu it is not given up. -/
theorem initUmsCfg_mode (env : Env) (sdInitDone : Bool) (d : Disks) :
    (initUmsCfg env sdInitDone d).sd.mode ≠ 0 :=
  sdEnd_mode env sdInitDone (d.onSd (sdInitialize env false)).2.sdView

/-- The menu of a volume leaves the other storage alone. -/
theorem volumeLoadPartTable_frame (env : Env) (device : Volumes.Device) (d : Disks) :
    (device ≠ .sd → (volumeLoadPartTable env device d).sd = d.sd) ∧
      (device ≠ .emmcGpp → ∀ v : Drive, v ≠ .sd →
        Untouched v d (volumeLoadPartTable env device d)) := by
  cases device with
  | sd =>
    refine ⟨fun h ↦ absurd rfl h, fun _ v hv ↦ ?_⟩
    have hinit := untouched_onSd hv (sdInitialize env false) d
    rw [volumeLoadPartTable]
    rcases hr : d.onSd (sdInitialize env false) with ⟨_ | _, d'⟩ <;> rw [hr] at hinit
    · exact hinit
    · exact hinit.trans (untouched_withSdView hv d' _)
  | emmcGpp =>
    refine ⟨fun _ ↦ ?_, fun h ↦ absurd rfl h⟩
    have hinit : (d.onEmmc (emmcInitialize env false)).2.sd = d.sd := rfl
    rw [volumeLoadPartTable]
    rcases hr : d.onEmmc (emmcInitialize env false) with ⟨_ | _, d'⟩ <;> rw [hr] at hinit <;>
      exact hinit
  | emmcBoot0 => exact ⟨fun _ ↦ rfl, fun _ v _ ↦ .refl v d⟩
  | emmcBoot1 => exact ⟨fun _ ↦ rfl, fun _ v _ ↦ .refl v d⟩

/-! ## Storages that are ended -/

section
variable (hok : ∀ n, (env n).ok = true)
include hok

theorem storageEnd_ended (s : Storage.State) : (storageEnd env s).dev.initialized = false := by
  rw [storageEnd, goIdleState, hok]

theorem endSd_ended (d : Disks) : (endSd env true d).sd.dev.initialized = false := by
  rw [endSd, sdEnd]
  exact storageEnd_ended hok _

theorem endEmmc_ended (d : Disks) : (endEmmc env d).emmc.dev.initialized = false :=
  storageEnd_ended hok d.emmc

/-- **After a visit to the menu no storage is initialised.** -/
theorem initUmsCfg_ended (drive : Drive) (d : Disks) :
    (drive.view (initUmsCfg env true d)).dev.initialized = false := by
  by_cases hdrive : drive = .sd
  · subst hdrive
    exact endSd_ended hok (d.onSd (sdInitialize env false)).2
  · rw [view_emmc hdrive]
    exact endEmmc_ended hok _

theorem exitUms_ended (used : Used) (d : Disks)
    (hused : if drive = .sd then used.sd else used.mmc) :
    (drive.view (exitUms env true used d)).dev.initialized = false := by
  rw [exitUms]
  by_cases hdrive : drive = .sd
  · subst hdrive
    rw [if_pos rfl] at hused
    rw [if_pos hused]
    exact endSd_ended hok _
  · rw [if_neg hdrive] at hused
    rw [if_pos hused, view_emmc hdrive]
    split
    · exact endEmmc_ended hok d
    · exact endEmmc_ended hok d

/-- **After a session no storage is initialised that was in use.** -/
theorem usbDeviceGadgetUms_ended {luns : List MmcType} (calls : List UmsCall)
    (hused : if drive = .sd then (usedBy env luns d).sd else (usedBy env luns d).mmc) :
    (drive.view (usbDeviceGadgetUms env luns calls true d)).dev.initialized = false := by
  rw [usedBy] at hused
  rw [usbDeviceGadgetUms]
  rcases hr : initLuns env luns ⟨false, false⟩ d with ⟨_ | _, used, d'⟩ <;> rw [hr] at hused
  · exact exitUms_ended hok used d' hused
  · exact exitUms_ended hok used _ hused

end

/-- The sectors of the SD card are as they were after a visit to the menu. -/
theorem initUmsCfg_contents (env : Env) (sdInitDone : Bool) (d : Disks) :
    contents .sd (initUmsCfg env sdInitDone d) = contents .sd d := by
  have hinit := (sdInitialize_spec env false d.sdView).1
  have hend := sdEnd_idle env sdInitDone (d.onSd (sdInitialize env false)).2.sdView
  refine contents_congr (hend.card.trans hinit.card) ?_
  exact (congrFun hend.media 0).trans (congrFun hinit.media 0)

end Files
end SdLoader
