import SdLoader.Fat.Mount
import SdLoader.Files.Mount
import SdLoader.Lib.Machine
import SdLoader.Payload.Launch

/-!
# The drive that `cur_drive` names

`cur_drive` is set when a drive has been mounted, and it is looked at when a file is to be opened.
In between, the menus end the storages, and `unmount_drive` takes the volume away; neither touches
`cur_drive`.

* `StepSound` — the condition on a step: it does not end the storage behind the drive that is
  mounted nor unmount the drive, and the media failures it meets do no harm;
* `step_inv` — a step that meets the condition keeps the invariant;
* `Reliable` — the drive that `cur_drive` names is registered and its storage initialised, and a
  file that is there is opened, on any drive, if nothing fails from now on;
* `run_reliable` — in every run whose steps all meet the condition, this holds in every state;
* `StepHeard` — a condition on the outcomes of the commands of a step: no five in a row fail, and
  neither does a switch of partitions or the initialisation of an SD card that is to be used;
  `stepSound_of_heard` — it is enough; `along_plain` — it is met by steps that open, read and write,
  if nothing fails;
* `initUmsCfg_breaks`, `usbDeviceGadgetUms_breaks`, `unmountDrive_breaks` — what the condition keeps
  out: a visit to the menu with a drive mounted, a session that uses its storage, and
  `unmount_drive` leave a state in which it does not.
-/

set_option autoImplicit false

namespace SdLoader
namespace Files

open Storage Disk
open Payload (Windows heapWindows)

variable {Path Meta Fil : Type} {w : Windows} {fat : FatFs Path Meta Fil} {x : State Meta}
  {env : Env}

/-! ## The condition -/

/-- The drive that is mounted is not the SD card. -/
def SdFree (x : State Meta) : Prop := x.curDrive ≠ some .sd

/-- The drive that is mounted is not on the eMMC. -/
def EmmcFree (x : State Meta) : Prop := ∀ drive, x.curDrive = some drive → drive = .sd

/-- The media failures of an access, which has left the storages as `d`, did no harm to the drive
that is mounted: its storage has not been ended, the driver is not wrong about its partition, and
the SD card has not been given up. -/
structure Undisturbed (x : State Meta) (d : Disks) : Prop where
  mode : d.sd.mode ≠ 0
  initialized : ∀ drive, x.curDrive = some drive → (drive.view d).dev.initialized = true
  known : ∀ drive, x.curDrive = some drive → Known drive d

section
variable (w : Windows) (fat : FatFs Path Meta Fil)

/-- **The condition on a step**: it meets no media failure but what does no harm, the drive that is
mounted is not unmounted, and its storage is not ended. -/
def StepSound (x : State Meta) (i : Env × Step Path) : Prop :=
  match i.2 with
  | .openFileOn path drive => ∀ v, drives[drive]? = some v → OpenOnSound i.1 w fat path v x
  | .openFileOnAny path => OpenAnySound i.1 w fat path drives x
  | .unmountDrive => x.curDrive = none
  | .initUmsCfg _ => x.curDrive = none
  | .volumeLoadPartTable device =>
    (device = .sd → SdFree x) ∧ (device = .emmcGpp → EmmcFree x) ∧
      (volumeLoadPartTable i.1 device x.disks).sd.mode ≠ 0
  | .usbDeviceGadgetUms luns _ _ =>
    ((usedBy i.1 luns x.disks).sd = true → SdFree x) ∧
      ((usedBy i.1 luns x.disks).mmc = true → EmmcFree x)
  | .toolbox => EmmcFree x ∨ (emmcInitialize i.1 false x.disks.emmc).1 = true
  | .diskRead drive buf sector count =>
    Undisturbed x (diskRead i.1 (.full i.1) drive buf sector count x.disks).2
  | .diskWrite drive buf sector count =>
    Undisturbed x (diskWrite i.1 (.full i.1) drive buf sector count x.disks).2 ∧
      (EmmcFree x ∨ (drive = .boot0 →
        (diskWrite i.1 (.full i.1) drive buf sector count x.disks).2.emmc.selected = emmcBoot0))
  | .moveWindow sector =>
    ∀ drive, x.curDrive = some drive →
      (Scan.look false sector .done).Along (readWindow i.1 w drive)
        (fun sector d ↦ Harmless drive (diskRead i.1 (.full i.1) drive w.fs sector 1 d))
        (x.fs.win, x.disks)
  | .exchange _ _ => SdFree x

end

/-! ## A step -/

/-- What leaves the SD storage alone and every drive of the eMMC, or has none of them mounted. -/
theorem Inv.frame (h : Inv fat x) {d : Disks} (hmode : d.sd.mode ≠ 0)
    (hsd : d.sd = x.disks.sd ∨ SdFree x)
    (hemmc : (∀ drive : Drive, drive ≠ .sd → Untouched drive x.disks d) ∨ EmmcFree x) :
    Inv fat { x with disks := d } := by
  refine h.withDisks hmode fun drive hcur _ hup ↦ ?_
  have huntouched : Untouched drive x.disks d := by
    by_cases hdrive : drive = .sd
    · subst hdrive
      rcases hsd with hsame | hfree
      · exact untouched_sd hsame
      · exact absurd hcur hfree
    · rcases hemmc with hsame | hfree
      · exact hsame drive hdrive
      · exact absurd (hfree drive hcur) hdrive
  exact ⟨huntouched.up hup, huntouched.contents⟩

/-- An access that spares the drive that is mounted. -/
theorem Inv.access (h : Inv fat x) {d : Disks} (hsound : Undisturbed x d)
    (hspared : ∀ drive, x.curDrive = some drive → drive ∈ drives → Spared drive x.disks d) :
    Inv fat { x with disks := d } := by
  refine h.withDisks hsound.mode fun drive hcur hvol hup ↦ ?_
  obtain ⟨hcontents, haddr⟩ := hspared drive hcur hvol
  exact ⟨⟨⟨hsound.initialized drive hcur, haddr hup.ready.addressed⟩, hsound.known drive hcur⟩,
    hcontents⟩

/-- With nothing mounted the storages do not matter. -/
theorem Inv.unmountedDisks (h : Inv fat x) (hcur : x.curDrive = none) {d : Disks}
    (hmode : d.sd.mode ≠ 0) : Inv fat { x with disks := d } :=
  h.withDisks hmode fun _ hcur' ↦ absurd (hcur.symm.trans hcur') (fun h ↦ by cases h)

/-- The drives that are mounted are not on BOOT0. -/
theorem home_ne_boot0 {drive : Drive} (h : drive ∈ drives) : drive.home ≠ emmcBoot0 := by
  revert h
  cases drive <;> decide

theorem unmountDrive_inv (h : Inv fat x) (hcur : x.curDrive = none) : Inv fat (unmountDrive x) := by
  rw [unmountDrive, hcur]
  exact h

theorem toolbox_inv (h : Inv fat x)
    (hsound : EmmcFree x ∨ (emmcInitialize env false x.disks.emmc).1 = true) :
    Inv fat { x with disks := (x.disks.onEmmc (emmcInitialize env false)).2 } := by
  refine h.withDisks h.mode fun drive hcur _ hup ↦ ?_
  by_cases hdrive : drive = .sd
  · have huntouched := untouched_onEmmc hdrive (emmcInitialize env false) x.disks
    exact ⟨huntouched.up hup, huntouched.contents⟩
  · have hinit := hsound.resolve_left fun hfree ↦ hdrive (hfree drive hcur)
    have hspec := emmcInitialize_spec env false x.disks.emmc
    refine ⟨up_of_fresh hdrive (hspec.2 hinit).1, contents_congr ?_ ?_⟩ <;>
      rw [view_emmc hdrive, view_emmc hdrive]
    · exact hspec.1.card
    · exact congrFun hspec.1.media drive.home

theorem diskWrite_inv (h : Inv fat x) {drive : Drive} {buf sector count : ℕ}
    (hsound : Undisturbed x (diskWrite env (.full env) drive buf sector count x.disks).2)
    (hsel : EmmcFree x ∨ (drive = .boot0 →
      (diskWrite env (.full env) drive buf sector count x.disks).2.emmc.selected = emmcBoot0)) :
    Inv fat { x with disks := (diskWrite env (.full env) drive buf sector count x.disks).2 } := by
  refine h.access hsound fun v hcur hvol ↦ ?_
  by_cases hsd : v = .sd
  · subst hsd
    exact (untouched_sd (diskWrite_sd env drive buf sector count x.disks)).spared
  · exact diskWrite_spared hsd (home_ne_boot0 hvol)
      (hsel.resolve_left fun hfree ↦ hsd (hfree v hcur))

/-- **A step that meets the condition keeps the invariant.** -/
theorem step_inv (x : State Meta) (i : Env × Step Path) (h : Inv fat x)
    (hsound : StepSound w fat x i) : Inv fat (step w fat x i) := by
  obtain ⟨env, i⟩ := i
  cases i with
  | openFileOn path drive =>
    rw [step]
    dsimp only
    rw [openFileOn]
    cases hdrive : drives[drive]? with
    | none => exact h
    | some v => exact openOn_inv h (List.mem_of_getElem? hdrive) (hsound v hdrive)
  | openFileOnAny path => exact openFileOnAnyLoop_inv (fun _ ↦ id) h hsound
  | unmountDrive => exact unmountDrive_inv h hsound
  | initUmsCfg sdInitDone => exact h.unmountedDisks hsound (initUmsCfg_mode env sdInitDone x.disks)
  | volumeLoadPartTable device =>
    obtain ⟨hsd, hemmc, hmode⟩ := hsound
    obtain ⟨hsame, huntouched⟩ := volumeLoadPartTable_frame env device x.disks
    refine h.frame hmode ?_ ?_
    · by_cases hdevice : device = .sd
      · exact .inr (hsd hdevice)
      · exact .inl (hsame hdevice)
    · by_cases hdevice : device = .emmcGpp
      · exact .inr (hemmc hdevice)
      · exact .inl (huntouched hdevice)
  | usbDeviceGadgetUms luns calls sdInitDone =>
    obtain ⟨hsd, hemmc⟩ := hsound
    have hframe := usbDeviceGadgetUms_frame env luns calls sdInitDone x.disks
    refine h.frame (usbDeviceGadgetUms_mode env luns calls sdInitDone h.mode) ?_ ?_
    · by_cases hused : (usedBy env luns x.disks).sd = true
      · exact .inr (hsd hused)
      · exact .inl (hframe.sd (Bool.eq_false_iff.mpr hused))
    · by_cases hused : (usedBy env luns x.disks).mmc = true
      · exact .inr (hemmc hused)
      · exact .inl (hframe.emmc (Bool.eq_false_iff.mpr hused))
  | toolbox => exact toolbox_inv h hsound
  | diskRead drive buf sector count =>
    exact h.access hsound fun v _ _ ↦ diskRead_spared env drive v buf sector count x.disks
  | diskWrite drive buf sector count => exact diskWrite_inv h hsound.1 hsound.2
  | moveWindow sector =>
    rw [step]
    dsimp only
    cases hcur : x.curDrive with
    | none =>
      rw [h.unmounted hcur]
      exact h
    | some drive =>
      obtain ⟨found, hfound, -⟩ := (h.mounted drive hcur).found
      rw [hfound]
      exact onVolume_inv h hcur _ (hsound drive hcur)
  | exchange card medium =>
    refine h.withDisks h.mode fun drive hcur _ hup ↦ ?_
    have hdrive : drive ≠ .sd := by
      rintro rfl
      exact hsound hcur
    have huntouched : Untouched drive x.disks
        { x.disks with sd.card := card, sd.medium := medium } := by
      refine ⟨?_, ?_, ?_, ?_⟩ <;> rw [view_emmc hdrive, view_emmc hdrive]
    exact ⟨huntouched.up hup, huntouched.contents⟩

/-! ## Runs -/

/-- What is asked of the program, between two calls. -/
structure Reliable (w : Windows) (fat : FatFs Path Meta Fil) (x : State Meta) : Prop where
  /-- The volume of the drive that `cur_drive` names is registered on `fs`, and its storage is
  initialised. -/
  mounted : ∀ drive, x.curDrive = some drive →
    x.registered drive = true ∧ x.fs.pdrv = drive ∧ (drive.view x.disks).dev.initialized = true
  /-- A file that is there is opened, if nothing fails from now on. -/
  opens : ∀ (env : Env) (drive : Drive) (n : ℕ) (path : Path) (fil : Fil),
    drives[n]? = some drive → OkFrom env x.disks.emmc.tick → HasFile fat path fil drive x.disks →
    (openFileOn env w fat path n x).1 = .ok fil

theorem Booted.inv (h : Booted x) (fat : FatFs Path Meta Fil) : Inv fat x :=
  ⟨h.mode, fun _ ↦ h.found, fun _ hcur ↦ absurd (h.curDrive.symm.trans hcur) (fun h ↦ by cases h)⟩

theorem Inv.reliable (h : Inv fat x) (w : Windows) : Reliable w fat x := by
  refine ⟨fun drive hcur ↦ ?_, fun env drive n path fil hdrive hok hfile ↦ ?_⟩
  · have hm := h.mounted drive hcur
    exact ⟨hm.registered, hm.pdrv, hm.up.ready.initialized⟩
  · rw [openFileOn, hdrive]
    exact openOn_of_ok h (List.mem_of_getElem? hdrive) hok hfile

/-- **In every run whose steps all meet the condition**, in every state reached, the drive that
`cur_drive` names is registered and its storage initialised, and a file that is there is opened. -/
theorem run_reliable (w : Windows) (fat : FatFs Path Meta Fil) (x : State Meta)
    (is : List (Env × Step Path)) (hbooted : Booted x)
    (hsound : Machine.Along (step w fat) (StepSound w fat) x is) (n : ℕ) :
    Reliable w fat (Machine.run (step w fat) x (is.take n)) :=
  (Machine.run_inv_along step_inv (hbooted.inv fat) (hsound.take n)).reliable w

/-! ## The outcomes of the commands -/

/-- **The condition on the outcomes of the commands of a step**, where `StepSound` says what they
may leave. -/
def StepHeard (x : State Meta) (i : Env × Step Path) : Prop :=
  match i.2 with
  | .openFileOn _ drive => ∀ v, drives[drive]? = some v → OpenHeard i.1 v x
  | .openFileOnAny _ => OpenHeard i.1 .sd x
  | .unmountDrive => x.curDrive = none
  | .initUmsCfg _ => x.curDrive = none
  | .volumeLoadPartTable device =>
    (device = .sd → SdFree x ∧ (sdInitialize i.1 false x.disks.sdView).1 = true ∧
      Persists i.1 x.disks.emmc.tick) ∧
      (device = .emmcGpp → EmmcFree x)
  | .usbDeviceGadgetUms luns _ _ =>
    ((usedBy i.1 luns x.disks).sd = true → SdFree x) ∧
      ((usedBy i.1 luns x.disks).mmc = true → EmmcFree x)
  | .toolbox => EmmcFree x ∨ (emmcInitialize i.1 false x.disks.emmc).1 = true
  | .diskRead drive _ _ _ => Heard i.1 drive x.disks
  | .diskWrite drive _ _ _ => Heard i.1 drive x.disks ∧ (EmmcFree x ∨ Known .boot0 x.disks)
  | .moveWindow _ => ∀ drive, x.curDrive = some drive → Heard i.1 drive x.disks
  | .exchange _ _ => SdFree x

theorem Passed.undisturbed {drive : Drive} {d : Disks} (hpassed : Passed drive x.disks d)
    (h : Inv fat x) : Undisturbed x d := by
  refine ⟨?_, fun v hcur ↦ ?_, fun v hcur ↦ ?_⟩
  · rw [hpassed.mode]
    exact h.mode
  · rw [hpassed.initialized]
    exact (h.mounted v hcur).up.ready.initialized
  · exact hpassed.known v (h.mounted v hcur).up.known

/-- **It is enough.** -/
theorem stepSound_of_heard (w : Windows) (x : State Meta) (i : Env × Step Path) (h : Inv fat x)
    (hheard : StepHeard x i) : StepSound w fat x i := by
  obtain ⟨env, i⟩ := i
  cases i with
  | openFileOn path drive =>
    intro v hv
    exact (openOn_heard w path h (List.mem_of_getElem? hv) (hheard v hv)).1
  | openFileOnAny path =>
    refine openFileOnAny_heard w path (fun _ ↦ id) (by decide) (by decide) h fun v hv ↦ ?_
    cases hv
    exact hheard
  | unmountDrive => exact hheard
  | initUmsCfg sdInitDone => exact hheard
  | volumeLoadPartTable device =>
    obtain ⟨hsd, hemmc⟩ := hheard
    refine ⟨fun hdevice ↦ (hsd hdevice).1, hemmc, ?_⟩
    by_cases hdevice : device = .sd
    · subst hdevice
      obtain ⟨-, hinit, hpersists⟩ := hsd rfl
      exact volumeLoadPartTable_mode hinit hpersists
    · rw [(volumeLoadPartTable_frame env device x.disks).1 hdevice]
      exact h.mode
  | usbDeviceGadgetUms luns calls sdInitDone => exact hheard
  | toolbox => exact hheard
  | diskRead drive buf sector count =>
    exact (diskRead_passed buf sector count hheard).1.undisturbed h
  | diskWrite drive buf sector count =>
    obtain ⟨hnow, hright⟩ := hheard
    have hpassed := diskWrite_passed buf sector count hnow
    refine ⟨hpassed.undisturbed h, hright.imp id fun hknown hdrive ↦ ?_⟩
    subst hdrive
    exact hpassed.selected hknown
  | moveWindow sector =>
    intro drive hcur
    exact (scan_healthy w _ x.fs.win ⟨h.served hcur, hheard drive hcur⟩).1.mono
      fun _ _ hread ↦ hread.1
  | exchange card medium => exact hheard

/-- **So in every run whose commands all turn out so** the same holds in every state. -/
theorem run_reliable_of_heard (w : Windows) (fat : FatFs Path Meta Fil) (x : State Meta)
    (is : List (Env × Step Path)) (hbooted : Booted x)
    (hheard : Machine.Along (step w fat) StepHeard x is) (n : ℕ) :
    Reliable w fat (Machine.run (step w fat) x (is.take n)) := by
  have hstep : ∀ x i, Inv fat x → StepHeard x i → Inv fat (step w fat x i) :=
    fun x i h hi ↦ step_inv x i h (stepSound_of_heard w x i h hi)
  exact (Machine.run_inv_along hstep (hbooted.inv fat) (hheard.take n)).reliable w

/-! ## When nothing fails -/

/-- The steps that open a file, read and write, and the way into the toolbox. -/
def Step.Plain : Step Path → Prop
  | openFileOn _ _ => True
  | openFileOnAny _ => True
  | toolbox => True
  | diskRead _ _ _ _ => True
  | diskWrite _ _ _ _ => True
  | moveWindow _ => True
  | _ => False

/-- **These meet the condition if nothing fails**, and the driver is right about BOOT0, which may be
written. -/
theorem stepHeard_of_plain (h : Inv fat x) (hknown : Known .boot0 x.disks)
    (hok : OkFrom env x.disks.emmc.tick) {i : Step Path} (hplain : i.Plain) :
    StepHeard x (env, i) := by
  cases i with
  | openFileOn path drive => exact fun v _ ↦ openHeard_of_ok v h hok
  | openFileOnAny path => exact openHeard_of_ok .sd h hok
  | toolbox => exact .inr (emmcInitialize_of_ok false hok)
  | diskRead drive buf sector count => exact heard_of_ok drive hok
  | diskWrite drive buf sector count => exact ⟨heard_of_ok drive hok, .inr hknown⟩
  | moveWindow sector => exact fun drive _ ↦ heard_of_ok drive hok
  | _ => exact hplain.elim

/-- They leave the driver right about BOOT0. -/
theorem step_known (w : Windows) (fat : FatFs Path Meta Fil) (hok : ∀ n, (env n).ok = true)
    {i : Step Path} (hplain : i.Plain) (hknown : Known .boot0 x.disks) :
    Known .boot0 (step w fat x (env, i)).disks := by
  have hheard : ∀ drive (d : Disks), Heard env drive d := fun drive d ↦
    heard_of_ok drive fun n _ ↦ hok n
  have hread : ∀ drive sector (d : Disks), Known .boot0 d →
      Known .boot0 (readWindow env w drive sector d).2 := by
    intro drive sector d hd
    rw [readWindow_disks]
    exact (diskRead_passed w.fs sector 1 (hheard drive d)).1.known _ hd
  have hinit : ∀ drive (d : Disks), Known .boot0 d → Known .boot0 (diskInitialize env drive d).2 :=
    fun drive d ↦ diskInitialize_known (fun n _ ↦ hok n)
  cases i with
  | openFileOn path drive =>
    rw [step]
    dsimp only
    rw [openFileOn]
    split
    · exact hknown
    · exact openOn_keeps hread hinit fat path _ hknown
  | openFileOnAny path => exact openFileOnAnyLoop_keeps hread hinit fat path drives hknown
  | toolbox =>
    have hfresh := ((emmcInitialize_spec env false x.disks.emmc).2
      (emmcInitialize_of_ok false fun n _ ↦ hok n)).1
    exact fun hhome ↦ hfresh.selected.trans (hfresh.partition.symm.trans hhome)
  | diskRead drive buf sector count =>
    exact (diskRead_passed buf sector count (hheard drive x.disks)).1.known _ hknown
  | diskWrite drive buf sector count =>
    exact (diskWrite_passed buf sector count (hheard drive x.disks)).known _ hknown
  | moveWindow sector =>
    rw [step]
    dsimp only
    split
    · exact hknown
    · exact onVolume_keeps hread _ hknown
  | _ => exact hplain.elim

/-- **A run of such steps meets the condition of `run_reliable`.** -/
theorem along_plain (w : Windows) {is : List (Env × Step Path)}
    (hplain : ∀ i ∈ is, (∀ n, (i.1 n).ok = true) ∧ i.2.Plain) (h : Inv fat x)
    (hknown : Known .boot0 x.disks) :
    Machine.Along (step w fat) (StepSound w fat) x is := by
  induction is generalizing x with
  | nil => trivial
  | cons i is ih =>
    obtain ⟨hok, hi⟩ := hplain i List.mem_cons_self
    have hsound := stepSound_of_heard w x i h (stepHeard_of_plain h hknown (fun n _ ↦ hok n) hi)
    exact ⟨hsound, ih (fun j hj ↦ hplain j (List.mem_cons_of_mem _ hj)) (step_inv x i h hsound)
      (step_known w fat hok hi hknown)⟩

/-! ## What the condition keeps out -/

section
variable {drive : Drive}

theorem not_reliable_of_ended (hcur : x.curDrive = some drive)
    (hend : (drive.view x.disks).dev.initialized = false) : ¬ Reliable w fat x := by
  intro h
  have hinit := (h.mounted drive hcur).2.2
  rw [hend] at hinit
  cases hinit

/-- **A visit to the menu with a drive mounted** leaves `cur_drive` with a storage that is ended. -/
theorem initUmsCfg_breaks (hcur : x.curDrive = some drive) (hok : ∀ n, (env n).ok = true) :
    ¬ Reliable w fat (step w fat x (env, .initUmsCfg true)) :=
  not_reliable_of_ended hcur (initUmsCfg_ended hok drive x.disks)

/-- **So does a session that uses the storage of the drive.** -/
theorem usbDeviceGadgetUms_breaks (hcur : x.curDrive = some drive) (hok : ∀ n, (env n).ok = true)
    (luns : List Usb.MmcType) (calls : List UmsCall)
    (hused : if drive = .sd then (usedBy env luns x.disks).sd else (usedBy env luns x.disks).mmc) :
    ¬ Reliable w fat (step w fat x (env, .usbDeviceGadgetUms luns calls true)) :=
  not_reliable_of_ended hcur (usbDeviceGadgetUms_ended hok calls hused)

/-- **After `unmount_drive`** `cur_drive` names a volume that is not registered. -/
theorem unmountDrive_breaks (hcur : x.curDrive = some drive) :
    ¬ Reliable w fat (step w fat x (env, .unmountDrive)) := by
  have hkept : (fUnmount drive x).curDrive = some drive := (fUnmount_keeps drive x).1.trans hcur
  have hnot : (fUnmount drive x).registered drive = false := by
    rw [fUnmount]
    split
    · exact Function.update_self drive false x.registered
    · exact Bool.eq_false_iff.mpr ‹_›
  have hstep : step w fat x (env, .unmountDrive) = fUnmount drive x := by
    rw [step]
    dsimp only
    rw [unmountDrive, hcur]
  rw [hstep]
  intro h
  have hreg := (h.mounted drive hkept).1
  rw [hnot] at hreg
  cases hreg

/-- A file is not opened on a drive the storage of which has been ended, if a sector on the way to
it is not the one in the window. -/
theorem openOn_of_ended {path : Path} {found : Meta} {sector : ℕ}
    {next : Option Block → Scan Block (Except FError Fil)} (hm : x.curDrive = some drive)
    (hreg : x.registered drive = true) (hpdrv : x.fs.pdrv = drive)
    (hfound : x.fs.found = some found)
    (hpath : fat.followPath path found = .look false sector next)
    (hwin : Scan.find x.fs.win sector = none)
    (hend : (drive.view x.disks).dev.initialized = false) :
    (openOn env w fat path drive x).1 = (next none).lost := by
  have hdead : ∀ sector d, (drive.view d).dev.initialized = false →
      (readWindow env w drive sector d).1 = none ∧
        (drive.view (readWindow env w drive sector d).2).dev.initialized = false :=
    fun _ _ ↦ readWindow_ended
  have hopen : openOn env w fat path drive x =
      onVolume env w (.look false sector next) { x with currVol := drive } := by
    rw [openOn, mountDrive_of_eq hm]
    dsimp only
    rw [fOpen, mountVolume]
    simp only [hreg, hfound, hpath, Bool.not_true, Bool.false_eq_true, ↓reduceIte]
  rw [hopen, onVolume_eq]
  dsimp only
  rw [hpdrv, Scan.run, Scan.see_of_not_find hwin, (hdead sector x.disks hend).1]
  exact Scan.run_lost hdead (next none) (hdead sector x.disks hend).2

end

/-! ## A payload on an SD card -/

/-- A file in the root directory. -/
structure RootFile where
  /-- `sclust` -/
  sclust : ℕ
  /-- `objsize` -/
  objsize : ℕ
  deriving DecidableEq

/-- The entries of a sector of the root directory, up to the one looked for or the end. -/
def findEntry (fn : Block) (b : Block) : ℕ → Option (Except FError RootFile)
  | 0 => none
  | n + 1 =>
    let dir := b.drop (512 - 32 * (n + 1))
    if Fat.ldByte dir 0 = 0 then some (.error .noFile)
    else if Fat.ldByte dir 11 &&& 0x08 = 0 ∧ dir.take 11 = fn then
      if Fat.ldByte dir 11 &&& 0x10 ≠ 0 then some (.error .noFile)
      else some (.ok ⟨Fat.ldWord dir 26, Fat.ldDword dir 28⟩)
    else findEntry fn b n

/-- `dir_find`, for short names. -/
def dirFind (fn : Block) : ℕ → ℕ → Scan Block (Except FError RootFile)
  | 0, _ => .done (.error .noFile)
  | n + 1, sect => .look false sect fun
    | none => .done (.error .diskErr)
    | some b =>
      match findEntry fn b 16 with
      | some res => .done res
      | none => dirFind fn n (sect + 1)

/-- `follow_path` on a volume of FAT12 or FAT16, for files in the root directory.  A path is the
name as `create_name` has it. -/
def followRoot (fn : Block) (vol : Fat.Volume) : Scan Block (Except FError RootFile) :=
  dirFind fn (vol.nRootdir / 16) vol.dirbase

/-- FatFs, with this. -/
def rootFat : FatFs Block Fat.Volume RootFile := Fat.fatFs followRoot

theorem rootFat_followPath (fn : Block) {vol : Fat.Volume} {n sect : ℕ} (hn : vol.nRootdir / 16 = n)
    (hsect : vol.dirbase = sect) : rootFat.followPath fn vol = dirFind fn n sect := by
  change dirFind fn (vol.nRootdir / 16) vol.dirbase = _
  rw [hn, hsect]

/-- `PAYLOAD BIN` -/
def payloadBin : Block := [0x50, 0x41, 0x59, 0x4C, 0x4F, 0x41, 0x44, 0x20, 0x42, 0x49, 0x4E]

/-- A volume of 4096 sectors: the boot sector, twelve sectors of FAT, and a root directory with one
file of 1024 bytes. -/
def payloadCard (y : ℕ) : UInt8 :=
  match y / blockSize with
  | 0 =>
    if y = 510 then 0x55 else if y = 511 then 0xAA
    else [0xEB, 0x3C, 0x90, 0x4D, 0x53, 0x44, 0x4F, 0x53, 0x35, 0x2E, 0x30, 0, 2, 1, 1, 0, 1, 16, 0,
      0, 16, 0xF8, 12, 0].getD y 0
  | 1 => [0xF8, 0xFF, 0xFF, 3, 0xF0, 0xFF].getD (y % blockSize) 0
  | 13 => (payloadBin ++ 0x20 :: List.replicate 14 0 ++ [2, 0, 0, 4]).getD (y % blockSize) 0
  | _ => 0

/-- Nothing has been mounted yet, and the SD card has not been tried. -/
def atBoot : State Fat.Volume where
  curDrive := none
  registered _ := false
  currVol := .sd
  fs := ⟨.sd, none, none⟩
  disks := { started with sd := ⟨.zero, sdDefaultSpeed, ⟨true, 4, 0, fun _ ↦ 0⟩, payloadCard⟩ }

theorem booted_atBoot : Booted atBoot := ⟨rfl, rfl, Nat.succ_ne_zero 3⟩

/-- Nothing fails. -/
def fine : Env := fun _ ↦ ⟨true, true, fun _ ↦ false, fun _ ↦ 0⟩

/-- The volume on the card. -/
def payloadVolume : Fat.Volume := Fat.fatVolume (Store.slice payloadCard 0 512) 0 .fat12

set_option maxRecDepth 4096 in
/-- Its root directory. -/
theorem payloadVolume_root : payloadVolume.nRootdir / 16 = 1 ∧ payloadVolume.dirbase = 13 := by
  decide

set_option maxRecDepth 4096 in
theorem findScan_atBoot :
    (findScan rootFat).eval (contents .sd atBoot.disks) = some (.ok payloadVolume) := by
  decide

set_option maxRecDepth 4096 in
/-- The payload is there. -/
theorem hasFile_atBoot : HasFile rootFat payloadBin ⟨2, 1024⟩ .sd atBoot.disks :=
  ⟨payloadVolume, findScan_atBoot, by decide⟩

theorem known_atBoot : Known .boot0 atBoot.disks := fun h ↦ absurd h (by decide)

/-- The payload is opened and read, the toolbox is entered, and the payload is opened again. -/
theorem run_reliable_payload :
    Reliable heapWindows rootFat (Machine.run (step heapWindows rootFat) atBoot
      ([(fine, .openFileOn payloadBin 0), (fine, .moveWindow 1), (fine, .toolbox),
        (fine, .openFileOnAny payloadBin)].take 4)) := by
  refine run_reliable heapWindows rootFat atBoot _ booted_atBoot ?_ 4
  refine along_plain heapWindows (fun i hi ↦ ?_) (booted_atBoot.inv rootFat) known_atBoot
  simp only [List.mem_cons, List.not_mem_nil, or_false] at hi
  rcases hi with rfl | rfl | rfl | rfl <;> exact ⟨fun _ ↦ rfl, trivial⟩

/-- The payload has been opened and read. -/
def payloadRead : State Fat.Volume :=
  Machine.run (step heapWindows rootFat) atBoot
    [(fine, .openFileOn payloadBin 0), (fine, .moveWindow 1)]

theorem payloadRead_spec :
    payloadRead.curDrive = some .sd ∧ Mounted rootFat .sd payloadRead ∧
      Scan.find payloadRead.fs.win 13 = none ∧
      contents .sd payloadRead.disks = contents .sd atBoot.disks := by
  have hbooted := booted_atBoot.inv rootFat
  have hok : ∀ n, (fine n).ok = true := fun _ ↦ rfl
  have hvol : Drive.sd ∈ drives := List.mem_cons_self
  have hopen : (openOn fine heapWindows rootFat payloadBin .sd atBoot).1 = .ok ⟨2, 1024⟩ :=
    openOn_of_ok hbooted hvol (fun n _ ↦ hok n) hasFile_atBoot
  have hcur := openOn_curDrive hopen
  have hcontents := openOn_contents fine heapWindows rootFat payloadBin .sd .sd atBoot
  have hinv : Inv rootFat (openOn fine heapWindows rootFat payloadBin .sd atBoot).2 :=
    openOn_inv hbooted hvol (openOn_heard heapWindows payloadBin hbooted hvol
      (openHeard_of_ok .sd hbooted fun n _ ↦ hok n)).1
  have hrun : payloadRead = step heapWindows rootFat
      (openOn fine heapWindows rootFat payloadBin .sd atBoot).2 (fine, .moveWindow 1) := by
    rw [payloadRead, Machine.run_cons, Machine.run_cons, Machine.run_nil]
    exact congrArg (step heapWindows rootFat · (fine, .moveWindow 1)) rfl
  generalize (openOn fine heapWindows rootFat payloadBin .sd atBoot).2 = y at *
  have hsound : StepSound heapWindows rootFat y (fine, .moveWindow 1) :=
    stepSound_of_heard heapWindows y _ hinv fun drive _ ↦ heard_of_ok drive fun n _ ↦ hok n
  have hinv' := step_inv y (fine, .moveWindow 1) hinv hsound
  obtain ⟨found, hfound, -⟩ := (hinv.mounted .sd hcur).found
  rw [← hrun] at hinv'
  rw [step] at hrun
  dsimp only at hrun
  rw [hfound] at hrun
  have hcur' : payloadRead.curDrive = some .sd := by
    rw [hrun]
    exact hcur
  refine ⟨hcur', hinv'.mounted .sd hcur', ?_, ?_⟩
  · rw [hrun]
    exact Scan.find_see_of_ne (by decide) _
  · rw [hrun]
    exact (onVolume_contents fine heapWindows _ .sd y).trans hcontents

/-- **The payload is opened and read from the SD card, and the menu of the volumes is entered.** It
is still there, and can no longer be opened. -/
theorem reliable_counterexample :
    Booted atBoot ∧
      ¬ Reliable heapWindows rootFat
        (step heapWindows rootFat payloadRead (fine, .initUmsCfg true)) ∧
      HasFile rootFat payloadBin ⟨2, 1024⟩ .sd
        (step heapWindows rootFat payloadRead (fine, .initUmsCfg true)).disks ∧
      (openFileOn fine heapWindows rootFat payloadBin 0
        (step heapWindows rootFat payloadRead (fine, .initUmsCfg true))).1 = .error .diskErr := by
  obtain ⟨hcur, hm, hwin, hcontents⟩ := payloadRead_spec
  generalize payloadRead = y at *
  have hok : ∀ n, (fine n).ok = true := fun _ ↦ rfl
  have hstep : step heapWindows rootFat y (fine, .initUmsCfg true) =
    { y with disks := initUmsCfg fine true y.disks } := rfl
  have hsd := (initUmsCfg_contents fine true y.disks).trans hcontents
  have hfile := hasFile_atBoot.congr hsd
  refine ⟨booted_atBoot, initUmsCfg_breaks hcur hok, hfile, ?_⟩
  obtain ⟨found, hfound, heval⟩ := hm.found
  rw [hcontents] at heval
  have hvol : payloadVolume = found := Except.ok.inj (heval _ findScan_atBoot)
  rw [← hvol] at hfound
  have hopen : ∀ z, openFileOn fine heapWindows rootFat payloadBin 0 z =
    openOn fine heapWindows rootFat payloadBin .sd z := fun _ ↦ rfl
  have hpath := rootFat_followPath payloadBin payloadVolume_root.1 payloadVolume_root.2
  rw [dirFind] at hpath
  rw [hstep, hopen]
  exact openOn_of_ended (x := { y with disks := initUmsCfg fine true y.disks }) hcur hm.registered
    hm.pdrv hfound hpath hwin (initUmsCfg_ended hok .sd y.disks)

end Files
end SdLoader
