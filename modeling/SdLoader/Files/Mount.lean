import SdLoader.Files.Menus
import SdLoader.Files.Outcomes

/-!
# Mounting a drive and opening a file on it

* `MountSound`, `OpenSound` — the conditions on the media failures met while a drive is mounted, and
  while the path of a file is followed on a drive that is;
* `Mounted` — what is so of a drive that `cur_drive` names: its volume is registered, what the mount
  has found is what is on the card, and so is what is in the window;
* `mountDrive_inv`, `openOn_inv`, `openFileOnAnyLoop_inv` — the functions of `files.c` keep this;
* `openOn_keeps` — they keep what every initialisation and every read keeps; so they change nothing
  on the cards, `openOn_contents`;
* `OpenHeard` — a condition on the outcomes of their commands, under which they meet those above:
  `openOn_heard`, `openFileOnAny_heard`;
* `openOn_of_ok` — when nothing fails, they open what is there.
-/

set_option autoImplicit false

namespace SdLoader
namespace Files

open Storage Disk
open Payload (Windows)

variable {Path Meta Fil : Type} {env : Env} {w : Windows} {fat : FatFs Path Meta Fil}
  {drive : Drive} {path : Path} {x : State Meta}

/-! ## Conditions -/

section
variable (env : Env) (w : Windows) (fat : FatFs Path Meta Fil)

/-- The scan of a mount. -/
def findScan : Scan Block (Except FError Meta) := .look true 0 fat.findVolume

/-- A mount meets no media failure but what does no harm: the SD card is not given up, and a read
that fails ends the storage. -/
structure MountSound (drive : Drive) (win : Scan.Cache Block) (d : Disks) : Prop where
  mode : (diskInitialize env drive d).2.sd.mode ≠ 0
  reads : (diskInitialize env drive d).1 = true →
    (findScan fat).Along (readWindow env w drive)
      (fun sector d ↦ Decisive drive (diskRead env (.full env) drive w.fs sector 1 d))
      (win, (diskInitialize env drive d).2)

/-- Neither does the way to a file on a drive that is mounted. -/
def OpenSound (path : Path) (drive : Drive) (x : State Meta) : Prop :=
  ∀ found, x.fs.found = some found → (fat.followPath path found).Along (readWindow env w drive)
    (fun sector d ↦ Harmless drive (diskRead env (.full env) drive w.fs sector 1 d))
    (x.fs.win, x.disks)

/-- The condition on `mount_drive`. -/
def MountDriveSound (drive : Drive) (x : State Meta) : Prop :=
  x.curDrive ≠ some drive → MountSound env w fat drive x.fs.win x.disks

/-- The condition on `open_file_on`. -/
structure OpenOnSound (path : Path) (drive : Drive) (x : State Meta) : Prop where
  mount : MountDriveSound env w fat drive x
  follow : (mountDrive env w fat drive x).1 = .ok () →
    OpenSound env w fat path drive (mountDrive env w fat drive x).2

/-- The condition on the loop of `open_file_on_any`. -/
def OpenAnySound (path : Path) : List Drive → State Meta → Prop
  | [], _ => True
  | drive :: rest, x =>
    OpenOnSound env w fat path drive x ∧
      match mountDrive env w fat drive x with
      | (.error _, x) => OpenAnySound path rest x
      | (.ok (), x) =>
        match openOn env w fat path drive x with
        | (.error .noFile, x) => OpenAnySound path rest x
        | _ => True

end

/-! ## The invariant -/

/-- What is so of a drive that is mounted. -/
structure Mounted (fat : FatFs Path Meta Fil) (drive : Drive) (x : State Meta) : Prop where
  /-- It is one of the four. -/
  volume : drive ∈ drives
  /-- Its volume is registered. -/
  registered : x.registered drive = true
  /-- The filesystem object is its. -/
  pdrv : x.fs.pdrv = drive
  /-- What the mount has found is what a mount finds. -/
  found : ∃ found, x.fs.found = some found ∧
    ∀ r, (findScan fat).eval (contents drive x.disks) = some r → r = .ok found
  /-- What is in the window is what is on the card. -/
  window : Scan.Coherent (contents drive x.disks) x.fs.win
  /-- The storage is ready. -/
  up : Up drive x.disks

/-- **The invariant**: the SD card has not been given up, and the drive `cur_drive` names is
mounted, or none is. -/
structure Inv (fat : FatFs Path Meta Fil) (x : State Meta) : Prop where
  mode : x.disks.sd.mode ≠ 0
  unmounted : x.curDrive = none → x.fs.found = none
  mounted : ∀ drive, x.curDrive = some drive → Mounted fat drive x

theorem Inv.served (h : Inv fat x) (hcur : x.curDrive = some drive) :
    Served drive (contents drive x.disks) x.disks :=
  ⟨(h.mounted drive hcur).up, rfl, h.mode⟩

/-- What leaves the files alone, and the storage behind the drive that is mounted ready with the
same sectors, keeps the invariant. -/
theorem Inv.withDisks (h : Inv fat x) {d : Disks} (hmode : d.sd.mode ≠ 0)
    (hdrive : ∀ drive, x.curDrive = some drive → drive ∈ drives → Up drive x.disks →
      Up drive d ∧ contents drive d = contents drive x.disks) :
    Inv fat { x with disks := d } := by
  refine ⟨hmode, h.unmounted, fun drive hcur ↦ ?_⟩
  have hm := h.mounted drive hcur
  obtain ⟨hup, hsame⟩ := hdrive drive hcur hm.volume hm.up
  refine ⟨hm.volume, hm.registered, hm.pdrv, ?_, ?_, hup⟩
  · dsimp only
    rw [hsame]
    exact hm.found
  · dsimp only
    rw [hsame]
    exact hm.window

/-! ## Mounting -/

theorem onVolume_eq {α : Type} (scan : Scan Block α) (x : State Meta) :
    onVolume env w scan x =
      ((scan.run (readWindow env w x.fs.pdrv) (x.fs.win, x.disks)).1,
        { x with
          fs.win := (scan.run (readWindow env w x.fs.pdrv) (x.fs.win, x.disks)).2.1
          disks := (scan.run (readWindow env w x.fs.pdrv) (x.fs.win, x.disks)).2.2 }) := rfl

/-- The filesystem object as `f_mount` has registered it. -/
structure Registered (drive : Drive) (x y : State Meta) : Prop where
  curDrive : y.curDrive = x.curDrive
  registered : y.registered drive = true
  pdrv : y.fs.pdrv = drive
  found : y.fs.found = none
  win : y.fs.win = x.fs.win
  disks : y.disks = x.disks

theorem fUnmount_keeps (vol : Drive) (x : State Meta) :
    (fUnmount vol x).curDrive = x.curDrive ∧ (fUnmount vol x).fs.win = x.fs.win ∧
      (fUnmount vol x).disks = x.disks := by
  rw [fUnmount]
  split <;> exact ⟨rfl, rfl, rfl⟩

theorem registered_register (drive : Drive) (x : State Meta) :
    Registered drive x (register drive (fUnmount drive x)) := by
  obtain ⟨hcur, hwin, hdisks⟩ := fUnmount_keeps drive x
  exact ⟨hcur, if_pos rfl, rfl, rfl, hwin, hdisks⟩

/-- What `mount_drive` begins with, when the drive is not the one that is mounted. -/
theorem unmountDrive_keeps (x : State Meta) :
    (unmountDrive x).fs.win = x.fs.win ∧ (unmountDrive x).disks = x.disks := by
  rw [unmountDrive]
  split
  · exact (fUnmount_keeps _ x).2
  · exact ⟨rfl, rfl⟩

/-- The state `mount_drive` mounts the drive in. -/
def mounting (drive : Drive) (x : State Meta) : State Meta :=
  register drive (fUnmount drive { unmountDrive x with curDrive := none })

theorem mounting_spec (drive : Drive) (x : State Meta) :
    Registered drive { x with curDrive := none } (mounting drive x) := by
  obtain ⟨hwin, hdisks⟩ := unmountDrive_keeps x
  have h := registered_register drive { unmountDrive x with curDrive := none }
  exact ⟨h.curDrive, h.registered, h.pdrv, h.found, h.win.trans hwin, h.disks.trans hdisks⟩

/-- `mount_drive` of another drive than the one that is mounted. -/
theorem mountDrive_of_ne (hne : x.curDrive ≠ some drive) :
    mountDrive env w fat drive x =
      match mountVolume env w fat drive (mounting drive x) with
      | (.ok _, x) => (.ok (), { x with curDrive := some drive })
      | (.error e, x) => (.error e, x) := by
  rw [mountDrive, if_pos hne]
  rfl

theorem mountDrive_of_eq (heq : x.curDrive = some drive) :
    mountDrive env w fat drive x = (.ok (), x) := by
  rw [mountDrive, if_neg (not_not_intro heq)]

/-- `mount_volume` of a volume that has been registered and not been mounted. -/
theorem mountVolume_of_registered {y : State Meta} (h : Registered drive x y) :
    mountVolume env w fat drive y =
      match diskInitialize env drive x.disks with
      | (false, d) => (.error .notReady, { y with disks := d })
      | (true, d) =>
        match onVolume env w (findScan fat) { y with disks := d } with
        | (.error e, x) => (.error e, x)
        | (.ok found, x) => (.ok found, { x with fs.found := some found }) := by
  rw [mountVolume]
  simp only [h.registered, h.found, h.pdrv, h.disks, Bool.not_true, Bool.false_eq_true, ↓reduceIte]
  rfl

theorem mountVolume_curDrive (env : Env) (w : Windows) (fat : FatFs Path Meta Fil) (vol : Drive)
    (x : State Meta) : (mountVolume env w fat vol x).2.curDrive = x.curDrive := by
  rw [mountVolume]
  split
  · rfl
  · split
    · rfl
    · rcases diskInitialize env x.fs.pdrv x.disks with ⟨_ | _, d⟩
      · rfl
      · dsimp only
        rw [onVolume_eq]
        split
        · next h => exact congrArg (fun r ↦ r.2.curDrive) h.symm
        · next h => exact congrArg (fun r ↦ r.2.curDrive) h.symm

/-- After a mount that succeeds `cur_drive` names the drive. -/
theorem mountDrive_curDrive {y : State Meta} (h : mountDrive env w fat drive x = (.ok (), y)) :
    y.curDrive = some drive := by
  by_cases hcur : x.curDrive = some drive
  · rw [mountDrive_of_eq hcur] at h
    cases h
    exact hcur
  · rw [mountDrive_of_ne hcur] at h
    split at h
    · cases h
      rfl
    · cases h

/-- After any mount it names this drive, or none. -/
theorem mountDrive_names (env : Env) (w : Windows) (fat : FatFs Path Meta Fil) (drive : Drive)
    (x : State Meta) :
    (mountDrive env w fat drive x).2.curDrive = none ∨
      (mountDrive env w fat drive x).2.curDrive = some drive := by
  by_cases hcur : x.curDrive = some drive
  · rw [mountDrive_of_eq hcur]
    exact .inr hcur
  · have hnone : (mountVolume env w fat drive (mounting drive x)).2.curDrive = none :=
      (mountVolume_curDrive env w fat drive _).trans (mounting_spec drive x).curDrive
    rw [mountDrive_of_ne hcur]
    split
    · exact .inr rfl
    · next h =>
      rw [h] at hnone
      exact .inl hnone

/-- **The scan of a mount, when the media failures it meets do no harm**: it fails, or what it has
found and what it leaves in the window is what is on the card. -/
theorem findScan_sound {table : ℕ → Option Block} {win : Scan.Cache Block} {d : Disks}
    (hserved : Served drive table d)
    (hreads : (findScan fat).Along (readWindow env w drive)
      (fun sector d ↦ Decisive drive (diskRead env (.full env) drive w.fs sector 1 d)) (win, d)) :
    ((findScan fat).run (readWindow env w drive) (win, d)).2.2.sd.mode ≠ 0 ∧
      ∀ found, ((findScan fat).run (readWindow env w drive) (win, d)).1 = .ok found →
        Served drive table ((findScan fat).run (readWindow env w drive) (win, d)).2.2 ∧
        Scan.Coherent table ((findScan fat).run (readWindow env w drive) (win, d)).2.1 ∧
        ∀ r, (findScan fat).eval table = some r → r = .ok found := by
  rw [findScan, Scan.along_fresh] at hreads
  rw [findScan, Scan.run_fresh]
  refine ⟨?_, fun found hok ↦ ?_⟩
  · refine Scan.run_inv (I := fun d ↦ d.sd.mode ≠ 0) (fun sector d _ hr ↦ ?_) _ hserved.mode hreads
    rw [readWindow_disks]
    exact hr.mode
  · rcases Scan.run_eq_eval_or_error (I := Served drive table)
      (fun sector d hs hr ↦ readWindow_decisive hs hr) (fun _ _ ↦ readWindow_ended) fat.honest
        hserved
      Scan.coherent_none hreads with ⟨hserved', hcoherent, heval⟩ | ⟨e, he⟩
    · exact ⟨hserved', hcoherent, fun r hr ↦ (heval r hr).symm.trans hok⟩
    · exact absurd (he.symm.trans hok) (fun h ↦ by cases h)

/-- **`mount_volume`, when the media failures it meets do no harm**: it fails, or the drive is
mounted. -/
theorem mountVolume_sound {y : State Meta} (h : Registered drive x y) (hvol : drive ∈ drives)
    (hsound : MountSound env w fat drive x.fs.win x.disks) :
    (mountVolume env w fat drive y).2.disks.sd.mode ≠ 0 ∧
      (∀ e, (mountVolume env w fat drive y).1 = .error e →
        (mountVolume env w fat drive y).2.fs.found = none) ∧
      ∀ found, (mountVolume env w fat drive y).1 = .ok found →
        Mounted fat drive (mountVolume env w fat drive y).2 := by
  obtain ⟨hmode, hreads⟩ := hsound
  have hup : (diskInitialize env drive x.disks).1 = true →
    Up drive (diskInitialize env drive x.disks).2 := diskInitialize_up
  rw [mountVolume_of_registered h]
  rcases hinit : diskInitialize env drive x.disks with ⟨_ | _, d⟩ <;> rw [hinit] at hmode hreads hup
  · exact ⟨hmode, fun _ _ ↦ h.found, fun _ hok ↦ by cases hok⟩
  · have hserved : Served drive (contents drive d) d := ⟨hup rfl, rfl, hmode⟩
    obtain ⟨hmode', hfound⟩ := findScan_sound hserved (hreads rfl)
    dsimp only
    rw [onVolume_eq]
    dsimp only
    rw [h.pdrv, h.win]
    rcases hr : (findScan fat).run (readWindow env w drive) (x.fs.win, d) with
      ⟨_ | found, win, d'⟩ <;> rw [hr] at hmode' hfound
    · exact ⟨hmode', fun _ _ ↦ h.found, fun _ hok ↦ by cases hok⟩
    · obtain ⟨hserved', hcoherent, heval⟩ := hfound found rfl
      refine ⟨hmode', ?_, ?_⟩
      · intro _ herr
        cases herr
      · intro _ _
        refine ⟨hvol, h.registered, rfl, ⟨found, rfl, ?_⟩, ?_, hserved'.up⟩
        · dsimp only
          rw [hserved'.contents]
          exact heval
        · dsimp only
          rw [hserved'.contents]
          exact hcoherent

/-- **`mount_drive` keeps the invariant.** -/
theorem mountDrive_inv (h : Inv fat x) (hvol : drive ∈ drives)
    (hsound : MountDriveSound env w fat drive x) : Inv fat (mountDrive env w fat drive x).2 := by
  by_cases hcur : x.curDrive = some drive
  · rw [mountDrive_of_eq hcur]
    exact h
  · have hm := mounting_spec drive x
    have hnone : (mountVolume env w fat drive (mounting drive x)).2.curDrive = none :=
      (mountVolume_curDrive env w fat drive _).trans hm.curDrive
    obtain ⟨hmode, herror, hmounted⟩ := mountVolume_sound hm hvol (hsound hcur)
    rw [mountDrive_of_ne hcur]
    rcases hr : mountVolume env w fat drive (mounting drive x) with ⟨_ | found, y⟩ <;>
      rw [hr] at hnone hmode herror hmounted
    · refine ⟨hmode, fun _ ↦ herror _ rfl, ?_⟩
      intro drive' hcur'
      exact absurd (hcur'.symm.trans hnone) (fun h ↦ by cases h)
    · obtain ⟨-, hreg, hpdrv, hfound, hwindow, hup⟩ := hmounted found rfl
      refine ⟨hmode, ?_, ?_⟩
      · intro hcur'
        cases hcur'
      · intro drive' hcur'
        cases hcur'
        exact ⟨hvol, hreg, hpdrv, hfound, hwindow, hup⟩

/-! ## Opening a file -/

/-- **Reads of a drive that is mounted keep the invariant**, if the media failures they meet do no
harm. -/
theorem onVolume_inv {α : Type} (h : Inv fat x) (hcur : x.curDrive = some drive)
    (scan : Scan Block α)
    (hreads : scan.Along (readWindow env w drive)
      (fun sector d ↦ Harmless drive (diskRead env (.full env) drive w.fs sector 1 d))
      (x.fs.win, x.disks)) :
    Inv fat (onVolume env w scan x).2 := by
  have hm := h.mounted drive hcur
  obtain ⟨hserved, hcoherent⟩ : Served drive (contents drive x.disks)
        (scan.run (readWindow env w drive) (x.fs.win, x.disks)).2.2 ∧
      Scan.Coherent (contents drive x.disks)
        (scan.run (readWindow env w drive) (x.fs.win, x.disks)).2.1 := by
    refine Scan.run_coherent (fun sector d hs hr ↦ ?_) scan (h.served hcur) hm.window hreads
    exact readWindow_harmless hs hr
  rw [onVolume_eq]
  dsimp only
  rw [hm.pdrv]
  refine ⟨hserved.mode, fun hnone ↦ ?_, fun drive' hcur' ↦ ?_⟩
  · exact absurd (hcur.symm.trans hnone) (fun h ↦ by cases h)
  obtain rfl : drive = drive' := Option.some.inj (hcur.symm.trans hcur')
  refine ⟨hm.volume, hm.registered, rfl, ?_, ?_, hserved.up⟩
  · dsimp only
    rw [hserved.contents]
    exact hm.found
  · dsimp only
    rw [hserved.contents]
    exact hcoherent

theorem Inv.withVol (h : Inv fat x) (vol : Drive) : Inv fat { x with currVol := vol } := by
  refine ⟨h.mode, h.unmounted, fun drive hcur ↦ ?_⟩
  obtain ⟨hvol, hreg, hpdrv, hfound, hwindow, hup⟩ := h.mounted drive hcur
  exact ⟨hvol, hreg, hpdrv, hfound, hwindow, hup⟩

/-- On a drive that is mounted `f_open` goes straight to the path. -/
theorem fOpen_of_mounted (h : Mounted fat drive x) {found : Meta}
    (hfound : x.fs.found = some found) : fOpen env w fat path { x with currVol := drive } =
      onVolume env w (fat.followPath path found) { x with currVol := drive } := by
  rw [fOpen, mountVolume]
  simp only [h.registered, hfound, Bool.not_true, Bool.false_eq_true, ↓reduceIte]

/-- **Following a path on a drive that is mounted keeps the invariant.** -/
theorem fOpen_inv (h : Inv fat x) (hcur : x.curDrive = some drive)
    (hsound : OpenSound env w fat path drive x) :
    Inv fat (fOpen env w fat path { x with currVol := drive }).2 := by
  have hm := h.mounted drive hcur
  obtain ⟨found, hfound, -⟩ := hm.found
  rw [fOpen_of_mounted hm hfound]
  exact onVolume_inv (h.withVol drive) hcur _ (hsound found hfound)

/-- **`open_file_on` keeps the invariant.** -/
theorem openOn_inv (h : Inv fat x) (hvol : drive ∈ drives)
    (hsound : OpenOnSound env w fat path drive x) :
    Inv fat (openOn env w fat path drive x).2 := by
  have hinv := mountDrive_inv h hvol hsound.mount
  have hfollow := hsound.follow
  rw [openOn]
  rcases hr : mountDrive env w fat drive x with ⟨_ | ⟨⟩, y⟩ <;> rw [hr] at hinv hfollow
  · exact hinv
  · exact fOpen_inv hinv (mountDrive_curDrive hr) (hfollow rfl)

/-- **The loop of `open_file_on_any` keeps the invariant.** -/
theorem openFileOnAnyLoop_inv {rest : List Drive} (hvol : ∀ drive ∈ rest, drive ∈ drives)
    (h : Inv fat x) (hsound : OpenAnySound env w fat path rest x) :
    Inv fat (openFileOnAnyLoop env w fat path rest x).2.2 := by
  induction rest generalizing x with
  | nil => exact h
  | cons drive rest ih =>
    obtain ⟨hnow, hrest⟩ := hsound
    have hinv := mountDrive_inv h (hvol drive List.mem_cons_self) hnow.mount
    have hfollow := hnow.follow
    have hvol' : ∀ drive ∈ rest, drive ∈ drives := fun v hv ↦ hvol v (List.mem_cons_of_mem _ hv)
    rw [openFileOnAnyLoop]
    rcases hr : mountDrive env w fat drive x with ⟨_ | ⟨⟩, y⟩ <;>
      rw [hr] at hinv hfollow hrest
    · exact ih hvol' hinv hrest
    · have hcur := mountDrive_curDrive hr
      have hopen : Inv fat (openOn env w fat path drive y).2 := by
        rw [openOn, mountDrive_of_eq hcur]
        exact fOpen_inv hinv hcur (hfollow rfl)
      dsimp only at hrest ⊢
      rcases hr' : openOn env w fat path drive y with ⟨e | fil, z⟩ <;> rw [hr'] at hopen hrest
      · cases e
        case noFile => exact ih hvol' hopen hrest
        all_goals exact hopen
      · exact hopen

/-! ## `cur_drive` -/

theorem fOpen_curDrive (env : Env) (w : Windows) (fat : FatFs Path Meta Fil) (path : Path)
    (x : State Meta) : (fOpen env w fat path x).2.curDrive = x.curDrive := by
  have hmount := mountVolume_curDrive env w fat x.currVol x
  rw [fOpen]
  rcases hr : mountVolume env w fat x.currVol x with ⟨_ | found, y⟩ <;> rw [hr] at hmount
  · exact hmount
  · exact hmount

/-- Opening a file on the drive that is mounted leaves it mounted. -/
theorem openOn_stays (env : Env) (w : Windows) (fat : FatFs Path Meta Fil) (path : Path)
    (hcur : x.curDrive = some drive) :
    (openOn env w fat path drive x).2.curDrive = some drive := by
  rw [openOn, mountDrive_of_eq hcur]
  exact (fOpen_curDrive env w fat path _).trans hcur

/-- A file that has been opened is on the drive that `cur_drive` names. -/
theorem openOn_curDrive {fil : Fil} (h : (openOn env w fat path drive x).1 = .ok fil) :
    (openOn env w fat path drive x).2.curDrive = some drive := by
  rw [openOn] at h ⊢
  rcases hr : mountDrive env w fat drive x with ⟨_ | ⟨⟩, y⟩
  · rw [hr] at h
    cases h
  · have hcur : y.curDrive = some drive := mountDrive_curDrive hr
    exact (fOpen_curDrive env w fat path _).trans hcur

/-! ## What opening a file keeps -/

section
variable {I : Disks → Prop} (hread : ∀ v sector d, I d → I (readWindow env w v sector d).2)
include hread

/-- **Reading sectors keeps what every read keeps.** -/
theorem onVolume_keeps {α : Type} (scan : Scan Block α) (hx : I x.disks) :
    I (onVolume env w scan x).2.disks := by
  have halong := Scan.along_of_inv
    (fun sector d hd ↦ ⟨trivial, hread x.fs.pdrv sector d hd⟩) scan (x := (x.fs.win, x.disks)) hx
  exact Scan.run_inv (fun sector d hd _ ↦ hread x.fs.pdrv sector d hd) scan hx halong

variable (hinit : ∀ v d, I d → I (diskInitialize env v d).2)
include hinit

theorem mountVolume_keeps (fat : FatFs Path Meta Fil) (vol : Drive) (hx : I x.disks) :
    I (mountVolume env w fat vol x).2.disks := by
  rw [mountVolume]
  split
  · exact hx
  · split
    · exact hx
    · have hafter := hinit x.fs.pdrv x.disks hx
      rcases hr : diskInitialize env x.fs.pdrv x.disks with ⟨_ | _, d⟩ <;> rw [hr] at hafter
      · exact hafter
      · have hscan := onVolume_keeps hread (x := { x with disks := d })
          (.look true 0 fat.findVolume) hafter
        dsimp only
        rcases hr' : onVolume env w (.look true 0 fat.findVolume) { x with disks := d } with
          ⟨_ | _, y⟩ <;> rw [hr'] at hscan <;> exact hscan

theorem mountDrive_keeps (fat : FatFs Path Meta Fil) (drive : Drive) (hx : I x.disks) :
    I (mountDrive env w fat drive x).2.disks := by
  by_cases hcur : x.curDrive = some drive
  · rw [mountDrive_of_eq hcur]
    exact hx
  · have hmount := mountVolume_keeps hread hinit fat drive (x := mounting drive x)
      ((mounting_spec drive x).disks ▸ hx)
    rw [mountDrive_of_ne hcur]
    rcases hr : mountVolume env w fat drive (mounting drive x) with ⟨_ | _, y⟩ <;>
      rw [hr] at hmount <;> exact hmount

/-- **Opening a file keeps what every initialisation and every read keeps.** -/
theorem openOn_keeps (fat : FatFs Path Meta Fil) (path : Path) (drive : Drive) (hx : I x.disks) :
    I (openOn env w fat path drive x).2.disks := by
  have hmount := mountDrive_keeps hread hinit fat drive hx
  rw [openOn]
  rcases hr : mountDrive env w fat drive x with ⟨_ | ⟨⟩, y⟩ <;> rw [hr] at hmount
  · exact hmount
  · have hvolume := mountVolume_keeps hread hinit fat drive
      (x := { y with currVol := drive }) hmount
    dsimp only
    rw [fOpen]
    dsimp only
    rcases hr' : mountVolume env w fat drive { y with currVol := drive } with ⟨_ | found, z⟩ <;>
      rw [hr'] at hvolume
    · exact hvolume
    · exact onVolume_keeps hread _ hvolume

theorem openFileOnAnyLoop_keeps (fat : FatFs Path Meta Fil) (path : Path) (rest : List Drive)
    (hx : I x.disks) : I (openFileOnAnyLoop env w fat path rest x).2.2.disks := by
  induction rest generalizing x with
  | nil => exact hx
  | cons drive rest ih =>
    have hmount := mountDrive_keeps hread hinit fat drive hx
    rw [openFileOnAnyLoop]
    rcases hr : mountDrive env w fat drive x with ⟨_ | ⟨⟩, y⟩ <;> rw [hr] at hmount
    · exact ih hmount
    · have hopen := openOn_keeps hread hinit fat path drive hmount
      dsimp only
      rcases hr' : openOn env w fat path drive y with ⟨e | fil, z⟩ <;> rw [hr'] at hopen
      · cases e
        case noFile => exact ih hopen
        all_goals exact hopen
      · exact hopen

end

theorem readWindow_contents (env : Env) (w : Windows) (v drive : Drive) (sector : ℕ) (d : Disks) :
    contents v (readWindow env w drive sector d).2 = contents v d := by
  rw [readWindow_disks]
  exact (diskRead_spared env drive v w.fs sector 1 d).contents

/-- **Reading sectors changes none**, on any drive. -/
theorem onVolume_contents {α : Type} (env : Env) (w : Windows) (scan : Scan Block α) (v : Drive)
    (x : State Meta) : contents v (onVolume env w scan x).2.disks = contents v x.disks :=
  onVolume_keeps (I := fun d ↦ contents v d = contents v x.disks)
    (fun drive sector d hd ↦ (readWindow_contents env w v drive sector d).trans hd) scan rfl

/-- **Nor does opening a file.** -/
theorem openOn_contents (env : Env) (w : Windows) (fat : FatFs Path Meta Fil) (path : Path)
    (drive v : Drive) (x : State Meta) :
    contents v (openOn env w fat path drive x).2.disks = contents v x.disks :=
  openOn_keeps (I := fun d ↦ contents v d = contents v x.disks)
    (fun drive sector d hd ↦ (readWindow_contents env w v drive sector d).trans hd)
    (fun drive d hd ↦ (diskInitialize_contents env drive v d).trans hd) fat path drive rfl

/-! ## Mounts and files, from the outcomes of the commands -/

/-- **The condition on the outcomes of a call that opens a file**: no five commands in a row fail,
and neither does the initialisation of the SD card if it is to be mounted, nor the switch to the
partition of the drive if this is mounted. -/
structure OpenHeard (env : Env) (drive : Drive) (x : State Meta) : Prop where
  persists : Persists env x.disks.emmc.tick
  sd : drive = .sd → x.curDrive ≠ some .sd → (diskInitialize env .sd x.disks).1 = true
  switch : x.curDrive = some drive → SwitchHeard env drive x.disks

/-- It is met if nothing fails. -/
theorem openHeard_of_ok (drive : Drive) (h : Inv fat x) (hok : OkFrom env x.disks.emmc.tick) :
    OpenHeard env drive x :=
  ⟨hok.persists, fun _ _ ↦ diskInitialize_of_ok .sd hok h.mode,
    fun _ ↦ (heard_of_ok drive hok).switch⟩

/-- What one scan needs, and leaves to the next. -/
def Healthy (env : Env) (drive : Drive) (table : ℕ → Option Block) (d : Disks) : Prop :=
  Served drive table d ∧ Heard env drive d

/-- A scan of a drive whose reads come through, whatever it reads. -/
theorem scan_healthy {α : Type} {table : ℕ → Option Block} (w : Windows) (scan : Scan Block α)
    (win : Scan.Cache Block) {d : Disks} (h : Healthy env drive table d) :
    scan.Along (readWindow env w drive) (fun sector d ↦
        Harmless drive (diskRead env (.full env) drive w.fs sector 1 d) ∧
          Decisive drive (diskRead env (.full env) drive w.fs sector 1 d)) (win, d) ∧
      Healthy env drive table (scan.run (readWindow env w drive) (win, d)).2.2 := by
  have hread : ∀ sector d, Healthy env drive table d →
      (Harmless drive (diskRead env (.full env) drive w.fs sector 1 d) ∧
        Decisive drive (diskRead env (.full env) drive w.fs sector 1 d)) ∧
      Healthy env drive table (readWindow env w drive sector d).2 := by
    intro sector d hd
    obtain ⟨hres, hharmless, hheard⟩ := harmless_of_heard w sector hd.1 hd.2
    refine ⟨⟨hharmless, hharmless.decisive hres⟩, (readWindow_harmless hd.1 hharmless).1, ?_⟩
    rw [readWindow_disks]
    exact hheard
  have halong := Scan.along_of_inv hread scan (x := (win, d)) h
  exact ⟨halong, Scan.run_inv (fun sector d hd _ ↦ (hread sector d hd).2) scan h halong⟩

/-- **A mount whose commands come through meets its condition**, and so do the accesses after it. -/
theorem mountDrive_heard (w : Windows) (h : Inv fat x) (hheard : OpenHeard env drive x) :
    MountDriveSound env w fat drive x ∧
      Persists env (mountDrive env w fat drive x).2.disks.emmc.tick ∧
      ((mountDrive env w fat drive x).1 = .ok () →
        Heard env drive (mountDrive env w fat drive x).2.disks) := by
  by_cases hcur : x.curDrive = some drive
  · rw [mountDrive_of_eq hcur]
    exact ⟨fun hne ↦ absurd hcur hne, hheard.persists,
      fun _ ↦ ⟨hheard.switch hcur, hheard.persists⟩⟩
  · have hmode : (diskInitialize env drive x.disks).2.sd.mode ≠ 0 := by
      refine diskInitialize_mode (fun hsd ↦ ?_) h.mode
      subst hsd
      exact hheard.sd rfl hcur
    have hscan : (diskInitialize env drive x.disks).1 = true →
        Healthy env drive (contents drive (diskInitialize env drive x.disks).2)
          (diskInitialize env drive x.disks).2 := fun htrue ↦
      ⟨⟨diskInitialize_up htrue, rfl, hmode⟩, diskInitialize_heard htrue hheard.persists⟩
    have hm := mounting_spec drive x
    refine ⟨fun _ ↦ ⟨hmode, fun htrue ↦ ?_⟩, ?_⟩
    · exact (scan_healthy w (findScan fat) x.fs.win (hscan htrue)).1.mono fun _ _ hr ↦ hr.2
    -- The reads of the mount come through, and leave what the accesses after it need.
    have htick := hheard.persists.mono (diskInitialize_tick env drive x.disks)
    rw [mountDrive_of_ne hcur, mountVolume_of_registered hm]
    rcases hinit : diskInitialize env drive x.disks with ⟨_ | _, d⟩ <;>
      rw [hinit] at hscan htick
    · exact ⟨htick, fun hok ↦ by cases hok⟩
    · have hafter := (scan_healthy w (findScan fat) x.fs.win (hscan rfl)).2.2
      dsimp only
      rw [onVolume_eq]
      dsimp only
      rw [hm.pdrv, hm.win]
      dsimp only at hafter ⊢
      rcases hr : (findScan fat).run (readWindow env w drive) (x.fs.win, d) with
        ⟨_ | found, win, d'⟩ <;> rw [hr] at hafter
      · exact ⟨hafter.persists, fun hok ↦ by cases hok⟩
      · exact ⟨hafter.persists, fun _ ↦ hafter⟩

/-- **So does a call of `open_file_on`.** -/
theorem openOn_heard (w : Windows) (path : Path) (h : Inv fat x) (hvol : drive ∈ drives)
    (hheard : OpenHeard env drive x) :
    OpenOnSound env w fat path drive x ∧
      Persists env (openOn env w fat path drive x).2.disks.emmc.tick := by
  obtain ⟨hsound, hpersists, hafter⟩ := mountDrive_heard w h hheard
  have hinv := mountDrive_inv h hvol hsound
  rw [openOn]
  rcases hr : mountDrive env w fat drive x with ⟨e | ⟨⟩, y⟩ <;> rw [hr] at hinv hpersists hafter
  · refine ⟨⟨hsound, fun h ↦ ?_⟩, hpersists⟩
    rw [hr] at h
    cases h
  · have hcur := mountDrive_curDrive hr
    have hhealthy : Healthy env drive (contents drive y.disks) y.disks :=
      ⟨hinv.served hcur, hafter rfl⟩
    have hm := hinv.mounted drive hcur
    refine ⟨⟨hsound, fun _ found hfound ↦ ?_⟩, ?_⟩
    · rw [hr]
      exact (scan_healthy w _ y.fs.win hhealthy).1.mono fun _ _ hread ↦ hread.1
    · obtain ⟨found, hfound, -⟩ := hm.found
      dsimp only
      rw [fOpen_of_mounted hm hfound, onVolume_eq]
      dsimp only
      rw [hm.pdrv]
      exact (scan_healthy w _ y.fs.win hhealthy).2.2.persists

/-- **And one of `open_file_on_any`**: of the drives only the first can be the one that is mounted,
or the SD card. -/
theorem openFileOnAny_heard (w : Windows) (path : Path) {rest : List Drive}
    (hvol : ∀ drive ∈ rest, drive ∈ drives) (hnodup : rest.Nodup) (hsd : .sd ∉ rest.tail)
    (h : Inv fat x) (hheard : ∀ drive, rest.head? = some drive → OpenHeard env drive x) :
    OpenAnySound env w fat path rest x := by
  induction rest generalizing x with
  | nil => trivial
  | cons drive rest ih =>
    have hfirst := hheard drive rfl
    have hdrive := hvol drive List.mem_cons_self
    have hvol' : ∀ drive ∈ rest, drive ∈ drives := fun v hv ↦ hvol v (List.mem_cons_of_mem _ hv)
    obtain ⟨hnot, hnodup'⟩ := List.nodup_cons.mp hnodup
    have hnext : ∀ y : State Meta, Persists env y.disks.emmc.tick →
        (y.curDrive = none ∨ y.curDrive = some drive) →
        ∀ v, rest.head? = some v → OpenHeard env v y := by
      intro y hpersists hcur v hv
      have hmem := List.mem_of_head? hv
      refine ⟨hpersists, fun heq ↦ absurd (heq ▸ hmem) hsd, fun hcur' ↦ ?_⟩
      rcases hcur with hcur | hcur <;> rw [hcur] at hcur'
      · cases hcur'
      · exact absurd (Option.some.inj hcur' ▸ hmem) hnot
    obtain ⟨hsound, hpersists, hafter⟩ := mountDrive_heard w h hfirst
    have hinv := mountDrive_inv h hdrive hsound
    have hcur := mountDrive_names env w fat drive x
    refine ⟨(openOn_heard w path h hdrive hfirst).1, ?_⟩
    have hsd' : .sd ∉ rest.tail := fun hmem ↦ hsd (List.mem_of_mem_tail hmem)
    rcases hr : mountDrive env w fat drive x with ⟨e | ⟨⟩, y⟩ <;>
      rw [hr] at hinv hpersists hafter hcur
    · exact ih hvol' hnodup' hsd' hinv (hnext y hpersists hcur)
    · have hcur' := mountDrive_curDrive hr
      obtain ⟨hopen, hpersists'⟩ := openOn_heard w path hinv hdrive
        ⟨hpersists, fun heq hne ↦ absurd (heq ▸ hcur') hne, fun _ ↦ (hafter rfl).switch⟩
      have hinv' := openOn_inv hinv hdrive hopen
      have hstays := openOn_stays env w fat path hcur'
      dsimp only
      rcases hr' : openOn env w fat path drive y with ⟨e | fil, z⟩ <;>
        rw [hr'] at hpersists' hinv' hstays
      · cases e
        case noFile => exact ih hvol' hnodup' hsd' hinv' (hnext z hpersists' (.inr hstays))
        all_goals trivial
      · trivial

/-! ## When nothing fails -/

/-- A file is there: a mount of the drive finds a volume on the card, and the path leads to it. -/
def HasFile (fat : FatFs Path Meta Fil) (path : Path) (fil : Fil) (drive : Drive) (d : Disks) :
    Prop :=
  ∃ found, (findScan fat).eval (contents drive d) = some (.ok found) ∧
    (fat.followPath path found).eval (contents drive d) = some (.ok fil)

/-- It is there as long as the sectors of the drive are the same. -/
theorem HasFile.congr {fil : Fil} {d d' : Disks} (h : HasFile fat path fil drive d)
    (hsame : contents drive d' = contents drive d) : HasFile fat path fil drive d' := by
  rw [HasFile, hsame]
  exact h

/-- A scan of a drive whose reads come through, of sectors the card has. -/
theorem scan_of_ok {α : Type} {table : ℕ → Option Block} (w : Windows) (scan : Scan Block α)
    (win : Scan.Cache Block) {d : Disks} (h : Healthy env drive table d)
    (hwindow : Scan.Coherent table win) {a : α} (ha : scan.eval table = some a) :
    (scan.run (readWindow env w drive) (win, d)).1 = a ∧
      Healthy env drive table (scan.run (readWindow env w drive) (win, d)).2.2 ∧
      Scan.Coherent table (scan.run (readWindow env w drive) (win, d)).2.1 := by
  refine Scan.run_eq_eval (I := Healthy env drive table) (fun sector d b hd hb ↦ ?_) scan h
    hwindow ha
  exact readWindow_of_heard hd.1 hd.2 hb

/-- **The path of a file that is there is found**, on a drive that is mounted. -/
theorem fOpen_of_ok {fil : Fil} (h : Mounted fat drive x) (hmode : x.disks.sd.mode ≠ 0)
    (hheard : Heard env drive x.disks) (hfile : HasFile fat path fil drive x.disks) :
    (fOpen env w fat path { x with currVol := drive }).1 = .ok fil := by
  obtain ⟨found, hfound, heval⟩ := h.found
  obtain ⟨found', hfind, hfollow⟩ := hfile
  obtain rfl : found' = found := Except.ok.inj (heval _ hfind)
  obtain ⟨hrun, -⟩ := scan_of_ok w (fat.followPath path found') x.fs.win
    ⟨⟨h.up, rfl, hmode⟩, hheard⟩ h.window hfollow
  rw [fOpen_of_mounted h hfound, onVolume_eq]
  dsimp only
  rw [h.pdrv]
  exact hrun

/-- **A drive with a volume is mounted.** -/
theorem mountVolume_of_ok (w : Windows) {y : State Meta} (h : Registered drive x y)
    (hvol : drive ∈ drives) (hmode : x.disks.sd.mode ≠ 0) (hok : OkFrom env x.disks.emmc.tick)
    {found : Meta} (hfind : (findScan fat).eval (contents drive x.disks) = some (.ok found)) :
    (mountVolume env w fat drive y).1 = .ok found ∧
      Mounted fat drive (mountVolume env w fat drive y).2 ∧
      contents drive (mountVolume env w fat drive y).2.disks = contents drive x.disks ∧
      (mountVolume env w fat drive y).2.disks.sd.mode ≠ 0 ∧
      Heard env drive (mountVolume env w fat drive y).2.disks := by
  have htrue := diskInitialize_of_ok drive hok hmode
  have hmode' := diskInitialize_mode (fun _ ↦ htrue) hmode
  have hheard := diskInitialize_heard htrue hok.persists
  have hup := diskInitialize_up htrue
  have hcontents := diskInitialize_contents env drive drive x.disks
  rw [mountVolume_of_registered h]
  rcases hinit : diskInitialize env drive x.disks with ⟨_ | _, d⟩ <;>
    rw [hinit] at htrue hmode' hheard hup hcontents
  · cases htrue
  obtain ⟨hrun, ⟨hserved, hheard'⟩, hcoherent⟩ := scan_of_ok w (findScan fat) none
    ⟨⟨hup, hcontents, hmode'⟩, hheard⟩ Scan.coherent_none hfind
  rw [findScan, ← Scan.run_fresh 0 _ x.fs.win, ← findScan] at hrun hserved hheard' hcoherent
  dsimp only
  rw [onVolume_eq]
  dsimp only
  rw [h.pdrv, h.win]
  rcases hr : (findScan fat).run (readWindow env w drive) (x.fs.win, d) with ⟨res, win, d'⟩
  rw [hr] at hrun hserved hheard' hcoherent
  subst hrun
  refine ⟨rfl, ⟨hvol, h.registered, rfl, ⟨found, rfl, fun r heval ↦ ?_⟩, ?_, hserved.up⟩,
    hserved.contents, hserved.mode, hheard'⟩
  · dsimp only at heval
    rw [hserved.contents, hfind] at heval
    exact (Option.some.inj heval).symm
  · dsimp only
    rw [hserved.contents]
    exact hcoherent

/-- **`open_file_on` opens a file that is there**, if nothing fails. -/
theorem openOn_of_ok {fil : Fil} (h : Inv fat x) (hvol : drive ∈ drives)
    (hok : OkFrom env x.disks.emmc.tick) (hfile : HasFile fat path fil drive x.disks) :
    (openOn env w fat path drive x).1 = .ok fil := by
  rw [openOn]
  by_cases hcur : x.curDrive = some drive
  · rw [mountDrive_of_eq hcur]
    exact fOpen_of_ok (h.mounted drive hcur) h.mode (heard_of_ok drive hok) hfile
  · obtain ⟨found, hfind, hfollow⟩ := hfile
    obtain ⟨hres, hm, hcontents, hmode, hheard⟩ :=
      mountVolume_of_ok w (mounting_spec drive x) hvol h.mode hok hfind
    rw [mountDrive_of_ne hcur]
    rcases hr : mountVolume env w fat drive (mounting drive x) with ⟨res, y⟩
    rw [hr] at hres hm hcontents hmode hheard
    dsimp only at hres hm hcontents hmode hheard
    subst hres
    obtain ⟨-, hreg, hpdrv, hfound, hwindow, hup⟩ := hm
    have hm' : Mounted fat drive { y with curDrive := some drive } :=
      ⟨hvol, hreg, hpdrv, hfound, hwindow, hup⟩
    refine fOpen_of_ok hm' hmode hheard ⟨found, ?_, ?_⟩
    · exact hcontents ▸ hfind
    · exact hcontents ▸ hfollow

end Files
end SdLoader
