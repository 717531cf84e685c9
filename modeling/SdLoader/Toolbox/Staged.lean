import SdLoader.Modchip.Atomicity
import SdLoader.Toolbox.WellFormed

/-!
# The staged image until the reboot

After an update the console has to be rebooted for the modchip to see the command, and until then
the image it names must stay as it is.  `disable_all_cmds` and `command_pending` see to that for the
commands, but the settings stay open, and saving them rewrites the last sector of BOOT0.

* `pending_step` — with a command pending, a button press changes no byte of BOOT0 outside that
  sector, and none at all unless it saves the settings;
* `imageKept_of_safe` — so the image is kept in every run that does not save the settings while the
  command names the last sector;
* `safe_of_small` — which is every run, for an update that names no more than the 222 sectors the
  staging buffer holds.

An update that goes through the buffer in chunks does name the last sector
(`modchipWriteFwUpdateFromFile_true`), and the image of the largest ones reaches it.
-/

set_option autoImplicit false

namespace SdLoader
namespace Toolbox

open Tui Modchip

variable {env : Env} {t : Ui} {inp : Input}

/-- The button press saves the settings. -/
def Saves (t : Ui) (inp : Input) : Prop := t.called inp.btn = some .saveSettingsCb

/-- The sectors the command in sector 1 names. -/
def NamedSector (boot0 : ℕ → UInt8) (sec : ℕ) : Prop :=
  Store.word boot0 (sectorSize * cmdSector + 4) ≤ sec ∧
    sec < Store.word boot0 (sectorSize * cmdSector + 4) +
      Store.word boot0 (sectorSize * cmdSector + 8)

/-- A button press that does not save the settings over a sector the pending command names. -/
def SafeStep (t : Ui) (inp : Input) : Prop :=
  Saves t inp → ¬ NamedSector t.disk.boot0 cfgSector

/-! ## With a command pending -/

/-- **What a button press can do to BOOT0 once a command is pending.** -/
theorem pending_step (env : Env) (inp : Input) (hwf : WellFormed t)
    (hpend : t.commandPending = true) :
    (step env t inp).commandPending = true ∧
      (∀ x, x < sectorSize * cfgSector ∨ sectorSize * cfgSector + sectorSize ≤ x →
        (step env t inp).disk.boot0 x = t.disk.boot0 x) ∧
      (¬ Saves t inp → (step env t inp).disk.boot0 = t.disk.boot0) := by
  cases hcalled : t.called inp.btn with
  | none =>
    obtain ⟨hdisk, hpend', -⟩ := step_of_not_called env hwf hcalled
    rw [hdisk, hpend']
    exact ⟨hpend, fun _ _ ↦ rfl, fun _ ↦ rfl⟩
  | some cb =>
    rw [step_of_called hcalled, callback]
    rcases called_cases hwf hcalled with ⟨menu, hscreen, hcb⟩ | ⟨menu, sub, -, -, -, hfalse, -⟩ |
      ⟨menu, sub, tempCfg, hscreen, hcb⟩
    · rw [hscreen]
      rcases hcb with rfl | rfl | ⟨hfalse, -⟩
      · have hboot := modchipReadDesc_boot0 env ⟨0, 0, 0, 0, 0, 0⟩ t.disk
        simp only [toolboxCallback, infoCb]
        split
        · next heq =>
          rw [heq] at hboot
          exact ⟨hpend, fun _ _ ↦ congrFun hboot _, fun _ ↦ hboot⟩
        · next heq =>
          rw [heq] at hboot
          obtain ⟨hdisk, hpend', -⟩ := openMenu_disk infoEntries (.box menu) { t with disk := _ }
          rw [hdisk, hpend']
          exact ⟨hpend, fun _ _ ↦ congrFun hboot _, fun _ ↦ hboot⟩
      · obtain ⟨hdisk, hpend', -⟩ := openMenu_disk settingsEntries (.settings menu · t.cfg) t
        simp only [toolboxCallback, iplSettingsCb]
        rw [hdisk, hpend']
        exact ⟨hpend, fun _ _ ↦ rfl, fun _ ↦ rfl⟩
      · rw [hpend] at hfalse
        exact absurd hfalse.symm Bool.false_ne_true
    · rw [hpend] at hfalse
      exact absurd hfalse.symm Bool.false_ne_true
    · rw [hscreen]
      cases cb with
      | defaultVolCb => exact ⟨hpend, fun _ _ ↦ rfl, fun _ ↦ rfl⟩
      | defaultActionCb => exact ⟨hpend, fun _ _ ↦ rfl, fun _ ↦ rfl⟩
      | ofwBtnCb => exact ⟨hpend, fun _ _ ↦ rfl, fun _ ↦ rfl⟩
      | saveSettingsCb =>
        have hboot : ∀ x, _ → (modchipSetCfg env tempCfg t.disk).2.boot0 x = t.disk.boot0 x :=
          fun x hx ↦ modchipSetCfg_boot0 hx
        simp only [settingsCallback, saveSettingsCb]
        split
        · next heq =>
          rw [heq] at hboot
          exact ⟨hpend, hboot, fun h ↦ absurd hcalled h⟩
        · next heq =>
          rw [heq] at hboot
          exact ⟨hpend, hboot, fun h ↦ absurd hcalled h⟩
      | _ => exact absurd hcb id

/-! ## Runs -/

theorem namedSector_congr {a b : ℕ → UInt8} (h : ∀ x < sectorSize * cfgSector, b x = a x)
    (sec : ℕ) : NamedSector b sec ↔ NamedSector a sec := by
  have hword : ∀ k < 12, Store.word b (sectorSize * cmdSector + k) =
      Store.word a (sectorSize * cmdSector + k) := by
    intro k hk
    refine Store.word_congr fun j hj ↦ h _ ?_
    rw [sectorSize_eq, cmdSector, cfgSector]
    omega
  rw [NamedSector, NamedSector, hword 4 (by omega), hword 8 (by omega)]

/-- What holds all through a safe run from `t`: a command is pending, and BOOT0 is as it was in `t`
except perhaps for the last sector, and there too if the command names it. -/
structure Kept (t s : Ui) : Prop where
  /-- The menus are the ones that were built. -/
  wellFormed : WellFormed s
  /-- A command is pending. -/
  pending : s.commandPending = true
  /-- BOOT0 outside the last sector. -/
  outside : ∀ x, x < sectorSize * cfgSector ∨ sectorSize * cfgSector + sectorSize ≤ x →
    s.disk.boot0 x = t.disk.boot0 x
  /-- The last sector, if it is named. -/
  named : NamedSector t.disk.boot0 cfgSector → s.disk.boot0 = t.disk.boot0

/-- One safe button press keeps BOOT0. -/
theorem Kept.step {s : Ui} (h : Kept t s) (hsafe : SafeStep s inp) : Kept t (step env s inp) := by
  obtain ⟨hpend, hout, hsave⟩ := pending_step env inp h.wellFormed h.pending
  refine ⟨wellFormed_step env s inp h.wellFormed, hpend,
    fun x hx ↦ (hout x hx).trans (h.outside x hx), fun hnamed ↦ ?_⟩
  have hsame := h.named hnamed
  have hno : ¬ Saves s inp := fun hs ↦ hsafe hs (by rw [hsame]; exact hnamed)
  exact (hsave hno).trans hsame

/-- **A safe run keeps BOOT0**, from any state in which a command is pending. -/
theorem kept_run (hwf : WellFormed t) (hpend : t.commandPending = true) {is : List Input}
    (hsafe : Machine.Along (step env) SafeStep t is) : Kept t (Machine.run (step env) t is) :=
  Machine.run_inv_along (fun _ _ ↦ Kept.step) ⟨hwf, hpend, fun _ _ ↦ rfl, fun _ ↦ rfl⟩ hsafe

theorem Kept.sector {s : Ui} (h : Kept t s) {sec : ℕ} (hsec : NamedSector t.disk.boot0 sec) {k : ℕ}
    (hk : k < sectorSize) :
    s.disk.boot0 (sectorSize * sec + k) = t.disk.boot0 (sectorSize * sec + k) := by
  by_cases heq : sec = cfgSector
  · subst heq
    rw [h.named hsec]
  · refine h.outside _ ?_
    rw [sectorSize_eq] at *
    omega

/-! ## Updates -/

/-- The callback of a confirm box for an update that ends with a command. -/
def confirmed : Update → Fil → Callback
  | .fw => .updateFw
  | .bl => .updateBl
  | .ipl => .updateIpl

/-- The largest file `update_cb` lets through. -/
def sizeMax : Update → ℕ
  | .fw => fwMaxSize
  | .bl => rpBlMaxSize
  | .ipl => blMaxSize

/-- The button press that confirms an update runs it and leaves a command pending. -/
theorem step_confirmed (env : Env) (hwf : WellFormed t) {u : Update} {f : Fil}
    (hcalled : t.called inp.btn = some (confirmed u f)) :
    (step env t inp).disk = (u.run env f t.disk).2 ∧ (step env t inp).commandPending = true ∧
      f.fptr = 0 := by
  rw [step_of_called hcalled, callback]
  rcases called_cases hwf hcalled with ⟨menu, -, hcb⟩ | ⟨menu, sub, hscreen, -, -, -, hcb⟩ |
    ⟨menu, sub, tempCfg, -, hcb⟩
  · cases u <;> simp [confirmed, AsksCommand] at hcb
  · rw [hscreen]
    cases u with
    | fw => exact ⟨rfl, rfl, hcb.1⟩
    | bl => exact ⟨rfl, rfl, hcb.1⟩
    | ipl => exact ⟨rfl, rfl, hcb.1⟩
  · cases u <;> exact absurd hcb id

/-- The sectors of the image are among those the command names. -/
theorem namedSector_image {u : Update} (hu : u ≠ .ipl) {size sec : ℕ} {m : ℕ → UInt8}
    (hsize : size ≤ fwMaxSize) (h : u.startSector ≤ sec) (h' : sec < u.startSector + sectors size) :
    NamedSector (u.commanded size m) sec := by
  have hsec : sectors size ≤ 0x100 := by rw [sectors]; rw [fwMaxSize] at hsize; omega
  obtain ⟨c, hcmd, hstart, hcnt, hle⟩ : ∃ c, u.cmd size = some c ∧ c.fwSectorStart = u.startSector ∧
      sectors size ≤ c.fwSectorCnt ∧ c.fwSectorCnt ≤ fwMaxSize := by
    cases u with
    | fw =>
      refine ⟨_, rfl, rfl, ?_⟩
      dsimp only
      rw [fwCmdCount]
      split
      · exact ⟨Nat.le_refl _, by rw [fwMaxSize]; omega⟩
      · exact ⟨by rw [sectors, sdmmcUpBufSz_eq] at *; omega, hsize⟩
    | bl => exact ⟨_, rfl, rfl, Nat.le_refl _, by rw [fwMaxSize]; dsimp only; omega⟩
    | ipl => exact absurd rfl hu
  have hwords := Cmd.words (m := cmdWritten m c) (a := sectorSize) (c := c) ?_ ?_ ?_ fun k hk ↦
    cmdWritten_bytes hk
  · rw [NamedSector, Update.commanded, hcmd]
    dsimp only
    rw [show sectorSize * cmdSector = sectorSize from rfl, hwords.2.1, hwords.2.2, hstart]
    omega
  · cases u with
    | fw => rw [← Option.some.inj hcmd]; change cmdFwUpdate < _; decide
    | bl => rw [← Option.some.inj hcmd]; change cmdBlUpdate < _; decide
    | ipl => exact absurd rfl hu
  · rw [hstart]
    cases u <;> decide
  · rw [fwMaxSize] at hle
    omega

/-- The pending command and the sectors it names are as they were in `a`, and hold the image of the
file. -/
structure ImageKept (u : Update) (f : Fil) (a b : ℕ → UInt8) : Prop where
  /-- The command. -/
  command : ∀ k < sectorSize, b (sectorSize * cmdSector + k) = a (sectorSize * cmdSector + k)
  /-- The sectors it names. -/
  named : ∀ sec, NamedSector a sec → ∀ k < sectorSize,
    b (sectorSize * sec + k) = a (sectorSize * sec + k)
  /-- The image. -/
  image : ∀ k < sectorSize * sectors f.size, b (sectorSize * u.startSector + k) = f.padded u.pad k

/-- **The staged image is kept until the reboot**, in every run that does not save the settings
while the pending command names the last sector. -/
theorem imageKept_of_safe (ht : Reachable env t) {u : Update} (hu : u ≠ .ipl) {f : Fil}
    (hcalled : t.called inp.btn = some (confirmed u f)) (hsize : f.size ≤ sizeMax u)
    (hok : (u.run env f t.disk).1 = true) {is : List Input}
    (hsafe : Machine.Along (step env) SafeStep (step env t inp) is) :
    ImageKept u f (step env t inp).disk.boot0
      (Machine.run (step env) (step env t inp) is).disk.boot0 := by
  obtain ⟨hdisk, hpend, hf⟩ := step_confirmed env ht.wellFormed hcalled
  have hkept := kept_run (wellFormed_step env t inp ht.wellFormed) hpend hsafe
  have hsize' : f.size ≤ fwMaxSize := by
    cases u with
    | fw => exact hsize
    | bl => exact hsize
    | ipl => exact absurd rfl hu
  obtain ⟨m, himg, hboot⟩ := u.run_true hf hsize' hok
  have hstart := u.startSector_ge
  rw [fwStartSector] at hstart
  refine ⟨fun k hk ↦ hkept.outside _ (.inl ?_), fun sec hsec k hk ↦ hkept.sector hsec hk,
    fun k hk ↦ ?_⟩
  · rw [sectorSize_eq, cmdSector, cfgSector] at *
    omega
  · -- Byte `k` of the image is byte `k % 512` of a sector the command names.
    have hdiv : sectorSize * u.startSector + k =
        sectorSize * (u.startSector + k / sectorSize) + k % sectorSize := by
      rw [Nat.mul_add, Nat.add_assoc, Nat.div_add_mod]
    have hnamed : NamedSector (step env t inp).disk.boot0 (u.startSector + k / sectorSize) := by
      rw [hdisk, hboot]
      refine namedSector_image hu hsize' (Nat.le_add_right _ _) (Nat.add_lt_add_left ?_ _)
      exact Nat.div_lt_of_lt_mul hk
    rw [hdiv, hkept.sector hnamed (Nat.mod_lt _ (by decide)), ← hdiv, hdisk, hboot, ← himg k hk]
    refine u.commanded_of_not_mem ?_
    rw [sectorSize_eq]
    omega

/-! ## Updates that fit the buffer -/

/-- Every run is safe from a state whose pending command leaves the last sector alone. -/
theorem safe_of_not_named (hwf : WellFormed t) (hpend : t.commandPending = true)
    (hno : ¬ NamedSector t.disk.boot0 cfgSector) (is : List Input) :
    Machine.Along (step env) SafeStep t is := by
  induction is generalizing t with
  | nil => trivial
  | cons i is ih =>
    obtain ⟨hpend', hout, -⟩ := pending_step env i hwf hpend
    refine ⟨fun _ ↦ hno, ih (wellFormed_step env t i hwf) hpend' ?_⟩
    rw [namedSector_congr fun x hx ↦ hout x (.inl hx)]
    exact hno

/-- An update that fits the staging buffer names no more than its 222 sectors, so every run after it
is safe. -/
theorem safe_of_small (ht : Reachable env t) {u : Update} (hu : u ≠ .ipl) {f : Fil}
    (hcalled : t.called inp.btn = some (confirmed u f)) (hsize : f.size < sdmmcUpBufSz)
    (hok : (u.run env f t.disk).1 = true) (is : List Input) :
    Machine.Along (step env) SafeStep (step env t inp) is := by
  obtain ⟨hdisk, hpend, hf⟩ := step_confirmed env ht.wellFormed hcalled
  rw [sdmmcUpBufSz_eq] at hsize
  obtain ⟨m, -, hboot⟩ := u.run_true hf (by rw [fwMaxSize]; omega) hok
  refine safe_of_not_named (wellFormed_step env t inp ht.wellFormed) hpend ?_ is
  have hsec : sectors f.size ≤ 222 := by rw [sectors]; omega
  have hwords := Cmd.words (m := (step env t inp).disk.boot0) (a := sectorSize)
    (c := ⟨if u = .fw then cmdFwUpdate else cmdBlUpdate, fwStartSector, sectors f.size⟩)
    (by dsimp only; split <;> decide) (by change fwStartSector < _; decide) (by dsimp only; omega)
    fun k hk ↦ by
      rw [hdisk, hboot]
      cases u with
      | fw =>
        have hcount : fwCmdCount f.size = sectors f.size := if_pos hsize
        rw [Update.commanded, Update.cmd, hcount]
        exact cmdWritten_bytes hk
      | bl => exact cmdWritten_bytes hk
      | ipl => exact absurd rfl hu
  rw [NamedSector, show sectorSize * cmdSector = sectorSize from rfl, hwords.2.1, hwords.2.2,
    cfgSector, fwStartSector]
  dsimp only
  omega

/-! ## A tour of the toolbox -/

/-- A press of one button. -/
def press (btn : UInt8) : Input := ⟨btn, none⟩

/-- The program as it comes up, on a device that does everything it is told. -/
def comeUp : Ui := ⟨.start (fun _ ↦ 0) (fun _ ↦ 0), false, defaultCfg, .closed⟩

/-- Open the toolbox, go down to the firmware update, and have it find a file of `size` zeros. -/
def atConfirm (size : ℕ) : Ui :=
  Machine.run (step okEnv) comeUp [press btnPower, press btnVolDown, press btnVolDown,
    ⟨btnPower, some (size, fun _ ↦ 0)⟩]

/-- Leave the confirm box, go down to the settings, and save them. -/
def saveSettings : List Input :=
  [press btnVolDown, press btnPower, press btnVolDown, press btnPower, press btnVolDown,
    press btnVolDown, press btnVolDown, press btnPower]

theorem reachable_atConfirm (size : ℕ) : Reachable okEnv (atConfirm size) :=
  ⟨comeUp, _, ⟨rfl, rfl⟩, rfl⟩

/-- An update of one sector, and the settings saved after it. -/
theorem imageKept_of_safe_small :
    ImageKept .fw (.opened 0x200 fun _ ↦ 0)
      (step okEnv (atConfirm 0x200) (press btnPower)).disk.boot0
      (Machine.run (step okEnv) (step okEnv (atConfirm 0x200) (press btnPower))
        saveSettings).disk.boot0 := by
  have hcalled : (atConfirm 0x200).called (press btnPower).btn =
      some (confirmed .fw (.opened 0x200 fun _ ↦ 0)) := rfl
  have hok : (Update.run .fw okEnv (.opened 0x200 fun _ ↦ 0) (atConfirm 0x200).disk).1 = true :=
    modchipWriteFwUpdateFromFile_small_ok (fun _ ↦ rfl) rfl (by decide)
  exact imageKept_of_safe (reachable_atConfirm 0x200) (by decide) hcalled (by decide) hok
    (safe_of_small (reachable_atConfirm 0x200) (by decide) hcalled (by decide) hok saveSettings)

/-- The largest update, and the settings saved after it: the magic number of the configuration is
now in the last sector of the image. -/
theorem imageKept_counterexample :
    (atConfirm 0x20000).called (press btnPower).btn =
        some (confirmed .fw (.opened 0x20000 fun _ ↦ 0)) ∧
      (Update.run .fw okEnv (.opened 0x20000 fun _ ↦ 0) (atConfirm 0x20000).disk).1 = true ∧
      ¬ ImageKept .fw (.opened 0x20000 fun _ ↦ 0)
        (step okEnv (atConfirm 0x20000) (press btnPower)).disk.boot0
        (Machine.run (step okEnv) (step okEnv (atConfirm 0x20000) (press btnPower))
          saveSettings).disk.boot0 := by
  refine ⟨rfl, (modchipWriteFwUpdateFromFile_of_ok (fun _ ↦ rfl) rfl (by decide) (by decide)).1,
    fun h ↦ ?_⟩
  have hbyte := h.image 0x1ff00 (by decide)
  have hmagic : (Machine.run (step okEnv) (step okEnv (atConfirm 0x20000) (press btnPower))
      saveSettings).disk.boot0 (sectorSize * fwStartSector + 0x1ff00) = 0xba := by
    decide +kernel
  rw [show Update.startSector .fw = fwStartSector from rfl, hmagic] at hbyte
  exact absurd hbyte (by decide)

end Toolbox
end SdLoader
