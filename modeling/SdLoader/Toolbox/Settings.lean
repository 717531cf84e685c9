import SdLoader.Modchip.Law
import SdLoader.Toolbox.MainMenu

/-!
# The configuration in use

The configuration is read from BOOT0 when the program comes up, and from then on it decides which
payload is launched and what the settings show.  Both look things up in tables, by the number of the
volume or of the action, and the numbers have three and two bits where the enumerations have five
and three values.  What is checked of a configuration are its two magic numbers.

* `Lookup` — an access to one of the tables; `openFileOn`, `handleFileError`, `loadPayload` and
  `handleSdloaderStatus` are the functions that make those of a launch.
* `Main.lookups` — the ones a turn makes.
* `KnownCfg` — the numbers are those of the enumerations.
* `known_step` — every turn keeps them so.
* `cfgLaw_iff` — in every run all lookups are in bounds and no setting is stuck, exactly if this
  holds of the configuration on BOOT0, should it be taken.
-/

set_option autoImplicit false

namespace SdLoader
namespace Toolbox

open Tui Modchip

/-! ## The tables -/

/-- `default_vol_names` -/
def defaultVolNames : List String := ["Auto", "SD", "BOOT1 (1MB)", "BOOT1", "GPP"]

/-- `default_action_names` -/
def defaultActionNames : List String := ["Payload", "OFW", "Menu"]

/-- `drive_friendly_names` -/
def driveFriendlyNames : List String := ["SD", "BOOT 1", "BOOT 1", "GPP"]

/-- `drive_names` -/
def driveNames : List String := ["0:", "2:", "1:", "3:"]

/-- An access to a table, with the index. -/
inductive Lookup
  | defaultVolName (i : ℕ)
  | defaultActionName (i : ℕ)
  | driveFriendlyName (i : ℕ)
  | driveName (i : ℕ)

/-- The index is one of the table. -/
def Lookup.InBounds : Lookup → Prop
  | .defaultVolName i => i < defaultVolNames.length
  | .defaultActionName i => i < defaultActionNames.length
  | .driveFriendlyName i => i < driveFriendlyNames.length
  | .driveName i => i < driveNames.length

/-! ## Launching a payload -/

/-- `FRESULT`, as far as the callers tell its values apart. -/
inductive FResult
  | ok
  | noFile
  | invalidDrive
  | other
  deriving DecidableEq

/-- `MODCHIP_PAYLOAD_VOL_AUTO` -/
def volAuto : ℕ := 0

/-- `SDLOADER_DRIVE_INVALID` -/
def driveInvalid : ℕ := 4

/-- How the drives answer. -/
structure Drives where
  /-- Can the drive be mounted? -/
  mounts : ℕ → Bool
  /-- What opening the payload on it comes to. -/
  opens : ℕ → FResult
  /-- Is the payload too large? -/
  tooLarge : Bool

/-- `open_file_on`: its result, and the lookups. -/
def openFileOn (w : Drives) (drive : ℕ) : FResult × List Lookup :=
  if 3 < drive then (.invalidDrive, [])
  else if w.mounts drive then (w.opens drive, [.driveName drive, .driveName drive])
  else (.other, [.driveName drive])

/-- The drives `open_file_on_any` goes through, from `i` on: the result, the drive, and the
lookups. -/
def openFileOnAnyFrom (w : Drives) : ℕ → List ℕ → FResult × ℕ × List Lookup
  | drive, [] => (.noFile, drive, [])
  | drive, i :: is =>
    let rest := openFileOnAnyFrom w drive is
    if !w.mounts i then (rest.1, rest.2.1, .driveName i :: rest.2.2)
    else if (openFileOn w i).1 = .noFile then
      (rest.1, rest.2.1, .driveName i :: (openFileOn w i).2 ++ rest.2.2)
    else ((openFileOn w i).1, i, .driveName i :: (openFileOn w i).2)

/-- `open_file_on_any` -/
def openFileOnAny (w : Drives) : FResult × ℕ × List Lookup :=
  openFileOnAnyFrom w driveInvalid [0, 1, 2, 3]

/-- `handle_file_error` -/
def handleFileError (drive : ℕ) : FResult → List Lookup
  | .ok => []
  | .noFile => []
  | _ => [.driveFriendlyName drive]

/-- `handle_sdloader_status`, for a payload that has been opened. -/
def handleSdloaderStatus (w : Drives) (drive : ℕ) : List Lookup :=
  if w.tooLarge then [.driveFriendlyName drive] else []

/-- `load_payload`: the lookups.  `(u8)default_payload_vol - 1` is assigned to a `u8`. -/
def loadPayload (cfg : Cfg) (w : Drives) : List Lookup :=
  let (res, drive, lookups) :=
    if cfg.defaultPayloadVol = volAuto then openFileOnAny w
    else
      let drive := (cfg.defaultPayloadVol + 255) % 256
      ((openFileOn w drive).1, drive, (openFileOn w drive).2)
  lookups ++ if res = .ok then handleSdloaderStatus w drive else handleFileError drive res

/-! ## The lookups of a turn -/

/-- `default_vol_update` and `default_action_update` -/
def settingsUpdate (cfg : Cfg) : List Lookup :=
  [.defaultVolName cfg.defaultPayloadVol, .defaultActionName cfg.defaultAction]

/-- The lookups of a button press in the toolbox. -/
def Ui.lookups (t : Ui) (btn : UInt8) : List Lookup :=
  match t.screen, t.called btn with
  | .toolbox _, some .iplSettingsCb => settingsUpdate t.cfg
  | .settings _ _ tempCfg, some .defaultVolCb =>
    [.defaultVolName (defaultVolCb tempCfg).defaultPayloadVol]
  | .settings _ _ tempCfg, some .defaultActionCb =>
    [.defaultActionName (defaultActionCb tempCfg).defaultAction]
  | _, _ => []

/-- The callback of the menus outside the toolbox that the buttons call, if any. -/
def Main.calledOutside (m : Main) (btn : UInt8) : Option MainCallback :=
  match m.place with
  | .menu main => match main.onButton btn with
    | .call cb => cb
    | _ => none
  | .more _ sub => match sub.onButton btn with
    | .call cb => cb
    | _ => none
  | _ => none

/-- The lookups of a turn. -/
def Main.lookups (m : Main) (btn : UInt8) (w : Drives) : List Lookup :=
  match m.place with
  | .toolbox _ _ => m.ui.lookups btn
  | _ => if m.calledOutside btn matches some .retryCb then loadPayload m.ui.cfg w else []

/-- `get_cfg`: the configuration the program comes up with. -/
def getCfg (env : Env) (s : State) : Cfg :=
  let sdloaderCfg : Cfg := ⟨0, 0, 0, 0, false, false, fun _ ↦ 0⟩
  (modchipGetCfgOrDefault env sdloaderCfg s).1

/-- What `main` does with the configuration before it shows the menu: the lookups, if it tries to
launch a payload. -/
def bootLookups (cfg : Cfg) (btn : UInt8) (w : Drives) : List Lookup :=
  if btn &&& btnVolDown ≠ 0 ∧ btn &&& btnVolUp ≠ 0 ∧ cfg.disableOfwBtnCombo = false then []
  else if btn &&& btnVolUp ≠ 0 ∧ btn &&& btnVolDown = 0 then []
  else if cfg.defaultAction = 0 then loadPayload cfg w
  else []

/-! ## Known configurations -/

/-- The numbers are those of `modchip_payload_vol` and of `modchip_default_action`. -/
def KnownCfg (c : Cfg) : Prop := c.defaultPayloadVol ≤ 4 ∧ c.defaultAction ≤ 2

instance (c : Cfg) : Decidable (KnownCfg c) := inferInstanceAs (Decidable (_ ∧ _))

/-- The numbers and the validity of a configuration are in its first nine bytes. -/
theorem ofBytes_congr {b b' : ℕ → UInt8} (h : ∀ k < cfgSize, b k = b' k) :
    modchipIsCfgValid (.ofBytes b) = modchipIsCfgValid (.ofBytes b') ∧
      (KnownCfg (.ofBytes b) ↔ KnownCfg (.ofBytes b')) := by
  have hsmall : ∀ k < 9, b k = b' k := fun k hk ↦ h k (by rw [cfgSize]; omega)
  have h0 : Store.word b 0 = Store.word b' 0 := Store.word_congr fun k hk ↦ hsmall _ (by omega)
  have h4 : Store.word b 4 = Store.word b' 4 := Store.word_congr fun k hk ↦ hsmall _ (by omega)
  simp [modchipIsCfgValid, KnownCfg, Cfg.ofBytes, h0, h4, hsmall 8 (by decide)]

/-- **The configuration the program comes up with** is known, if the one on BOOT0 is or is not
taken. -/
theorem getCfg_known_iff (env : Env) (s : State) :
    KnownCfg (getCfg env s) ↔ ((env s.tick).ok = true →
      modchipIsCfgValid (cfgOnMedium s.boot0) = true → KnownCfg (cfgOnMedium s.boot0)) := by
  have hdefault : KnownCfg defaultCfg := ⟨Nat.zero_le 4, Nat.zero_le 2⟩
  cases h : (env s.tick).ok with
  | false => simp [getCfg, modchipGetCfgOrDefault, modchipGetCfg, diskRead_error h, hdefault]
  | true =>
    set c₀ : Cfg := ⟨0, 0, 0, 0, false, false, fun _ ↦ 0⟩ with hc₀
    have htrue : (modchipGetCfg env c₀ s).1 = true := by simp [modchipGetCfg, diskRead_ok h]
    obtain ⟨b, hget, hb⟩ := modchipGetCfg_spec htrue
    obtain ⟨hvalid, hknown⟩ := ofBytes_congr hb
    have hcfg : getCfg env s =
        if modchipIsCfgValid (.ofBytes b) then .ofBytes b else defaultCfg := by
      simp only [getCfg, ← hc₀, modchipGetCfgOrDefault, htrue, hget, Bool.true_and]
    rw [hcfg, hvalid]
    change _ ↔ (_ → modchipIsCfgValid (.ofBytes _) = true → KnownCfg (.ofBytes _))
    rw [← hknown]
    split
    · next hv => simp [hv]
    · next hv => simp [hv, hdefault]

theorem defaultVolCb_known {c : Cfg} (h : c.defaultPayloadVol ≤ 4) :
    (defaultVolCb c).defaultPayloadVol ≤ 4 ∧
      (defaultVolCb c).defaultPayloadVol ≠ c.defaultPayloadVol := by
  obtain h | h | h | h | h : c.defaultPayloadVol = 0 ∨ c.defaultPayloadVol = 1 ∨
      c.defaultPayloadVol = 2 ∨ c.defaultPayloadVol = 3 ∨ c.defaultPayloadVol = 4 := by omega
  all_goals simp [defaultVolCb, h]

theorem defaultActionCb_known {c : Cfg} (h : c.defaultAction ≤ 2) :
    (defaultActionCb c).defaultAction ≤ 2 ∧
      (defaultActionCb c).defaultAction ≠ c.defaultAction := by
  obtain h | h | h : c.defaultAction = 0 ∨ c.defaultAction = 1 ∨ c.defaultAction = 2 := by omega
  all_goals simp [defaultActionCb, h]

/-! ## Lookups of known configurations -/

/-- A drive that there is, or none that could not be named. -/
theorem handleFileError_inBounds {drive : ℕ} {res : FResult} (h : drive < 4 ∨ res = .noFile)
    {l : Lookup} (hl : l ∈ handleFileError drive res) : l.InBounds := by
  cases res with
  | ok => cases hl
  | noFile => cases hl
  | invalidDrive | other =>
    rw [List.mem_singleton.mp hl]
    exact h.resolve_right fun h ↦ by cases h

theorem openFileOn_inBounds {w : Drives} {drive : ℕ} {l : Lookup}
    (hl : l ∈ (openFileOn w drive).2) : l.InBounds := by
  rw [openFileOn] at hl
  split at hl
  · cases hl
  · next hdrive =>
    have hname : (Lookup.driveName drive).InBounds := Nat.lt_of_not_le hdrive
    split at hl <;> simp only [List.mem_cons, List.not_mem_nil, or_false] at hl
    · rcases hl with rfl | rfl <;> exact hname
    · exact hl ▸ hname

theorem openFileOnAnyFrom_inBounds {w : Drives} {drive : ℕ} {is : List ℕ} (his : ∀ i ∈ is, i < 4) :
    (∀ l ∈ (openFileOnAnyFrom w drive is).2.2, l.InBounds) ∧
      ((openFileOnAnyFrom w drive is).2.1 < 4 ∨ (openFileOnAnyFrom w drive is).1 = .noFile) := by
  induction is with
  | nil => exact ⟨fun _ hl ↦ absurd hl List.not_mem_nil, .inr rfl⟩
  | cons i is ih =>
    obtain ⟨hrest, hdrive⟩ := ih fun j hj ↦ his j (List.mem_cons_of_mem i hj)
    have hi : (Lookup.driveName i).InBounds := his i (List.mem_cons_self ..)
    rw [openFileOnAnyFrom]
    split
    · refine ⟨fun l hl ↦ ?_, hdrive⟩
      rcases List.mem_cons.mp hl with rfl | hl
      · exact hi
      · exact hrest l hl
    · split
      · refine ⟨fun l hl ↦ ?_, hdrive⟩
        simp only [List.mem_append, List.mem_cons] at hl
        rcases hl with (rfl | hl) | hl
        · exact hi
        · exact openFileOn_inBounds hl
        · exact hrest l hl
      · refine ⟨fun l hl ↦ ?_, .inl (his i (List.mem_cons_self ..))⟩
        rcases List.mem_cons.mp hl with rfl | hl
        · exact hi
        · exact openFileOn_inBounds hl

theorem openFileOnAny_inBounds (w : Drives) :
    (∀ l ∈ (openFileOnAny w).2.2, l.InBounds) ∧
      ((openFileOnAny w).2.1 < 4 ∨ (openFileOnAny w).1 = .noFile) :=
  openFileOnAnyFrom_inBounds (by decide)

/-- **A launch looks nothing up that there is not.** -/
theorem loadPayload_inBounds {c : Cfg} (h : KnownCfg c) (w : Drives) :
    ∀ l ∈ loadPayload c w, l.InBounds := by
  have hend : ∀ (drive : ℕ) (res : FResult), drive < 4 ∨ res = .noFile →
      ∀ l ∈ (if res = .ok then handleSdloaderStatus w drive else handleFileError drive res),
        l.InBounds := by
    intro drive res hdrive l hl
    split at hl
    · next hok =>
      rw [handleSdloaderStatus] at hl
      split at hl
      · rw [List.mem_singleton.mp hl]
        exact hdrive.resolve_right fun hno ↦ by rw [hok] at hno; cases hno
      · cases hl
    · exact handleFileError_inBounds hdrive hl
  intro l hl
  rw [loadPayload] at hl
  by_cases hauto : c.defaultPayloadVol = volAuto
  · simp only [if_pos hauto, List.mem_append] at hl
    obtain ⟨hany, hdrive⟩ := openFileOnAny_inBounds w
    rcases hl with hl | hl
    · exact hany l hl
    · exact hend _ _ hdrive l hl
  · simp only [if_neg hauto, List.mem_append] at hl
    have hdrive : (c.defaultPayloadVol + 255) % 256 < 4 := by
      rw [volAuto] at hauto
      have hle := h.1
      omega
    rcases hl with hl | hl
    · exact openFileOn_inBounds hl
    · exact hend _ _ (.inl hdrive) l hl

theorem settingsUpdate_inBounds {c : Cfg} (h : KnownCfg c) :
    ∀ l ∈ settingsUpdate c, l.InBounds := by
  intro l hl
  simp only [settingsUpdate, List.mem_cons, List.not_mem_nil, or_false] at hl
  rcases hl with rfl | rfl
  · exact Nat.lt_succ_of_le h.1
  · exact Nat.lt_succ_of_le h.2

/-! ## What a turn keeps -/

/-- The configuration in use is known, and so is the one that is being set up. -/
structure Ui.Known (t : Ui) : Prop where
  cfg : KnownCfg t.cfg
  settings : ∀ menu sub tempCfg, t.screen = .settings menu sub tempCfg → KnownCfg tempCfg

variable {env : Env} {t : Ui} {m : Main}

/-- Nothing but the settings has a configuration of its own. -/
theorem Ui.Known.of_screen {t' : Ui} (h : t.Known) (hcfg : t'.cfg = t.cfg)
    (hscreen : ∀ menu sub tempCfg, t'.screen ≠ .settings menu sub tempCfg) : t'.Known :=
  ⟨hcfg ▸ h.cfg, fun menu sub tempCfg hs ↦ absurd hs (hscreen menu sub tempCfg)⟩

theorem Ui.Known.of_eq {t' : Ui} (h : t.Known) (hcfg : t'.cfg = t.cfg)
    (hscreen : t'.screen = t.screen) : t'.Known :=
  ⟨hcfg ▸ h.cfg, fun menu sub tempCfg hs ↦ h.settings menu sub tempCfg (hscreen ▸ hs)⟩

theorem openMenu_known {entries : List (Entry Callback)} {show_ : Menu Callback → Screen}
    (h : t.Known)
    (hshow : ∀ sub menu sub' tempCfg, show_ sub = .settings menu sub' tempCfg → KnownCfg tempCfg) :
    (openMenu entries show_ t).Known := by
  rw [openMenu]
  split
  · exact ⟨h.cfg, hshow _⟩
  · exact h

theorem toolboxCallback_known {inp : Input} {cb : Callback} {menu : Menu Callback} (h : t.Known) :
    (toolboxCallback env inp cb menu t).Known := by
  have hconfirm : ∀ cb', (confirmMenu cb' menu t).Known := by
    intro cb'
    exact openMenu_known h fun _ _ _ _ hs ↦ by cases hs
  have hupdate : ∀ sizeMax cb', (updateCb sizeMax cb' menu inp t).Known := by
    intro sizeMax cb'
    rw [updateCb]
    split
    · exact h
    · simp only
      split
      · exact h
      · exact hconfirm _
  cases cb with
  | infoCb =>
    rw [toolboxCallback, infoCb]
    split
    · exact h.of_eq rfl rfl
    · exact openMenu_known (h.of_eq rfl rfl) fun _ _ _ _ hs ↦ by cases hs
  | iplSettingsCb =>
    rw [toolboxCallback, iplSettingsCb]
    refine openMenu_known h fun sub menu' sub' tempCfg hs ↦ ?_
    obtain ⟨-, -, rfl⟩ := Screen.settings.inj hs
    exact h.cfg
  | resetCb | fwRollbackCb => exact hconfirm _
  | fwUpdateCb | iplUpdateCb | blUpdateCb => exact hupdate _ _
  | _ => exact h

theorem boxCallback_known {cb : Callback} {menu sub : Menu Callback} (h : t.Known) :
    (boxCallback env cb menu sub t).Known := by
  have hsent : ∀ disk, (commandSent menu sub { t with disk := disk }).Known := by
    intro disk
    exact h.of_screen rfl fun _ _ _ hs ↦ by cases hs
  have hsend : ∀ cmd, (sendCommand cmd menu sub t).Known := by
    intro cmd
    rw [sendCommand]
    split
    · exact h.of_eq rfl rfl
    · exact hsent _
  cases cb with
  | reset | rollback => exact hsend _
  | updateFw | updateBl | updateIpl => exact hsent _
  | _ => exact h

theorem settingsCallback_known {cb : Callback} {menu sub : Menu Callback} {tempCfg : Cfg}
    (h : t.Known) (htemp : KnownCfg tempCfg) :
    (settingsCallback env cb menu sub tempCfg t).Known := by
  have hshow : ∀ c, KnownCfg c → Ui.Known { t with screen := .settings menu sub c } := by
    intro c hc
    refine ⟨h.cfg, fun menu' sub' tempCfg' hs ↦ ?_⟩
    obtain ⟨-, -, rfl⟩ := Screen.settings.inj hs
    exact hc
  cases cb with
  | defaultVolCb => exact hshow _ ⟨(defaultVolCb_known htemp.1).1, htemp.2⟩
  | defaultActionCb => exact hshow _ ⟨htemp.1, (defaultActionCb_known htemp.2).1⟩
  | ofwBtnCb => exact hshow _ htemp
  | saveSettingsCb =>
    rw [settingsCallback, saveSettingsCb]
    split
    · exact ⟨htemp, h.settings⟩
    · exact h.of_eq rfl rfl
  | _ => exact h

theorem Ui.Known.step (h : t.Known) (inp : Input) : (step env t inp).Known := by
  rw [Toolbox.step]
  split
  · split
    · exact openMenu_known h fun _ _ _ _ hs ↦ by cases hs
    · exact h
  · split
    · -- Another entry is selected.
      next menu _ _ _ =>
      refine ⟨h.cfg, fun menu' sub' tempCfg hs ↦ ?_⟩
      cases hscreen : t.screen with
      | settings menu₀ sub₀ tempCfg₀ =>
        rw [hscreen] at hs
        obtain ⟨-, -, rfl⟩ := Screen.settings.inj hs
        exact h.settings _ _ _ hscreen
      | _ =>
        rw [hscreen] at hs
        cases hs
    · refine h.of_screen rfl fun menu' sub' tempCfg hs ↦ ?_
      cases hscreen : t.screen <;> rw [hscreen] at hs <;> cases hs
    · next cb _ =>
      rw [callback]
      cases hscreen : t.screen with
      | closed => exact h
      | toolbox menu => exact toolboxCallback_known h
      | box menu sub => exact boxCallback_known h
      | settings menu sub tempCfg =>
        exact settingsCallback_known h (h.settings menu sub tempCfg hscreen)
    · exact h
    · exact h

theorem mainCallback_known {main sub : Menu MainCallback} {t : Turn} (cb : MainCallback)
    (h : m.ui.Known) : (mainCallback main sub t cb m).ui.Known := by
  cases cb with
  | toolboxCb =>
    have hopen : (openMenu (toolboxEntries m.ui.commandPending) .toolbox m.ui).Known :=
      openMenu_known h fun _ _ _ _ hs ↦ by cases hs
    exact hopen
  | umsCb => exact h.of_eq rfl rfl
  | retryCb =>
    rw [mainCallback]
    split
    · exact h
    · exact h.of_eq rfl rfl
  | _ => exact h

/-- **Every turn keeps the configuration known.** -/
theorem known_step (m : Main) (t : Turn) (h : m.ui.Known) : (m.step t).ui.Known := by
  by_cases hplace : ∃ main sub, m.place = .toolbox main sub
  · obtain ⟨main, sub, hplace⟩ := hplace
    rcases step_inside t hplace with heq | heq
    · exact heq ▸ h.step t.inp
    · exact heq ▸ h
  · rcases step_outside t fun main sub hp ↦ hplace ⟨main, sub, hp⟩ with ⟨main, sub, cb, heq⟩ | heq
    · exact heq ▸ mainCallback_known cb h
    · exact heq ▸ h

/-! ## The law -/

/-- What holds as a turn is taken: the configuration is known, what is looked up is there, and a
press on a setting changes it. -/
structure CfgLaw (m : Main) (t : Turn) : Prop where
  known : m.ui.Known
  lookups : ∀ w, ∀ l ∈ m.lookups t.inp.btn w, l.InBounds
  leaves : ∀ menu sub tempCfg, m.ui.screen = .settings menu sub tempCfg →
    (defaultVolCb tempCfg).defaultPayloadVol ≠ tempCfg.defaultPayloadVol ∧
      (defaultActionCb tempCfg).defaultAction ≠ tempCfg.defaultAction

theorem Ui.Known.lookups (h : t.Known) (btn : UInt8) : ∀ l ∈ t.lookups btn, l.InBounds := by
  intro l hl
  rw [Ui.lookups] at hl
  split at hl
  · exact settingsUpdate_inBounds h.cfg l hl
  · next hscreen _ =>
    rw [List.mem_singleton.mp hl]
    exact Nat.lt_succ_of_le (defaultVolCb_known (h.settings _ _ _ hscreen).1).1
  · next hscreen _ =>
    rw [List.mem_singleton.mp hl]
    exact Nat.lt_succ_of_le (defaultActionCb_known (h.settings _ _ _ hscreen).2).1
  · cases hl

theorem Ui.Known.cfgLaw (h : m.ui.Known) (t : Turn) : CfgLaw m t := by
  refine ⟨h, fun w l hl ↦ ?_, fun menu sub tempCfg hscreen ↦ ?_⟩
  · rw [Main.lookups] at hl
    split at hl
    · exact h.lookups _ l hl
    · split at hl
      · exact loadPayload_inBounds h.cfg w l hl
      · cases hl
  · obtain ⟨hvol, haction⟩ := h.settings menu sub tempCfg hscreen
    exact ⟨(defaultVolCb_known hvol).2, (defaultActionCb_known haction).2⟩

theorem bootLookups_inBounds {c : Cfg} (h : KnownCfg c) (btn : UInt8) (w : Drives) :
    ∀ l ∈ bootLookups c btn w, l.InBounds := by
  intro l hl
  rw [bootLookups] at hl
  split at hl
  · cases hl
  · split at hl
    · cases hl
    · split at hl
      · exact loadPayload_inBounds h w l hl
      · cases hl

/-- The configuration the program has come up with, in every run: as it boots, and on every turn of
its menus. -/
def CfgInOrder (cfg : Cfg) : Prop :=
  (∀ btn w, ∀ l ∈ bootLookups cfg btn w, l.InBounds) ∧
    ∀ (m : Main) (ts : List Turn), m.Booted → m.ui.cfg = cfg → Machine.Along Main.step CfgLaw m ts

/-- The program as it shows its menu for the first time. -/
def shown (s : State) (cfg : Cfg) : Main :=
  ⟨false, .menu ⟨menuEntries, 0⟩, ⟨s, false, cfg, .closed⟩⟩

theorem cfgInOrder_iff (s : State) (cfg : Cfg) : CfgInOrder cfg ↔ KnownCfg cfg := by
  constructor
  · rintro ⟨-, hrun⟩
    have hbooted : (shown s cfg).Booted := ⟨⟨rfl, rfl⟩, ⟨menuEntries, 0⟩, rfl, rfl⟩
    exact (hrun (shown s cfg) [turn 0] hbooted rfl).1.known.cfg
  · intro h
    refine ⟨bootLookups_inBounds h, fun m ts hboot hcfg ↦ ?_⟩
    have hknown : m.ui.Known := by
      refine ⟨hcfg ▸ h, fun menu sub tempCfg hscreen ↦ ?_⟩
      cases hboot.1.2.symm.trans hscreen
    exact Machine.along_of_inv (fun m t hm (_ : True) ↦ known_step m t hm)
      (fun m t hm _ ↦ hm.cfgLaw t) hknown (Machine.along_true m ts)

/-- **Validity of the configuration, exactly where it holds**: in every run, if the configuration on
BOOT0 cannot be read, has other magic numbers, or is a known one. -/
theorem cfgLaw_iff (env : Env) (s : State) :
    CfgInOrder (getCfg env s) ↔ ((env s.tick).ok = true →
      modchipIsCfgValid (cfgOnMedium s.boot0) = true → KnownCfg (cfgOnMedium s.boot0)) :=
  (cfgInOrder_iff s _).trans (getCfg_known_iff env s)

/-- BOOT0 with a valid configuration whose volume is number seven. -/
def unknownVol (x : ℕ) : UInt8 :=
  Cfg.bytes ⟨magic, magic, 7, 0, false, false, fun _ ↦ 0⟩ (x - (cfgSectorStart + cfgOffset))

theorem cfgLaw_counterexample : ¬CfgInOrder (getCfg okEnv (.start (fun _ ↦ 0) unknownVol)) := by
  rw [cfgInOrder_iff (.start (fun _ ↦ 0) unknownVol), getCfg_known_iff]
  intro h
  have hknown := h rfl (by decide)
  revert hknown
  decide

end Toolbox
end SdLoader
