import SdLoader.Lib.Machine
import SdLoader.Modchip.Defs
import SdLoader.Toolbox.Tui

/-!
# The modchip toolbox

`sdloader/modchip_toolbox.c`.  The toolbox is a menu whose entries open a second menu beside it: an
information box, the settings, or a box that asks to confirm a command.  A command that is sent
sets `command_pending` and disables the entries that would send another one, in the toolbox that is
open and, through `command_pending`, in every toolbox opened later.

`step` is one button press.  What is on the screen is a `Screen`, which holds exactly the menus
that are on the C stack at that point, with the data that lives there: the settings that have not
been saved, and, in the callbacks of a confirm box, the file that was opened for it.

* `toolboxEntries`, `confirmEntries`, `settingsEntries`, `infoEntries` — the menus as they are
  built;
* `toolboxCallback`, `boxCallback`, `settingsCallback` — what the entries of each do.
-/

set_option autoImplicit false

namespace SdLoader
namespace Toolbox

open Tui Modchip

/-- The callbacks of the toolbox and of the menus it opens, with the data bound to them. -/
inductive Callback
  | infoCb
  | resetCb
  | fwUpdateCb
  | fwRollbackCb
  | iplUpdateCb
  | iplSettingsCb
  | blUpdateCb
  | reset
  | rollback
  | updateFw (f : Fil)
  | updateBl (f : Fil)
  | updateIpl (f : Fil)
  | defaultVolCb
  | defaultActionCb
  | ofwBtnCb
  | saveSettingsCb

/-! ## The menus -/

/-- `menu_entries` of `toolbox` -/
def toolboxEntries (commandPending : Bool) : List (Entry Callback) :=
  [.actionModifyingNoBlank .infoCb false,
   .actionModifyingNoBlank .resetCb commandPending,
   .actionModifyingNoBlank .fwUpdateCb commandPending,
   .actionModifyingNoBlank .fwRollbackCb commandPending,
   .actionModifyingNoBlank .iplUpdateCb commandPending,
   .actionModifyingNoBlank .iplSettingsCb false,
   .actionModifyingNoBlank .blUpdateCb commandPending,
   .back]

/-- `menu_entries` of `confirm_menu`, as long as `Confirm` is not disabled. -/
def confirmEntries (cb : Callback) (disabled : Bool) : List (Entry Callback) :=
  [.actionModifyingNoBlank cb disabled, .text, .back]

/-- `menu_entries` of `info_cb` -/
def infoEntries : List (Entry Callback) :=
  [.textDisabled, .textDisabled, .textDisabled, .textDisabled, .textDisabled, .text, .back]

/-- `menu_entries` of `ipl_settings_cb` -/
def settingsEntries : List (Entry Callback) :=
  [.actionModifyingNoBlank .defaultVolCb false,
   .actionModifyingNoBlank .defaultActionCb false,
   .actionModifyingNoBlank .ofwBtnCb false,
   .text,
   .actionNoBlank .saveSettingsCb false,
   .text,
   .back]

/-- `disable_all_cmds` -/
def disableAllCmds (menu : Menu Callback) : Menu Callback := menu.disable [1, 2, 3, 4, 6]

/-! ## The state -/

/-- What is on the screen.  `menu` is the toolbox itself throughout. -/
inductive Screen
  /-- The menu the toolbox is opened from. -/
  | closed
  /-- The toolbox. -/
  | toolbox (menu : Menu Callback)
  /-- The information box or a confirm box. -/
  | box (menu sub : Menu Callback)
  /-- The settings, with `temp_cfg`. -/
  | settings (menu sub : Menu Callback) (tempCfg : Cfg)

/-- The state of the program while the toolbox is in use. -/
structure Ui where
  /-- Memory and BOOT0. -/
  disk : State
  /-- `command_pending` -/
  commandPending : Bool
  /-- `sdloader_cfg` -/
  cfg : Cfg
  /-- The screen. -/
  screen : Screen

/-- What the world answers with on one turn of a menu loop: the buttons, and the file
`open_file_on_any` finds if the turn opens one, as its size and its bytes. -/
structure Input where
  /-- The result of `btn_wait_timeout_single1`. -/
  btn : UInt8
  /-- The file. -/
  file : Option (ℕ × (ℕ → UInt8))

/-- Open a menu, if there is anything in it to select. -/
def openMenu (entries : List (Entry Callback)) (show_ : Menu Callback → Screen) (t : Ui) :
    Ui :=
  match Menu.start entries with
  | some sub => { t with screen := show_ sub }
  | none => t

/-- The menu that reads the buttons. -/
def Screen.front : Screen → Option (Menu Callback)
  | .closed => none
  | .toolbox menu => some menu
  | .box _ sub => some sub
  | .settings _ sub _ => some sub

/-- The screen with another state of the menu that reads the buttons. -/
def Screen.withFront (m : Menu Callback) : Screen → Screen
  | .closed => .closed
  | .toolbox _ => .toolbox m
  | .box menu _ => .box menu m
  | .settings menu _ tempCfg => .settings menu m tempCfg

/-- The screen after `Back`. -/
def Screen.back : Screen → Screen
  | .closed => .closed
  | .toolbox _ => .closed
  | .box menu _ => .toolbox menu
  | .settings menu _ _ => .toolbox menu

/-! ## The callbacks of the toolbox -/

variable (env : Env)

/-- `info_cb`.  What the box shows does not matter here. -/
def infoCb (menu : Menu Callback) (t : Ui) : Ui :=
  let desc : Desc := ⟨0, 0, 0, 0, 0, 0⟩
  match modchipReadDesc env desc t.disk with
  | (false, _, disk) => { t with disk := disk }
  | (true, _, disk) => openMenu infoEntries (.box menu) { t with disk := disk }

/-- `confirm_menu` -/
def confirmMenu (cb : Callback) (menu : Menu Callback) (t : Ui) : Ui :=
  openMenu (confirmEntries cb false) (.box menu) t

/-- `update_cb` -/
def updateCb (sizeMax : ℕ) (cb : Fil → Callback) (menu : Menu Callback) (inp : Input)
    (t : Ui) : Ui :=
  match inp.file with
  | none => t
  | some (size, content) =>
    let f := Fil.opened size content
    if f.fSize > sizeMax then t else confirmMenu (cb f) menu t

/-- `ipl_settings_cb` -/
def iplSettingsCb (menu : Menu Callback) (t : Ui) : Ui :=
  openMenu settingsEntries (.settings menu · t.cfg) t

/-- The callbacks of the toolbox's own entries. -/
def toolboxCallback (inp : Input) (cb : Callback) (menu : Menu Callback) (t : Ui) : Ui :=
  match cb with
  | .infoCb => infoCb env menu t
  | .resetCb => confirmMenu .reset menu t
  | .fwUpdateCb => updateCb fwMaxSize .updateFw menu inp t
  | .fwRollbackCb => confirmMenu .rollback menu t
  | .iplUpdateCb => updateCb blMaxSize .updateIpl menu inp t
  | .iplSettingsCb => iplSettingsCb menu t
  | .blUpdateCb => updateCb rpBlMaxSize .updateBl menu inp t
  | _ => t

/-! ## The callbacks of a confirm box -/

/-- What `reset` and `rollback` end with, and the updates whether they succeed or not: from now on a
command is pending. -/
def commandSent (menu sub : Menu Callback) (t : Ui) : Ui :=
  { t with
    commandPending := true
    screen := .box (disableAllCmds menu) (sub.disable [sub.selected]) }

/-- The body `reset` and `rollback` share: a command that could not be sent changes nothing. -/
def sendCommand (cmd : State → Bool × State) (menu sub : Menu Callback) (t : Ui) : Ui :=
  match cmd t.disk with
  | (false, disk) => { t with disk := disk }
  | (true, disk) => commandSent menu sub { t with disk := disk }

/-- `reset` -/
def reset : Menu Callback → Menu Callback → Ui → Ui := sendCommand (modchipWriteRstCmd env)

/-- `rollback` -/
def rollback : Menu Callback → Menu Callback → Ui → Ui :=
  sendCommand (modchipWriteRollbackCmd env)

/-- The body the three updates share: the result only decides what is printed. -/
def applyUpdate (update : State → Bool × State) (menu sub : Menu Callback) (t : Ui) : Ui :=
  commandSent menu sub { t with disk := (update t.disk).2 }

/-- `update_fw` -/
def updateFw (f : Fil) : Menu Callback → Menu Callback → Ui → Ui :=
  applyUpdate (modchipWriteFwUpdateFromFile env f)

/-- `update_bl` -/
def updateBl (f : Fil) : Menu Callback → Menu Callback → Ui → Ui :=
  applyUpdate (modchipWriteBlUpdateFromFile env f)

/-- `update_ipl` -/
def updateIpl (f : Fil) : Menu Callback → Menu Callback → Ui → Ui :=
  applyUpdate (modchipWriteIplUpdateFromFile env f)

/-- The callbacks of a confirm box. -/
def boxCallback (cb : Callback) (menu sub : Menu Callback) (t : Ui) : Ui :=
  match cb with
  | .reset => reset env menu sub t
  | .rollback => rollback env menu sub t
  | .updateFw f => updateFw env f menu sub t
  | .updateBl f => updateBl env f menu sub t
  | .updateIpl f => updateIpl env f menu sub t
  | _ => t

/-! ## The callbacks of the settings -/

/-- `default_vol_cb`: `AUTO`, `SD`, `BOOT1_1MB`, `BOOT1`, `GPP` and round again. -/
def defaultVolCb (cfg : Cfg) : Cfg :=
  { cfg with defaultPayloadVol :=
      match cfg.defaultPayloadVol with
      | 0 => 1
      | 1 => 2
      | 2 => 3
      | 3 => 4
      | 4 => 0
      | n => n }

/-- `default_action_cb`: `PAYLOAD`, `OFW`, `MENU` and round again. -/
def defaultActionCb (cfg : Cfg) : Cfg :=
  { cfg with defaultAction :=
      match cfg.defaultAction with
      | 0 => 1
      | 1 => 2
      | 2 => 0
      | n => n }

/-- `ofw_btn_cb` -/
def ofwBtnCb (cfg : Cfg) : Cfg := { cfg with disableOfwBtnCombo := !cfg.disableOfwBtnCombo }

/-- `save_settings_cb` -/
def saveSettingsCb (tempCfg : Cfg) (t : Ui) : Ui :=
  match modchipSetCfg env tempCfg t.disk with
  | (true, disk) => { t with disk := disk, cfg := tempCfg }
  | (false, disk) => { t with disk := disk }

/-- The callbacks of the settings. -/
def settingsCallback (cb : Callback) (menu sub : Menu Callback) (tempCfg : Cfg) (t : Ui) :
    Ui :=
  match cb with
  | .defaultVolCb => { t with screen := .settings menu sub (defaultVolCb tempCfg) }
  | .defaultActionCb => { t with screen := .settings menu sub (defaultActionCb tempCfg) }
  | .ofwBtnCb => { t with screen := .settings menu sub (ofwBtnCb tempCfg) }
  | .saveSettingsCb => saveSettingsCb env tempCfg t
  | _ => t

/-! ## One turn -/

/-- Run a callback of the menu that reads the buttons. -/
def callback (inp : Input) (cb : Callback) (t : Ui) : Ui :=
  match t.screen with
  | .closed => t
  | .toolbox menu => toolboxCallback env inp cb menu t
  | .box menu sub => boxCallback env cb menu sub t
  | .settings menu sub tempCfg => settingsCallback env cb menu sub tempCfg t

/-- One turn of the menu loop that reads the buttons.  From the menu outside, `BTN_POWER` opens the
toolbox again. -/
def step (t : Ui) (inp : Input) : Ui :=
  match t.screen.front with
  | none =>
    if inp.btn &&& btnPower ≠ 0 then openMenu (toolboxEntries t.commandPending) .toolbox t else t
  | some m =>
    match m.onButton inp.btn with
    | .stay m => { t with screen := t.screen.withFront m }
    | .back => { t with screen := t.screen.back }
    | .call (some cb) => callback env inp cb t
    | .call none => t
    | .enter _ => t

/-- The state the program comes up in. -/
def Booted (t : Ui) : Prop := t.commandPending = false ∧ t.screen = .closed

/-- The callback the buttons `btn` run, if any. -/
def Ui.called (t : Ui) (btn : UInt8) : Option Callback :=
  match t.screen.front with
  | none => none
  | some m =>
    match m.onButton btn with
    | .call cb => cb
    | _ => none

end Toolbox
end SdLoader
