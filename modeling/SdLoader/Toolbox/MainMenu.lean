import SdLoader.Toolbox.Staged

/-!
# One command until the reboot

`do_menu` of `sdloader/main.c`, around the toolbox.  The toolbox is an entry of the menu `More`, and
can be left and opened again any number of times; its `command_pending` is a static variable, so it
outlives the menus, and nothing outside the toolbox knows of it.

`Main` is the program from the moment it shows its menu, and a `Turn` is one turn of whatever menu
reads the buttons.  The callbacks of the other entries come with the turn that calls them: mass
storage and a payload that cannot be launched may leave anything in memory and in BOOT0, and the
rest do not come back.

* `calls` — the callbacks of the toolbox a run calls, in order;
* `command_at_most_once` — once a command is pending, none of those that send one is called, however
  the run goes on.
-/

set_option autoImplicit false

namespace SdLoader
namespace Toolbox

open Tui Modchip

/-! ## The menu -/

/-- The callbacks of `do_menu`. -/
inductive MainCallback
  | powerOffCb
  | ofwCb
  | rcmCb
  | umsCb
  | retryCb
  | toolboxCb

/-- `menu_entries` of `do_menu` -/
def menuEntries : List (Entry MainCallback) :=
  [.actionNoBlank .powerOffCb false, .actionNoBlank .ofwCb false, ⟨.menu, false, none⟩]

/-- `menu_more` of `do_menu`: the first entry is there on a T210 only. -/
def menuMore (t210 : Bool) : List (Entry MainCallback) :=
  (if t210 then [.actionNoBlank .rcmCb false] else []) ++
    [.actionNoBlank .umsCb false, .actionNoBlank .retryCb false, .actionNoBlank .toolboxCb false,
     .back]

/-- Which menu reads the buttons. -/
inductive Place
  /-- The menu `do_menu` starts. -/
  | menu (main : Menu MainCallback)
  /-- Its submenu. -/
  | more (main sub : Menu MainCallback)
  /-- One of the toolbox's. -/
  | toolbox (main sub : Menu MainCallback)
  /-- None any more: the console is off, reboots, or runs a payload. -/
  | left

/-- The program while it shows its menu. -/
structure Main where
  /-- `is_t210()` -/
  t210 : Bool
  /-- The menu that reads the buttons. -/
  place : Place
  /-- What the toolbox works on. -/
  ui : Ui

/-- What the world answers with on one turn. -/
structure Turn where
  /-- The outcome of the disk operations. -/
  env : Env
  /-- The buttons, and the file that is found. -/
  inp : Input
  /-- Has `menu.timeout_ms` passed? -/
  timeout : Bool
  /-- What a callback outside the toolbox leaves in memory and BOOT0. -/
  disk : State
  /-- Does a payload get launched? -/
  launched : Bool

/-- The callbacks of `menu_more` and `menu_entries`. -/
def mainCallback (main sub : Menu MainCallback) (t : Turn) (cb : MainCallback) (m : Main) : Main :=
  match cb with
  | .powerOffCb | .ofwCb | .rcmCb => { m with place := .left }
  | .umsCb => { m with ui.disk := t.disk }
  | .retryCb => if t.launched then { m with place := .left } else { m with ui.disk := t.disk }
  | .toolboxCb =>
    { m with
      place := .toolbox main sub
      ui := openMenu (toolboxEntries m.ui.commandPending) .toolbox m.ui }

/-- One turn of the menu that `do_menu` starts. -/
def menuTurn (main : Menu MainCallback) (t : Turn) (m : Main) : Main :=
  if t.inp.btn = 0 ∧ t.timeout then { m with place := .left }
  else
    match main.onButton t.inp.btn with
    | .stay main => { m with place := .menu main }
    | .back => { m with place := .left }
    | .call (some cb) => mainCallback main main t cb m
    | .call none => m
    | .enter _ =>
      match Menu.start (menuMore m.t210) with
      | some sub => { m with place := .more main sub }
      | none => m

/-- One turn of its submenu. -/
def moreTurn (main sub : Menu MainCallback) (t : Turn) (m : Main) : Main :=
  match sub.onButton t.inp.btn with
  | .stay sub => { m with place := .more main sub }
  | .back => { m with place := .menu main }
  | .call (some cb) => mainCallback main sub t cb m
  | .call none => m
  | .enter _ => m

/-- One turn of a menu of the toolbox. -/
def toolboxTurn (main sub : Menu MainCallback) (t : Turn) (m : Main) : Main :=
  match m.ui.screen with
  | .closed => { m with place := .more main sub }
  | _ => { m with ui := step t.env m.ui t.inp }

/-- One turn. -/
def Main.step (m : Main) (t : Turn) : Main :=
  match m.place with
  | .menu main => menuTurn main t m
  | .more main sub => moreTurn main sub t m
  | .toolbox main sub => toolboxTurn main sub t m
  | .left => m

/-- The program as `do_menu` begins. -/
def Main.Booted (m : Main) : Prop :=
  Toolbox.Booted m.ui ∧ ∃ main, Menu.start menuEntries = some main ∧ m.place = .menu main

/-- The callback of the toolbox the buttons `btn` call, if any. -/
def Main.called (m : Main) (btn : UInt8) : Option Callback :=
  match m.place with
  | .toolbox _ _ => m.ui.called btn
  | _ => none

/-- The callbacks of the toolbox a run calls, in order. -/
def Main.calls : Main → List Turn → List Callback
  | _, [] => []
  | m, t :: ts => (m.called t.inp.btn).toList ++ (m.step t).calls ts

/-- The functions that send the modchip a command or write an image. -/
def SendsCommand : Callback → Prop
  | .reset | .rollback | .updateFw _ | .updateBl _ | .updateIpl _ => True
  | _ => False

/-! ## What a turn keeps -/

variable {m : Main}

/-- The menus of the toolbox are the ones that were built, and a command is pending. -/
structure Pending (m : Main) : Prop where
  /-- The menus. -/
  wellFormed : WellFormed m.ui
  /-- `command_pending` -/
  pending : m.ui.commandPending = true

/-- Opening the toolbox builds its menu for the `command_pending` there is. -/
theorem open_wellFormed (h : WellFormed m.ui) :
    WellFormed (openMenu (toolboxEntries m.ui.commandPending) .toolbox m.ui) :=
  openMenu_wellFormed h fun _ hm ↦ hm

theorem mainCallback_wellFormed {main sub : Menu MainCallback} {t : Turn} (cb : MainCallback)
    (h : WellFormed m.ui) : WellFormed (mainCallback main sub t cb m).ui := by
  cases cb with
  | toolboxCb => exact open_wellFormed h
  | retryCb =>
    rw [mainCallback]
    split <;> exact h
  | _ => exact h

theorem mainCallback_pending {main sub : Menu MainCallback} {t : Turn} (cb : MainCallback) :
    (mainCallback main sub t cb m).ui.commandPending = m.ui.commandPending := by
  cases cb with
  | toolboxCb => exact (openMenu_disk _ _ m.ui).2.1
  | retryCb =>
    rw [mainCallback]
    split <;> rfl
  | _ => rfl

/-- A turn of the menus outside the toolbox calls one of their callbacks, or leaves everything the
toolbox works on as it is. -/
theorem step_outside (t : Turn) (h : ∀ main sub, m.place ≠ .toolbox main sub) :
    (∃ main sub cb, m.step t = mainCallback main sub t cb m) ∨ (m.step t).ui = m.ui := by
  rw [Main.step]
  cases hplace : m.place with
  | left => exact .inr rfl
  | toolbox main sub => exact absurd hplace (h main sub)
  | menu main =>
    dsimp only
    rw [menuTurn]
    split
    · exact .inr rfl
    · rcases main.onButton t.inp.btn with main' | _ | (_ | cb) | _ <;> dsimp only
      · exact .inr rfl
      · split <;> exact .inr rfl
      · exact .inr rfl
      · exact .inl ⟨main, main, cb, rfl⟩
      · exact .inr rfl
  | more main sub =>
    dsimp only
    rw [moreTurn]
    rcases sub.onButton t.inp.btn with sub' | _ | (_ | cb) | _
    · exact .inr rfl
    · exact .inr rfl
    · exact .inr rfl
    · exact .inl ⟨main, sub, cb, rfl⟩
    · exact .inr rfl

/-- A turn in the toolbox is one of its button presses, or nothing. -/
theorem step_inside {main sub : Menu MainCallback} (t : Turn) (h : m.place = .toolbox main sub) :
    (m.step t).ui = step t.env m.ui t.inp ∨ (m.step t).ui = m.ui := by
  rw [Main.step, h]
  dsimp only
  rw [toolboxTurn]
  split
  · exact .inr rfl
  · exact .inl rfl

/-- **Every turn keeps the menus of the toolbox well formed.** -/
theorem main_wellFormed_step (m : Main) (t : Turn) (h : WellFormed m.ui) :
    WellFormed (m.step t).ui := by
  by_cases hplace : ∃ main sub, m.place = .toolbox main sub
  · obtain ⟨main, sub, hplace⟩ := hplace
    rcases step_inside t hplace with heq | heq
    · exact heq ▸ wellFormed_step t.env m.ui t.inp h
    · exact heq ▸ h
  · rcases step_outside t fun main sub hp ↦ hplace ⟨main, sub, hp⟩ with ⟨main, sub, cb, heq⟩ | heq
    · exact heq ▸ mainCallback_wellFormed cb h
    · exact heq ▸ h

/-- **A command that is pending stays pending.** -/
theorem Pending.step (h : Pending m) (t : Turn) : Pending (m.step t) := by
  refine ⟨main_wellFormed_step m t h.wellFormed, ?_⟩
  by_cases hplace : ∃ main sub, m.place = .toolbox main sub
  · obtain ⟨main, sub, hplace⟩ := hplace
    rcases step_inside t hplace with heq | heq
    · exact heq ▸ (pending_step t.env t.inp h.wellFormed h.pending).1
    · exact heq ▸ h.pending
  · rcases step_outside t fun main sub hp ↦ hplace ⟨main, sub, hp⟩ with ⟨main, sub, cb, heq⟩ | heq
    · rw [heq, mainCallback_pending]
      exact h.pending
    · exact heq ▸ h.pending

/-- With a command pending, no turn calls a function that sends one. -/
theorem Pending.not_sendsCommand (h : Pending m) {btn : UInt8} {cb : Callback}
    (hcalled : m.called btn = some cb) : ¬ SendsCommand cb := by
  rw [Main.called] at hcalled
  split at hcalled
  · have hpress : m.ui.called (Input.mk btn none).btn = some cb := hcalled
    rcases called_cases h.wellFormed hpress with ⟨menu, -, hcb⟩ | ⟨menu, sub, -, -, -, hfalse, -⟩ |
      ⟨menu, sub, tempCfg, -, hcb⟩
    · rcases hcb with rfl | rfl | ⟨hfalse, -⟩
      · exact id
      · exact id
      · rw [h.pending] at hfalse
        exact absurd hfalse (by decide)
    · rw [h.pending] at hfalse
      exact absurd hfalse (by decide)
    · cases cb <;> first | exact id | exact absurd hcb id
  · cases hcalled

theorem Pending.calls (h : Pending m) {ts : List Turn} :
    ∀ cb ∈ m.calls ts, ¬ SendsCommand cb := by
  induction ts generalizing m with
  | nil => exact fun cb hcb ↦ absurd hcb List.not_mem_nil
  | cons t ts ih =>
    intro cb hcb
    rcases List.mem_append.mp hcb with hcb | hcb
    · exact h.not_sendsCommand (Option.mem_toList.mp hcb)
    · exact ih (h.step t) cb hcb

/-- **At most one command until the reboot.**  From the first turn after which a command is pending,
it stays pending, and no function that sends one is called again. -/
theorem command_at_most_once (hboot : m.Booted) (before : List Turn)
    (hpend : (Machine.run Main.step m before).ui.commandPending = true) (after : List Turn) :
    (Machine.run Main.step m (before ++ after)).ui.commandPending = true ∧
      ∀ cb ∈ (Machine.run Main.step m before).calls after, ¬ SendsCommand cb := by
  have hwf : WellFormed m.ui := by
    rw [WellFormed, hboot.1.2]
    trivial
  have hreach : WellFormed (Machine.run Main.step m before).ui :=
    Machine.run_inv (I := fun m : Main ↦ WellFormed m.ui) main_wellFormed_step hwf before
  have hpending : Pending (Machine.run Main.step m before) := ⟨hreach, hpend⟩
  refine ⟨?_, hpending.calls⟩
  rw [Machine.run_append]
  exact (Machine.run_inv (I := Pending) (fun m t h ↦ h.step t) hpending after).pending

/-! ## A rollback -/

/-- One press of a button, on a device that does everything it is told. -/
def turn (btn : UInt8) : Turn := ⟨okEnv, press btn, false, .start (fun _ ↦ 0) (fun _ ↦ 0), false⟩

/-- The program as it shows its menu. -/
def menuShown : Main := ⟨false, .menu ⟨menuEntries, 0⟩, comeUp⟩

/-- Open the toolbox, go down to the rollback, and confirm it. -/
def sendRollback : List Turn :=
  ([btnVolDown, btnVolDown, btnPower, btnVolDown, btnVolDown, btnPower, btnVolDown, btnVolDown,
    btnVolDown, btnPower, btnPower] : List UInt8).map turn

/-- Confirm it again, leave both menus, and try the same in a toolbox that is opened anew. -/
def sendAgain : List Turn :=
  ([btnPower, btnVolDown, btnPower, btnVolDown, btnVolDown, btnPower, btnPower, btnVolDown,
    btnVolDown, btnVolDown, btnPower, btnPower] : List UInt8).map turn

theorem command_at_most_once_rollback :
    (Machine.run Main.step menuShown (sendRollback ++ sendAgain)).ui.commandPending = true ∧
      ∀ cb ∈ (Machine.run Main.step menuShown sendRollback).calls sendAgain, ¬ SendsCommand cb :=
  command_at_most_once ⟨⟨rfl, rfl⟩, ⟨menuEntries, 0⟩, rfl, rfl⟩ sendRollback rfl sendAgain

end Toolbox
end SdLoader
