import SdLoader.Toolbox.Defs

/-!
# The menus on the screen

The flags of the entries and `command_pending` are kept in step by hand: `disable_all_cmds` writes
five flags by index, the callbacks of a confirm box disable their own entry, and `toolbox` reads
`command_pending` when it builds its menu again.  `WellFormed` says that this works: the menus on
the screen are the ones that were built, with `command_pending` for the flag of every entry that
sends a command.

* `wellFormed_step` — every button press keeps it, and so `Reachable.wellFormed`;
* `called_cases` — what a press can run in such a state, which is all later files need to know about
  the menus: once a command is pending, nothing but the information box, the settings and what the
  settings offer.
-/

set_option autoImplicit false

namespace SdLoader
namespace Toolbox

open Tui Modchip

/-- The callbacks a confirm box can ask about.  The file of an update has been opened and has passed
the check of `update_cb`. -/
def IsCommand : Callback → Prop
  | .reset | .rollback => True
  | .updateFw f => f.fptr = 0 ∧ f.fSize ≤ fwMaxSize
  | .updateBl f => f.fptr = 0 ∧ f.fSize ≤ rpBlMaxSize
  | .updateIpl f => f.fptr = 0 ∧ f.fSize ≤ blMaxSize
  | _ => False

/-- The entries of the toolbox that lead to a confirm box. -/
def AsksCommand : Callback → Prop
  | .resetCb | .fwUpdateCb | .fwRollbackCb | .iplUpdateCb | .blUpdateCb => True
  | _ => False

/-- The entries of the settings that lead to a callback. -/
def IsSetting : Callback → Prop
  | .defaultVolCb | .defaultActionCb | .ofwBtnCb | .saveSettingsCb => True
  | _ => False

/-- The menus on the screen are the ones that were built. -/
def WellFormed (t : Ui) : Prop :=
  match t.screen with
  | .closed => True
  | .toolbox menu => menu.entries = toolboxEntries t.commandPending
  | .box menu sub => menu.entries = toolboxEntries t.commandPending ∧
      (sub.entries = infoEntries ∨
        ∃ cb, IsCommand cb ∧ sub.entries = confirmEntries cb t.commandPending)
  | .settings menu sub _ => menu.entries = toolboxEntries t.commandPending ∧
      sub.entries = settingsEntries

variable {env : Env} {t : Ui} {inp : Input}

/-! ## The callbacks of the entries -/

theorem toolboxEntries_called {p : Bool} {e : Entry Callback} {i : ℕ} {cb : Callback}
    (h : (toolboxEntries p)[i]? = some e) (hdis : e.disabled = false) (hcb : e.cb = some cb) :
    cb = .infoCb ∨ cb = .iplSettingsCb ∨ p = false ∧ AsksCommand cb := by
  have hmem := List.mem_of_getElem? h
  simp only [toolboxEntries, List.mem_cons, List.not_mem_nil, or_false] at hmem
  rcases hmem with rfl | rfl | rfl | rfl | rfl | rfl | rfl | rfl <;> cases hcb <;>
    simp_all [Entry.actionModifyingNoBlank, AsksCommand]

theorem confirmEntries_called {p : Bool} {c cb : Callback} {e : Entry Callback} {i : ℕ}
    (h : (confirmEntries c p)[i]? = some e) (hdis : e.disabled = false) (hcb : e.cb = some cb) :
    i = 0 ∧ p = false ∧ c = cb := by
  rcases i with _ | _ | _ | i <;>
    simp [confirmEntries, Entry.actionModifyingNoBlank, Entry.back, Entry.text] at h <;>
    subst h <;> simp_all

theorem infoEntries_called {e : Entry Callback} {i : ℕ} {cb : Callback}
    (h : infoEntries[i]? = some e) : e.cb ≠ some cb := by
  have hmem := List.mem_of_getElem? h
  simp only [infoEntries, List.mem_cons, List.not_mem_nil, or_false] at hmem
  rcases hmem with rfl | rfl | rfl | rfl | rfl | rfl | rfl <;>
    simp [Entry.textDisabled, Entry.text, Entry.back]

theorem settingsEntries_called {e : Entry Callback} {i : ℕ} {cb : Callback}
    (h : settingsEntries[i]? = some e) (hcb : e.cb = some cb) : IsSetting cb := by
  have hmem := List.mem_of_getElem? h
  simp only [settingsEntries, List.mem_cons, List.not_mem_nil, or_false] at hmem
  rcases hmem with rfl | rfl | rfl | rfl | rfl | rfl | rfl <;> cases hcb <;> exact trivial

/-- **What a press can run.** -/
theorem called_cases {cb : Callback} (hwf : WellFormed t) (h : t.called inp.btn = some cb) :
    (∃ menu, t.screen = .toolbox menu ∧
      (cb = .infoCb ∨ cb = .iplSettingsCb ∨ t.commandPending = false ∧ AsksCommand cb)) ∨
    (∃ menu sub, t.screen = .box menu sub ∧ sub.selected = 0 ∧
      sub.entries = confirmEntries cb false ∧ t.commandPending = false ∧ IsCommand cb) ∨
    ∃ menu sub tempCfg, t.screen = .settings menu sub tempCfg ∧ IsSetting cb := by
  rw [Ui.called] at h
  rw [WellFormed] at hwf
  cases hscreen : t.screen with
  | closed => simp [hscreen, Screen.front] at h
  | toolbox menu =>
    rw [hscreen] at h hwf
    simp only [Screen.front] at h
    rcases hb : menu.onButton inp.btn with m | c | c | _ <;> rw [hb] at h <;> try cases h
    obtain ⟨e, he, hdis, hcb, -, -⟩ := onButton_call hb
    rw [hwf] at he
    exact .inl ⟨menu, rfl, toolboxEntries_called he hdis hcb⟩
  | box menu sub =>
    rw [hscreen] at h hwf
    simp only [Screen.front] at h
    rcases hb : sub.onButton inp.btn with m | c | c | _ <;> rw [hb] at h <;> try cases h
    obtain ⟨e, he, hdis, hcb, -, -⟩ := onButton_call hb
    rcases hwf.2 with hinfo | ⟨c, hc, hconfirm⟩
    · rw [hinfo] at he
      exact absurd hcb (infoEntries_called he)
    · rw [hconfirm] at he
      obtain ⟨hsel, hpend, rfl⟩ := confirmEntries_called he hdis hcb
      exact .inr (.inl ⟨menu, sub, rfl, hsel, hpend ▸ hconfirm, hpend, hc⟩)
  | settings menu sub tempCfg =>
    rw [hscreen] at h hwf
    simp only [Screen.front] at h
    rcases hb : sub.onButton inp.btn with m | c | c | _ <;> rw [hb] at h <;> try cases h
    obtain ⟨e, he, -, hcb, -, -⟩ := onButton_call hb
    rw [hwf.2] at he
    exact .inr (.inr ⟨menu, sub, tempCfg, rfl, settingsEntries_called he hcb⟩)

/-! ## Steps that run nothing -/

theorem step_of_called {cb : Callback} (h : t.called inp.btn = some cb) :
    step env t inp = callback env inp cb t := by
  rw [Ui.called] at h
  rw [step]
  split at h
  · cases h
  · next m hm =>
    split at h
    · next hb =>
      subst h
      simp only [hb]
    · cases h

theorem openMenu_disk (entries : List (Entry Callback)) (show_ : Menu Callback → Screen) (t : Ui) :
    (openMenu entries show_ t).disk = t.disk ∧
      (openMenu entries show_ t).commandPending = t.commandPending ∧
      (openMenu entries show_ t).cfg = t.cfg := by
  rw [openMenu]
  split <;> exact ⟨rfl, rfl, rfl⟩

/-- A menu that is opened has the entries it was given. -/
theorem openMenu_wellFormed {entries : List (Entry Callback)} {show_ : Menu Callback → Screen}
    (hwf : WellFormed t)
    (hshow : ∀ m, m.entries = entries → WellFormed { t with screen := show_ m }) :
    WellFormed (openMenu entries show_ t) := by
  rw [openMenu]
  split
  · next sub hsub =>
    obtain ⟨i, -, rfl⟩ := Option.map_eq_some_iff.mp hsub
    exact hshow _ rfl
  · exact hwf

theorem step_of_not_called (env : Env) (hwf : WellFormed t) (h : t.called inp.btn = none) :
    (step env t inp).disk = t.disk ∧ (step env t inp).commandPending = t.commandPending ∧
      WellFormed (step env t inp) := by
  rw [Ui.called] at h
  rw [step]
  split at h
  · next hfront =>
    split
    · obtain ⟨hdisk, hpend, -⟩ := openMenu_disk (toolboxEntries t.commandPending) .toolbox t
      exact ⟨hdisk, hpend, openMenu_wellFormed hwf fun m hm ↦ hm⟩
    · exact ⟨rfl, rfl, hwf⟩
  · next m hm =>
    rw [WellFormed] at hwf
    rcases hb : m.onButton inp.btn with m' | c | c | _
    · refine ⟨rfl, rfl, ?_⟩
      have hentries := onButton_stay hb
      rw [WellFormed]
      cases hscreen : t.screen <;> rw [hscreen] at hm hwf <;>
        simp_all [Screen.front, Screen.withFront]
    · exact ⟨rfl, rfl, hwf⟩
    · rw [hb] at h
      dsimp only at h
      subst h
      exact ⟨rfl, rfl, hwf⟩
    · refine ⟨rfl, rfl, ?_⟩
      rw [WellFormed]
      cases hscreen : t.screen <;> rw [hscreen] at hwf <;> simp_all [Screen.back]

/-! ## Steps that run something -/

/-- The five flags are the ones `command_pending` sets. -/
theorem disableAllCmds_entries {menu : Menu Callback} {p : Bool}
    (h : menu.entries = toolboxEntries p) :
    (disableAllCmds menu).entries = toolboxEntries true := by
  simp [disableAllCmds, Menu.disable, h, toolboxEntries, List.mapIdx_cons,
    Entry.actionModifyingNoBlank, Entry.back]

theorem disable_confirmEntries {sub : Menu Callback} {cb : Callback} {p : Bool}
    (h : sub.entries = confirmEntries cb p) :
    (sub.disable [0]).entries = confirmEntries cb true := by
  simp [Menu.disable, h, confirmEntries, List.mapIdx_cons, Entry.actionModifyingNoBlank, Entry.text,
    Entry.back]

theorem confirmMenu_wellFormed {menu : Menu Callback} {cb : Callback} (hwf : WellFormed t)
    (hmenu : menu.entries = toolboxEntries t.commandPending) (hpend : t.commandPending = false)
    (hcb : IsCommand cb) : WellFormed (confirmMenu cb menu t) :=
  openMenu_wellFormed hwf fun m hm ↦ ⟨hmenu, .inr ⟨cb, hcb, by rw [hm, hpend]⟩⟩

theorem updateCb_wellFormed {menu : Menu Callback} {cb : Fil → Callback} {sizeMax : ℕ}
    (hwf : WellFormed t) (hmenu : menu.entries = toolboxEntries t.commandPending)
    (hpend : t.commandPending = false)
    (hcb : ∀ f : Fil, f.fptr = 0 → f.fSize ≤ sizeMax → IsCommand (cb f)) :
    WellFormed (updateCb sizeMax cb menu inp t) := by
  rw [updateCb]
  split
  · exact hwf
  · dsimp only
    split
    · exact hwf
    · next hle => exact confirmMenu_wellFormed hwf hmenu hpend (hcb _ rfl (Nat.le_of_not_lt hle))

theorem commandSent_wellFormed {menu sub : Menu Callback} {cb : Callback} {p : Bool}
    (hmenu : menu.entries = toolboxEntries p) (hsel : sub.selected = 0)
    (hsub : sub.entries = confirmEntries cb p) (hcb : IsCommand cb) :
    WellFormed (commandSent menu sub t) := by
  refine ⟨disableAllCmds_entries hmenu, .inr ⟨cb, hcb, ?_⟩⟩
  rw [hsel]
  exact disable_confirmEntries hsub

theorem sendCommand_wellFormed {menu sub : Menu Callback} {cb : Callback} {p : Bool}
    {cmd : State → Bool × State} (hwf : WellFormed t) (hmenu : menu.entries = toolboxEntries p)
    (hsel : sub.selected = 0) (hsub : sub.entries = confirmEntries cb p) (hcb : IsCommand cb) :
    WellFormed (sendCommand cmd menu sub t) := by
  rw [sendCommand]
  split
  · exact hwf
  · exact commandSent_wellFormed hmenu hsel hsub hcb

/-- **Every button press keeps the menus well formed.** -/
theorem wellFormed_step (env : Env) (t : Ui) (inp : Input) (hwf : WellFormed t) :
    WellFormed (step env t inp) := by
  cases hcalled : t.called inp.btn with
  | none => exact (step_of_not_called env hwf hcalled).2.2
  | some cb =>
    rw [step_of_called hcalled, callback]
    have hwf' := hwf
    rw [WellFormed] at hwf'
    rcases called_cases hwf hcalled with ⟨menu, hscreen, hcb⟩ | ⟨menu, sub, hscreen, hsel, hsub,
      hpend, hcb⟩ | ⟨menu, sub, tempCfg, hscreen, hcb⟩ <;> rw [hscreen] at hwf' ⊢
    · rcases hcb with rfl | rfl | ⟨hpend, hcb⟩
      · simp only [toolboxCallback, infoCb]
        split
        · exact hwf
        · exact openMenu_wellFormed hwf fun m hm ↦ ⟨hwf', .inl hm⟩
      · simp only [toolboxCallback, iplSettingsCb]
        exact openMenu_wellFormed hwf fun m hm ↦ ⟨hwf', hm⟩
      · cases cb with
        | resetCb => exact confirmMenu_wellFormed hwf hwf' hpend trivial
        | fwUpdateCb => exact updateCb_wellFormed hwf hwf' hpend fun _ h0 hle ↦ ⟨h0, hle⟩
        | fwRollbackCb => exact confirmMenu_wellFormed hwf hwf' hpend trivial
        | iplUpdateCb => exact updateCb_wellFormed hwf hwf' hpend fun _ h0 hle ↦ ⟨h0, hle⟩
        | blUpdateCb => exact updateCb_wellFormed hwf hwf' hpend fun _ h0 hle ↦ ⟨h0, hle⟩
        | _ => exact absurd hcb id
    · obtain ⟨hmenu, hinfo | ⟨c, hc, hconfirm⟩⟩ := hwf'
      · rw [hinfo] at hsub
        exact absurd (congrArg List.length hsub) (by simp [infoEntries, confirmEntries])
      rw [hpend] at hmenu hconfirm
      cases cb with
      | reset => exact sendCommand_wellFormed hwf hmenu hsel hconfirm hc
      | rollback => exact sendCommand_wellFormed hwf hmenu hsel hconfirm hc
      | updateFw f => exact commandSent_wellFormed hmenu hsel hconfirm hc
      | updateBl f => exact commandSent_wellFormed hmenu hsel hconfirm hc
      | updateIpl f => exact commandSent_wellFormed hmenu hsel hconfirm hc
      | _ => exact absurd hcb id
    · cases cb with
      | defaultVolCb => exact hwf'
      | defaultActionCb => exact hwf'
      | ofwBtnCb => exact hwf'
      | saveSettingsCb =>
        simp only [settingsCallback, saveSettingsCb]
        split <;> simpa only [WellFormed, hscreen] using hwf'
      | _ => exact absurd hcb id

/-- The states the toolbox can be in, from the moment the program comes up. -/
def Reachable (env : Env) : Ui → Prop := Machine.Reachable (step env) Booted

theorem Reachable.wellFormed (h : Reachable env t) : WellFormed t := by
  refine Machine.Reachable.inv (fun t ht ↦ ?_) (wellFormed_step env) h
  rw [WellFormed, ht.2]
  trivial

end Toolbox
end SdLoader
