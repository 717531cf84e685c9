import SdLoader.Lib.Links
import SdLoader.Lib.Machine
import SdLoader.Toolbox.Tui

/-!
# Moving about in a menu

`tui_menu_start_rot` of `sdloader/gfx/tui.c` on the entries as they are in memory: nodes with links,
and `menu->selected` a pointer to one of them.  An activation of the function is a machine; a step
is a turn of its loop, with the buttons as input.  A callback and the menu of a submenu do with the
`disabled` flags of all entries what they like, which is a part of the input as well: their own
turns are those of other activations.

The scans are loops over the links.  `MenuNodes.step` gives them `n` passes; one that is not over
by then is `State.hung`, and one that reads through a null pointer is `State.crashed`.

* `start_eq` — the menu starts at the first selectable entry, or returns.
* `onVolDown_eq`, `onVolUp_eq` — where the scans lead: to the nearest selectable entry in their
  direction.
* `moves_of_selectable`, by `walk` — pressing one button again and again comes by every selectable
  entry on that side.
* `Ok.step` — the selection stays in the list.
* `navigation` — what holds at any time, whatever is pressed and whatever is disabled.
-/

set_option autoImplicit false

namespace SdLoader
namespace Tui

open Loop (Pass)

universe u

variable {P : Type u}

/-- The entries of a menu, by address. -/
structure MenuNodes (P : Type u) where
  /-- `menu->entries` -/
  entries : Option P
  /-- `next` of an entry. -/
  next : P → Option P
  /-- `type` of an entry. -/
  type : P → EntryType
  /-- All of them, in the order of the links. -/
  list : List P
  links : Links next entries list

/-- `tui_status_t` -/
inductive Status
  | success
  | timeout
  | errNoSelectableEntry

/-- An activation of `tui_menu_start_rot`. -/
inductive State (P : Type u)
  /-- At the top of its loop, with `menu->selected` and the `disabled` flags. -/
  | running (selected : P) (disabled : P → Bool)
  /-- It has returned. -/
  | returned (status : Status)
  /-- A scan does not end. -/
  | hung
  /-- A scan has come to the end of the list where it must not. -/
  | crashed

/-- What a turn of the loop is given. -/
structure Turn (P : Type u) where
  /-- What `btn_wait_timeout_single1` returns. -/
  btn : UInt8
  /-- Whether the menu has a timeout that has passed. -/
  late : Bool
  /-- The flags after the callback or the submenu, if the turn runs one. -/
  disabled : P → Bool

namespace MenuNodes

variable (m : MenuNodes P) (n : ℕ)

/-- `tui_entry_is_selectable` -/
def isSelectable (disabled : P → Bool) (p : P) : Bool := !disabled p && m.type p != .text

/-- The scan the function begins with. -/
def start (disabled : P → Bool) : State P :=
  match Loop.run (Links.firstPass m.next (m.isSelectable disabled)) n m.entries with
  | .leave (some p) => .running p disabled
  | .leave none => .returned .errNoSelectableEntry
  | .again _ => .hung

/-- The scan for `BTN_VOL_UP`. -/
def onVolUp [DecidableEq P] (selected : P) (disabled : P → Bool) : State P :=
  match Loop.run (Links.lastPass m.next (m.isSelectable disabled) selected) n
      (m.entries, selected) with
  | .leave (some p) => .running p disabled
  | .leave none => .crashed
  | .again _ => .hung

/-- The scan for `BTN_VOL_DOWN`. -/
def onVolDown (selected : P) (disabled : P → Bool) : State P :=
  match Loop.run (Links.firstPass m.next (m.isSelectable disabled)) n (m.next selected) with
  | .leave (some p) => .running p disabled
  | .leave none => .running selected disabled
  | .again _ => .hung

/-- `BTN_POWER`: whether the turn runs the callback of the selected entry. -/
def calls (selected : P) (disabled : P → Bool) : Bool :=
  match m.type selected with
  | .action | .actionModifying | .actionNoBlank | .actionModifyingNoBlank => !disabled selected
  | .menu | .back | .text => false

/-- `BTN_POWER` -/
def onPower (selected : P) (disabled after : P → Bool) : State P :=
  match m.type selected with
  | .menu => .running selected after
  | .action | .actionModifying | .actionNoBlank | .actionModifyingNoBlank =>
    if m.calls selected disabled then .running selected after else .running selected disabled
  | .back => .returned .success
  | .text => .running selected disabled

/-- One turn of the loop. -/
def step [DecidableEq P] : State P → Turn P → State P
  | .running selected disabled, t =>
    if t.btn = 0 ∧ t.late then .returned .timeout
    else if t.btn &&& btnVolUp ≠ 0 then m.onVolUp n selected disabled
    else if t.btn &&& btnVolDown ≠ 0 then m.onVolDown n selected disabled
    else if t.btn &&& btnPower ≠ 0 then m.onPower selected disabled t.disabled
    else .running selected disabled
  | s, _ => s

/-- The entry whose callback a turn runs. -/
def called : State P → Turn P → Option P
  | .running selected disabled, t =>
    if t.btn &&& btnVolUp ≠ 0 ∨ t.btn &&& btnVolDown ≠ 0 ∨ t.btn &&& btnPower = 0 then none
    else if m.calls selected disabled then some selected
    else none
  | _, _ => none

/-! ## The scans -/

variable {m n}

theorem list_tail {l r : List P} {p : P} (h : m.list = l ++ p :: r) : Links m.next (m.next p) r :=
  Links.tail_of_append (h ▸ m.links)

theorem start_eq (hn : m.list.length < n) (disabled : P → Bool) :
    m.start n disabled = match m.list.find? (m.isSelectable disabled) with
      | some p => .running p disabled
      | none => .returned .errNoSelectableEntry := by
  rw [start, Loop.run_leave_mono (Links.run_first _ m.links) hn]
  cases m.list.find? (m.isSelectable disabled) <;> rfl

/-- **Down**: to the first selectable entry after the selected one, if there is one. -/
theorem onVolDown_eq (hn : m.list.length < n) {l r : List P} {p : P} (h : m.list = l ++ p :: r)
    (disabled : P → Bool) : m.onVolDown n p disabled =
      .running ((r.find? (m.isSelectable disabled)).getD p) disabled := by
  have hlen : r.length + 1 ≤ n := by
    rw [h, List.length_append, List.length_cons] at hn
    omega
  rw [onVolDown, Loop.run_leave_mono (Links.run_first _ (list_tail h)) hlen]
  cases r.find? (m.isSelectable disabled) <;> rfl

/-- **Up**: to the last selectable entry before the selected one, if there is one. -/
theorem onVolUp_eq [DecidableEq P] (hn : m.list.length < n) {l r : List P} {p : P}
    (h : m.list = l ++ p :: r) (disabled : P → Bool) : m.onVolUp n p disabled =
      .running ((l.reverse.find? (m.isSelectable disabled)).getD p) disabled := by
  have hlen : l.length + 1 ≤ n := by
    rw [h, List.length_append] at hn
    omega
  rw [onVolUp, Loop.run_leave_mono (Links.run_last _ p (h ▸ m.links)) hlen]

/-! ## One turn -/

section
variable {p : P} {disabled : P → Bool} {t : Turn P}

theorem step_volUp [DecidableEq P] (h : t.btn &&& btnVolUp ≠ 0) :
    m.step n (.running p disabled) t = m.onVolUp n p disabled := by
  have hbtn : ¬ (t.btn = 0 ∧ t.late) := by
    rintro ⟨hzero, -⟩
    rw [hzero] at h
    exact h rfl
  rw [step, if_neg hbtn, if_pos h]

theorem step_volDown [DecidableEq P] (hup : t.btn &&& btnVolUp = 0) (h : t.btn &&& btnVolDown ≠ 0) :
    m.step n (.running p disabled) t = m.onVolDown n p disabled := by
  have hbtn : ¬ (t.btn = 0 ∧ t.late) := by
    rintro ⟨hzero, -⟩
    rw [hzero] at h
    exact h rfl
  rw [step, if_neg hbtn, if_neg (not_not.mpr hup), if_pos h]

/-- The callback of an entry is run only if the entry is not disabled. -/
theorem disabled_of_called {s : State P} {q : P} (h : m.called s t = some q) :
    ∃ disabled, s = .running q disabled ∧ disabled q = false := by
  match s with
  | .running selected disabled =>
    rw [called] at h
    split at h
    · cases h
    · split at h
      · next hcalls =>
        cases h
        refine ⟨disabled, rfl, ?_⟩
        rw [calls] at hcalls
        split at hcalls
        all_goals simp_all
      · cases h
  | .returned _ => cases h
  | .hung => cases h
  | .crashed => cases h

end

/-! ## The selection stays in the list -/

/-- The scans end, and the selected entry is in the list. -/
def Ok (m : MenuNodes P) : State P → Prop
  | .running selected _ => selected ∈ m.list
  | .returned _ => True
  | .hung => False
  | .crashed => False

theorem ok_start (hn : m.list.length < n) (disabled : P → Bool) : m.Ok (m.start n disabled) := by
  rw [start_eq hn]
  split
  · next p hp => exact List.mem_of_find?_eq_some hp
  · trivial

theorem ok_onPower {p : P} (hp : p ∈ m.list) (disabled after : P → Bool) :
    m.Ok (m.onPower p disabled after) := by
  rw [onPower]
  split
  · exact hp
  · split <;> exact hp
  · split <;> exact hp
  · split <;> exact hp
  · split <;> exact hp
  · trivial
  · exact hp

theorem getD_find?_mem {sel : P → Bool} {ps : List P} {p : P} (hp : p ∈ m.list)
    (hps : ∀ q ∈ ps, q ∈ m.list) : (ps.find? sel).getD p ∈ m.list := by
  cases h : ps.find? sel with
  | none => exact hp
  | some q => exact hps q (List.mem_of_find?_eq_some h)

/-- **One turn** keeps the selection in the list. -/
theorem Ok.step [DecidableEq P] {s : State P} (hn : m.list.length < n) (hs : m.Ok s)
    (t : Turn P) : m.Ok (m.step n s t) := by
  match s with
  | .returned _ => exact hs
  | .hung => exact hs
  | .crashed => exact hs
  | .running p disabled =>
    obtain ⟨l, r, hlist⟩ := List.append_of_mem hs
    rw [MenuNodes.step]
    split
    · trivial
    · split
      · rw [onVolUp_eq hn hlist]
        exact getD_find?_mem hs fun q hq ↦ by simp_all
      · split
        · rw [onVolDown_eq hn hlist]
          exact getD_find?_mem hs fun q hq ↦ by simp_all
        · split
          · exact ok_onPower hs _ _
          · exact hs

/-! ## Every entry is reached -/

/-- Always going to the next one that is selectable, one comes by all that are.  `A p r` says that
`r` is what lies ahead of `p`. -/
theorem walk {sel : P → Bool} {A : P → List P → Prop} {Moves : P → P → Prop}
    (hmove : ∀ p r, A p r → Moves p ((r.find? sel).getD p))
    (hnext : ∀ p s a r, A p (s ++ a :: r) → A a r) {p q : P} {r : List P}
    (h : A p r) (hq : q ∈ r) (hsel : sel q = true) : Relation.ReflTransGen Moves p q := by
  induction hk : r.length using Nat.strongRecOn generalizing p r with
  | ind k ih =>
    obtain ⟨a, ha⟩ := Option.isSome_iff_exists.mp (List.find?_isSome.mpr ⟨q, hq, hsel⟩)
    have hfirst := hmove p r h
    rw [ha, Option.getD_some] at hfirst
    obtain ⟨-, s, r', rfl, hskip⟩ := List.find?_eq_some_iff_append.mp ha
    have hahead := hnext p s a r' h
    rcases List.mem_append.mp hq with hskipped | hrest
    · have hnot := hskip q hskipped
      rw [hsel] at hnot
      cases hnot
    · rcases List.mem_cons.mp hrest with rfl | hrest
      · exact .single hfirst
      · refine .head hfirst (ih r'.length ?_ hahead hrest rfl)
        rw [← hk, List.length_append, List.length_cons]
        omega

variable [DecidableEq P]

/-- A turn in which only a button is pressed. -/
def press (disabled : P → Bool) (btn : UInt8) : Turn P := ⟨btn, false, disabled⟩

/-- One of the volume buttons takes the selection from one entry to the other. -/
def Moves (m : MenuNodes P) (n : ℕ) (disabled : P → Bool) (p q : P) : Prop :=
  ∃ btn, (btn = btnVolUp ∨ btn = btnVolDown) ∧
    m.step n (.running p disabled) (press disabled btn) = .running q disabled

/-- **The volume buttons lead from every entry to every selectable one.** -/
theorem moves_of_selectable (hn : m.list.length < n) {disabled : P → Bool} {p q : P}
    (hp : p ∈ m.list) (hq : q ∈ m.list) (hsel : m.isSelectable disabled q = true) :
    Relation.ReflTransGen (m.Moves n disabled) p q := by
  obtain ⟨l, r, hlist⟩ := List.append_of_mem hp
  rw [hlist] at hq
  rcases List.mem_append.mp hq with hbefore | hrest
  · refine walk (A := fun p c ↦ ∃ r, m.list = c.reverse ++ p :: r) ?_ ?_
      (r := l.reverse) ⟨r, by rwa [List.reverse_reverse]⟩ (List.mem_reverse.mpr hbefore) hsel
    · rintro p c ⟨r, hlist⟩
      refine ⟨btnVolUp, .inl rfl, ?_⟩
      have hbtn : btnVolUp &&& btnVolUp ≠ 0 := by decide
      rw [step_volUp hbtn, onVolUp_eq hn hlist, List.reverse_reverse]
    · rintro p s a c ⟨r, hlist⟩
      exact ⟨s.reverse ++ p :: r, by simpa using hlist⟩
  · rcases List.mem_cons.mp hrest with rfl | hafter
    · exact .refl
    · refine walk (A := fun p c ↦ ∃ l, m.list = l ++ p :: c) ?_ ?_ ⟨l, hlist⟩ hafter hsel
      · rintro p c ⟨l, hlist⟩
        refine ⟨btnVolDown, .inr rfl, ?_⟩
        have hup : btnVolDown &&& btnVolUp = 0 := by decide
        have hdown : btnVolDown &&& btnVolDown ≠ 0 := by decide
        rw [step_volDown hup hdown, onVolDown_eq hn hlist]
      · rintro p s a c ⟨l, hlist⟩
        exact ⟨l ++ p :: s, by simpa using hlist⟩

/-- The presses of such a way, as turns of the loop. -/
theorem presses_of_moves {disabled : P → Bool} {p q : P}
    (h : Relation.ReflTransGen (m.Moves n disabled) p q) :
    ∃ btns : List UInt8, (∀ btn ∈ btns, btn = btnVolUp ∨ btn = btnVolDown) ∧
      Machine.run (m.step n) (.running p disabled) (btns.map (press disabled)) =
        .running q disabled := by
  induction h using Relation.ReflTransGen.head_induction_on with
  | refl => exact ⟨[], by simp, rfl⟩
  | head hmove _ ih =>
    obtain ⟨btn, hbtn, hstep⟩ := hmove
    obtain ⟨btns, hbtns, hrun⟩ := ih
    refine ⟨btn :: btns, List.forall_mem_cons.mpr ⟨hbtn, hbtns⟩, ?_⟩
    rw [List.map_cons, Machine.run_cons, hstep, hrun]

/-! ## At any time -/

/-- What is promised of an activation at any time. -/
structure Sound (m : MenuNodes P) (n : ℕ) (s : State P) : Prop where
  /-- The scans have ended, and have not left the list. -/
  ends : s ≠ .hung ∧ s ≠ .crashed
  /-- The selected entry is in the list. -/
  mem : ∀ p disabled, s = .running p disabled → p ∈ m.list
  /-- The next press of volume down leads to the first selectable entry after it. -/
  down : ∀ p disabled t, s = .running p disabled → t.btn &&& btnVolUp = 0 →
    t.btn &&& btnVolDown ≠ 0 → ∃ l r, m.list = l ++ p :: r ∧
      m.step n s t = .running ((r.find? (m.isSelectable disabled)).getD p) disabled
  /-- The next press of volume up leads to the nearest selectable entry before it. -/
  up : ∀ p disabled t, s = .running p disabled → t.btn &&& btnVolUp ≠ 0 →
    ∃ l r, m.list = l ++ p :: r ∧
      m.step n s t = .running ((l.reverse.find? (m.isSelectable disabled)).getD p) disabled
  /-- A callback that is run now is that of an entry that is not disabled. -/
  calls : ∀ t q, m.called s t = some q → ∃ disabled, s = .running q disabled ∧ disabled q = false
  /-- Every selectable entry is reached with the volume buttons. -/
  reach : ∀ p disabled q, s = .running p disabled → q ∈ m.list → m.isSelectable disabled q = true →
    ∃ btns : List UInt8, (∀ btn ∈ btns, btn = btnVolUp ∨ btn = btnVolDown) ∧
      Machine.run (m.step n) s (btns.map (press disabled)) = .running q disabled

theorem Ok.sound {s : State P} (hn : m.list.length < n) (hs : m.Ok s) : m.Sound n s where
  ends := by
    constructor <;> rintro rfl <;> exact hs
  mem := by
    rintro p disabled rfl
    exact hs
  down := by
    rintro p disabled t rfl hup hdown
    obtain ⟨l, r, hlist⟩ := List.append_of_mem hs
    exact ⟨l, r, hlist, by rw [step_volDown hup hdown, onVolDown_eq hn hlist]⟩
  up := by
    rintro p disabled t rfl hup
    obtain ⟨l, r, hlist⟩ := List.append_of_mem hs
    exact ⟨l, r, hlist, by rw [step_volUp hup, onVolUp_eq hn hlist]⟩
  calls := fun t q h ↦ disabled_of_called h
  reach := by
    rintro p disabled q rfl hq hsel
    exact presses_of_moves (moves_of_selectable hn hs hq hsel)

/-- **Moving about in a menu**, for every list of entries, whatever is pressed, and whatever
callbacks and submenus do with the flags: given passes enough for the list, it starts at the first
selectable entry or, if there is none, returns; the scans end, the selection stays in the list and
moves to the nearest selectable entry, no disabled entry's callback is run, and no selectable entry
is out of reach. -/
theorem navigation (hn : m.list.length < n) (disabled : P → Bool) (ts : List (Turn P)) :
    (m.start n disabled = match m.list.find? (m.isSelectable disabled) with
      | some p => .running p disabled
      | none => .returned .errNoSelectableEntry) ∧
      m.Sound n (Machine.run (m.step n) (m.start n disabled) ts) :=
  have hstart := ok_start hn disabled
  ⟨start_eq hn disabled,
    (Machine.run_inv (I := m.Ok) (fun _ t hs ↦ Ok.step hn hs t) hstart ts).sound hn⟩

/-- A title, two actions and the way back. -/
def sample : MenuNodes ℕ where
  entries := some 0
  next p := if p < 3 then some (p + 1) else none
  type p := if p = 0 then .text else if p < 3 then .action else .back
  list := [0, 1, 2, 3]
  links := ⟨rfl, rfl, rfl, rfl, rfl⟩

/-- The first action is run, which disables the second one and itself; then volume down. -/
theorem navigation_sample :
    sample.start 5 (fun _ ↦ false) = .running 1 (fun _ ↦ false) ∧
    sample.Sound 5 (Machine.run (sample.step 5) (sample.start 5 fun _ ↦ false)
      [⟨btnPower, false, fun p ↦ p == 1 || p == 2⟩, press (fun _ ↦ false) btnVolDown]) :=
  navigation (m := sample) (by decide) _ _

end MenuNodes

end Tui
end SdLoader
