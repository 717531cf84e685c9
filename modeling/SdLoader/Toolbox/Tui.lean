import Mathlib.Algebra.Order.Ring.Nat
import Mathlib.Data.Nat.Notation
import Mathlib.Data.List.Basic
import Mathlib.Tactic.Common

/-!
# Text menus

`sdloader/gfx/tui.c`.  A menu is a list of entries and the one that is selected;
`tui_menu_start_rot` waits for a button and moves the selection, runs the selected entry's callback,
or returns.  `Menu.onButton` is one turn of that loop, with the callback handed back to the caller
as a value instead of being run: what a callback does belongs to the program that owns the menu.

Colours, positions and titles are left out, since nothing is decided by them.  So is the timeout,
which no menu of the toolbox has.
-/

set_option autoImplicit false

namespace SdLoader
namespace Tui

universe u

/-- `tui_entry_type_t` -/
inductive EntryType
  | menu
  | text
  | action
  | actionModifying
  | actionNoBlank
  | actionModifyingNoBlank
  | back
  deriving DecidableEq

/-- `tui_entry_t`: its type, whether it is disabled, and its callback with the data bound to it. -/
structure Entry (α : Type u) where
  /-- The type. -/
  type : EntryType
  /-- Is it greyed out? -/
  disabled : Bool
  /-- The callback. -/
  cb : Option α

/-- `TUI_ENTRY_TEXT` -/
def Entry.text {α : Type u} : Entry α := ⟨.text, false, none⟩

/-- `TUI_ENTRY_TEXT_DISABLED` -/
def Entry.textDisabled {α : Type u} : Entry α := ⟨.text, true, none⟩

/-- `TUI_ENTRY_BACK` -/
def Entry.back {α : Type u} : Entry α := ⟨.back, false, none⟩

/-- `TUI_ENTRY_ACTION_NO_BLANK` -/
def Entry.actionNoBlank {α : Type u} (cb : α) (disabled : Bool) : Entry α :=
  ⟨.actionNoBlank, disabled, some cb⟩

/-- `TUI_ENTRY_ACTION_MODIFYING_NO_BLANK` -/
def Entry.actionModifyingNoBlank {α : Type u} (cb : α) (disabled : Bool) : Entry α :=
  ⟨.actionModifyingNoBlank, disabled, some cb⟩

/-- `tui_entry_menu_t`: the entries, in the order of their links, and the selected one. -/
structure Menu (α : Type u) where
  /-- The entries. -/
  entries : List (Entry α)
  /-- The index of the selected one. -/
  selected : ℕ

variable {α : Type u}

/-- `tui_entry_is_selectable` -/
def Entry.isSelectable (e : Entry α) : Bool :=
  !e.disabled && e.type != .text

/-- Is the entry at index `i` selectable? -/
def selectableAt (es : List (Entry α)) (i : ℕ) : Bool :=
  match es[i]? with
  | some e => e.isSelectable
  | none => false

/-- The scan `tui_menu_start_rot` begins with.  It returns at once if nothing is selectable. -/
def Menu.start (es : List (Entry α)) : Option (Menu α) :=
  ((List.range es.length).find? (selectableAt es)).map fun i ↦ ⟨es, i⟩

/-- The scan for `BTN_VOL_UP`: the last selectable entry before the selected one. -/
def volUp (es : List (Entry α)) (selected : ℕ) : ℕ :=
  (List.range selected).foldl (fun next i ↦ if selectableAt es i then i else next) selected

/-- The scan for `BTN_VOL_DOWN`: the first selectable entry after the selected one. -/
def volDown (es : List (Entry α)) (selected : ℕ) : ℕ :=
  ((List.range' (selected + 1) (es.length - (selected + 1))).find? (selectableAt es)).getD selected

/-- `BTN_POWER` -/
def btnPower : UInt8 := 1

/-- `BTN_VOL_DOWN` -/
def btnVolDown : UInt8 := 2

/-- `BTN_VOL_UP` -/
def btnVolUp : UInt8 := 4

/-- What a turn of the menu loop comes to. -/
inductive Reaction (α : Type u)
  /-- The loop goes on, perhaps with another entry selected. -/
  | stay (m : Menu α)
  /-- A submenu is opened. -/
  | enter (cb : Option α)
  /-- A callback is run. -/
  | call (cb : Option α)
  /-- The menu is left. -/
  | back

/-- The action of `BTN_POWER` on an entry.  Only the callbacks look at `disabled`. -/
def Menu.onPower (m : Menu α) (e : Entry α) : Reaction α :=
  match e.type with
  | .menu => .enter e.cb
  | .actionNoBlank | .action | .actionModifyingNoBlank | .actionModifying =>
    if !e.disabled then .call e.cb else .stay m
  | .back => .back
  | .text => .stay m

/-- One turn of the loop of `tui_menu_start_rot`, on the buttons `btn`. -/
def Menu.onButton (m : Menu α) (btn : UInt8) : Reaction α :=
  if btn &&& btnVolUp ≠ 0 then .stay { m with selected := volUp m.entries m.selected }
  else if btn &&& btnVolDown ≠ 0 then .stay { m with selected := volDown m.entries m.selected }
  else if btn &&& btnPower ≠ 0 then
    match m.entries[m.selected]? with
    | some e => m.onPower e
    | none => .stay m
  else .stay m

/-- Set `disabled` on the entries with the given indices. -/
def Menu.disable (m : Menu α) (is : List ℕ) : Menu α :=
  { m with entries := m.entries.mapIdx fun i e ↦ if i ∈ is then { e with disabled := true } else e }

@[simp] theorem disable_selected (m : Menu α) (is : List ℕ) :
    (m.disable is).selected = m.selected := rfl

/-! ## What a turn can come to -/

theorem onPower_stay {m m' : Menu α} {e : Entry α} (h : m.onPower e = .stay m') : m' = m := by
  obtain ⟨type, disabled, cb⟩ := e
  cases type <;> cases disabled <;> simp_all [Menu.onPower]

theorem onPower_call {m : Menu α} {e : Entry α} {cb : Option α} (h : m.onPower e = .call cb) :
    e.disabled = false ∧ e.cb = cb ∧ e.type ≠ .text ∧ e.type ≠ .back := by
  obtain ⟨type, disabled, cb'⟩ := e
  cases type <;> cases disabled <;> simp_all [Menu.onPower]

/-- A turn that goes on keeps the entries. -/
theorem onButton_stay {m m' : Menu α} {btn : UInt8} (h : m.onButton btn = .stay m') :
    m'.entries = m.entries := by
  rw [Menu.onButton] at h
  split at h
  · rw [← Reaction.stay.inj h]
  · split at h
    · rw [← Reaction.stay.inj h]
    · split at h
      · split at h
        · rw [onPower_stay h]
        · rw [← Reaction.stay.inj h]
      · rw [← Reaction.stay.inj h]

/-- **Only the callback of an enabled entry is run**, and it is the selected one's. -/
theorem onButton_call {m : Menu α} {btn : UInt8} {cb : Option α} (h : m.onButton btn = .call cb) :
    ∃ e, m.entries[m.selected]? = some e ∧ e.disabled = false ∧ e.cb = cb ∧ e.type ≠ .text ∧
      e.type ≠ .back := by
  rw [Menu.onButton] at h
  split at h
  · cases h
  · split at h
    · cases h
    · split at h
      · split at h
        · next e he => exact ⟨e, he, onPower_call h⟩
        · cases h
      · cases h

end Tui
end SdLoader
