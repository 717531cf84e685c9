import SdLoader.Volumes.Windows

/-!
# The menu of a volume opened again

What becomes of the configuration of a volume if its menu is left, opened again and left again, and
nothing is changed.

Whatever is done in the menu, its updates come last, and they come to rest: a window given by a
partition is that of the table, and the size is one that `config_size_update` leaves as it is.  When
the menu is opened the table is read again, and the size is set to that of the storage.  The updates
bring a window by partition back to what it was.  But they only ever make a size smaller if it does
not fit, so of any other window the size is lost.

* `Page.derived` — the configuration the updates come to.
* `Page.Settled` — what every update leaves, and `Ui.Open.step` keeps while a menu is open.
* `Settled.opened` — the configuration after the menu has been opened again.
* `VolumeCfg.Kept` — the condition: the window is that of a partition, or the largest one from its
  offset on, or nothing could be read.
* `reopening_neutral_iff` — in every state that is reached, the configuration is what it was if and
  only if the condition holds.
* `reopening_counterexample` — a size that is chosen, and lost.
-/

set_option autoImplicit false

namespace SdLoader
namespace Volumes

open Usb (sub32)

/-! ## Configurations -/

namespace VolumeCfg

variable {c : VolumeCfg}

/-- What can be chosen in the menu of a volume is the same. -/
structure Neutral (c' c : VolumeCfg) : Prop where
  mountMode : c'.mountMode = c.mountMode
  mode : c'.mode = c.mode
  part : c'.part = c.part
  offset : c'.offset = c.offset
  size : c'.size = c.size

/-- The window of a configuration, taken over from an entry of the table. -/
def withPart (c : VolumeCfg) (e : PartEntry) : VolumeCfg :=
  { c with offset := e.offset, size := e.size }

/-- The configuration as it is after the storage has been read: nothing is known of a storage of
size zero. -/
def reloaded (c : VolumeCfg) (physSize : ℕ) (medium : ℕ → UInt8) : VolumeCfg :=
  { c with
    physSize := physSize
    size := if physSize = 0 then c.size else physSize
    medium := medium }

/-- The condition: the volume is mounted by partition, or nothing is known of its storage, or its
window is the largest that `config_size_update` leaves from its offset on. -/
def Kept (c : VolumeCfg) : Prop :=
  c.mode = .byPart ∧ c.mountMode ≠ .noMount ∨ c.physSize = 0 ∨
    c.size = min c.physSize (sub32 c.physSize c.offset)

/-- What `config_size_update` leaves ends with the storage at the latest, and is not empty unless
there is nothing to be had. -/
theorem clamp_size (c : VolumeCfg) : c.clamp.size ≤ sub32 c.physSize c.offset ∧
    (c.clamp.size = 0 → sub32 c.physSize c.offset = 0) := by
  simp only [clamp]
  split <;> omega

/-- **`config_size_update` comes to rest.** -/
theorem clamp_clamp (c : VolumeCfg) : c.clamp.clamp = c.clamp := by
  obtain ⟨hle, hzero⟩ := clamp_size c
  have hsize : c.clamp.clamp.size = c.clamp.size := by
    change (if min c.clamp.size (sub32 c.physSize c.offset) = 0 then sub32 c.physSize c.offset
      else min c.clamp.size (sub32 c.physSize c.offset)) = c.clamp.size
    rw [Nat.min_eq_left hle]
    split <;> omega
  calc c.clamp.clamp = { c.clamp with size := c.clamp.clamp.size } := rfl
    _ = c.clamp := by rw [hsize]

/-- The size of a storage that has been read, brought in order. -/
theorem clamp_reloaded {physSize : ℕ} (h : physSize ≠ 0) (medium : ℕ → UInt8) :
    (c.reloaded physSize medium).clamp.size = min physSize (sub32 physSize c.offset) := by
  simp only [clamp, reloaded, if_neg h]
  split <;> omega

end VolumeCfg

/-- **What opening a menu reads**: the size is set to that of the storage, if there is one. -/
theorem volumeLoadPartTable_reloaded (d : Device) (w : Storages) (c : VolumeCfg) :
    ∃ medium, (volumeLoadPartTable d w c).2 =
      c.reloaded (volumeLoadPartTable d w c).2.physSize medium := by
  have hread : ∀ m : Medium, ∃ medium, (readPartTable w m c).2 =
      c.reloaded (readPartTable w m c).2.physSize medium := by
    intro m
    by_cases hread : w.Readable m
    · rw [Storages.readPartTable_of_readable hread]
      refine ⟨m.data, ?_⟩
      simp only [VolumeCfg.reloaded, if_neg (Nat.one_le_iff_ne_zero.mp m.some)]
    · rw [Storages.readPartTable_of_not_readable hread]
      exact ⟨c.medium, rfl⟩
  cases d with
  | sd =>
    rw [volumeLoadPartTable]
    split
    · exact ⟨c.medium, rfl⟩
    · exact hread w.sd
  | emmcGpp =>
    rw [volumeLoadPartTable]
    split
    · exact ⟨c.medium, rfl⟩
    · exact hread w.emmc
  | emmcBoot0 => exact ⟨c.medium, rfl⟩
  | emmcBoot1 => exact ⟨c.medium, rfl⟩

/-! ## The menu of a volume -/

namespace Page

variable {p : Page}

/-- The configuration with the window that its partition gives it, if it is given that way. -/
def windowed (p : Page) : VolumeCfg :=
  if p.hides .byPart then p.cfg else p.cfg.withPart (p.table.parts p.cfg.part)

/-- The configuration the updates come to. -/
def derived (p : Page) : VolumeCfg := p.windowed.clamp

/-- What every update leaves. -/
structure Settled (p : Page) : Prop where
  part : p.cfg.part < 100
  byOffset : p.table.nParts = 0 → p.cfg.mode = .byOffset
  cfg : p.derived = p.cfg
  offsetDisabled : p.offsetDisabled = p.hides .byOffset
  sizeDisabled : p.sizeDisabled = p.hides .byOffset

theorem Settled.clamp (h : p.Settled) : p.cfg.clamp = p.cfg := by
  rw [← h.cfg, derived, VolumeCfg.clamp_clamp]

/-- The two updates that end every other one leave a menu that is settled as it is. -/
theorem Settled.update (h : p.Settled) : p.configOffsetUpdate.configSizeUpdate = p := by
  have hcfg : p.configOffsetUpdate.configSizeUpdate.cfg = p.cfg := h.clamp
  calc p.configOffsetUpdate.configSizeUpdate
      = ⟨p.configOffsetUpdate.configSizeUpdate.cfg, p.table, p.modeDisabled, p.partDisabled,
          p.hides .byOffset, p.hides .byOffset⟩ := rfl
    _ = ⟨p.cfg, p.table, p.modeDisabled, p.partDisabled, p.offsetDisabled, p.sizeDisabled⟩ := by
      rw [hcfg, h.offsetDisabled, h.sizeDisabled]
    _ = p := rfl

theorem selectPart_part_lt (p : Page) : p.selectPart.cfg.part < 100 := by
  by_cases hpart : 99 < p.cfg.part
  · simp only [selectPart, if_pos hpart]
    split <;> exact Nat.lt_succ_self 99
  · simp only [selectPart, if_neg hpart]
    split <;> exact Nat.lt_succ_of_le (Nat.le_of_not_lt hpart)

theorem hides_congr {q : Page} (hmode : q.cfg.mode = p.cfg.mode)
    (hmount : q.cfg.mountMode = p.cfg.mountMode) (mode : Substorage) :
    q.hides mode = p.hides mode := by
  rw [hides, hides, hmode, hmount]

/-- The window that `config_part_update` takes over is the one it would take over again. -/
theorem selectPart_windowed (p : Page) : p.selectPart.windowed = p.selectPart.cfg := by
  obtain ⟨htable, -, hmode, hmount, -⟩ := selectPart_frame p
  rw [windowed, hides_congr hmode hmount, htable]
  split
  · rfl
  · next hshown =>
    have hsame : ∀ n, ¬{ p with cfg.part := n }.hides .byPart = true := fun _ ↦ hshown
    by_cases hpart : 99 < p.cfg.part
    · simp only [selectPart, if_pos hpart, if_neg (hsame 99)]
      rfl
    · simp only [selectPart, if_neg hpart, if_neg hshown]
      rfl

/-- A change of the size only changes nothing about the window of a partition. -/
theorem clamp_windowed {q : Page} (h : p.windowed = p.cfg) (hcfg : q.cfg = p.cfg.clamp)
    (htable : q.table = p.table) : q.derived = q.cfg := by
  have hhides : q.hides .byPart = p.hides .byPart := by rw [hides, hides, hcfg]; rfl
  rw [derived, windowed, hhides, htable, hcfg]
  rw [windowed] at h
  split at h
  · next hhidden => rw [if_pos hhidden, VolumeCfg.clamp_clamp]
  · next hshown =>
    rw [if_neg hshown]
    change (p.cfg.withPart (p.table.parts p.cfg.part)).clamp = _
    rw [h]

theorem configPartUpdate_settled (hmode : p.table.nParts = 0 → p.cfg.mode = .byOffset) :
    p.configPartUpdate.Settled := by
  obtain ⟨htable, -, hmodeEq, -⟩ := selectPart_frame p
  refine ⟨selectPart_part_lt p, fun hzero ↦ ?_, clamp_windowed (selectPart_windowed p) rfl rfl,
    rfl, rfl⟩
  exact hmodeEq.trans (hmode (congrArg PartTable.nParts htable ▸ hzero))

theorem selectMode_settled (p : Page) : p.selectMode.configPartUpdate.Settled := by
  refine configPartUpdate_settled fun hzero ↦ ?_
  by_cases hp : p.table.nParts = 0
  · simp only [selectMode, if_pos hp]
  · simp only [selectMode, if_neg hp] at hzero
    exact absurd hzero hp

/-- **Every update of the menu settles it.** -/
theorem configModeUpdate_settled (p : Page) : p.configModeUpdate.Settled := by
  rw [configModeUpdate, (selectMode_settled p).update]
  exact selectMode_settled p

theorem configMountModeCb_settled (p : Page) : p.configMountModeCb.Settled :=
  configModeUpdate_settled _

theorem configModeCb_settled (p : Page) : p.configModeCb.Settled := configModeUpdate_settled _

theorem opened_settled (d : Device) (w : Storages) (c : VolumeCfg) : (opened d w c).Settled :=
  configModeUpdate_settled _

theorem selectPart_cfg (hpart : p.cfg.part < 100) : p.selectPart.cfg = p.windowed := by
  simp only [selectPart, windowed, if_neg (Nat.not_lt_of_le (Nat.le_of_lt_succ hpart))]
  split <;> rfl

/-- What it settles in. -/
theorem configModeUpdate_cfg (hmode : p.table.nParts = 0 → p.cfg.mode = .byOffset)
    (hpart : p.cfg.part < 100) : p.configModeUpdate.cfg = p.derived := by
  obtain ⟨hcfg, htable⟩ : p.selectMode.cfg = p.cfg ∧ p.selectMode.table = p.table := by
    rw [selectMode]
    split
    · next hzero =>
      rw [← hmode hzero]
      exact ⟨rfl, rfl⟩
    · exact ⟨rfl, rfl⟩
  have hwindowed : p.selectMode.windowed = p.windowed := by
    rw [windowed, windowed, hides, hides, hcfg, htable]
  rw [configModeUpdate, (selectMode_settled p).update]
  change p.selectMode.selectPart.cfg.clamp = p.windowed.clamp
  rw [selectPart_cfg (hcfg ▸ hpart), hwindowed]

theorem Settled.configPartCb (h : p.Settled) : p.configPartCb.Settled :=
  configPartUpdate_settled h.byOffset

/-- The entries of the window can be chosen only if it is given by offset and size. -/
theorem hides_byPart_of_not {p : Page} (h : p.hides .byOffset = false) :
    p.hides .byPart = true := by
  obtain ⟨hmode, -⟩ := (hides_iff p .byOffset).mp h
  simp only [hides, hmode]
  rfl

theorem Settled.configOffsetCb (h : p.Settled) (hdisabled : p.offsetDisabled = false)
    {presses : ℕ → List Press} {q : Page} (hq : p.configOffsetCb presses = some q) : q.Settled := by
  obtain ⟨v, -, rfl⟩ := Option.map_eq_some_iff.mp hq
  have hhidden := hides_byPart_of_not (h.offsetDisabled ▸ hdisabled)
  have hwindowed : ({ p with cfg.offset := v } : Page).windowed = { p.cfg with offset := v } :=
    if_pos hhidden
  exact ⟨h.part, h.byOffset, clamp_windowed hwindowed rfl rfl, rfl, rfl⟩

theorem Settled.configSizeCb (h : p.Settled) (hdisabled : p.sizeDisabled = false)
    {presses : ℕ → List Press} {q : Page} (hq : p.configSizeCb presses = some q) : q.Settled := by
  obtain ⟨v, -, rfl⟩ := Option.map_eq_some_iff.mp hq
  have hhidden := hides_byPart_of_not (h.sizeDisabled ▸ hdisabled)
  have hwindowed : ({ p with cfg.size := v } : Page).windowed = { p.cfg with size := v } :=
    if_pos hhidden
  exact ⟨h.part, h.byOffset, clamp_windowed hwindowed rfl rfl, h.offsetDisabled, rfl⟩

/-! ## Opening it again -/

/-- The storage is read as it was when the menu was opened. -/
def Same (d : Device) (w : Storages) (p : Page) : Prop :=
  (volumeLoadPartTable d w p.cfg).1 = p.table ∧
    (volumeLoadPartTable d w p.cfg).2.physSize = p.cfg.physSize

/-- **The menu opened again**: the updates, on what has been read. -/
theorem Settled.opened (h : p.Settled) {d : Device} {w : Storages} (hsame : p.Same d w) :
    ∃ medium, (opened d w p.cfg).cfg =
      ({ p with cfg := p.cfg.reloaded p.cfg.physSize medium } : Page).derived := by
  obtain ⟨medium, hload⟩ := volumeLoadPartTable_reloaded d w p.cfg
  rw [hsame.2] at hload
  refine ⟨medium, ?_⟩
  have hread : volumeLoadPartTable d w p.cfg = (p.table, p.cfg.reloaded p.cfg.physSize medium) :=
    Prod.ext hsame.1 hload
  rw [Page.opened, hread]
  exact configModeUpdate_cfg h.byOffset h.part

/-- A window that is given by a partition is given again. -/
theorem Settled.neutral_of_shown (h : p.Settled) (hshown : p.hides .byPart = false)
    (medium : ℕ → UInt8) :
    ({ p with cfg := p.cfg.reloaded p.cfg.physSize medium } : Page).derived.Neutral p.cfg := by
  have hcfg := h.cfg
  rw [derived, windowed, hshown, if_neg Bool.false_ne_true] at hcfg
  have hwindowed : ({ p with cfg := p.cfg.reloaded p.cfg.physSize medium } : Page).windowed =
      (p.cfg.reloaded p.cfg.physSize medium).withPart (p.table.parts p.cfg.part) :=
    if_neg (Bool.not_eq_true _ ▸ hshown)
  rw [derived, hwindowed]
  have hoffset := congrArg VolumeCfg.offset hcfg
  have hsize := congrArg VolumeCfg.size hcfg
  exact ⟨rfl, rfl, rfl, hoffset, hsize⟩

/-- Any other is as large as it can be, if something could be read. -/
theorem Settled.neutral_of_hidden (h : p.Settled) (hhidden : p.hides .byPart = true)
    (medium : ℕ → UInt8) :
    ({ p with cfg := p.cfg.reloaded p.cfg.physSize medium } : Page).derived.Neutral p.cfg ↔
      p.cfg.physSize = 0 ∨ p.cfg.size = min p.cfg.physSize (sub32 p.cfg.physSize p.cfg.offset) := by
  have hwindowed : ({ p with cfg := p.cfg.reloaded p.cfg.physSize medium } : Page).windowed =
      p.cfg.reloaded p.cfg.physSize medium := if_pos hhidden
  rw [derived, hwindowed]
  by_cases hzero : p.cfg.physSize = 0
  · have hsize : (p.cfg.reloaded p.cfg.physSize medium).clamp.size = p.cfg.clamp.size := by
      simp only [VolumeCfg.clamp, VolumeCfg.reloaded, if_pos hzero]
    rw [h.clamp] at hsize
    exact iff_of_true ⟨rfl, rfl, rfl, rfl, hsize⟩ (.inl hzero)
  · have hsize := VolumeCfg.clamp_reloaded (c := p.cfg) hzero medium
    constructor
    · intro hneutral
      exact .inr (hneutral.size.symm.trans hsize)
    · intro hkept
      exact ⟨rfl, rfl, rfl, rfl, hsize.trans (hkept.resolve_left hzero).symm⟩

/-- **When opening the menu again is neutral.** -/
theorem Settled.neutral_iff (h : p.Settled) {d : Device} {w : Storages} (hsame : p.Same d w) :
    (Page.opened d w p.cfg).cfg.Neutral p.cfg ↔ p.cfg.Kept := by
  obtain ⟨medium, hopened⟩ := h.opened hsame
  rw [hopened, VolumeCfg.Kept, ← hides_iff]
  cases hhides : p.hides .byPart with
  | false => exact iff_of_true (h.neutral_of_shown hhides medium) (.inl rfl)
  | true =>
    rw [h.neutral_of_hidden hhides medium]
    exact (or_iff_right fun h ↦ absurd h.symm Bool.false_ne_true).symm

end Page

/-! ## Runs -/

namespace Ui

variable {u : Ui} {i : Input} {d : Device} {p : Page}

/-- What holds while the menu of a volume is open. -/
structure Open (u : Ui) (d : Device) (p : Page) : Prop where
  cfg : u.cfg.volumeCfgs d = p.cfg
  entry : u.cfg.entryDisabled d = false
  settled : p.Settled

/-- It holds of whichever menu is open. -/
def Shown (u : Ui) : Prop := ∀ d p, u.screen = .volume d p → u.Open d p

theorem shown_of_screen (h : ∀ d p, u.screen ≠ .volume d p) : u.Shown :=
  fun d p hscreen ↦ absurd hscreen (h d p)

theorem shown_show_ (hentry : u.cfg.entryDisabled d = false) (hp : p.Settled) :
    (u.show_ d p).Shown := by
  intro d' p' hscreen
  obtain ⟨rfl, rfl⟩ := Screen.volume.inj hscreen
  refine ⟨?_, ?_, hp⟩
  · exact Function.update_self d p.cfg u.cfg.volumeCfgs
  · rw [← hentry]
    cases d <;> rfl

theorem shown_showOr (hentry : u.cfg.entryDisabled d = false) {q : Option Page}
    (hq : ∀ p, q = some p → p.Settled) : (u.showOr d q).Shown := by
  cases q with
  | none => exact shown_of_screen fun _ _ h ↦ by cases h
  | some p => exact shown_show_ hentry (hq p rfl)

theorem Shown.onMenu (h : u.Shown) (hscreen : u.screen = .menu) : (u.onMenu i).Shown := by
  rw [Ui.onMenu]
  cases i.pick with
  | volume d =>
    cases hdisabled : u.cfg.entryDisabled d with
    | true => simpa [hdisabled] using h
    | false => simpa [hdisabled] using shown_show_ hdisabled (Page.opened_settled d i.storages _)
  | reload => exact shown_of_screen fun _ _ hpage ↦ by cases hscreen.symm.trans hpage
  | back => exact shown_of_screen fun _ _ hpage ↦ by cases hpage
  | _ => exact h

theorem Shown.onPage (h : u.Shown) (hscreen : u.screen = .volume d p) : (u.onPage d p i).Shown := by
  obtain ⟨-, hentry, hp⟩ := h d p hscreen
  rw [Ui.onPage]
  cases i.pick with
  | mount => exact shown_show_ hentry p.configMountModeCb_settled
  | mode =>
    cases hdisabled : p.modeDisabled with
    | true => simpa [hdisabled] using h
    | false => simpa [hdisabled] using shown_show_ hentry p.configModeCb_settled
  | part =>
    cases hdisabled : p.partDisabled with
    | true => simpa [hdisabled] using h
    | false => simpa [hdisabled] using shown_show_ hentry hp.configPartCb
  | offset presses =>
    cases hdisabled : p.offsetDisabled with
    | true => simpa [hdisabled] using h
    | false => simpa [hdisabled] using shown_showOr hentry fun _ hq ↦ hp.configOffsetCb hdisabled hq
  | size presses =>
    cases hdisabled : p.sizeDisabled with
    | true => simpa [hdisabled] using h
    | false => simpa [hdisabled] using shown_showOr hentry fun _ hq ↦ hp.configSizeCb hdisabled hq
  | back => exact shown_of_screen fun _ _ hpage ↦ by cases hpage
  | _ => exact h

/-- **The step lemma.** -/
theorem Shown.step (h : u.Shown) : (u.step i).Shown := by
  rw [Ui.step]
  cases hscreen : u.screen with
  | closed =>
    cases i.pick with
    | enter => exact shown_of_screen fun _ _ hpage ↦ by cases hpage
    | _ => exact h
  | menu => exact h.onMenu hscreen
  | volume d p => exact h.onPage hscreen
  | stuck => exact h

/-- Out of the menu of a volume, in again, and out again: the storages are those at the time of each
of the steps. -/
def reopening (d : Device) (w₁ w w₂ : Storages) : List Input :=
  [⟨.back, w₁⟩, ⟨.volume d, w⟩, ⟨.back, w₂⟩]

theorem run_reopening (hscreen : u.screen = .volume d p) (h : u.Open d p) (w₁ w w₂ : Storages) :
    (Machine.run Ui.step u (reopening d w₁ w w₂)).cfg.volumeCfgs d =
      (Page.opened d w p.cfg).cfg := by
  have hback : u.step ⟨.back, w₁⟩ = ⟨u.cfg, .menu⟩ := by
    rw [Ui.step, hscreen]
    rfl
  have hopen : Ui.step ⟨u.cfg, .menu⟩ ⟨.volume d, w⟩ = u.show_ d (.opened d w p.cfg) := by
    rw [← h.cfg]
    exact if_neg (Bool.not_eq_true _ ▸ h.entry)
  rw [reopening, Machine.run_cons, hback, Machine.run_cons, hopen, Machine.run_cons,
    Machine.run_nil]
  exact Function.update_self d _ u.cfg.volumeCfgs

end Ui

/-- **Reopening.**  In every state that is reached, by whatever sequence of choices and whatever
storages there were at the time, while the menu of a volume is open: if the menu is left, opened
again on a storage with the same table and the same size, and left again, then the configuration of
the volume is what it was if and only if its window is that of a partition, or the largest one from
its offset on, or nothing was known of the storage. -/
theorem reopening_neutral_iff {u : Ui} (hu : Machine.Reachable Ui.step (·.screen = .closed) u)
    {d : Device} {p : Page} (hscreen : u.screen = .volume d p) {w : Storages} (hsame : p.Same d w)
    (w₁ w₂ : Storages) :
    ((Machine.run Ui.step u (Ui.reopening d w₁ w w₂)).cfg.volumeCfgs d).Neutral
      (u.cfg.volumeCfgs d) ↔ (u.cfg.volumeCfgs d).Kept := by
  have hshown : u.Shown := hu.inv (I := Ui.Shown)
    (fun v hclosed ↦ Ui.shown_of_screen fun _ _ hpage ↦ by cases hclosed.symm.trans hpage)
    fun v i hv ↦ hv.step
  have hopen := hshown d p hscreen
  rw [Ui.run_reopening hscreen hopen, hopen.cfg]
  exact hopen.settled.neutral_iff hsame

/-! ## A size that is lost -/

/-- The SD card is to be mounted, and its size is chosen. -/
def narrowed : List Input :=
  [⟨.enter, largeCard⟩, ⟨.volume .sd, largeCard⟩, ⟨.size eightUp, largeCard⟩]

/-- The menu of the SD card, after `is`. -/
def pageAfter (is : List Input) : Page :=
  match (Machine.run Ui.step firstUi is).screen with
  | .volume _ p => p
  | _ => .opened .sd largeCard (.init .rw)

theorem reopening_neutral_narrowed :
    ((Machine.run Ui.step (Machine.run Ui.step firstUi narrowed)
      (Ui.reopening .sd largeCard largeCard largeCard)).cfg.volumeCfgs .sd).Neutral
      ((Machine.run Ui.step firstUi narrowed).cfg.volumeCfgs .sd) ↔
    ((Machine.run Ui.step firstUi narrowed).cfg.volumeCfgs .sd).Kept :=
  @reopening_neutral_iff _ ⟨firstUi, narrowed, rfl, rfl⟩ .sd (pageAfter narrowed) rfl largeCard
    ⟨rfl, rfl⟩ largeCard largeCard

/-- The size that was chosen is `0x700` sectors of `0x1000`, and all of them after the menu has been
opened again. -/
theorem reopening_counterexample :
    ((Machine.run Ui.step firstUi narrowed).cfg.volumeCfgs .sd).size = 0x700 ∧
    ((Machine.run Ui.step (Machine.run Ui.step firstUi narrowed)
      (Ui.reopening .sd largeCard largeCard largeCard)).cfg.volumeCfgs .sd).size = 0x1000 := by
  decide +kernel

end Volumes
end SdLoader
