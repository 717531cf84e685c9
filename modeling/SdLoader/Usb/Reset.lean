import SdLoader.Usb.Account

/-!
# The mass storage gadget: a bulk-only reset

A reset is meant for the device, that is for all its units, and `_handle_exception` carries it out
for the active one.  So another unit can stay locked, keep sense data, and never say that there has
been a reset.

* `Ums.Reset` — what a reset is to leave: no unit is locked or has sense data, and each is to report
  it.
* `Ums.Spared` — the condition: the units it is not carried out for are that way already.
* `Pending` — a unit is still to report the reset.  `Pending.step` keeps it, up to a command that
  has to be told; and `Pending.reports` is what that command is told.
* `reset_covers` — in a run from the start of a session, every reset covers the device if and only
  if the condition is met at each.
-/

set_option autoImplicit false

namespace SdLoader
namespace Usb

variable {volumes : List Volume} {secCnt : MmcType → ℕ} {env : Env} {s t : Ums} {g : Gadget} {i : ℕ}

/-! ## What a reset leaves -/

/-- A unit that has been reset. -/
structure LogicalUnit.Reset (l : LogicalUnit) : Prop where
  unlocked : l.preventMediumRemoval = 0
  sense : l.senseData = ssNoSense
  attention : l.unitAttentionData = ssResetOccurred

namespace Ums

/-- Every unit has been reset. -/
def Reset (s : Ums) : Prop := ∀ i < s.lunCnt, (s.luns i).Reset

/-- The units other than the active one are as a reset leaves them. -/
def Spared (s : Ums) : Prop := ∀ i < s.lunCnt, i ≠ s.lunIdx → (s.luns i).Reset

theorem setLun_luns (f : LogicalUnit → LogicalUnit) (s : Ums) (i : ℕ) :
    (s.setLun f).luns i = if i = s.lunIdx then f s.lun else s.luns i :=
  Function.update_apply ..

/-- What is only done to a unit that is in the table leaves alone what is not. -/
theorem luns_of_active {f : LogicalUnit → LogicalUnit} {u : Ums}
    (ht : t = if s.lunIdx < 16 then s.setLun f else u) (hu : u.luns = s.luns) :
    ∀ i < 16, t.luns i = if i = s.lunIdx then f s.lun else s.luns i := by
  intro i hi
  by_cases hidx : s.lunIdx < 16
  · rw [ht, if_pos hidx]
    exact setLun_luns f s i
  · have hne : i ≠ s.lunIdx := by
      rintro rfl
      exact hidx hi
    rw [ht, if_neg hidx, if_neg hne, hu]

/-- The units, and which of them is the active one. -/
theorem resetLun_luns (s : Ums) :
    s.resetLun.lunIdx = s.lunIdx ∧ s.resetLun.lunCnt = s.lunCnt ∧
      ∀ i < 16, s.resetLun.luns i =
        if i = s.lunIdx then
          { s.lun with
            preventMediumRemoval := 0
            senseData := ssNoSense
            unitAttentionData := ssNoSense
            senseDataInfo := 0
            infoValid := 0 }
        else s.luns i := by
  refine ⟨?_, ?_, luns_of_active (resetLun.eq_1 s) rfl⟩
  · rw [resetLun]
    split <;> rfl
  · rw [resetLun]
    split <;> rfl

theorem resetOccurred_luns (s : Ums) :
    s.resetOccurred.lunIdx = s.lunIdx ∧ s.resetOccurred.lunCnt = s.lunCnt ∧
      ∀ i < 16, s.resetOccurred.luns i =
        if i = s.lunIdx then { s.lun with unitAttentionData := ssResetOccurred } else s.luns i := by
  refine ⟨?_, ?_, luns_of_active (resetOccurred.eq_1 s) rfl⟩
  · rw [resetOccurred]
    split <;> rfl
  · rw [resetOccurred]
    split <;> rfl

/-- **What a reset does to the units.** -/
theorem handleException_luns (env : Env) (hstate : s.state = .protocolReset) :
    (s.handleException env).lunCnt = s.lunCnt ∧ ∀ i < 16, (s.handleException env).luns i =
      if i = s.lunIdx then
        { s.lun with
          preventMediumRemoval := 0
          senseData := ssNoSense
          unitAttentionData := ssResetOccurred
          senseDataInfo := 0
          infoValid := 0 }
      else s.luns i := by
  obtain ⟨t, ht, hidx, hcnt, hluns⟩ : ∃ t : Ums, t = s.takeException ∧ t.lunIdx = s.lunIdx ∧
      t.lunCnt = s.lunCnt ∧ ∀ i < 16, t.luns i =
        if i = s.lunIdx then
          { s.lun with
            preventMediumRemoval := 0
            senseData := ssNoSense
            unitAttentionData := ssNoSense
            senseDataInfo := 0
            infoValid := 0 }
        else s.luns i := by
    refine ⟨_, rfl, ?_⟩
    rw [takeException, hstate]
    exact resetLun_luns
      { s with bulk.inBufState := .empty, bulk.outBufState := .empty, state := .normal }
  obtain ⟨-, hcnt', hluns'⟩ := resetOccurred_luns { t with bulk.outIgnore := false }
  rw [handleException, hstate, ← ht]
  refine ⟨hcnt'.trans hcnt, fun i hi ↦ (hluns' i hi).trans ?_⟩
  dsimp only
  by_cases hactive : i = s.lunIdx
  · have hlun : t.lun = _ := (hluns t.lunIdx (hidx ▸ hactive ▸ hi)).trans (if_pos hidx)
    rw [if_pos (hactive.trans hidx.symm), if_pos hactive]
    change { t.lun with unitAttentionData := ssResetOccurred } = _
    rw [hlun]
  · rw [if_neg fun heq ↦ hactive (heq.trans hidx), if_neg hactive]
    exact (hluns i hi).trans (if_neg hactive)

/-- **When a reset covers the device.** -/
theorem handleException_reset (env : Env) (hcnt : s.lunCnt ≤ 16)
    (hstate : s.state = .protocolReset) : (s.handleException env).Reset ↔ s.Spared := by
  obtain ⟨hcnt', hluns⟩ := handleException_luns env hstate
  rw [Reset, hcnt']
  refine forall₂_congr fun i hi ↦ ?_
  rw [hluns i (Nat.lt_of_lt_of_le hi hcnt)]
  by_cases hactive : i = s.lunIdx
  · rw [if_pos hactive]
    exact iff_of_true ⟨rfl, rfl, rfl⟩ fun hne ↦ absurd hactive hne
  · rw [if_neg hactive]
    exact ⟨fun h _ ↦ h, fun h ↦ h hactive⟩

/-- A device that has been reset does not keep the button combination from ending the session. -/
theorem Reset.preventMediaRemoval (h : s.Reset) : s.preventMediaRemoval = false := by
  simp only [Ums.preventMediaRemoval, List.any_eq_false, decide_eq_true_eq, not_not]
  intro l hl
  obtain ⟨i, hi, rfl⟩ := List.mem_map.mp hl
  exact (h i (List.mem_range.mp hi)).unlocked

end Ums

/-! ## A unit that is to report the reset -/

namespace Gadget

/-- The step begins a command for unit `i` that a unit attention has to be reported to first. -/
def Commands (i : ℕ) (g : Gadget) (env : Env) : Prop :=
  ∃ s, g = .parse s ∧ s.lunIdx = i ∧ ¬(s.handleEp0Ctrl env).Misphased ∧
    s.cmnd 0 ≠ scInquiry ∧ s.cmnd 0 ≠ scRequestSense

end Gadget

namespace Ums

/-- A unit attention is left for INQUIRY and REQUEST SENSE. -/
theorem checkUnit_exempt (mask : ℕ) (needsMedium : Bool)
    (h : s.cmnd 0 = scInquiry ∨ s.cmnd 0 = scRequestSense) :
    (s.checkUnit mask needsMedium).2.lunIdx = s.lunIdx ∧
      (s.checkUnit mask needsMedium).2.lun.unitAttentionData = s.lun.unitAttentionData := by
  have hexempt : ¬(s.lun.unitAttentionData ≠ ssNoSense ∧ s.cmnd 0 ≠ scInquiry ∧
      s.cmnd 0 ≠ scRequestSense) := by
    rintro ⟨-, hinquiry, hsense⟩
    exact h.elim hinquiry hsense
  have hsense : ∀ code, ((s.maskLun.sense code).lun).unitAttentionData =
      s.lun.unitAttentionData := by
    intro code
    rw [sense, setLun_lun]
    rfl
  rw [checkUnit, if_neg hexempt]
  split
  · exact ⟨rfl, hsense _⟩
  split
  · exact ⟨rfl, hsense _⟩
  · exact ⟨rfl, rfl⟩

/-- And so it is by what is done for them. -/
theorem handle_exempt (env : Env) {c : ScsiCmd} (h : c = .inquiry ∨ c = .requestSense) (s : Ums) :
    ∃ r t, c.handle env s = .replied r t ∧ t.lunIdx = s.lunIdx ∧
      t.lun.unitAttentionData = s.lun.unitAttentionData := by
  rcases h with rfl | rfl
  · refine ⟨_, _, rfl, ?_⟩
    rw [scsiInquiry]
    split <;> exact ⟨rfl, rfl⟩
  · refine ⟨_, _, rfl, rfl, ?_⟩
    change (s.setLun fun l ↦ { l with
      senseData := ssNoSense, senseDataInfo := 0, infoValid := 0 }).lun.unitAttentionData = _
    rw [setLun_lun]

theorem cmd_exempt (h : s.cmnd 0 = scInquiry ∨ s.cmnd 0 = scRequestSense) :
    s.cmd = .inquiry ∨ s.cmd = .requestSense := by
  rcases h with hinquiry | hsense
  · exact .inl (by rw [cmd, hinquiry]; rfl)
  · exact .inr (by rw [cmd, hsense]; rfl)

theorem clearSense_attention (s : Ums) : s.clearSense.lunIdx = s.lunIdx ∧
    s.clearSense.cmnd = s.cmnd ∧ s.clearSense.lun.unitAttentionData = s.lun.unitAttentionData := by
  rw [clearSense]
  split
  · rw [setLun_lun]
    exact ⟨rfl, rfl, rfl⟩
  · exact ⟨rfl, rfl, rfl⟩

/-- **A command that need not report a unit attention** leaves it. -/
theorem parse_exempt (env : Env)
    (h : s.Misphased ∨ s.cmnd 0 = scInquiry ∨ s.cmnd 0 = scRequestSense) :
    ∃ r t, s.parseScsiCmd env = .replied r t ∧ t.lunIdx = s.lunIdx ∧
      t.lun.unitAttentionData = s.lun.unitAttentionData := by
  obtain ⟨hluns, hidx, hcmnd⟩ := limitData_luns s.opened
  have hlimited : s.opened.limitData.lun = s.lun := by
    rw [lun, hluns, hidx]
    rfl
  by_cases hphase : s.Misphased
  · rw [parseScsiCmd, checked_of_misphased hphase]
    exact ⟨_, _, rfl, hidx, congrArg LogicalUnit.unitAttentionData hlimited⟩
  have hcode := h.resolve_left hphase
  obtain ⟨u, hu⟩ : ∃ u, u = s.opened.limitData.clearSense := ⟨_, rfl⟩
  obtain ⟨hidx', hcmnd', hattention⟩ := clearSense_attention s.opened.limitData
  rw [← hu] at hidx' hcmnd' hattention
  have hcode' : u.cmnd 0 = scInquiry ∨ u.cmnd 0 = scRequestSense := by
    rw [hcmnd', hcmnd]
    exact hcode
  obtain ⟨hidx'', hattention'⟩ := checkUnit_exempt (s.cmd.spec s).mask (s.cmd.spec s).needsMedium
    hcode'
  rw [hidx', hidx] at hidx''
  rw [hattention, hlimited] at hattention'
  rw [parseScsiCmd, checked_of_phased hphase, ← hu]
  generalize u.checkUnit (s.cmd.spec s).mask (s.cmd.spec s).needsMedium = c at hidx'' hattention' ⊢
  obtain ⟨_ | _, v⟩ := c
  · exact ⟨_, _, rfl, hidx'', hattention'⟩
  · obtain ⟨r, w, hw, hwidx, hwattention⟩ := handle_exempt env (cmd_exempt hcode) v
    exact ⟨r, w, hw, hwidx.trans hidx'', hwattention.trans hattention'⟩

/-- **A command that has to report one** reports it, and nothing else is done for it. -/
theorem parse_reports (env : Env) (hphase : ¬s.Misphased) (hinquiry : s.cmnd 0 ≠ scInquiry)
    (hsense : s.cmnd 0 ≠ scRequestSense) (hattention : s.lun.unitAttentionData ≠ ssNoSense) :
    ∃ t, s.parseScsiCmd env = .replied .invalidArg t ∧ t.lunIdx = s.lunIdx ∧
      t.lun.senseData = s.lun.unitAttentionData := by
  obtain ⟨hluns, hidx, hcmnd⟩ := limitData_luns s.opened
  have hlimited : s.opened.limitData.lun = s.lun := by
    rw [lun, hluns, hidx]
    rfl
  obtain ⟨u, hu⟩ : ∃ u, u = s.opened.limitData.clearSense := ⟨_, rfl⟩
  obtain ⟨hidx', hcmnd', hattention'⟩ := clearSense_attention s.opened.limitData
  rw [← hu, hlimited] at hattention'
  rw [← hu] at hidx' hcmnd'
  have hopened : s.opened.cmnd = s.cmnd := rfl
  have htold : u.lun.unitAttentionData ≠ ssNoSense ∧ u.cmnd 0 ≠ scInquiry ∧
      u.cmnd 0 ≠ scRequestSense := by
    rw [hattention', hcmnd', hcmnd]
    exact ⟨hattention, hinquiry, hsense⟩
  rw [parseScsiCmd, checked_of_phased hphase, ← hu, checkUnit, if_pos htold]
  refine ⟨_, rfl, hidx'.trans hidx, ?_⟩
  rw [setLun_lun]
  exact hattention'

end Ums

namespace Gadget

theorem loopEnd_ne_writing (s : Ums) (x : Ums.WriteLoop) : loopEnd s ≠ .writing x := by
  rw [loopEnd]
  split <;> exact Gadget.noConfusion

theorem parsed_ne_writing (s : Ums) (x : Ums.WriteLoop) : parsed s ≠ .writing x := by
  rw [parsed]
  split
  · exact loopEnd_ne_writing s x
  · exact Gadget.noConfusion

/-- A write goes on from its own start only. -/
theorem step_ne_writing (env : Env) (x : Ums.WriteLoop) (hparse : ∀ s, g ≠ .parse s)
    (hwriting : ∀ y, g ≠ .writing y) : g.step env ≠ .writing x := by
  cases g with
  | top s =>
    by_cases hleaves : s.Leaves env
    · rw [step_leaves hleaves]
      exact Gadget.noConfusion
    by_cases hnormal : s.state = .normal
    · rw [step_top hnormal hleaves, afterWait]
      dsimp only
      split
      · exact loopEnd_ne_writing _ x
      · exact Gadget.noConfusion
    · rw [step_top_exception hnormal hleaves]
      exact loopEnd_ne_writing _ x
  | parse s => exact absurd rfl (hparse s)
  | writing y => exact absurd rfl (hwriting y)
  | reply s =>
    rw [step]
    dsimp only
    split
    · exact loopEnd_ne_writing _ x
    · exact Gadget.noConfusion
  | status s => exact loopEnd_ne_writing _ x
  | exited s => exact Gadget.noConfusion

/-- Unit `i` is to report a reset, unless the session is over. -/
structure Pending (i : ℕ) (g : Gadget) : Prop where
  writeOk : g.WriteOk
  attention : (∃ s, g = .exited s) ∨ (g.ums.luns i).unitAttentionData = ssResetOccurred
  writing : ∀ x, g = .writing x → x.s.lunIdx ≠ i
  state : ∀ s, g = .top s → s.state ≠ .terminated

/-- A step for another unit. -/
theorem Pending.of_ne (h : g.Pending i) (hgo : ∀ s, g ≠ .exited s) (htop : ∀ s, g ≠ .top s)
    (hne : i ≠ g.ums.lunIdx) : (g.step env).Pending i := by
  obtain ⟨hdoes, hok⟩ := step_does env htop h.writeOk
  obtain ⟨b, hunit⟩ := step_luns_of_ne env htop h.writeOk hne
  have hattention := h.attention.resolve_left fun ⟨s, hs⟩ ↦ hgo s hs
  refine ⟨hok, .inr ?_, fun x hx hi ↦ ?_, fun _ hs ↦ step_top_state hs⟩
  · rw [hunit]
    exact hattention
  · have hidx := hdoes.lunIdx
    rw [hx] at hidx
    exact hne (hi.symm.trans hidx)

/-- The end of a command. -/
theorem Pending.closing (h : g.Pending i) (hclosing : g.Closing) : (g.step env).Pending i := by
  have hluns : (g.step env).ums.luns = g.ums.luns :=
    congrArg Account.luns (step_account env hclosing)
  have hgo : ∀ s, g ≠ .exited s ∧ g ≠ .top s ∧ g ≠ .parse s := by
    intro s
    refine ⟨?_, ?_, ?_⟩ <;> rintro rfl <;> exact hclosing
  have hwriting : ∀ y, g ≠ .writing y := by
    rintro y rfl
    exact hclosing
  refine ⟨(step_does env (fun s ↦ (hgo s).2.1) h.writeOk).2, .inr ?_, fun x hx ↦ ?_,
    fun _ hs ↦ step_top_state hs⟩
  · rw [hluns]
    exact h.attention.resolve_left fun ⟨s, hs⟩ ↦ (hgo s).1 hs
  · exact absurd hx (step_ne_writing env x (fun s ↦ (hgo s).2.2) hwriting)

/-- An iteration. -/
theorem Pending.top (hi : i < 16) (h : (Gadget.top s).Pending i) :
    (step (.top s) env).Pending i := by
  have hattention : (s.luns i).unitAttentionData = ssResetOccurred :=
    h.attention.resolve_left fun ⟨t, ht⟩ ↦ by cases ht
  refine ⟨(top_does env s).1, ?_, fun x hx ↦ ?_, fun _ hs ↦ step_top_state hs⟩
  · by_cases hreset : (Gadget.top s).Resets env
    · obtain ⟨_, ⟨rfl⟩, hstay, hraised, habort⟩ := hreset
      rw [step_top_exception hraised hstay]
      have hpolled : (s.poll env).2.state = s.state := rfl
      cases hstate : s.state with
      | normal => exact absurd hstate hraised
      | abortBulkOut => exact absurd hstate habort
      | protocolReset =>
        obtain ⟨-, hluns⟩ := Ums.handleException_luns env (hpolled.trans hstate)
        rw [ums_loopEnd, hluns i hi]
        refine .inr ?_
        split
        · rfl
        · exact hattention
      | exit =>
        refine .inl ⟨_, if_pos ?_⟩
        rw [Ums.handleException, hpolled, hstate]
      | terminated => exact absurd hstate (h.state s rfl)
    · rw [(top_luns hreset).1]
      exact .inr hattention
  · refine absurd hx (step_ne_writing env x ?_ ?_)
    · exact fun _ ht ↦ by cases ht
    · exact fun _ ht ↦ by cases ht

/-- **The step lemma.**  The reset is to be reported still, unless the step has begun a command that
it has been reported to. -/
theorem Pending.step (hi : i < 16) (h : g.Pending i) (hnone : ¬g.Commands i env) :
    (g.step env).Pending i := by
  cases g with
  | top s => exact h.top hi
  | exited s => exact h
  | parse s =>
    have htop : ∀ t, Gadget.parse s ≠ .top t := fun _ ht ↦ by cases ht
    by_cases hidx : i = s.lunIdx
    · have hattention : (s.luns i).unitAttentionData = ssResetOccurred :=
        h.attention.resolve_left fun ⟨t, ht⟩ ↦ by cases ht
      have hpolled := Ums.handleEp0Ctrl_account env s
      have hcmnd : (s.handleEp0Ctrl env).cmnd = s.cmnd := congrArg Account.cmnd hpolled
      have hpidx : (s.handleEp0Ctrl env).lunIdx = s.lunIdx := congrArg Account.lunIdx hpolled
      have hpluns : (s.handleEp0Ctrl env).luns = s.luns := congrArg Account.luns hpolled
      have hexempt : (s.handleEp0Ctrl env).Misphased ∨ (s.handleEp0Ctrl env).cmnd 0 = scInquiry ∨
          (s.handleEp0Ctrl env).cmnd 0 = scRequestSense := by
        by_contra hall
        rw [hcmnd, not_or, not_or] at hall
        exact hnone ⟨s, rfl, hidx.symm, hall⟩
      obtain ⟨r, t, ht, htidx, htattention⟩ := Ums.parse_exempt env hexempt
      obtain ⟨hrluns, -, -⟩ := Ums.setUpReply_luns r t
      rw [step_parse_replied ht]
      refine ⟨parsed_writeOk _, .inr ?_, fun x hx ↦ absurd hx (parsed_ne_writing _ x),
        fun _ hs ↦ parsed_top hs⟩
      rw [Ums.lun, Ums.lun, htidx, hpidx, hpluns, ← hidx, hattention] at htattention
      rw [ums_parsed, hrluns]
      exact htattention
    · exact h.of_ne (fun _ ht ↦ by cases ht) htop hidx
  | writing x =>
    exact h.of_ne (fun _ ht ↦ by cases ht) (fun _ ht ↦ by cases ht) (h.writing x rfl).symm
  | reply s | status s =>
    exact h.closing trivial

/-- What the first command is told that has to be told of the reset. -/
theorem Pending.reports (h : g.Pending i) (hfirst : g.Commands i env) :
    ((g.step env).ums.luns i).senseData = ssResetOccurred := by
  obtain ⟨s, rfl, rfl, hphase, hinquiry, hsense⟩ := hfirst
  have hattention : s.lun.unitAttentionData = ssResetOccurred :=
    h.attention.resolve_left fun ⟨t, ht⟩ ↦ by cases ht
  have hpolled := Ums.handleEp0Ctrl_account env s
  have hcmnd : (s.handleEp0Ctrl env).cmnd = s.cmnd := congrArg Account.cmnd hpolled
  have hidx : (s.handleEp0Ctrl env).lunIdx = s.lunIdx := congrArg Account.lunIdx hpolled
  have hluns : (s.handleEp0Ctrl env).luns = s.luns := congrArg Account.luns hpolled
  have hlun : (s.handleEp0Ctrl env).lun = s.lun := by rw [Ums.lun, Ums.lun, hidx, hluns]
  obtain ⟨t, ht, htidx, htsense⟩ := Ums.parse_reports env hphase (by rw [hcmnd]; exact hinquiry)
    (by rw [hcmnd]; exact hsense) (by rw [hlun, hattention]; decide)
  obtain ⟨hrluns, -, -⟩ := Ums.setUpReply_luns .invalidArg t
  rw [step_parse_replied ht, ums_parsed, hrluns, ← hattention, ← hlun, ← htsense, Ums.lun, htidx,
    hidx]

/-- The run lemma: a unit that is to report a reset reports it to the first command that has to be
told. -/
theorem Pending.run (hi : i < 16) (h : g.Pending i) {is : List Env}
    (hnone : Machine.Along Gadget.step (fun g env ↦ ¬g.Commands i env) g is) :
    (Machine.run Gadget.step g is).Pending i :=
  Machine.run_inv_along (fun _ _ hp hn ↦ hp.step hi hn) h hnone

/-! ## A reset in a session -/

/-- A reset is handled in the step. -/
def HandlesReset (g : Gadget) (env : Env) : Prop :=
  ∃ s, g = .top s ∧ ¬s.Leaves env ∧ s.state = .protocolReset

/-- **The condition**: the units the handler leaves out are as a reset leaves them. -/
def SparedIn (g : Gadget) (env : Env) : Prop := g.HandlesReset env → g.ums.Spared

/-- **What a reset is to come to.**  Every unit is unlocked, has no sense data, and a unit attention
that says that there has been a reset.  So no unit keeps the session from ending, and from here on
each reports the reset to the first command that has to be told of it. -/
def CoveredBy (g : Gadget) (env : Env) : Prop :=
  g.HandlesReset env → (g.step env).ums.Reset ∧ (g.step env).ums.preventMediaRemoval = false ∧
    ∀ i < (g.step env).ums.lunCnt, ∀ is last,
      Machine.Along Gadget.step (fun g env ↦ ¬g.Commands i env) (g.step env) is →
      (Machine.run Gadget.step (g.step env) is).Commands i last →
      (((Machine.run Gadget.step (g.step env) is).step last).ums.luns i).senseData = ssResetOccurred

/-- The table has sixteen places. -/
def Tabled (g : Gadget) : Prop := g.WriteOk ∧ g.ums.lunCnt ≤ 16

theorem Tabled.step (h : g.Tabled) (env : Env) : (g.step env).Tabled := by
  by_cases htop : ∃ s, g = .top s
  · obtain ⟨s, rfl⟩ := htop
    obtain ⟨hok, hdoes | ⟨t, hover⟩⟩ := top_does env s
    · exact ⟨hok, hdoes.1.lunCnt.trans_le h.2⟩
    · obtain ⟨-, hcnt, -⟩ := Ums.acceptCbw_keeps env t
      refine ⟨hok, ?_⟩
      rw [hover.after.lunCnt, hcnt, hover.before.lunCnt]
      exact h.2
  · obtain ⟨hdoes, hok⟩ := step_does env (fun s hs ↦ htop ⟨s, hs⟩) h.1
    exact ⟨hok, hdoes.lunCnt.trans_le h.2⟩

/-- **The step lemma**: a reset covers the device if and only if the others need none. -/
theorem coveredBy_iff (h : g.Tabled) : CoveredBy g env ↔ SparedIn g env := by
  refine imp_congr_right fun hhandles ↦ ?_
  obtain ⟨s, rfl, hstay, hstate⟩ := hhandles
  have hraised : s.state ≠ .normal := by simp [hstate]
  have hpolled : (s.poll env).2.state = .protocolReset := hstate
  have hstep : (Gadget.step (.top s) env).ums = (s.poll env).2.handleException env := by
    rw [step_top_exception hraised hstay, ums_loopEnd]
  have hiff := Ums.handleException_reset env (s := (s.poll env).2) h.2 hpolled
  rw [← hstep] at hiff
  have hspared : (s.poll env).2.Spared ↔ (Gadget.top s).ums.Spared := .rfl
  rw [← hspared, ← hiff]
  constructor
  · exact fun hcovered ↦ hcovered.1
  · intro hreset
    refine ⟨hreset, hreset.preventMediaRemoval, fun i hi is last hnone hlast ↦ ?_⟩
    have hcnt : (Gadget.step (.top s) env).ums.lunCnt ≤ 16 := (h.step env).2
    have hi16 : i < 16 := Nat.lt_of_lt_of_le hi hcnt
    have hpending : (Gadget.step (.top s) env).Pending i := by
      refine ⟨(h.step env).1, .inr (hreset i hi).attention, fun x hx ↦ ?_,
        fun _ hs ↦ step_top_state hs⟩
      refine absurd hx (step_ne_writing env x ?_ ?_)
      · exact fun _ ht ↦ by cases ht
      · exact fun _ ht ↦ by cases ht
    exact (hpending.run hi16 hnone).reports hlast

end Gadget

/-- **A bulk-only reset.**  In a run from the start of a session, every reset that is handled covers
the device if and only if each finds the units other than the active one unlocked, without sense
data, and with a reset to report. -/
theorem reset_covers (hstart : Starts volumes secCnt g) (is : List Env) :
    Machine.Along Gadget.step Gadget.CoveredBy g is ↔
      Machine.Along Gadget.step Gadget.SparedIn g is := by
  obtain ⟨hcnt, w, -, rfl⟩ := hstart
  have htabled : (Gadget.top (.start volumes secCnt w)).Tabled := ⟨trivial, hcnt⟩
  constructor
  · exact Machine.along_of_inv (I := Gadget.Tabled) (fun _ env h _ ↦ h.step env)
      (fun _ _ h ↦ (Gadget.coveredBy_iff h).mp) htabled
  · exact Machine.along_of_inv (I := Gadget.Tabled) (fun _ env h _ ↦ h.step env)
      (fun _ _ h ↦ (Gadget.coveredBy_iff h).mpr) htabled

/-- A step in which a reset is found when the gadget looks for one at the tick `n`. -/
def resetAt (n : ℕ) : Env := fun k ↦ { calm with flag := decide (k = n) }

theorem reset_covers_active :
    Machine.Along Gadget.step Gadget.CoveredBy (firstGadget [sdVolume])
      (firstCommand 0 ++ [resetAt 7, calmly]) := by
  have hone : ∀ g env, g.ums.lunCnt = 1 → g.ums.lunIdx = 0 → Gadget.SparedIn g env := by
    intro g env hcnt hidx _ i hi hne
    rw [hcnt] at hi
    exact absurd ((Nat.lt_one_iff.mp hi).trans hidx.symm) hne
  refine (reset_covers (starts_firstGadget (by decide)) _).mpr ⟨?_, ?_, ?_, ?_, ?_, ?_, trivial⟩
  · rintro ⟨_, ⟨rfl⟩, -, hstate⟩
    cases hstate
  · exact hone _ _ (by decide +kernel) (by decide +kernel)
  · exact hone _ _ (by decide +kernel) (by decide +kernel)
  · exact hone _ _ (by decide +kernel) (by decide +kernel)
  · exact hone _ _ (by decide +kernel) (by decide +kernel)
  · exact hone _ _ (by decide +kernel) (by decide +kernel)

/-- Unit 1 is locked, unit 0 gets a command, and then there is a reset: unit 1 is locked still. -/
theorem reset_counterexample :
    ¬∀ is, Machine.Along Gadget.step Gadget.CoveredBy (firstGadget [sdVolume, sdVolume]) is := by
  intro h
  have hall := h ((firstCommand 1 ++ [hears (wrapper 0 0 1 [0x1E, 0, 0, 0, 1, 0]), calmly, calmly,
    calmly] ++ firstCommand 0 ++ [resetAt 19]) ++ [calmly])
  obtain ⟨-, hcovered, -⟩ := (Machine.along_append ..).mp hall
  obtain ⟨-, hfree, -⟩ := hcovered ⟨_, rfl, fun hleaves ↦ Bool.false_ne_true hleaves.1,
    by decide +kernel⟩
  exact absurd hfree (by decide +kernel)

end Usb
end SdLoader
