import SdLoader.Usb.Access

/-!
# The mass storage gadget: the active unit

`lun_idx` is 16 until the first command block is taken over, and `luns` has sixteen places.

* `Gadget.Indexes` — the steps in which the code reads or writes `luns[lun_idx]`.
* `Ums.Unaddressed` — the gadget before the first command: every unit is as it was at the start, and
  no exception is pending.
* `Calm` — the condition on a step: as long as there is no active unit, no reset arrives and the
  timeouts stay below their limit, unless a command block arrives as well.
* `lunIdx_valid` — along calm steps every access is one to a unit of the table, and the first step
  that is not calm is followed by an access to none.

Nothing but an exception can look at the active unit before there is one, since everything else
follows a command block.
-/

set_option autoImplicit false

namespace SdLoader
namespace Usb

variable {volumes : List Volume} {secCnt : MmcType → ℕ} {env : Env} {s t : Ums} {g : Gadget}

namespace Ums

/-- The button combination ends the session. -/
def Leaves (env : Env) (s : Ums) : Prop :=
  (env s.w.tick).flag = true ∧ s.preventMediaRemoval = false

/-- `_check_scsi_cmd` refuses the command for its direction or its length.  It has not looked at the
unit then. -/
def Misphased (s : Ums) : Prop :=
  s.opened.directionDiffers (s.cmd.spec s).dataDir = true ∨ s.cmndSize < (s.cmd.spec s).cmndSize

/-- What was waited for is a meaningful command block. -/
def HoldsCommand (t : Ums) : Prop :=
  t.bulk.outStatus = 0 ∧ t.bulk.outIgnore = false ∧ t.bulk.outLengthActual = usbBulkCbWrapLen ∧
    Store.word t.w.mem t.bulk.outBuf = usbBulkCbSig ∧ ¬ t.cbwMeaningless

/-- The gadget when the wait for a command block is over, in an iteration without an exception. -/
def waited (env : Env) (s : Ums) : Ums := ((s.poll env).2.handleEp0Ctrl env).awaitCbw env

end Ums

/-- The timeouts a failed wait for a command block counts, as long as all units are mounted and may
be removed. -/
def timeoutsFor (res : ℕ) (asleep : Bool) : ℕ :=
  if res = usb2ErrorXferEpDisabled then 4
  else if res = usbErrorTimeout ∧ asleep = true then 14
  else 0

/-- The timeouts after a wait for a command block. -/
def Ums.counted (env : Env) (t : Ums) : ℕ :=
  t.timeouts + timeoutsFor t.bulk.outStatus (env t.w.tick).flag

/-- Does the step read or write `luns[lun_idx]`? -/
def Gadget.Indexes (env : Env) : Gadget → Prop
  | .top s => ¬ s.Leaves env ∧ s.state ≠ .normal
  | .parse s => ¬ (s.handleEp0Ctrl env).Misphased
  | .writing x => x.amountLeftToWrite ≠ 0 ∧ (x.amountLeftToReq ≠ 0 ∨ x.s.bulk.outBufState = .full)
  | .reply _ => False
  | .status _ => True
  | .exited _ => False

/-- **The condition on a step.**  Without an active unit, an iteration ends the session, brings a
command block, or goes by without a reset and within the limit of timeouts. -/
def Calm : Gadget → Env → Prop
  | .top s, env => s.lunCnt ≤ s.lunIdx → s.Leaves env ∨ (s.waited env).HoldsCommand ∨
      (env (s.w.tick + 1)).flag = false ∧ (s.waited env).counted env ≤ 20
  | _, _ => True

namespace Ums

/-! ## Before the first command -/

/-- What the iterations before the first command leave as it is. -/
def setting (s : Ums) : (ℕ × ℕ × (ℕ → LogicalUnit)) × Bool × Bool :=
  ((s.lunIdx, s.lunCnt, s.luns), s.allLunsUnmounted, s.xusb)

/-- All units are as they were at the start, and none is active. -/
structure Unaddressed (s : Ums) : Prop where
  inactive : s.lunCnt ≤ s.lunIdx
  units : ∀ l ∈ s.units, l.removable ≠ 0 ∧ l.preventMediumRemoval = 0
  mounted : s.allLunsUnmounted = false
  xusb : s.xusb = true
  timeouts : s.timeouts ≤ 20

theorem Unaddressed.of_setting (h : s.Unaddressed) (hsetting : t.setting = s.setting)
    (htimeouts : t.timeouts ≤ 20) : t.Unaddressed := by
  simp only [setting, Prod.mk.injEq] at hsetting
  obtain ⟨⟨hidx, hcnt, hluns⟩, hmounted, hxusb⟩ := hsetting
  refine ⟨?_, ?_, hmounted.trans h.mounted, hxusb.trans h.xusb, htimeouts⟩
  · rw [hidx, hcnt]
    exact h.inactive
  · rw [Ums.units, hcnt, hluns]
    exact h.units

theorem start_unaddressed (hlen : volumes.length ≤ 16) (w : World) :
    (start volumes secCnt w).Unaddressed := by
  refine ⟨hlen, ?_, rfl, rfl, Nat.zero_le _⟩
  intro l hl
  obtain ⟨i, hi, rfl⟩ := List.mem_map.mp hl
  obtain ⟨v, -, -, hunit⟩ := table_of_lt secCnt (List.mem_range.mp hi)
  have hluns : (start volumes secCnt w).luns i = v.unit secCnt := hunit
  simp [hluns, Volume.unit]

/-- Nothing prevents the button combination from ending the session. -/
theorem Unaddressed.preventMediaRemoval (h : s.Unaddressed) : s.preventMediaRemoval = false := by
  simp only [Ums.preventMediaRemoval, List.any_eq_false, decide_eq_true_eq, not_not]
  intro l hl
  exact (h.units l hl).2

/-- An iteration up to the end of the wait. -/
theorem waited_keeps (env : Env) (s : Ums) :
    (s.waited env).setting = s.setting ∧ (s.waited env).timeouts = s.timeouts ∧
      (s.waited env).state =
        if (env (s.w.tick + 1)).flag then (s.raiseException .protocolReset).state else s.state := by
  have hawait : ∀ u : Ums, (u.awaitCbw env).setting = u.setting ∧
      (u.awaitCbw env).timeouts = u.timeouts ∧ (u.awaitCbw env).state = u.state := by
    intro u
    simp only [awaitCbw]
    split <;> exact ⟨rfl, rfl, rfl⟩
  obtain ⟨hsetting, htimeouts, hstate⟩ := hawait ((s.poll env).2.handleEp0Ctrl env)
  rw [waited, hsetting, htimeouts, hstate]
  simp only [handleEp0Ctrl, poll, World.next]
  cases (env (s.w.tick + 1)).flag with
  | false => exact ⟨rfl, rfl, rfl⟩
  | true =>
    simp only [raiseException]
    split <;> simp [setting]

/-- The timeouts that are counted when the wait has failed. -/
theorem Unaddressed.countEpTimeouts (h : t.Unaddressed) (env : Env) :
    (t.countEpTimeouts env).bulk = t.bulk ∧ (t.countEpTimeouts env).setting = t.setting ∧
      (t.countEpTimeouts env).timeouts = t.counted env ∧
      (t.countEpTimeouts env).state = t.state := by
  have hxusb := h.xusb
  have hremovable : (t.units.all (·.removable ≠ 0)) = true := by
    rw [List.all_eq_true]
    intro l hl
    simpa using (h.units l hl).1
  have hprevent : (t.units.all (·.preventMediumRemoval = 0)) = true := by
    rw [List.all_eq_true]
    intro l hl
    simpa using (h.units l hl).2
  rw [Ums.countEpTimeouts, counted, timeoutsFor]
  by_cases hdisabled : t.bulk.outStatus = usb2ErrorXferEpDisabled
  · rw [if_pos hdisabled, if_pos hdisabled]
    exact ⟨rfl, rfl, rfl, rfl⟩
  · rw [if_neg hdisabled, if_neg hdisabled]
    by_cases htimeout : t.bulk.outStatus = usbErrorTimeout
    · -- On this controller a wait that only takes long counts nothing.
      rw [if_pos ⟨htimeout, hremovable, hprevent⟩, poll]
      cases (env t.w.tick).flag <;> simp [htimeout, hxusb, setting]
    · rw [if_neg fun h ↦ htimeout h.1, if_neg fun h ↦ htimeout h.1]
      exact ⟨rfl, rfl, rfl, rfl⟩

/-- And what follows when they are too many. -/
theorem Unaddressed.countTimeouts (h : t.Unaddressed) (env : Env) :
    (t.countTimeouts env).bulk = t.bulk ∧ (t.countTimeouts env).setting = t.setting ∧
      (t.countTimeouts env).timeouts = t.counted env ∧
      (t.countTimeouts env).state =
        if 20 < t.counted env then (t.raiseException .exit).state else t.state := by
  obtain ⟨hbulk, hsetting, htimeouts, hstate⟩ := h.countEpTimeouts env
  have hmounted : (t.countEpTimeouts env).allLunsUnmounted = false :=
    (congrArg (·.2.1) hsetting).trans h.mounted
  have hsame : (t.countEpTimeouts env).countUnmounted = t.countEpTimeouts env := by
    simp [countUnmounted, hmounted]
  simp only [Ums.countTimeouts, hsame, htimeouts]
  split
  · simp only [raiseException, hstate]
    split
    · exact ⟨hbulk, hsetting, htimeouts, rfl⟩
    · exact ⟨hbulk, hsetting, htimeouts, hstate⟩
  · exact ⟨hbulk, hsetting, htimeouts, hstate⟩

/-- What is made of a wait that has succeeded. -/
theorem receivedCbw_of_ok (hmounted : t.allLunsUnmounted = false) (hstatus : t.bulk.outStatus = 0) :
    t.receivedCbw env =
      if t.bulk.outIgnore then (false, t) else { t with cbwReqQueued := false }.readCbw env := by
  have hcounts : ¬ (t.bulk.outStatus ≠ 0 ∨ t.allLunsUnmounted = true) := by
    simp [hstatus, hmounted]
  simp only [receivedCbw, if_neg hcounts]
  simp only [hstatus, ne_eq, not_true_eq_false, false_or]

/-- A wait that brings a command block makes its unit the active one. -/
theorem receivedCbw_holds (env : Env) (hmounted : t.allLunsUnmounted = false) (h : t.HoldsCommand) :
    (t.receivedCbw env).1 = true ∧ (t.receivedCbw env).2.lunIdx < (t.receivedCbw env).2.lunCnt := by
  obtain ⟨hstatus, hignore, hlen, hsig, hmeaningful⟩ := h
  have hblock : ¬ (t.bulk.outLengthActual ≠ usbBulkCbWrapLen ∨
      Store.word t.w.mem t.bulk.outBuf ≠ usbBulkCbSig) := by
    simp [hlen, hsig]
  have hread : t.receivedCbw env = (true, { t with cbwReqQueued := false }.acceptCbw env) := by
    rw [receivedCbw_of_ok hmounted hstatus, hignore, if_neg Bool.false_ne_true, readCbw]
    exact (if_neg hblock).trans (if_neg hmeaningful)
  obtain ⟨hidx, hcnt, -, -, -⟩ := acceptCbw_keeps env { t with cbwReqQueued := false }
  rw [hread, hidx, hcnt]
  exact ⟨rfl, Nat.lt_of_not_le fun hle ↦ hmeaningful (.inl hle)⟩

/-- Any other does no more than count. -/
theorem Unaddressed.receivedCbw (env : Env) (h : t.Unaddressed) (hnone : ¬ t.HoldsCommand) :
    (t.receivedCbw env).1 = false ∧ (t.receivedCbw env).2.setting = t.setting ∧
      (t.receivedCbw env).2.timeouts = t.counted env ∧
      (t.receivedCbw env).2.state =
        if 20 < t.counted env then (t.raiseException .exit).state else t.state := by
  by_cases hstatus : t.bulk.outStatus = 0
  · have hcounted : t.counted env = t.timeouts := by
      simp [counted, timeoutsFor, hstatus, usb2ErrorXferEpDisabled, usbErrorTimeout]
    have hfew : ¬ 20 < t.counted env := by
      rw [hcounted]
      exact Nat.not_lt.mpr h.timeouts
    rw [receivedCbw_of_ok h.mounted hstatus, if_neg hfew, hcounted]
    by_cases hignore : t.bulk.outIgnore = true
    · rw [if_pos hignore]
      exact ⟨rfl, rfl, rfl, rfl⟩
    · rw [if_neg hignore, readCbw]
      by_cases hblock : t.bulk.outLengthActual ≠ usbBulkCbWrapLen ∨
          Store.word t.w.mem t.bulk.outBuf ≠ usbBulkCbSig
      · rw [if_pos hblock]
        exact ⟨rfl, rfl, rfl, rfl⟩
      · rw [if_neg hblock]
        rw [not_or, not_not, not_not] at hblock
        have hmeaningless : { t with cbwReqQueued := false }.cbwMeaningless := by
          by_contra hmeaningful
          exact hnone ⟨hstatus, Bool.not_eq_true _ ▸ hignore, hblock.1, hblock.2, hmeaningful⟩
        rw [if_pos hmeaningless]
        exact ⟨rfl, rfl, rfl, rfl⟩
  · obtain ⟨hfailed, hsetting, htimeouts, hstate⟩ := h.countTimeouts env
    have hreceived : t.receivedCbw env = (false, t.countTimeouts env) := by
      simp [Ums.receivedCbw, hstatus, hfailed]
    rw [hreceived]
    exact ⟨rfl, hsetting, htimeouts, hstate⟩

end Ums

/-! ## A step without an active unit -/

namespace Gadget

/-- What is left of an iteration in which the wait was over with `t`. -/
def afterWait (env : Env) (t : Ums) : Gadget :=
  let u := { (t.receivedCbw env).2 with bulk.outBufState := .empty }
  if !(t.receivedCbw env).1 || u.state ≠ .normal then loopEnd u else .parse u

/-- An iteration without an exception, up to the command block. -/
theorem step_top (hnormal : s.state = .normal) (hstay : ¬ s.Leaves env) :
    step (.top s) env = afterWait env (s.waited env) := by
  have hcombo : ¬ ((s.poll env).1 && !(s.poll env).2.preventMediaRemoval) = true := by
    intro h
    rw [Bool.and_eq_true, Bool.not_eq_true'] at h
    exact hstay h
  have hstate : ¬ (s.poll env).2.state ≠ .normal := not_not.mpr hnormal
  rw [step]
  dsimp only
  rw [if_neg hcombo, if_neg hstate]
  rfl

/-- The button combination. -/
theorem step_leaves (h : s.Leaves env) : step (.top s) env = .exited (s.poll env).2 := by
  have hcombo : ((s.poll env).1 && !(s.poll env).2.preventMediaRemoval) = true := by
    rw [Bool.and_eq_true, Bool.not_eq_true']
    exact h
  rw [step]
  exact if_pos hcombo

/-- An iteration with an exception. -/
theorem step_top_exception (hraised : s.state ≠ .normal) (hstay : ¬ s.Leaves env) :
    step (.top s) env = loopEnd ((s.poll env).2.handleException env) := by
  have hcombo : ¬ ((s.poll env).1 && !(s.poll env).2.preventMediaRemoval) = true := by
    intro h
    rw [Bool.and_eq_true, Bool.not_eq_true'] at h
    exact hstay h
  have hstate : (s.poll env).2.state ≠ .normal := hraised
  rw [step]
  dsimp only
  rw [if_neg hcombo, if_pos hstate]

/-- No unit is active, and no exception is pending. -/
def Waiting : Gadget → Prop
  | .top s => s.Unaddressed ∧ s.state = .normal
  | _ => False

/-- There is an active unit, or there has been no command yet. -/
def LunOk (g : Gadget) : Prop :=
  g.ums.lunIdx < g.ums.lunCnt ∨ g.Waiting ∨ ∃ s, g = .exited s

/-- A command block that arrives makes its unit the active one. -/
theorem afterWait_holds (hmounted : t.allLunsUnmounted = false) (h : t.HoldsCommand) :
    (afterWait env t).ums.lunIdx < (afterWait env t).ums.lunCnt := by
  have hlun := (Ums.receivedCbw_holds env hmounted h).2
  rw [afterWait]
  dsimp only
  split
  · rw [ums_loopEnd]
    exact hlun
  · exact hlun

/-- Any other end of the wait leads to the next iteration. -/
theorem afterWait_none (env : Env) (h : t.Unaddressed) (hstate : t.state ≠ .terminated)
    (hnone : ¬ t.HoldsCommand) :
    ∃ u, afterWait env t = .top u ∧ u.setting = t.setting ∧ u.timeouts = t.counted env ∧
      u.state = if 20 < t.counted env then (t.raiseException .exit).state else t.state := by
  obtain ⟨hok, hsetting, htimeouts, hraised⟩ := h.receivedCbw env hnone
  refine ⟨{ (t.receivedCbw env).2 with bulk.outBufState := .empty }, ?_, hsetting, htimeouts,
    hraised⟩
  have hgo : (t.receivedCbw env).2.state ≠ .terminated := by
    rw [hraised, Ums.raiseException]
    split
    · split <;> simp [hstate]
    · exact hstate
  rw [afterWait, hok]
  exact if_neg hgo

/-- **A calm step without an active unit** brings one, or leaves everything as it was. -/
theorem Waiting.step (h : g.Waiting) (hcalm : Calm g env) : (g.step env).LunOk := by
  cases g with
  | top s =>
    obtain ⟨hun, hnormal⟩ := h
    by_cases hleaves : s.Leaves env
    · exact .inr (.inr ⟨_, step_leaves hleaves⟩)
    · obtain ⟨hsetting, htimeouts, hstate⟩ := Ums.waited_keeps env s
      have hwaited : (s.waited env).Unaddressed :=
        hun.of_setting hsetting (htimeouts ▸ hun.timeouts)
      rw [step_top hnormal hleaves]
      by_cases hholds : (s.waited env).HoldsCommand
      · exact .inl (afterWait_holds hwaited.mounted hholds)
      · obtain ⟨hreset, hfew⟩ := ((hcalm hun.inactive).resolve_left hleaves).resolve_left hholds
        rw [hreset, hnormal] at hstate
        obtain ⟨u, hu, husetting, hutimeouts, hustate⟩ :=
          afterWait_none env hwaited (by simp [hstate]) hholds
        rw [hu]
        refine .inr (.inl ⟨hwaited.of_setting husetting (hutimeouts ▸ hfew), ?_⟩)
        rw [hustate, if_neg (Nat.not_lt.mpr hfew), hstate]
        rfl
  | parse | writing | reply | status | exited => exact h.elim

/-- **A step that is not calm** leaves an exception that no unit is there for. -/
theorem Waiting.step_exception (h : g.Waiting) (hcalm : ¬ Calm g env) :
    ∃ u, g.step env = .top u ∧ u.state ≠ .normal ∧ u.lunCnt ≤ u.lunIdx := by
  cases g with
  | top s =>
    obtain ⟨hun, hnormal⟩ := h
    simp only [Calm, Classical.not_imp, not_or, not_and, Nat.not_le] at hcalm
    obtain ⟨hinactive, hstay, hnone, hraised⟩ := hcalm
    obtain ⟨hsetting, htimeouts, hstate⟩ := Ums.waited_keeps env s
    have hwaited : (s.waited env).Unaddressed :=
      hun.of_setting hsetting (htimeouts ▸ hun.timeouts)
    have hreset : (s.raiseException .protocolReset).state = .protocolReset := by
      simp [Ums.raiseException, hnormal, UmsState.rank]
    rw [hreset, hnormal] at hstate
    have hgo : (s.waited env).state ≠ .terminated := by
      rw [hstate]
      split <;> simp
    obtain ⟨u, hu, husetting, -, hustate⟩ := afterWait_none env hwaited hgo hnone
    refine ⟨u, (step_top hnormal hstay).trans hu, ?_,
      (hwaited.of_setting (t := { u with timeouts := 0 }) husetting (Nat.zero_le _)).inactive⟩
    rw [hustate]
    by_cases hfew : 20 < (s.waited env).counted env
    · rw [if_pos hfew, Ums.raiseException, hstate]
      split <;> simp [UmsState.rank]
    · -- The timeouts have not run out, so it was the reset.
      have hflag : (env (s.w.tick + 1)).flag = true := by
        by_contra hno
        exact hfew (hraised (Bool.not_eq_true _ ▸ hno))
      rw [if_neg hfew, hstate, hflag]
      simp
  | parse | writing | reply | status | exited => exact h.elim

/-! ## A step with an active unit -/

/-- An active unit stays, or another one takes its place. -/
theorem lunIdx_step (h : g.ums.lunIdx < g.ums.lunCnt) (hok : g.WriteOk) (env : Env) :
    (g.step env).ums.lunIdx < (g.step env).ums.lunCnt := by
  by_cases htop : ∃ s, g = .top s
  · obtain ⟨s, rfl⟩ := htop
    obtain ⟨-, ⟨hdoes, -⟩ | ⟨t, -, hlun, hafter⟩⟩ := top_does env s
    · rw [hdoes.lunIdx, hdoes.lunCnt]
      exact h
    · obtain ⟨hidx, hcnt, -, -, -⟩ := Ums.acceptCbw_keeps env t
      rw [hafter.lunIdx, hafter.lunCnt, hidx, hcnt]
      exact hlun
  · obtain ⟨hdoes, -⟩ := step_does env (fun s hs ↦ htop ⟨s, hs⟩) hok
    rw [hdoes.lunIdx, hdoes.lunCnt]
    exact h

/-- What holds at every place of the main loop along calm steps. -/
structure LunInv (g : Gadget) : Prop where
  writeOk : g.WriteOk
  lunOk : g.LunOk

theorem LunInv.start (h : Starts volumes secCnt g) : LunInv g := by
  obtain ⟨hlen, w, -, rfl⟩ := h
  exact ⟨trivial, .inr (.inl ⟨Ums.start_unaddressed hlen w, rfl⟩)⟩

/-- The step lemma. -/
theorem LunInv.step (h : LunInv g) (hcalm : Calm g env) : LunInv (g.step env) := by
  have hok : (g.step env).WriteOk := by
    by_cases htop : ∃ s, g = .top s
    · obtain ⟨s, rfl⟩ := htop
      exact (top_does env s).1
    · exact (step_does env (fun s hs ↦ htop ⟨s, hs⟩) h.writeOk).2
  refine ⟨hok, ?_⟩
  rcases h.lunOk with hactive | hwaiting | ⟨s, rfl⟩
  · exact .inl (lunIdx_step hactive h.writeOk env)
  · exact hwaiting.step hcalm
  · exact .inr (.inr ⟨s, rfl⟩)

/-- The access of such a gadget to its active unit. -/
theorem LunOk.lunIdx_lt (h : g.LunOk) (hindexes : g.Indexes env) : g.ums.lunIdx < g.ums.lunCnt := by
  rcases h with hactive | hwaiting | ⟨s, rfl⟩
  · exact hactive
  · cases g with
    | top s => exact absurd hwaiting.2 hindexes.2
    | parse | writing | reply | status | exited => exact hwaiting.elim
  · exact hindexes.elim

end Gadget

/-- **The active unit is one of the table**: in every session whose steps are calm, each access to
`luns[lun_idx]` has `lun_idx < lun_cnt`.  The first step that is not calm is followed by an access
that has not, unless the button combination ends the session before. -/
theorem lunIdx_valid (hstart : Starts volumes secCnt g) {is : List Env}
    (hcalm : Machine.Along Gadget.step Calm g is) :
    (∀ env, (Machine.run Gadget.step g is).Indexes env →
        (Machine.run Gadget.step g is).ums.lunIdx < (Machine.run Gadget.step g is).ums.lunCnt) ∧
      ∀ env, ¬ Calm (Machine.run Gadget.step g is) env →
        ∃ s, (Machine.run Gadget.step g is).step env = .top s ∧ s.lunCnt ≤ s.lunIdx ∧
          ∀ env', ¬ s.Leaves env' → ((Machine.run Gadget.step g is).step env).Indexes env' := by
  have hinv : Gadget.LunInv (Machine.run Gadget.step g is) :=
    Machine.run_inv_along (fun _ _ h hcalm ↦ h.step hcalm) (.start hstart) hcalm
  generalize Machine.run Gadget.step g is = g' at hinv
  constructor
  · intro env hindexes
    exact hinv.lunOk.lunIdx_lt hindexes
  · intro env hloud
    have hwaiting : g'.Waiting := by
      rcases hinv.lunOk with hactive | hwaiting | ⟨s, rfl⟩
      · exfalso
        cases g' with
        | top s => exact hloud fun hinactive ↦ absurd hactive (Nat.not_lt.mpr hinactive)
        | parse | writing | reply | status | exited => exact hloud trivial
      · exact hwaiting
      · exact absurd trivial hloud
    obtain ⟨u, hu, hstate, hinactive⟩ := hwaiting.step_exception hloud
    refine ⟨u, hu, hinactive, ?_⟩
    intro env' hstay
    rw [hu]
    exact ⟨hstay, hstate⟩

/-- A wait that times out, and then the first command. -/
def lateCommand : List Env :=
  [fun _ ↦ { calm with usb := usbErrorTimeout, done := false },
    hears (wrapper 0 0 0 [0, 0, 0, 0, 0, 0])]

theorem lunIdx_valid_lateCommand :
    (Machine.run Gadget.step (firstGadget [sdVolume]) lateCommand).ums.lunIdx <
      (Machine.run Gadget.step (firstGadget [sdVolume]) lateCommand).ums.lunCnt := by
  have hcalm : Machine.Along Gadget.step Calm (firstGadget [sdVolume]) lateCommand := by
    refine ⟨fun _ ↦ .inr (.inr ⟨rfl, by decide⟩), fun _ ↦ .inr (.inl ?_), trivial⟩
    refine ⟨by decide +kernel, by decide +kernel, by decide +kernel, by decide +kernel, ?_⟩
    decide +kernel
  refine (lunIdx_valid (starts_firstGadget (by decide)) hcalm).1 calmly ?_
  change ¬ (_ ∨ _)
  decide +kernel

/-- A bulk-only reset before the first command: the exception is handled for the unit 16 of one. -/
theorem lunIdx_counterexample :
    ¬ ∀ g, Reachable [sdVolume] (fun _ ↦ 0x1000) g → ∀ env, g.Indexes env →
      g.ums.lunIdx < g.ums.lunCnt := by
  intro h
  have hreach : Reachable [sdVolume] (fun _ ↦ 0x1000) (Gadget.step (firstGadget [sdVolume])
      fun n ↦ { calm with flag := decide (n = 1) }) :=
    ⟨_, [fun n ↦ { calm with flag := decide (n = 1) }], starts_firstGadget (by decide), rfl⟩
  have hlun := h _ hreach calmly ⟨fun hleaves ↦ Bool.false_ne_true hleaves.1, by decide +kernel⟩
  exact absurd hlun (by decide +kernel)

end Usb
end SdLoader
