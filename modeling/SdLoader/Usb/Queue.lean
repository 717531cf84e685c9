import SdLoader.Usb.ActiveLun
import SdLoader.Usb.Context

/-!
# The mass storage gadget: the request for a command block

`_get_next_command` asks for a command block wrapper unless `cbw_req_queued` says that this has been
done, and waits for it either way.  The flag is set after every wait, and taken back when what has
come is looked at.  A packet that comes while wrappers are ignored is not looked at, and the one of
a wait that returns an error is not either.  So the flag can stay set when its request has been
completed, and from then on the calls return at once, without asking for anything, or waiting for
anything.

* `awaitCbw_spec` — what the wait does: `awaited` is the number of requests it is for.
* `Completes`, `Examines` — a request is completed during the call; what has come is looked at.
* `QueueOk` — the invariant: while the flag is set a request has not been completed.
* `Prompt` — the condition: a packet that comes is looked at in the same call.
* `QueueOk.of_not_completes`, `QueueOk.examines` — a call that completes no request keeps the
  invariant, and one that looks at a packet completes one.
* `queue_law` — in a run from the start of a session the flag is right at every call if and only if
  the condition is met, and no packet is looked at twice in any run.
* `queue_counterexample` — a wrapper that is none, and another packet after it.
-/

set_option autoImplicit false

namespace SdLoader
namespace Usb

variable {volumes : List Volume} {secCnt : MmcType → ℕ} {env : Env} {s t : Ums} {g : Gadget}

namespace Ums

/-! ## The wait -/

/-- The gadget when `_get_next_command` is called. -/
def listening (env : Env) (s : Ums) : Ums := (s.poll env).2.handleEp0Ctrl env

/-- The iteration calls `_get_next_command`. -/
def Listens (env : Env) (s : Ums) : Prop := ¬s.Leaves env ∧ s.state = .normal

/-- The requests the wait is for, as the driver counts them. -/
def awaited (t : Ums) : ℕ := if t.cbwReqQueued then t.w.txCountOut else 1

theorem listening_keeps (env : Env) (s : Ums) :
    (s.listening env).cbwReqQueued = s.cbwReqQueued ∧ (s.listening env).xusb = s.xusb ∧
      (s.listening env).bulk.outIgnore = s.bulk.outIgnore ∧
      (s.listening env).w.txCountOut = s.w.txCountOut := by
  have hraise : ∀ (st : UmsState) (u : Ums), (u.raiseException st).cbwReqQueued = u.cbwReqQueued ∧
      (u.raiseException st).xusb = u.xusb ∧
      (u.raiseException st).bulk.outIgnore = u.bulk.outIgnore ∧
      (u.raiseException st).w.txCountOut = u.w.txCountOut := by
    intro st u
    rw [raiseException]
    split <;> exact ⟨rfl, rfl, rfl, rfl⟩
  rw [listening, handleEp0Ctrl]
  rcases hp : (s.poll env).2.poll env with ⟨_ | _, u⟩ <;> rw [poll, Prod.mk.injEq] at hp <;>
    obtain ⟨-, rfl⟩ := hp
  · exact ⟨rfl, rfl, rfl, rfl⟩
  · exact hraise _ _

/-- What one wait for the bulk-OUT endpoint comes to, for the number of requests it is for. -/
structure Awaits (env : Env) (n : ℕ) (w w' : World) (status : ℕ) : Prop where
  tick : w'.tick = if n = 0 then w.tick else w.tick + 1
  status : status = if n = 0 then 0 else (env w.tick).usb
  count : w'.txCountOut =
    if n = 0 ∨ (env w.tick).usb = 0 ∨ (env w.tick).done = true then 0 else n

theorem waitOut_awaits (env : Env) (w : World) :
    Awaits env w.txCountOut w (w.waitOut env).2 (w.waitOut env).1 := by
  rw [World.waitOut]
  by_cases hzero : w.txCountOut = 0
  · rw [if_pos hzero]
    exact ⟨(if_pos hzero).symm, (if_pos hzero).symm, by rw [if_pos (.inl hzero), hzero]⟩
  · rw [if_neg hzero]
    refine ⟨(if_neg hzero).symm, (if_neg hzero).symm, ?_⟩
    dsimp only
    by_cases hdone : (env w.tick).usb = 0 ∨ (env w.tick).done = true
    · rw [if_pos hdone, if_pos (Or.inr hdone)]
    · rw [if_neg hdone, if_neg (not_or.mpr ⟨hzero, hdone⟩)]

/-- **The wait for a command block.** -/
theorem awaitCbw_spec (env : Env) (t : Ums) :
    Awaits env t.awaited t.w (t.awaitCbw env).w (t.awaitCbw env).bulk.outStatus ∧
      (t.awaitCbw env).cbwReqQueued = (t.xusb || t.cbwReqQueued) ∧
      (t.awaitCbw env).bulk.outIgnore = t.bulk.outIgnore := by
  rw [awaitCbw, awaited]
  cases t.cbwReqQueued with
  | true =>
    obtain ⟨htick, hstatus, hcount⟩ := waitOut_awaits env t.w
    exact ⟨⟨htick, hstatus, hcount⟩, rfl, rfl⟩
  | false =>
    obtain ⟨htick, hstatus, hcount⟩ := waitOut_awaits env
      { t.w with txCountOut := 1, txBytesOut := min usbBulkCbWrapLen usbEpBufferMaxSize }
    exact ⟨⟨htick, hstatus, hcount⟩, rfl, rfl⟩

/-! ## The look at what has come -/

/-- A request for a command block is completed during the call. -/
def Completes (env : Env) (s : Ums) : Prop :=
  s.Listens env ∧ (s.listening env).awaited ≠ 0 ∧
    ((env (s.listening env).w.tick).usb = 0 ∨ (env (s.listening env).w.tick).done = true)

/-- What has come is looked at as a command block wrapper. -/
def Examines (env : Env) (s : Ums) : Prop :=
  s.Listens env ∧ (s.waited env).bulk.outStatus = 0 ∧ (s.waited env).bulk.outIgnore = false

/-- The fields the flag depends on, and the flag. -/
def queue (s : Ums) : Bool × ℕ := (s.cbwReqQueued, s.w.txCountOut)

theorem acceptCbw_queue (env : Env) (t : Ums) :
    (t.acceptCbw env).queue = t.queue ∧ (t.acceptCbw env).xusb = t.xusb := by
  rw [acceptCbw]
  split
  · exact ⟨rfl, rfl⟩
  · rw [changeLun]
    split <;> exact ⟨rfl, rfl⟩

theorem raiseException_queue (st : UmsState) (t : Ums) :
    (t.raiseException st).queue = t.queue ∧ (t.raiseException st).xusb = t.xusb ∧
      (t.raiseException st).bulk = t.bulk := by
  rw [raiseException]
  split <;> exact ⟨rfl, rfl, rfl⟩

theorem countTimeouts_queue (env : Env) (t : Ums) :
    (t.countTimeouts env).queue = t.queue ∧ (t.countTimeouts env).xusb = t.xusb ∧
      (t.countTimeouts env).bulk = t.bulk := by
  have hep : (t.countEpTimeouts env).queue = t.queue ∧ (t.countEpTimeouts env).xusb = t.xusb ∧
      (t.countEpTimeouts env).bulk = t.bulk := by
    rw [countEpTimeouts]
    split
    · exact ⟨rfl, rfl, rfl⟩
    split
    · rcases hp : t.poll env with ⟨_ | _, u⟩ <;> rw [poll, Prod.mk.injEq] at hp <;>
        obtain ⟨-, rfl⟩ := hp <;> dsimp only
      · split <;> exact ⟨rfl, rfl, rfl⟩
      · exact ⟨rfl, rfl, rfl⟩
    · exact ⟨rfl, rfl, rfl⟩
  have hcount : (t.countEpTimeouts env).countUnmounted.queue = t.queue ∧
      (t.countEpTimeouts env).countUnmounted.xusb = t.xusb ∧
      (t.countEpTimeouts env).countUnmounted.bulk = t.bulk := by
    rw [countUnmounted]
    split <;> exact hep
  rw [countTimeouts]
  split
  · obtain ⟨hqueue, hxusb, hbulk⟩ :=
      raiseException_queue .exit (t.countEpTimeouts env).countUnmounted
    exact ⟨hqueue.trans hcount.1, hxusb.trans hcount.2.1, hbulk.trans hcount.2.2⟩
  · exact hcount

/-- **The flag is taken back if what has come is looked at**, and stays as it is otherwise. -/
theorem receivedCbw_queue (env : Env) (t : Ums) :
    (t.receivedCbw env).2.queue =
        (t.cbwReqQueued && !decide (t.bulk.outStatus = 0 ∧ t.bulk.outIgnore = false),
          t.w.txCountOut) ∧
      (t.receivedCbw env).2.xusb = t.xusb := by
  obtain ⟨u, hu, hqueue, hxusb, hbulk⟩ : ∃ u : Ums,
      u = (if t.bulk.outStatus ≠ 0 ∨ t.allLunsUnmounted then t.countTimeouts env else t) ∧
      u.queue = t.queue ∧ u.xusb = t.xusb ∧ u.bulk = t.bulk := by
    refine ⟨_, rfl, ?_⟩
    split
    · exact countTimeouts_queue env t
    · exact ⟨rfl, rfl, rfl⟩
  rw [receivedCbw, ← hu]
  simp only [queue, Prod.mk.injEq] at hqueue
  have hread : ∀ v : Ums, (v.readCbw env).2.queue = v.queue ∧ (v.readCbw env).2.xusb = v.xusb := by
    intro v
    rw [readCbw]
    split
    · exact ⟨rfl, rfl⟩
    · split
      · exact ⟨rfl, rfl⟩
      · exact acceptCbw_queue env v
  by_cases hskip : u.bulk.outStatus ≠ 0 ∨ u.bulk.outIgnore = true
  · have hnot : ¬(t.bulk.outStatus = 0 ∧ t.bulk.outIgnore = false) := by
      rw [← hbulk]
      rintro ⟨hstatus, hignore⟩
      rcases hskip with hbad | hbad
      · exact hbad hstatus
      · rw [hignore] at hbad
        cases hbad
    rw [if_pos hskip]
    refine ⟨?_, hxusb⟩
    simp only [queue, hqueue.1, hqueue.2, decide_eq_false hnot, Bool.not_false, Bool.and_true]
  · have hlook : t.bulk.outStatus = 0 ∧ t.bulk.outIgnore = false := by
      rw [← hbulk]
      simpa using hskip
    obtain ⟨hq, hx⟩ := hread { u with cbwReqQueued := false }
    rw [if_neg hskip]
    refine ⟨?_, hx.trans hxusb⟩
    rw [hq]
    simp only [queue, hqueue.2, decide_eq_true hlook, Bool.not_true, Bool.and_false]

/-- It does not come to an end of the session. -/
theorem receivedCbw_state (env : Env) (h : t.state ≠ .terminated) :
    (t.receivedCbw env).2.state ≠ .terminated := by
  have hep : (t.countEpTimeouts env).state = t.state := by
    rw [countEpTimeouts]
    split
    · rfl
    split
    · rcases hp : t.poll env with ⟨_ | _, u⟩ <;> rw [poll, Prod.mk.injEq] at hp <;>
        obtain ⟨-, rfl⟩ := hp <;> dsimp only
      split <;> rfl
    · rfl
  have hunmounted : (t.countEpTimeouts env).countUnmounted.state = t.state := by
    rw [countUnmounted]
    split <;> exact hep
  have hcount : (t.countTimeouts env).state ≠ .terminated := by
    rw [countTimeouts]
    split
    · rw [raiseException]
      split
      · simp
      · rw [hunmounted]
        exact h
    · rw [hunmounted]
      exact h
  have hread : ∀ u : Ums, (u.readCbw env).2.state = u.state := by
    intro u
    rw [readCbw]
    split
    · rfl
    split
    · rfl
    · rw [acceptCbw]
      split
      · rfl
      · rw [changeLun]
        split <;> rfl
  rw [receivedCbw]
  by_cases hbad : t.bulk.outStatus ≠ 0 ∨ t.allLunsUnmounted = true
  · rw [if_pos hbad]
    split
    · exact hcount
    · rw [hread]
      exact hcount
  · rw [if_neg hbad]
    split
    · exact h
    · rw [hread]
      exact h

/-- What has come is taken over only if it has been looked at. -/
theorem receivedCbw_examined (h : (t.receivedCbw env).1 = true) :
    t.bulk.outStatus = 0 ∧ t.bulk.outIgnore = false := by
  obtain ⟨u, hu, hbulk⟩ : ∃ u : Ums,
      u = (if t.bulk.outStatus ≠ 0 ∨ t.allLunsUnmounted then t.countTimeouts env else t) ∧
        u.bulk = t.bulk := by
    refine ⟨_, rfl, ?_⟩
    split
    · exact (countTimeouts_queue env t).2.2
    · rfl
  rw [receivedCbw, ← hu] at h
  by_cases hskip : u.bulk.outStatus ≠ 0 ∨ u.bulk.outIgnore = true
  · rw [if_pos hskip] at h
    cases h
  · rw [← hbulk]
    simpa using hskip

/-! ## An exception -/

theorem sendStatus_queue (env : Env) (t : Ums) :
    (t.sendStatus env).queue = t.queue ∧ (t.sendStatus env).xusb = t.xusb := by
  have hwait : ∀ w : World, (w.waitIn env).2.txCountOut = w.txCountOut := by
    intro w
    rw [World.waitIn]
    split
    · rfl
    · split <;> rfl
  have hwrite : ∀ (buf len : ℕ) (w : World),
      (xusbDeviceEp1InWrite env buf len true w).2.txCountOut = w.txCountOut := by
    intro buf len w
    exact hwait ({ w with txCountIn := 0 }.pushIn buf (min len usbEpBufferMaxSize))
  exact ⟨congrArg (Prod.mk t.cbwReqQueued) (hwrite _ _ _), rfl⟩

/-- An exception leaves the flag alone. -/
theorem handleException_queue (env : Env) (t : Ums) :
    (t.handleException env).queue = t.queue ∧ (t.handleException env).xusb = t.xusb := by
  have htake : t.takeException.queue = t.queue ∧ t.takeException.xusb = t.xusb := by
    rw [takeException]
    split
    · rw [resetLun]
      split <;> exact ⟨rfl, rfl⟩
    · exact ⟨rfl, rfl⟩
  rw [handleException]
  cases t.state with
  | normal | terminated => exact htake
  | exit => exact htake
  | abortBulkOut =>
    obtain ⟨hqueue, hxusb⟩ := sendStatus_queue env t.takeException
    exact ⟨hqueue.trans htake.1, hxusb.trans htake.2⟩
  | protocolReset =>
    dsimp only
    rw [resetOccurred]
    split <;> exact htake

end Ums

/-! ## The flag over a session -/

namespace Gadget

/-- While the flag is set, the driver counts a request that has not been completed; and it is not
set while a command is carried out. -/
def QueueOk : Gadget → Prop
  | .top s => s.cbwReqQueued = true → s.w.txCountOut ≠ 0
  | .exited _ => True
  | g => g.ums.cbwReqQueued = false

/-- A call in the step looks at what has come. -/
def Examines (g : Gadget) (env : Env) : Prop := ∃ s, g = .top s ∧ s.Examines env

/-- A request for a command block is completed in the step. -/
def Completes (g : Gadget) (env : Env) : Prop := ∃ s, g = .top s ∧ s.Completes env

/-- **The condition on a step.**  A packet that comes does not come while wrappers are ignored, and
a wait that returns an error has not been completed. -/
def Prompt : Gadget → Env → Prop
  | .top s, env => s.Listens env →
      ((env (s.listening env).w.tick).usb = 0 → s.bulk.outIgnore = false) ∧
        ((env (s.listening env).w.tick).usb ≠ 0 → (env (s.listening env).w.tick).done = false)
  | _, _ => True

/-- **The law.**  When `_get_next_command` is called with the flag set, a request has not been
completed.  It asks for a command block or has the controller do something, and when it is called
the next time, the flag is right again. -/
def QueueLaw (g : Gadget) (env : Env) : Prop :=
  ∀ s, g = .top s → s.Listens env →
    ((s.listening env).cbwReqQueued = true → (s.listening env).w.txCountOut ≠ 0) ∧
      ((s.listening env).cbwReqQueued = true →
        (s.listening env).w.tick < (s.waited env).w.tick) ∧
      (g.step env).QueueOk

/-- The driver is `xusbd.c`. -/
def OnXusb (g : Gadget) : Prop := g.ums.xusb = true

theorem QueueOk.of_clear {g : Gadget} (h : g.ums.cbwReqQueued = false) : g.QueueOk := by
  cases g with
  | top s =>
    intro hset
    rw [ums, hset] at h
    cases h
  | exited s => trivial
  | parse s | writing x | reply s | status s => exact h

theorem loopEnd_queueOk (h : s.cbwReqQueued = true → s.w.txCountOut ≠ 0) : (loopEnd s).QueueOk := by
  rw [loopEnd]
  split
  · trivial
  · exact h

/-- A command leaves the flag alone. -/
theorem step_flag (env : Env) (htop : ∀ s, g ≠ .top s) :
    (g.step env).ums.cbwReqQueued = g.ums.cbwReqQueued ∧ (g.step env).ums.xusb = g.ums.xusb := by
  rw [step_context env htop, ums_inContext]
  exact ⟨rfl, rfl⟩

/-- **What a call leaves.** -/
theorem afterWait_queueOk (env : Env) (hxusb : t.xusb = true) (hset : t.cbwReqQueued = true)
    (hstate : t.state ≠ .terminated) :
    (afterWait env t).ums.xusb = true ∧ ((afterWait env t).QueueOk ↔
      t.w.txCountOut ≠ 0 ∨ t.bulk.outStatus = 0 ∧ t.bulk.outIgnore = false) := by
  obtain ⟨hqueue, hx⟩ := Ums.receivedCbw_queue env t
  have hgo := Ums.receivedCbw_state env hstate
  have hlook : (t.receivedCbw env).1 = true → t.bulk.outStatus = 0 ∧ t.bulk.outIgnore = false :=
    Ums.receivedCbw_examined
  rw [afterWait]
  generalize t.receivedCbw env = r at hqueue hx hgo hlook ⊢
  obtain ⟨ok, v⟩ := r
  dsimp only at hqueue hx hgo hlook ⊢
  rw [Ums.queue, Prod.mk.injEq, hset, Bool.true_and] at hqueue
  obtain ⟨hflag, hcount⟩ := hqueue
  constructor
  · split
    · rw [ums_loopEnd]
      exact hx.trans hxusb
    · exact hx.trans hxusb
  by_cases hexamined : t.bulk.outStatus = 0 ∧ t.bulk.outIgnore = false
  · rw [decide_eq_true hexamined] at hflag
    refine iff_of_true (QueueOk.of_clear ?_) (.inr hexamined)
    split
    · rw [ums_loopEnd]
      exact hflag
    · exact hflag
  · have hok : ok = false := by
      cases ok with
      | false => rfl
      | true => exact absurd (hlook rfl) hexamined
    rw [decide_eq_false hexamined] at hflag
    have hend : (!ok || decide (v.state ≠ .normal)) = true := by
      rw [hok]
      rfl
    rw [if_pos hend, loopEnd, if_neg hgo]
    constructor
    · intro h
      have hne : v.w.txCountOut ≠ 0 := h hflag
      rw [hcount] at hne
      exact .inl hne
    · rintro (hne | hbad)
      · intro _
        rw [← hcount] at hne
        exact hne
      · exact absurd hbad hexamined

/-- The gadget when the wait of a call is over. -/
theorem waited_set (hlistens : s.Listens env) (hxusb : s.xusb = true) :
    (s.waited env).xusb = true ∧ (s.waited env).cbwReqQueued = true ∧
      (s.waited env).state ≠ .terminated := by
  obtain ⟨hsetting, -, hstate⟩ := Ums.waited_keeps env s
  obtain ⟨-, hset, -⟩ := Ums.awaitCbw_spec env (s.listening env)
  obtain ⟨-, hx, -, -⟩ := Ums.listening_keeps env s
  simp only [Ums.setting, Prod.mk.injEq] at hsetting
  refine ⟨hsetting.2.2.trans hxusb, hset.trans ?_, ?_⟩
  · rw [hx, hxusb, Bool.true_or]
  · rw [hstate, Ums.raiseException, hlistens.2]
    split <;> simp [UmsState.rank]

/-- **A call of `_get_next_command`.**  From a state in which the flag is right, what it leaves is
right if and only if the condition is met. -/
theorem listens_queueOk (hlistens : s.Listens env) (hxusb : s.xusb = true)
    (h : QueueOk (.top s)) :
    (s.listening env).awaited ≠ 0 ∧ ((step (.top s) env).QueueOk ↔ Prompt (.top s) env) := by
  obtain ⟨hflag, -, hignore, hcount⟩ := Ums.listening_keeps env s
  obtain ⟨hawaits, -, hstill⟩ := Ums.awaitCbw_spec env (s.listening env)
  obtain ⟨hxw, hsetw, hstate⟩ := waited_set hlistens hxusb
  have hne : (s.listening env).awaited ≠ 0 := by
    rw [Ums.awaited, hflag, hcount]
    split
    · next hset => exact h hset
    · exact one_ne_zero
  refine ⟨hne, ?_⟩
  have hstatus : (s.waited env).bulk.outStatus = (env (s.listening env).w.tick).usb :=
    hawaits.status.trans (if_neg hne)
  have hdone : (s.waited env).w.txCountOut = _ := hawaits.count
  have hig : (s.waited env).bulk.outIgnore = s.bulk.outIgnore := hstill.trans hignore
  rw [step_top hlistens.2 hlistens.1, (afterWait_queueOk env hxw hsetw hstate).2, hstatus, hdone,
    hig, Prompt]
  by_cases husb : (env (s.listening env).w.tick).usb = 0
  · -- The request is completed, so what has come has to be looked at.
    rw [if_pos (.inr (.inl husb))]
    constructor
    · intro hright _
      have hlook := hright.resolve_left (not_not.mpr rfl)
      exact ⟨fun _ ↦ hlook.2, fun hbad ↦ absurd husb hbad⟩
    · intro hprompt
      exact .inr ⟨husb, (hprompt hlistens).1 husb⟩
  · constructor
    · intro hright _
      refine ⟨fun hzero ↦ absurd hzero husb, fun _ ↦ ?_⟩
      have hopen := hright.resolve_right fun hlook ↦ husb hlook.1
      by_contra hdone
      exact hopen (if_pos (.inr (.inr (Bool.not_eq_false _ ▸ hdone))))
    · intro hprompt
      have hdone := (hprompt hlistens).2 husb
      refine .inl ?_
      rw [if_neg (by simp [hne, husb, hdone])]
      exact hne

/-- Any other start of an iteration leaves the flag right. -/
theorem not_listens_queueOk (hnot : ¬s.Listens env) :
    (QueueOk (.top s) → (step (.top s) env).QueueOk) ∧ (step (.top s) env).ums.xusb = s.xusb := by
  by_cases hleaves : s.Leaves env
  · rw [step_leaves hleaves]
    exact ⟨fun _ ↦ trivial, rfl⟩
  · have hexception : s.state ≠ .normal := fun hnormal ↦ hnot ⟨hleaves, hnormal⟩
    obtain ⟨hqueue, hxusb⟩ := Ums.handleException_queue env (s.poll env).2
    rw [step_top_exception hexception hleaves, ums_loopEnd]
    rw [Ums.queue, Ums.queue, Prod.mk.injEq] at hqueue
    refine ⟨fun h ↦ loopEnd_queueOk fun hset ↦ ?_, hxusb⟩
    rw [hqueue.2]
    exact h (hqueue.1.symm.trans hset)

/-- The gadget is run by `xusbd.c` to the end. -/
theorem step_onXusb (env : Env) (h : g.OnXusb) : (g.step env).OnXusb := by
  cases g with
  | top s =>
    by_cases hlistens : s.Listens env
    · obtain ⟨hxw, hsetw, hstate⟩ := waited_set hlistens h
      rw [step_top hlistens.2 hlistens.1]
      exact (afterWait_queueOk env hxw hsetw hstate).1
    · exact (not_listens_queueOk hlistens).2.trans h
  | exited s => exact h
  | parse s | writing x | reply s | status s =>
    exact (step_flag env fun _ hs ↦ by cases hs).2.trans h

/-- A step that has no call leaves the flag right. -/
theorem quiet_queueOk (hquiet : ∀ s, g = .top s → ¬s.Listens env) (h : g.QueueOk) :
    (g.step env).QueueOk := by
  cases g with
  | top s => exact (not_listens_queueOk (hquiet s rfl)).1 h
  | exited s => trivial
  | parse s | writing x | reply s | status s =>
    exact .of_clear ((step_flag env fun _ hs ↦ by cases hs).1.trans h)

/-- **The step lemma**: from a state in which the flag is right, the law is the condition. -/
theorem queueLaw_iff (hxusb : g.OnXusb) (h : g.QueueOk) : QueueLaw g env ↔ Prompt g env := by
  cases g with
  | top s =>
    by_cases hlistens : s.Listens env
    · obtain ⟨hne, hiff⟩ := listens_queueOk hlistens hxusb h
      obtain ⟨hawaits, -, -⟩ := Ums.awaitCbw_spec env (s.listening env)
      obtain ⟨hflag, -, -, hcount⟩ := Ums.listening_keeps env s
      have htick : (s.waited env).w.tick = (s.listening env).w.tick + 1 :=
        hawaits.tick.trans (if_neg hne)
      rw [← hiff]
      constructor
      · intro hlaw
        exact (hlaw s rfl hlistens).2.2
      · rintro hok _ ⟨rfl⟩ -
        refine ⟨fun hset ↦ ?_, fun _ ↦ ?_, hok⟩
        · rw [hcount]
          exact h (hflag.symm.trans hset)
        · rw [htick]
          exact Nat.lt_succ_self _
    · refine iff_of_true ?_ fun hyes ↦ absurd hyes hlistens
      rintro _ ⟨rfl⟩ hyes
      exact absurd hyes hlistens
  | parse s | writing x | reply s | status s | exited s =>
    refine iff_of_true ?_ trivial
    rintro _ ⟨⟩

/-- What the law leaves for the next step. -/
theorem QueueLaw.next (h : g.QueueOk) (hlaw : QueueLaw g env) : (g.step env).QueueOk := by
  by_cases hcall : ∃ s, g = .top s ∧ s.Listens env
  · obtain ⟨s, rfl, hlistens⟩ := hcall
    exact (hlaw s rfl hlistens).2.2
  · exact quiet_queueOk (fun s hs hlistens ↦ hcall ⟨s, hs, hlistens⟩) h

/-! ## What has come is looked at once -/

/-- Once something has been looked at, the flag is right. -/
theorem Examines.queueOk (hxusb : g.OnXusb) (h : g.Examines env) : (g.step env).QueueOk := by
  obtain ⟨s, rfl, hlistens, hlook⟩ := h
  obtain ⟨hxw, hsetw, hstate⟩ := waited_set hlistens hxusb
  rw [step_top hlistens.2 hlistens.1]
  exact (afterWait_queueOk env hxw hsetw hstate).2.mpr (.inr hlook)

/-- It stays right until a request is completed. -/
theorem QueueOk.of_not_completes (hxusb : g.OnXusb) (h : g.QueueOk) (hnone : ¬g.Completes env) :
    (g.step env).QueueOk := by
  by_cases hcall : ∃ s, g = .top s ∧ s.Listens env
  · obtain ⟨s, rfl, hlistens⟩ := hcall
    obtain ⟨hne, hiff⟩ := listens_queueOk hlistens hxusb h
    refine hiff.mpr fun _ ↦ ⟨fun husb ↦ ?_, fun husb ↦ ?_⟩
    · exact absurd ⟨s, rfl, hlistens, hne, .inl husb⟩ hnone
    · by_contra hdone
      exact hnone ⟨s, rfl, hlistens, hne, .inr (Bool.not_eq_false _ ▸ hdone)⟩
  · exact quiet_queueOk (fun s hs hlistens ↦ hcall ⟨s, hs, hlistens⟩) h

/-- What is looked at while the flag is right has come in the same call. -/
theorem QueueOk.examines (hxusb : g.OnXusb) (h : g.QueueOk) (hlook : g.Examines env) :
    g.Completes env := by
  obtain ⟨s, rfl, hlistens, hstatus, -⟩ := hlook
  obtain ⟨hne, -⟩ := listens_queueOk hlistens hxusb h
  obtain ⟨hawaits, -, -⟩ := Ums.awaitCbw_spec env (s.listening env)
  have husb : (s.waited env).bulk.outStatus = (env (s.listening env).w.tick).usb :=
    hawaits.status.trans (if_neg hne)
  exact ⟨s, rfl, hlistens, hne, .inl (husb.symm.trans hstatus)⟩

/-- In a run in which no request is completed, nothing is looked at. -/
theorem not_examines_of_along {is : List Env} (hxusb : g.OnXusb) (h : g.QueueOk)
    (hnone : Machine.Along Gadget.step (fun g env ↦ ¬g.Completes env) g (is ++ [env])) :
    ¬(Machine.run Gadget.step g is).Examines env := by
  induction is generalizing g with
  | nil => exact fun hlook ↦ hnone.1 (h.examines hxusb hlook)
  | cons i is ih =>
    exact ih (step_onXusb i hxusb) (h.of_not_completes hxusb hnone.1) hnone.2

end Gadget

/-- **The request for a command block.**  In a run from the start of a session, the flag is right at
every call if and only if every packet that comes is looked at in the call it comes in.  In every
run, a packet is looked at once: between two looks a request is completed. -/
theorem queue_law (hstart : Starts volumes secCnt g) (is : List Env) :
    (Machine.Along Gadget.step Gadget.QueueLaw g is ↔
        Machine.Along Gadget.step Gadget.Prompt g is) ∧
      ∀ before first between last,
        (Machine.run Gadget.step g before).Examines first →
        (Machine.run Gadget.step g (before ++ first :: between)).Examines last →
        ¬Machine.Along Gadget.step (fun g env ↦ ¬g.Completes env)
          (Machine.run Gadget.step g (before ++ [first])) (between ++ [last]) := by
  obtain ⟨-, w, -, rfl⟩ := hstart
  have hxusb : (Gadget.top (.start volumes secCnt w)).OnXusb := rfl
  have hok : (Gadget.top (.start volumes secCnt w)).QueueOk := fun hset ↦ by cases hset
  constructor
  · have hlaw : ∀ (g : Gadget) (env : Env), g.OnXusb ∧ g.QueueOk →
        (Gadget.QueueLaw g env ↔ Gadget.Prompt g env) :=
      fun _ _ h ↦ Gadget.queueLaw_iff h.1 h.2
    have hnext : ∀ (g : Gadget) (env : Env), g.OnXusb ∧ g.QueueOk → Gadget.QueueLaw g env →
        (g.step env).OnXusb ∧ (g.step env).QueueOk :=
      fun g env h hkeep ↦ ⟨Gadget.step_onXusb env h.1, hkeep.next h.2⟩
    constructor
    · exact Machine.along_of_inv hnext (fun g env h ↦ (hlaw g env h).mp) ⟨hxusb, hok⟩
    · exact Machine.along_of_inv (fun g env h hprompt ↦ hnext g env h ((hlaw g env h).mpr hprompt))
        (fun g env h ↦ (hlaw g env h).mpr) ⟨hxusb, hok⟩
  · intro before first between last hfirst hlast hnone
    have hafter : (Machine.run Gadget.step (.top (.start volumes secCnt w)) before).OnXusb :=
      Machine.run_inv (fun _ i h ↦ Gadget.step_onXusb i h) hxusb before
    rw [Machine.run_append] at hlast hnone
    exact Gadget.not_examines_of_along (Gadget.step_onXusb first hafter)
      (hfirst.queueOk hafter) hnone hlast

theorem queue_law_command :
    Machine.Along Gadget.step Gadget.QueueLaw (firstGadget [sdVolume]) (firstCommand 0) := by
  refine (queue_law (starts_firstGadget (by decide)) _).1.mpr ⟨fun _ ↦ ⟨?_, ?_⟩, trivial, trivial,
    trivial, trivial⟩
  · exact fun _ ↦ rfl
  · exact fun hbad ↦ absurd rfl hbad

/-- Two packets that are no wrappers: when the wait for the third is entered, the flag is set, the
driver counts no request, and nothing is done. -/
theorem queue_counterexample :
    ¬∀ is, Machine.Along Gadget.step Gadget.QueueLaw (firstGadget [sdVolume]) is := by
  intro h
  obtain ⟨-, -, hthird, -⟩ := h [calmly, calmly, calmly]
  have hcall := hthird _ rfl ⟨fun hleaves ↦ Bool.false_ne_true hleaves.1, by decide +kernel⟩
  exact hcall.1 (by decide +kernel) (by decide +kernel)

end Usb
end SdLoader
