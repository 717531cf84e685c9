import SdLoader.Usb.ActiveLun
import SdLoader.Usb.Context
import SdLoader.Usb.Idle

/-!
# The mass storage gadget: the account of a command

What a status wrapper is made from is settled when the command has been carried out.  The data phase
sends and throws away, and leaves the account as it is; so does the wrapper itself.

* `Account` — the units, the residue and the phase error, and what has been moved to and from the
  media.
* `finishReply_account` — the data phase leaves it alone.
* `step_account` — so does every step after the command has been carried out.
* `top_luns` — an iteration in which no exception is handled leaves the units alone, and so does one
  in which data from the host is given up.
* `step_luns_of_ne` — a step for another unit leaves a unit alone.
-/

set_option autoImplicit false

namespace SdLoader
namespace Usb

variable {env : Env} {s t : Ums} {g : Gadget}

/-- What the data phase leaves alone. -/
structure Account where
  /-- `luns` -/
  luns : ℕ → LogicalUnit
  /-- `lun_idx` -/
  lunIdx : ℕ
  /-- `lun_cnt` -/
  lunCnt : ℕ
  /-- `cmnd` -/
  cmnd : ℕ → UInt8
  /-- `data_size` -/
  dataSize : ℕ
  /-- `residue` -/
  residue : ℕ
  /-- `phase_error` -/
  phaseError : ℕ
  /-- `tag` -/
  tag : ℕ
  /-- The transfers of sectors that have succeeded. -/
  moved : List Transfer
  /-- The data the command replies with. -/
  reply : List UInt8

namespace Ums

/-- The account of the command in hand. -/
def account (s : Ums) : Account :=
  ⟨s.luns, s.lunIdx, s.lunCnt, s.cmnd, s.dataSize, s.residue, s.phaseError, s.tag, s.w.moved,
    s.w.reply⟩

theorem status_of_account (h : s.account = t.account) : s.status = t.status := by
  have hluns : s.luns = t.luns := congrArg Account.luns h
  have hidx : s.lunIdx = t.lunIdx := congrArg Account.lunIdx h
  have hphase : s.phaseError = t.phaseError := congrArg Account.phaseError h
  rw [status, status, lun, lun, hluns, hidx, hphase]

/-! ## The data phase -/

theorem raiseException_account (st : UmsState) (s : Ums) :
    (s.raiseException st).account = s.account := by
  rw [raiseException]
  split <;> rfl

theorem handleEp0Ctrl_account (env : Env) (s : Ums) :
    (s.handleEp0Ctrl env).account = s.account := by
  rw [handleEp0Ctrl, poll]
  cases (env s.w.tick).flag with
  | true => exact raiseException_account .protocolReset { s with w := s.w.next }
  | false => rfl

/-- A wait, for either endpoint, moves nothing and has nothing to say. -/
theorem wait_kept (env : Env) (w : World) :
    ((w.waitIn env).2.moved = w.moved ∧ (w.waitIn env).2.reply = w.reply) ∧
      (w.waitOut env).2.moved = w.moved ∧ (w.waitOut env).2.reply = w.reply := by
  rw [World.waitIn, World.waitOut]
  constructor
  · split
    · exact ⟨rfl, rfl⟩
    · split <;> exact ⟨rfl, rfl⟩
  · split <;> exact ⟨rfl, rfl⟩

/-- Nothing else of the world is on the account. -/
theorem account_of_world {w : World} (h : w.moved = s.w.moved ∧ w.reply = s.w.reply) :
    account { s with w := w } = s.account := by
  rw [account, account]
  dsimp only
  rw [h.1, h.2]

/-- A request to send moves nothing, whether it is waited for or not. -/
theorem inWrite_kept (env : Env) (buf len : ℕ) (sync : Bool) (w : World) :
    (xusbDeviceEp1InWrite env buf len sync w).2.moved = w.moved ∧
      (xusbDeviceEp1InWrite env buf len sync w).2.reply = w.reply := by
  obtain ⟨v, hv⟩ : ∃ v : World,
      v = { w with txCountIn := 0 }.pushIn buf (min len usbEpBufferMaxSize) := ⟨_, rfl⟩
  have hkept : v.moved = w.moved ∧ v.reply = w.reply := by
    rw [hv]
    exact ⟨rfl, rfl⟩
  rw [xusbDeviceEp1InWrite, ← hv]
  split
  · rw [(wait_kept env v).1.1, (wait_kept env v).1.2]
    exact hkept
  · split
    · exact hkept
    · exact hkept

theorem transferStartIn_account (env : Env) (sync : Bool) (s : Ums) :
    (s.transferStartIn env sync).account = s.account :=
  account_of_world (inWrite_kept env s.bulk.inBuf s.bulk.inLength sync s.w)

/-- A request for data moves nothing. -/
theorem outRead_kept (env : Env) (buf len : ℕ) (w : World) :
    (xusbDeviceEp1OutRead env buf len w).2.2.moved = w.moved ∧
      (xusbDeviceEp1OutRead env buf len w).2.2.reply = w.reply :=
  (wait_kept env { w with txCountOut := 1, txBytesOut := min len usbEpBufferMaxSize }).2

theorem transferStartOut_account (env : Env) (s : Ums) :
    (s.transferStartOut env).account = s.account :=
  account_of_world (outRead_kept env s.bulk.outBuf s.bulk.outLength s.w)

theorem transferFinishOut_account (env : Env) (s : Ums) :
    (s.transferFinishOut env).account = s.account :=
  account_of_world (wait_kept env s.w).2

theorem padWithZeros_account (env : Env) (s : Ums) :
    (s.padWithZeros env).account = s.account := by
  refine padWithZeros_rule (I := fun y ↦ y.s.account = s.account)
    (Q := fun u ↦ u.account = s.account) (fun y hy ↦ ?_) rfl
  rw [padPass]
  dsimp only
  split
  · exact hy
  · exact (transferStartIn_account env true { y.s.fillMem _ _ _ with bulk.inLength := _ }).trans hy

theorem sendReply_account (env : Env) (s : Ums) : (s.sendReply env).account = s.account := by
  rw [sendReply]
  split
  · rfl
  split
  · exact transferStartIn_account env true s
  · exact padWithZeros_account env s

theorem throwAwayData_account (env : Env) (s : Ums) :
    (s.throwAwayData env).2.account = s.account := by
  have hdrop : s.dropBuffer.account = s.account := by
    rw [dropBuffer]
    split <;> rfl
  rw [throwAwayData]
  split
  · rfl
  split
  · exact transferStartOut_account env { s with bulk.outLength := _ }
  split
  · exact (raiseException_account .abortBulkOut s.dropBuffer).trans hdrop
  · exact hdrop

/-- **The data phase leaves the account alone.** -/
theorem finishReply_account (env : Env) (s : Ums) :
    (s.finishReply env).2.account = s.account := by
  rw [finishReply]
  cases s.dataDir with
  | none | unknown => rfl
  | toHost => exact sendReply_account env s
  | fromHost =>
    dsimp only
    split
    · rfl
    split
    · exact raiseException_account .abortBulkOut s
    · exact throwAwayData_account env s

theorem sendStatus_account (env : Env) (s : Ums) : (s.sendStatus env).account = s.account :=
  transferStartIn_account env true { s.put s.csw with bulk.inLength := usbBulkCsWrapLen }

/-! ## The checks -/

/-- A command whose direction or length is not in order is refused before its unit is looked at. -/
theorem checked_of_misphased (h : s.Misphased) :
    s.checked = (false, { s.opened.limitData with phaseError := 1 }) := if_pos h

/-- Any other is told of a unit attention first. -/
theorem checked_of_phased (h : ¬s.Misphased) :
    s.checked = s.opened.limitData.clearSense.checkUnit (s.cmd.spec s).mask
      (s.cmd.spec s).needsMedium := if_neg h

theorem limitData_luns (s : Ums) : s.limitData.luns = s.luns ∧ s.limitData.lunIdx = s.lunIdx ∧
    s.limitData.cmnd = s.cmnd := by
  rw [limitData]
  dsimp only
  split <;> exact ⟨rfl, rfl, rfl⟩

theorem setUpReply_luns (r : Reply) (s : Ums) :
    (s.setUpReply r).luns = s.luns ∧ (s.setUpReply r).lunIdx = s.lunIdx ∧
      (s.setUpReply r).phaseError = s.phaseError := by
  cases r with
  | ioError => exact ⟨rfl, rfl, rfl⟩
  | invalidArg | len n =>
    simp only [setUpReply]
    split <;> exact ⟨rfl, rfl, rfl⟩

/-! ## Waiting for a command -/

theorem awaitCbw_account (env : Env) (s : Ums) : (s.awaitCbw env).account = s.account := by
  rw [awaitCbw]
  dsimp only
  split
  · exact transferFinishOut_account env { s with bulk.outLength := _ }
  · exact transferStartOut_account env { s with bulk.outLength := _ }

theorem waited_account (env : Env) (s : Ums) : (s.waited env).account = s.account := by
  rw [waited, awaitCbw_account, handleEp0Ctrl_account]
  rfl

/-- What has come changes no unit. -/
theorem receivedCbw_luns (env : Env) (s : Ums) :
    (s.receivedCbw env).2.luns = s.luns ∧ (s.receivedCbw env).2.lunCnt = s.lunCnt := by
  have hep : (s.countEpTimeouts env).account = s.account := by
    rw [countEpTimeouts]
    split
    · rfl
    split
    · rcases hp : s.poll env with ⟨_ | _, u⟩ <;> rw [poll, Prod.mk.injEq] at hp <;>
        obtain ⟨-, rfl⟩ := hp <;> dsimp only
      · split <;> rfl
      · rfl
    · rfl
  have hcount : (s.countEpTimeouts env).countUnmounted.account = s.account := by
    rw [countUnmounted]
    split <;> exact hep
  have htimeouts : (s.countTimeouts env).account = s.account := by
    rw [countTimeouts]
    split
    · exact (raiseException_account _ _).trans hcount
    · exact hcount
  have hread : ∀ u : Ums, (u.readCbw env).2.luns = u.luns ∧
      (u.readCbw env).2.lunCnt = u.lunCnt := by
    intro u
    rw [readCbw]
    split
    · exact ⟨rfl, rfl⟩
    split
    · exact ⟨rfl, rfl⟩
    · obtain ⟨-, hcnt, hluns, -⟩ := acceptCbw_keeps env u
      exact ⟨hluns, hcnt⟩
  obtain ⟨u, hu, haccount⟩ : ∃ u : Ums,
      u = (if s.bulk.outStatus ≠ 0 ∨ s.allLunsUnmounted then s.countTimeouts env else s) ∧
        u.account = s.account := by
    refine ⟨_, rfl, ?_⟩
    split
    · exact htimeouts
    · rfl
  have hluns : u.luns = s.luns ∧ u.lunCnt = s.lunCnt :=
    ⟨congrArg Account.luns haccount, congrArg Account.lunCnt haccount⟩
  rw [receivedCbw, ← hu]
  split
  · exact hluns
  · obtain ⟨hr, hc⟩ := hread { u with cbwReqQueued := false }
    exact ⟨hr.trans hluns.1, hc.trans hluns.2⟩

end Ums

/-! ## Steps -/

namespace Gadget

/-- The step carries out no command: it ends the data phase, or sends the wrapper. -/
def Closing : Gadget → Prop
  | .reply _ => True
  | .status _ => True
  | _ => False

/-- **A command that has been carried out** keeps its account. -/
theorem step_account (env : Env) (h : g.Closing) : (g.step env).ums.account = g.ums.account := by
  cases g with
  | reply s =>
    have hkeep : ((s.handleEp0Ctrl env).finishReply env).2.account = s.account :=
      (Ums.finishReply_account env _).trans (Ums.handleEp0Ctrl_account env s)
    rw [step]
    dsimp only
    split
    · rw [ums_loopEnd]
      exact hkeep
    · exact hkeep
  | status s =>
    rw [step, ums_loopEnd]
    exact Ums.sendStatus_account env s
  | top s | parse s | writing x | exited s => exact h.elim

/-- Every iteration begins in a session that has not ended. -/
theorem loopEnd_top (h : loopEnd s = .top t) : t.state ≠ .terminated := by
  rw [loopEnd] at h
  split at h
  · cases h
  · next hgo =>
    cases h
    exact hgo

theorem parsed_top (h : parsed s = .top t) : t.state ≠ .terminated := by
  rw [parsed] at h
  split at h
  · exact loopEnd_top h
  · cases h

theorem step_top_state (h : g.step env = .top t) : t.state ≠ .terminated := by
  cases g with
  | top s =>
    by_cases hleaves : s.Leaves env
    · rw [step_leaves hleaves] at h
      cases h
    by_cases hnormal : s.state = .normal
    · rw [step_top hnormal hleaves, afterWait] at h
      dsimp only at h
      split at h
      · exact loopEnd_top h
      · cases h
    · rw [step_top_exception hnormal hleaves] at h
      exact loopEnd_top h
  | parse s =>
    rw [step] at h
    split at h
    · exact parsed_top h
    · cases h
  | writing x =>
    rw [step] at h
    split at h
    · cases h
    · exact parsed_top h
  | reply s =>
    rw [step] at h
    dsimp only at h
    split at h
    · exact loopEnd_top h
    · cases h
  | status s => exact loopEnd_top h
  | exited s => cases h

/-- What a command that has been answered leaves. -/
theorem step_parse_replied {r : Reply} (h : (s.handleEp0Ctrl env).parseScsiCmd env = .replied r t) :
    step (.parse s) env = parsed (t.setUpReply r) := by
  rw [step, h]

/-- An exception is handled in the step, other than that data from the host is given up. -/
def Resets (g : Gadget) (env : Env) : Prop :=
  ∃ s, g = .top s ∧ ¬s.Leaves env ∧ s.state ≠ .normal ∧ s.state ≠ .abortBulkOut

/-- An iteration in which none is leaves the units alone. -/
theorem top_luns (hnone : ¬(Gadget.top s).Resets env) :
    (step (.top s) env).ums.luns = s.luns ∧ (step (.top s) env).ums.lunCnt = s.lunCnt := by
  by_cases hleaves : s.Leaves env
  · rw [step_leaves hleaves]
    exact ⟨rfl, rfl⟩
  by_cases hnormal : s.state = .normal
  · have hwaited := Ums.waited_account env s
    obtain ⟨hluns, hcnt⟩ := Ums.receivedCbw_luns env (s.waited env)
    rw [step_top hnormal hleaves, afterWait]
    have hend : ∀ u : Ums, u.luns = (s.waited env).luns → u.lunCnt = (s.waited env).lunCnt →
        u.luns = s.luns ∧ u.lunCnt = s.lunCnt := fun u hl hc ↦
      ⟨hl.trans (congrArg Account.luns hwaited), hc.trans (congrArg Account.lunCnt hwaited)⟩
    dsimp only
    split
    · rw [ums_loopEnd]
      exact hend _ hluns hcnt
    · exact hend _ hluns hcnt
  · have habort : s.state = .abortBulkOut := by
      by_contra hother
      exact hnone ⟨s, rfl, hleaves, hnormal, hother⟩
    rw [step_top_exception hnormal hleaves, ums_loopEnd]
    have hstate : (s.poll env).2.state = .abortBulkOut := habort
    have htake : (s.poll env).2.takeException.account = s.account := by
      rw [Ums.takeException, if_neg (not_not.mpr hstate)]
      rfl
    have hkeep : ((s.poll env).2.handleException env).account = s.account := by
      rw [Ums.handleException, hstate]
      exact (Ums.sendStatus_account env _).trans htake
    exact ⟨congrArg Account.luns hkeep, congrArg Account.lunCnt hkeep⟩

/-- **A step for another unit** leaves a unit alone.  That it does not change whether it is mounted
either is not needed. -/
theorem step_luns_of_ne (env : Env) (htop : ∀ s, g ≠ .top s) (hok : g.WriteOk) {i : ℕ}
    (hne : i ≠ g.ums.lunIdx) :
    ∃ b, (g.step env).ums.luns i = { g.ums.luns i with unmounted := b } := by
  have hidx : (g.step env).ums.lunIdx = g.ums.lunIdx := (step_does env htop hok).1.lunIdx
  have hself := congrArg (fun g' ↦ g'.ums.luns i) (step_context env htop)
  simp only [ums_inContext] at hself
  refine ⟨((g.step env).ums.luns i).unmounted, hself.trans (if_neg fun heq ↦ hne ?_)⟩
  exact heq.trans hidx

end Gadget

end Usb
end SdLoader
