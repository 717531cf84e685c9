import SdLoader.Usb.WriteLoop

/-!
# The mass storage gadget: what a command answers

The state a command leaves for the data phase.

A command that transfers nothing over the bus while it is carried out leaves everything alone that
the data phase goes by.  What it has to say it has put behind the bulk-IN pointer, and it returns
how much that is.

* `Kept` — the gadget is the same, apart from its units, memory, and the storages.
* `Answers` — it is, and the reply of the command is behind the bulk-IN pointer.  There is one lemma
  for each handler.
* `Admits` — the block is taken as a write, and this is its loop.  `ReadsFrom` is the same for a
  read.
* `parse_answers` — a command has answered once it has been parsed, unless it is one of the two.
-/

set_option autoImplicit false

namespace SdLoader
namespace Usb

/-! ## A command that has been taken over -/

namespace Ums

variable {env : Env} {s t : Ums}

/-- The gadget after it has polled for a reset, and found none. -/
def polled (s : Ums) : Ums := { s with w := s.w.next }

theorem handleEp0Ctrl_quiet (hquiet : ∀ t, (env t).flag = false) (s : Ums) :
    s.handleEp0Ctrl env = s.polled := by
  rw [handleEp0Ctrl, poll, hquiet]
  rfl

/-- The gadget when it has taken over a command block. -/
structure Ready (s : Ums) : Prop where
  state : s.state = .normal
  empty : s.bulk.outBufState = .empty
  some : s.dataDir ≠ .none → s.dataSize ≠ 0
  small : s.dataSize < 2 ^ 32

/-- The direction and the length a command block announces. -/
theorem acceptCbw_data (env : Env) (s : Ums) :
    ((s.acceptCbw env).dataDir ≠ .none → (s.acceptCbw env).dataSize ≠ 0) ∧
      (s.acceptCbw env).dataSize < 2 ^ 32 := by
  have hsave : (s.saveCommand.dataDir ≠ .none → s.saveCommand.dataSize ≠ 0) ∧
      s.saveCommand.dataSize < 2 ^ 32 := by
    refine ⟨fun hdir hzero ↦ hdir ?_, Store.word_lt _ _⟩
    have hsize : Store.word s.w.mem (s.bulk.outBuf + 8) = 0 := hzero
    rw [saveCommand]
    dsimp only
    rw [if_pos hsize]
  rw [acceptCbw]
  split
  · exact hsave
  · rw [changeLun]
    split
    · exact hsave
    · exact hsave

theorem readCbw_data (h : s.readCbw env = (true, t)) :
    (t.dataDir ≠ .none → t.dataSize ≠ 0) ∧ t.dataSize < 2 ^ 32 := by
  rw [readCbw] at h
  split at h
  · cases h
  split at h
  · cases h
  · cases h
    exact acceptCbw_data env s

theorem receivedCbw_data (h : s.receivedCbw env = (true, t)) :
    (t.dataDir ≠ .none → t.dataSize ≠ 0) ∧ t.dataSize < 2 ^ 32 := by
  rw [receivedCbw] at h
  set u : Ums := if s.bulk.outStatus ≠ 0 ∨ s.allLunsUnmounted then s.countTimeouts env else s
  by_cases hbad : u.bulk.outStatus ≠ 0 ∨ u.bulk.outIgnore = true
  · rw [if_pos hbad] at h
    cases h
  · rw [if_neg hbad] at h
    exact readCbw_data h

theorem ready_of_getNextCommand (h : s.getNextCommand env = (true, t))
    (hstate : t.state = .normal) : t.Ready := by
  rw [getNextCommand] at h
  rcases hr : (s.awaitCbw env).receivedCbw env with ⟨ok, u⟩
  rw [hr] at h
  cases h
  obtain ⟨hsome, hsmall⟩ := receivedCbw_data hr
  exact ⟨hstate, rfl, hsome, hsmall⟩

end Ums

namespace Gadget

variable {volumes : List Volume} {secCnt : MmcType → ℕ} {g : Gadget} {s : Ums}

theorem loopEnd_ne_parse (t : Ums) : loopEnd t ≠ .parse s := by
  rw [loopEnd]
  split <;> exact Gadget.noConfusion

theorem parsed_ne_parse (t : Ums) : parsed t ≠ .parse s := by
  rw [parsed]
  split
  · exact loopEnd_ne_parse t
  · exact Gadget.noConfusion

/-- A command is carried out once its block has been taken over. -/
theorem ready_of_step {env : Env} (h : g.step env = .parse s) : s.Ready := by
  cases g with
  | top t =>
    rw [step] at h
    rcases hp : t.poll env with ⟨combo, t₁⟩
    rw [hp] at h
    dsimp only at h
    split at h
    · cases h
    split at h
    · exact absurd h (loopEnd_ne_parse _)
    rcases hn : (t₁.handleEp0Ctrl env).getNextCommand env with ⟨ok, u⟩
    rw [hn] at h
    dsimp only at h
    split at h
    · exact absurd h (loopEnd_ne_parse _)
    · next hgo =>
      cases h
      rw [Bool.or_eq_true, Bool.not_eq_true', decide_eq_true_eq, not_or] at hgo
      have hok : ok = true := eq_true_of_ne_false hgo.1
      subst hok
      exact Ums.ready_of_getNextCommand hn (not_not.mp hgo.2)
  | parse t =>
    rw [step] at h
    split at h
    · exact absurd h (parsed_ne_parse _)
    · cases h
  | writing x =>
    rw [step] at h
    split at h
    · cases h
    · exact absurd h (parsed_ne_parse _)
  | reply t =>
    rw [step] at h
    rcases hf : (t.handleEp0Ctrl env).finishReply env with ⟨fatal, u⟩
    rw [hf] at h
    dsimp only at h
    split at h
    · exact absurd h (loopEnd_ne_parse _)
    · cases h
  | status t => exact absurd h (loopEnd_ne_parse _)
  | exited t => cases h

theorem ready_of_reachable (h : Reachable volumes secCnt (.parse s)) : s.Ready := by
  have hinv : ∀ t, Gadget.parse s = .parse t → t.Ready :=
    h.inv (I := fun g ↦ ∀ t, g = .parse t → t.Ready) (fun g hg t ht ↦ by
      obtain ⟨-, w, -, rfl⟩ := hg
      cases ht) fun g env _ t ht ↦ ready_of_step ht
  exact hinv s rfl

end Gadget

/-- The data phase of the command is over: its status is due, or an exception has been raised. -/
def Gadget.Over : Gadget → Prop
  | .parse _ => False
  | .writing _ => False
  | .reply _ => False
  | _ => True

/-! ## The count of what the host has sent -/

/-- The bytes of the host an event has consumed. -/
def Event.consumed : Event → ℕ
  | .bulkOut _ _ actual => actual
  | _ => 0

/-- The bytes of the host that have been consumed so far. -/
def World.consumed (w : World) : ℕ := (w.trace.map Event.consumed).sum

theorem consumed_cons {w w' : World} {e : Event} (h : w'.trace = e :: w.trace) :
    w'.consumed = e.consumed + w.consumed := by
  rw [World.consumed, World.consumed, h, List.map_cons, List.sum_cons]

namespace Ums

variable {env : Env} {s s' s'' : Ums}

/-! ## What is kept -/

/-- `s`, with the units, the memory and the storages of `t`. -/
def withUnits (s t : Ums) : Ums := { s with
  cmnd := t.cmnd
  luns := t.luns
  allLunsUnmounted := t.allLunsUnmounted
  phaseError := t.phaseError
  w := { s.w with
    mem := t.w.mem
    tick := t.w.tick
    partition := t.w.partition
    selected := t.w.selected
    reply := t.w.reply
    trace := t.w.trace
    moved := t.w.moved } }

/-- The gadget is the same, apart from its units, memory and the storages. -/
structure Kept (s s' : Ums) : Prop where
  same : s' = s.withUnits s'
  consumed : s'.w.consumed = s.w.consumed

theorem Kept.refl (s : Ums) : Kept s s := ⟨rfl, rfl⟩

theorem Kept.trans (h : Kept s s') (h' : Kept s' s'') : Kept s s'' := by
  refine ⟨?_, h'.consumed.trans h.consumed⟩
  calc
    s'' = s'.withUnits s'' := h'.same
    _ = (s.withUnits s').withUnits s'' := congrArg (·.withUnits s'') h.same
    _ = s.withUnits s'' := rfl

theorem setLun_kept (f : LogicalUnit → LogicalUnit) (s : Ums) : Kept s (s.setLun f) := ⟨rfl, rfl⟩

theorem put_kept (l : List UInt8) (s : Ums) : Kept s (s.put l) :=
  ⟨rfl, (consumed_cons (w := s.w) rfl).trans (Nat.zero_add _)⟩

theorem access_kept (isWrite : Bool) (sector count buf : ℕ) (s : Ums) :
    Kept s (s.sdmmcStorageAccess env isWrite sector count buf).2 :=
  ⟨rfl, (consumed_cons (w := s.w) rfl).trans (Nat.zero_add _)⟩

namespace Kept

theorem bulk (h : Kept s s') : s'.bulk = s.bulk := congrArg (·.bulk) h.same

theorem state (h : Kept s s') : s'.state = s.state := congrArg (·.state) h.same

theorem dataDir (h : Kept s s') : s'.dataDir = s.dataDir := congrArg (·.dataDir) h.same

theorem dataSize (h : Kept s s') : s'.dataSize = s.dataSize := congrArg (·.dataSize) h.same

theorem dataSizeFromCmnd (h : Kept s s') : s'.dataSizeFromCmnd = s.dataSizeFromCmnd :=
  congrArg (·.dataSizeFromCmnd) h.same

theorem residue (h : Kept s s') : s'.residue = s.residue := congrArg (·.residue) h.same

theorem usbAmountLeft (h : Kept s s') : s'.usbAmountLeft = s.usbAmountLeft :=
  congrArg (·.usbAmountLeft) h.same

theorem shortPacketReceived (h : Kept s s') : s'.shortPacketReceived = s.shortPacketReceived :=
  congrArg (·.shortPacketReceived) h.same

theorem canStall (h : Kept s s') : s'.canStall = s.canStall := congrArg (·.canStall) h.same

theorem inQueue (h : Kept s s') : s'.w.inQueue = s.w.inQueue := congrArg (·.w.inQueue) h.same

theorem sent (h : Kept s s') : s'.w.sent = s.w.sent := congrArg (·.w.sent) h.same

end Kept

end Ums

/-! ## Answers -/

/-- How much a command replies with. -/
def Reply.size : Reply → ℕ
  | .len n => n
  | _ => 0

namespace Ums

variable {env : Env} {s s' : Ums} {r : Reply}

/-- The command has been carried out, and its reply, which may be an empty one, is behind the
bulk-IN pointer. -/
structure Answers (s : Ums) (r : Reply) (s' : Ums) : Prop where
  kept : Kept s s'
  reply : s'.w.reply = Store.slice s'.w.mem s'.bulk.inBuf r.size
  some : r ≠ .ioError
  small : r.size ≤ usbEpBulkInMaxXfer

theorem refuse_answers (code : ℕ) (hreply : s.w.reply = []) :
    Answers s (s.refuse code).1 (s.refuse code).2 :=
  ⟨⟨rfl, rfl⟩, hreply, Reply.noConfusion, Nat.zero_le _⟩

/-- There is nothing to say. -/
theorem answers_of_kept (h : Kept s s') (hreply : s'.w.reply = []) : Answers s (.len 0) s' :=
  ⟨h, hreply, Reply.noConfusion, Nat.zero_le _⟩

/-- The start of a list that has been written to memory. -/
theorem slice_blit_getD (mem : ℕ → UInt8) (a : ℕ) {n : ℕ} {l : List UInt8} (hn : n ≤ l.length) :
    Store.slice (Store.blit mem a l.length fun k ↦ l.getD k 0) a n = l.take n := by
  refine List.ext_getElem (by rw [Store.length_slice, List.length_take]; omega) fun k hk hk' ↦ ?_
  rw [Store.length_slice] at hk
  simp only [Store.slice, List.getElem_map, List.getElem_range, List.getElem_take]
  rw [Store.blit_add (by omega), List.getD_eq_getElem?_getD, List.getElem?_eq_getElem (by omega)]
  rfl

theorem replyWith_answers {n : ℕ} {l : List UInt8} (hn : n ≤ l.length)
    (hsmall : n ≤ usbEpBulkInMaxXfer) : Answers s (s.replyWith n l).1 (s.replyWith n l).2 where
  kept := (put_kept l s).trans ⟨rfl, rfl⟩
  reply := (slice_blit_getD s.w.mem s.bulk.inBuf hn).symm
  some := Reply.noConfusion
  small := hsmall

/-- A change of the active unit in front of an answer. -/
theorem Answers.after (h : Kept s s') {s'' : Ums} (h' : Answers s' r s'') : Answers s r s'' :=
  ⟨h.trans h'.kept, h'.reply, h'.some, h'.small⟩

theorem scsiInquiry_answers (s : Ums) : Answers s s.scsiInquiry.1 s.scsiInquiry.2 := by
  rw [scsiInquiry]
  split
  · refine replyWith_answers ?_ (by decide)
    rw [length_padTo]
    exact Nat.le_trans (by decide) (Nat.le_max_left 36 _)
  · refine replyWith_answers ?_ (by decide)
    have hvendor : (ascii "hekate").length = 6 := by decide
    have hrev : (ascii "1.00").length = 4 := by decide
    simp only [length_padTo, List.length_append, List.length_cons, List.length_nil, hvendor, hrev]
    omega

theorem scsiRequestSense_answers (s : Ums) :
    Answers s s.scsiRequestSense.1 s.scsiRequestSense.2 :=
  (replyWith_answers (by simp [toBe32, toBe16]) (by decide)).after (setLun_kept _ s)

theorem scsiReadCapacity_answers (hreply : s.w.reply = []) :
    Answers s s.scsiReadCapacity.1 s.scsiReadCapacity.2 := by
  rw [scsiReadCapacity]
  split
  · exact refuse_answers _ hreply
  · exact replyWith_answers (by simp [toBe32, toBe16]) (by decide)

theorem scsiLogSense_answers (hreply : s.w.reply = []) :
    Answers s s.scsiLogSense.1 s.scsiLogSense.2 := by
  rw [scsiLogSense]
  split
  · exact refuse_answers _ hreply
  split
  · exact refuse_answers _ hreply
  split
  · exact replyWith_answers (by decide) (by decide)
  split
  · exact replyWith_answers (by decide) (by decide)
  · exact (refuse_answers (s := s.put (List.replicate 8 0)) _ hreply).after (put_kept _ s)

theorem scsiModeSense_answers (six : Bool) (hreply : s.w.reply = []) :
    Answers s (s.scsiModeSense six).1 (s.scsiModeSense six).2 := by
  rw [scsiModeSense]
  dsimp only
  split
  · exact refuse_answers _ hreply
  split
  · exact refuse_answers _ hreply
  split
  · split
    · exact replyWith_answers (by simp [length_cachingPage]) (by decide)
    · exact replyWith_answers (by simp [length_cachingPage, toBe16]) (by decide)
  · exact (refuse_answers (s := s.put _) _ hreply).after (put_kept _ s)

theorem scsiReadFormatCapacities_answers (s : Ums) :
    Answers s s.scsiReadFormatCapacities.1 s.scsiReadFormatCapacities.2 :=
  replyWith_answers (by simp [toBe32, toBe16]) (by decide)

theorem scsiPreventAllowRemoval_answers (hreply : s.w.reply = []) :
    Answers s s.scsiPreventAllowRemoval.1 s.scsiPreventAllowRemoval.2 := by
  rw [scsiPreventAllowRemoval]
  split
  · exact refuse_answers _ hreply
  split
  · exact refuse_answers _ hreply
  · exact answers_of_kept ⟨rfl, rfl⟩ hreply

theorem scsiStartStop_answers (hreply : s.w.reply = []) :
    Answers s s.scsiStartStop.1 s.scsiStartStop.2 := by
  rw [scsiStartStop]
  dsimp only
  split
  · exact refuse_answers _ hreply
  split
  · exact refuse_answers _ hreply
  split
  · split
    · exact refuse_answers _ hreply
    · exact answers_of_kept (.refl s) hreply
  split
  · exact refuse_answers _ hreply
  split
  · exact answers_of_kept (.refl s) hreply
  · exact answers_of_kept ⟨rfl, rfl⟩ hreply

/-! ## Verification -/

/-- A pass of a verification keeps what the data phase goes by. -/
theorem verifyPass_kept (env : Env) {x : VerifyLoop} (h : Kept s x.s ∧ x.s.w.reply = []) :
    (verifyPass env x).All (fun x' ↦ Kept s x'.s ∧ x'.s.w.reply = [])
      (fun s' ↦ Kept s s' ∧ s'.w.reply = []) := by
  rw [verifyPass]
  split
  · exact h
  set amount := min (min x.verificationLength (usbEpBufferMaxSize / lbaSize))
    (x.s.lun.numSectors - x.lbaOffset)
  dsimp only
  by_cases hzero : amount = 0
  · rw [if_pos hzero]
    exact ⟨h.1.trans (setLun_kept _ _), h.2⟩
  rw [if_neg hzero]
  have hacc : Kept s (x.s.sdmmcStorageAccess env false (add32 x.s.lun.offset x.lbaOffset) amount
      x.s.bulk.inBuf).2 := h.1.trans (access_kept _ _ _ _ _)
  have hreply : (x.s.sdmmcStorageAccess env false (add32 x.s.lun.offset x.lbaOffset) amount
      x.s.bulk.inBuf).2.w.reply = [] := h.2
  rcases hr : x.s.sdmmcStorageAccess env false (add32 x.s.lun.offset x.lbaOffset) amount
    x.s.bulk.inBuf with ⟨_ | _, t⟩ <;> rw [hr] at hacc hreply
  · exact ⟨hacc.trans (setLun_kept _ _), hreply⟩
  · exact ⟨hacc, hreply⟩

theorem verifyLoop_answers (hreply : s.w.reply = []) (lba n : ℕ) :
    Answers s (.len 0) (verifyLoop env ⟨lba, n, s⟩) := by
  have hrun := Loop.run_all (fun x hx ↦ verifyPass_kept env hx)
    (s := ⟨lba, n, s⟩) ⟨Kept.refl s, hreply⟩ (n + 1)
  rw [verifyLoop]
  refine hrun.elim ?_ ?_
  · intro x hx
    exact answers_of_kept hx.1 hx.2
  · intro r hr
    exact answers_of_kept hr.1 hr.2

end Ums

/-! ## Parsing -/

/-- The reads: has the block six bytes? -/
def ScsiCmd.readSix : ScsiCmd → Option Bool
  | .read6 => some true
  | .read10 => some false
  | .read12 => some false
  | _ => none

/-- The writes: has the block six bytes? -/
def ScsiCmd.writeSix : ScsiCmd → Option Bool
  | .write6 => some true
  | .write10 => some false
  | .write12 => some false
  | _ => none

namespace Ums

variable {env : Env} {s s' t : Ums}

/-- The command block is taken as a write, and this is its loop as it is entered. -/
def Admits (s : Ums) (x : WriteLoop) : Prop :=
  s.checked = (true, x.s) ∧ ∃ six, s.cmd.writeSix = some six ∧ x.s.scsiWrite six = .writing x

/-- The command is carried out, and has no reply, not even an empty one: a read of less than a
block, or the verification of nothing. -/
def Silent (s : Ums) : Prop :=
  ∃ t, s.checked = (true, t) ∧
    ((∃ six lba, s.cmd.readSix = some six ∧ t.lbaOffset six = (lba, true) ∧
        lba < t.lun.numSectors ∧ t.dataSizeFromCmnd / lbaSize = 0) ∨
      s.cmd = .verify ∧ be32 t.cmnd 2 < t.lun.numSectors ∧ t.cmnd 1 &&& 0xEF = 0 ∧
        be16 t.cmnd 7 = 0)

/-- The command block is taken as a read of at least one block, and this is its loop as it is
entered. -/
structure ReadsFrom (s : Ums) (x : ReadLoop) : Prop where
  checked : s.checked = (true, x.s)
  cmd : ∃ six, s.cmd.readSix = some six ∧ x.s.lbaOffset six = (x.lbaOffset, true)
  lba : x.lbaOffset < x.s.lun.numSectors
  amount : x.amountLeft = x.s.dataSizeFromCmnd / lbaSize
  some : x.amountLeft ≠ 0
  start : x = ⟨x.lbaOffset, x.amountLeft, true, true, usbEpBulkInBufAddr, x.s⟩

/-! ### The checks -/

theorem limitData_w (s : Ums) : s.limitData.w = s.w := by
  rw [limitData]
  split <;> rfl

theorem limitData_bulk (s : Ums) : s.limitData.bulk = s.bulk := by
  rw [limitData]
  split <;> rfl

theorem limitData_residue (s : Ums) : s.limitData.residue = s.dataSize := by
  rw [limitData]
  split <;> rfl

theorem limitData_usbAmountLeft (s : Ums) : s.limitData.usbAmountLeft = s.dataSize := by
  rw [limitData]
  split <;> rfl

theorem limitData_dataSize (s : Ums) : s.limitData.dataSize = s.dataSize := by
  rw [limitData]
  split <;> rfl

theorem limitData_dataDir (s : Ums) : s.limitData.dataDir = s.dataDir := by
  rw [limitData]
  split <;> rfl

theorem limitData_state (s : Ums) : s.limitData.state = s.state := by
  rw [limitData]
  split <;> rfl

theorem limitData_shortPacketReceived (s : Ums) :
    s.limitData.shortPacketReceived = s.shortPacketReceived := by
  rw [limitData]
  split <;> rfl

theorem limitData_canStall (s : Ums) : s.limitData.canStall = s.canStall := by
  rw [limitData]
  split <;> rfl

theorem clearSense_kept (s : Ums) : Kept s s.clearSense := by
  rw [clearSense]
  split
  · exact ⟨rfl, rfl⟩
  · exact .refl s

theorem checkUnit_kept (mask : ℕ) (needsMedium : Bool) (s : Ums) :
    Kept s (s.checkUnit mask needsMedium).2 ∧
      (s.checkUnit mask needsMedium).2.w.reply = s.w.reply := by
  rw [checkUnit]
  split
  · exact ⟨⟨rfl, rfl⟩, rfl⟩
  split
  · exact ⟨⟨rfl, rfl⟩, rfl⟩
  split
  · exact ⟨⟨rfl, rfl⟩, rfl⟩
  · exact ⟨⟨rfl, rfl⟩, rfl⟩

theorem clearSense_w (s : Ums) : s.clearSense.w = s.w := by
  rw [clearSense]
  split <;> rfl

/-- The checks leave the data phase as it has been limited. -/
theorem checked_kept (s : Ums) :
    Kept s.opened.limitData s.checked.2 ∧ s.checked.2.w.reply = [] := by
  have hreply : s.opened.limitData.w.reply = [] := by rw [limitData_w]; rfl
  rw [checked, checkScsiCmd]
  split
  · exact ⟨⟨rfl, rfl⟩, hreply⟩
  · obtain ⟨hkept, hsame⟩ := checkUnit_kept (s.cmd.spec s).mask (s.cmd.spec s).needsMedium
      s.opened.limitData.clearSense
    refine ⟨(clearSense_kept _).trans hkept, hsame.trans ?_⟩
    rw [clearSense_w]
    exact hreply

/-- A command that passes, and is to move data, moves it in its own direction. -/
theorem dataDir_of_checked (h : s.checked = (true, t)) (hsize : t.dataSizeFromCmnd ≠ 0) :
    t.dataDir = (s.cmd.spec s).dataDir := by
  obtain ⟨-, hdir, -⟩ := checked_passed h
  have hkept := (checked_kept s).1
  rw [h] at hkept
  have hlimited : 0 < s.opened.limitData.dataSizeFromCmnd := by
    have hsame : t.dataSizeFromCmnd = s.opened.limitData.dataSizeFromCmnd := hkept.dataSizeFromCmnd
    omega
  have hown : s.opened.dataSizeFromCmnd ≠ 0 := by
    rw [limitData_dataSizeFromCmnd] at hlimited
    omega
  have hsame : t.dataDir = s.opened.dataDir := hkept.dataDir.trans (limitData_dataDir _)
  rw [directionDiffers, decide_eq_true hlimited, Bool.and_true, if_neg hown] at hdir
  rw [hsame]
  by_contra hne
  exact absurd (decide_eq_true hne) (by rw [hdir]; exact Bool.false_ne_true)

/-! ### The commands -/

/-- What parsing a command comes to. -/
def ParsedIs (env : Env) (s : Ums) : Parsed → Prop
  | .replied r t => Answers s.opened.limitData r t ∨
    Silent s ∧ r = .ioError ∧ s.checked = (true, t) ∨
    ∃ x, ReadsFrom s x ∧ r = .ioError ∧ t = readLoop env x
  | .writing x => Admits s x

theorem scsiRead_is {six : Bool} (hc : s.checked = (true, t)) (hcmd : s.cmd.readSix = some six) :
    ParsedIs env s (.of (t.scsiRead env six)) := by
  obtain ⟨hkept, hreply⟩ := checked_kept s
  rw [hc] at hkept hreply
  rw [scsiRead]
  rcases hl : t.lbaOffset six with ⟨lba, _ | _⟩
  · exact .inl ((refuse_answers _ hreply).after hkept)
  by_cases hlba : t.lun.numSectors ≤ lba
  · simp only [hlba, ↓reduceIte]
    exact .inl ((refuse_answers _ hreply).after hkept)
  simp only [hlba, ↓reduceIte]
  by_cases hnone : t.dataSizeFromCmnd / lbaSize = 0
  · rw [if_pos hnone]
    exact .inr (.inl ⟨⟨t, hc, .inl ⟨six, lba, hcmd, hl, Nat.lt_of_not_le hlba, hnone⟩⟩, rfl, hc⟩)
  · rw [if_neg hnone]
    exact .inr (.inr ⟨⟨lba, t.dataSizeFromCmnd / lbaSize, true, true, usbEpBulkInBufAddr, t⟩,
      ⟨hc, ⟨six, hcmd, hl⟩, Nat.lt_of_not_le hlba, rfl, hnone, rfl⟩, rfl, rfl⟩)

theorem scsiVerify_is (hc : s.checked = (true, t)) (hcmd : s.cmd = .verify) :
    ParsedIs env s (.of (t.scsiVerify env)) := by
  obtain ⟨hkept, hreply⟩ := checked_kept s
  rw [hc] at hkept hreply
  rw [scsiVerify]
  by_cases hlba : t.lun.numSectors ≤ be32 t.cmnd 2
  · simp only [hlba, ↓reduceIte]
    exact .inl ((refuse_answers _ hreply).after hkept)
  simp only [hlba, ↓reduceIte]
  by_cases hblock : t.cmnd 1 &&& 0xEF ≠ 0
  · rw [if_pos hblock]
    exact .inl ((refuse_answers _ hreply).after hkept)
  rw [if_neg hblock]
  by_cases hnone : be16 t.cmnd 7 = 0
  · rw [if_pos hnone]
    exact .inr (.inl ⟨⟨t, hc, .inr ⟨hcmd, Nat.lt_of_not_le hlba, not_not.mp hblock, hnone⟩⟩, rfl,
      hc⟩)
  · rw [if_neg hnone]
    exact .inl ((verifyLoop_answers hreply _ _).after hkept)

theorem scsiWrite_is {six : Bool} (hc : s.checked = (true, t)) (hcmd : s.cmd.writeSix = some six) :
    ParsedIs env s (t.scsiWrite six) := by
  obtain ⟨hkept, hreply⟩ := checked_kept s
  rw [hc] at hkept hreply
  cases hw : t.scsiWrite six with
  | writing x =>
    obtain ⟨-, -, hs⟩ := entered_of_scsiWrite hw
    exact ⟨by rw [hs]; exact hc, six, hcmd, by rw [hs]; exact hw⟩
  | replied r u =>
    rw [scsiWrite] at hw
    split at hw
    · cases hw
      exact .inl ((refuse_answers _ hreply).after hkept)
    rcases hl : t.lbaOffset six with ⟨lba, _ | _⟩ <;> rw [hl] at hw
    · cases hw
      exact .inl ((refuse_answers _ hreply).after hkept)
    dsimp only at hw
    split at hw
    · cases hw
      exact .inl ((refuse_answers _ hreply).after hkept)
    · cases hw

/-- **What parsing a command comes to**: it has answered, it has nothing to answer, it is a read
that has been carried out, or a write that has been admitted. -/
theorem parse_answers (env : Env) (s : Ums) : ParsedIs env s (s.parseScsiCmd env) := by
  obtain ⟨hkept, hreply⟩ := checked_kept s
  rw [parseScsiCmd]
  rcases hc : s.checked with ⟨_ | _, t⟩ <;> rw [hc] at hkept hreply
  · exact .inl ⟨hkept, hreply, Reply.noConfusion, Nat.zero_le _⟩
  dsimp only at hkept hreply ⊢
  cases hcmd : s.cmd with
  | inquiry => exact .inl ((scsiInquiry_answers t).after hkept)
  | logSense => exact .inl ((scsiLogSense_answers hreply).after hkept)
  | modeSelect6 => exact .inl ((refuse_answers _ hreply).after hkept)
  | modeSelect10 => exact .inl ((refuse_answers _ hreply).after hkept)
  | modeSense6 => exact .inl ((scsiModeSense_answers true hreply).after hkept)
  | modeSense10 => exact .inl ((scsiModeSense_answers false hreply).after hkept)
  | preventAllowMediumRemoval => exact .inl ((scsiPreventAllowRemoval_answers hreply).after hkept)
  | read6 => exact scsiRead_is hc (by rw [hcmd]; rfl)
  | read10 => exact scsiRead_is hc (by rw [hcmd]; rfl)
  | read12 => exact scsiRead_is hc (by rw [hcmd]; rfl)
  | readCapacity => exact .inl ((scsiReadCapacity_answers hreply).after hkept)
  | readFormatCapacities => exact .inl ((scsiReadFormatCapacities_answers t).after hkept)
  | requestSense => exact .inl ((scsiRequestSense_answers t).after hkept)
  | startStopUnit => exact .inl ((scsiStartStop_answers hreply).after hkept)
  | synchronizeCache => exact .inl (answers_of_kept hkept hreply)
  | testUnitReady => exact .inl (answers_of_kept hkept hreply)
  | verify => exact scsiVerify_is hc hcmd
  | write6 => exact scsiWrite_is hc (by rw [hcmd]; rfl)
  | write10 => exact scsiWrite_is hc (by rw [hcmd]; rfl)
  | write12 => exact scsiWrite_is hc (by rw [hcmd]; rfl)
  | other => exact .inl ((refuse_answers _ hreply).after hkept)

theorem parse_of_admits {x : WriteLoop} (env : Env) (h : Admits s x) :
    s.parseScsiCmd env = .writing x := by
  obtain ⟨hc, six, hsix, hx⟩ := h
  rw [parseScsiCmd, hc]
  dsimp only
  cases hcmd : s.cmd <;> rw [hcmd] at hsix <;> cases hsix <;> exact hx

theorem parse_of_silent (env : Env) (h : Silent s) :
    s.parseScsiCmd env = .replied .ioError s.checked.2 := by
  obtain ⟨t, hc, ⟨six, lba, hsix, hl, hlba, hnone⟩ | ⟨hcmd, hlba, hblock, hnone⟩⟩ := h
  · have hread : t.scsiRead env six = (.ioError, t) := by
      rw [scsiRead, hl]
      dsimp only
      rw [if_neg (Nat.not_le_of_lt hlba), if_pos hnone]
    rw [parseScsiCmd, hc]
    dsimp only
    cases hcmd : s.cmd <;> rw [hcmd] at hsix <;> cases hsix <;> exact congrArg Parsed.of hread
  · have hverify : t.scsiVerify env = (.ioError, t) := by
      rw [scsiVerify, if_neg (Nat.not_le_of_lt hlba), if_neg (not_not_intro hblock), if_pos hnone]
    rw [parseScsiCmd, hc]
    dsimp only
    rw [hcmd]
    exact congrArg Parsed.of hverify

theorem parse_of_readsFrom {x : ReadLoop} (env : Env) (h : ReadsFrom s x) :
    s.parseScsiCmd env = .replied .ioError (readLoop env x) := by
  obtain ⟨hc, ⟨six, hsix, hlba⟩, hlt, hamount, hsome, hstart⟩ := h
  have hread : x.s.scsiRead env six = (.ioError, readLoop env x) := by
    rw [hamount] at hsome hstart
    rw [scsiRead, hlba]
    dsimp only
    rw [if_neg (Nat.not_le_of_lt hlt), if_neg hsome, ← hstart]
  rw [parseScsiCmd, hc]
  dsimp only
  cases hcmd : s.cmd <;> rw [hcmd] at hsix <;> cases hsix <;>
    exact congrArg Parsed.of hread

/-- A read of at least one block sends data to the host. -/
theorem ReadsFrom.dataDir {x : ReadLoop} (h : ReadsFrom s x) : x.s.dataDir = .toHost := by
  have hsize : x.s.dataSizeFromCmnd ≠ 0 := by
    intro hzero
    have hnone := h.amount
    rw [hzero] at hnone
    exact h.some hnone
  rw [dataDir_of_checked h.checked hsize]
  obtain ⟨six, hsix, -⟩ := h.cmd
  cases hcmd : s.cmd <;> rw [hcmd] at hsix <;> cases hsix <;> rfl

end Ums
end Usb
end SdLoader
