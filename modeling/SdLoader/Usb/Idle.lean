import SdLoader.Usb.Answer

/-!
# The mass storage gadget: the bulk-IN endpoint between commands

What becomes of the bulk-IN endpoint in a session without USB errors.

A wait on the endpoint counts completions, and takes the oldest requests for the one it is meant
for.  As long as every request is waited for before the next one is made, and no wait returns an
error, the ring is empty whenever the gadget is not waiting.  The one command that makes a request
without waiting is a read of more than one chunk.  It waits once it has read the next chunk, and if
there is none, because the end of the unit has been reached, it does not; so the endpoint is `Idle`
between the commands of a session in which no read runs past the end (`Inside`).

* `transferStartIn_clean` — a request that is waited for sends what is behind the pointer.
* `readLoop_chunk` — what a read of one chunk leaves for the end of the data phase.
* `readLoop_idle` — a read inside the unit leaves an empty ring, in however many chunks it is made.
* `idle_step` — the step lemma, and `idle_run` the run lemma.
-/

set_option autoImplicit false

namespace SdLoader
namespace Usb

/-- No USB error, and no reset. -/
structure Clean (env : Env) : Prop where
  usb : ∀ t, (env t).usb = 0
  quiet : ∀ t, (env t).flag = false

/-! ## Requests -/

/-- A request that is completed with the memory it was made with sends what was there. -/
theorem bytes_same (addr len : ℕ) (early : ℕ → Bool) (mem : ℕ → UInt8) :
    Trb.bytes ⟨addr, len, mem⟩ early mem = Store.slice mem addr len := by
  rw [Trb.bytes, Store.slice]
  refine List.map_congr_left fun k _ ↦ ?_
  exact ite_self _

/-- A wait without an error leaves nothing of what it was made for. -/
theorem waitIn_clean {env : Env} (hclean : Clean env) {w : World} (hcount : w.txCountIn ≠ 0) :
    (w.waitIn env).2 =
      { World.complete (w.txCountIn + (env w.tick).more) (env w.tick).early w.next with
      txCountIn := 0 } := by
  rw [World.waitIn]
  dsimp only
  rw [if_neg hcount, if_pos (hclean.usb _)]

namespace Ums

variable {env : Env} {s s' t : Ums} {x : WriteLoop}

/-- Nothing is outstanding on the bulk-IN endpoint. -/
structure Idle (s : Ums) : Prop where
  queue : s.w.inQueue = []
  stall : s.canStall = 0
  small : s.bulk.inLength < 2 ^ 32

/-- **A request that is waited for**, on an empty ring: it sends what is behind the pointer, and
leaves an empty ring. -/
theorem transferStartIn_clean (hclean : Clean env) (hqueue : s.w.inQueue = []) :
    (s.transferStartIn env true).w.inQueue = [] ∧
      (s.transferStartIn env true).w.sent = s.w.sent ++
        Store.slice s.w.mem s.bulk.inBuf (min s.bulk.inLength usbEpBufferMaxSize) ∧
      (s.transferStartIn env true).w.mem = s.w.mem ∧
      (s.transferStartIn env true).w.reply = s.w.reply := by
  set len := min s.bulk.inLength usbEpBufferMaxSize with hlen
  set w : World := { s.w with txCountIn := 0 }.pushIn s.bulk.inBuf len with hw
  have hone : w.inQueue = [⟨s.bulk.inBuf, len, s.w.mem⟩] := by
    show s.w.inQueue ++ [⟨s.bulk.inBuf, len, s.w.mem⟩] = _
    rw [hqueue]
    rfl
  have hwait : (s.transferStartIn env true).w = (w.waitIn env).2 := rfl
  have hcount : w.txCountIn ≠ 0 := Nat.one_ne_zero
  have hall : ∀ more, w.inQueue.drop (w.txCountIn + more) = [] ∧
      w.inQueue.take (w.txCountIn + more) = w.inQueue := by
    intro more
    have hfits : w.inQueue.length ≤ w.txCountIn + more := by
      rw [hone]
      exact Nat.le_add_right 1 more
    exact ⟨List.drop_of_length_le hfits, List.take_of_length_le hfits⟩
  obtain ⟨hdrop, htake⟩ := hall (env w.tick).more
  rw [hwait, waitIn_clean hclean hcount]
  refine ⟨hdrop, ?_, rfl, rfl⟩
  show w.sent ++ (w.inQueue.take (w.txCountIn + (env w.tick).more)).flatMap
    (fun t ↦ t.bytes (env w.tick).early w.mem) = _
  rw [htake, hone, List.flatMap_singleton]
  exact congrArg (s.w.sent ++ ·) (bytes_same _ _ _ _)

/-! ## A read of one chunk -/

/-- A read is made in one chunk, and does not run past the end of the unit. -/
def OneChunk (s : Ums) : Prop :=
  ∀ x, ReadsFrom s x → x.amountLeft ≤ 64 ∧ x.amountLeft ≤ x.s.lun.numSectors - x.lbaOffset

/-- What a read leaves for the end of the data phase: `k` blocks behind the bulk-IN pointer. -/
structure Chunk (s t : Ums) (k : ℕ) : Prop where
  length : t.bulk.inLength = k * lbaSize
  buf : t.bulk.inBuf = usbEpBulkInBufAddr
  residue : t.residue = s.residue - k * lbaSize
  reply : t.w.reply = s.w.reply ++ Store.slice t.w.mem usbEpBulkInBufAddr (k * lbaSize)
  dataDir : t.dataDir = s.dataDir
  dataSize : t.dataSize = s.dataSize
  state : t.state = s.state
  stall : t.canStall = s.canStall
  queue : t.w.inQueue = s.w.inQueue
  sent : t.w.sent = s.w.sent

theorem readChunk_chunk (env : Env) {y : ReadLoop} (hfirst : y.firstRead = true)
    (hbuf : y.bufCurrent = usbEpBulkInBufAddr) (sector count k : ℕ) :
    Chunk y.s (readChunk env y k
      (y.s.sdmmcStorageAccess env false sector count y.bufCurrent).2) k := by
  rw [readChunk, hfirst, hbuf]
  exact ⟨rfl, rfl, rfl, rfl, rfl, rfl, rfl, rfl, rfl, rfl⟩

theorem senseAt_chunk {k : ℕ} (h : Chunk s t k) (code info : ℕ) :
    Chunk s (t.senseAt code info) k :=
  ⟨h.length, h.buf, h.residue, h.reply, h.dataDir, h.dataSize, h.state, h.stall, h.queue, h.sent⟩

/-- **A read of one chunk**: all of it is read, or nothing. -/
theorem readLoop_chunk {y : ReadLoop} (env : Env) (h : ReadsFrom s y) (hone : s.OneChunk) :
    ∃ k ≤ y.amountLeft, Chunk y.s (readLoop env y) k := by
  obtain ⟨hfew, hroom⟩ := hone y h
  have hsome := h.some
  obtain ⟨hfirst, hbuf⟩ : y.firstRead = true ∧ y.bufCurrent = usbEpBulkInBufAddr := by
    rw [h.start]
    exact ⟨rfl, rfl⟩
  have hamount : min (min y.amountLeft 64) (y.s.lun.numSectors - y.lbaOffset) = y.amountLeft := by
    omega
  have hpass : ∃ t, readPass env 64 y = .leave t ∧ ∃ k ≤ y.amountLeft, Chunk y.s t k := by
    have hchunk := readChunk_chunk env hfirst hbuf
      (add32 y.s.lun.offset y.lbaOffset) y.amountLeft
    rw [readPass]
    dsimp only
    rw [hamount, if_neg hsome]
    rcases hr : y.s.sdmmcStorageAccess env false (add32 y.s.lun.offset y.lbaOffset) y.amountLeft
      y.bufCurrent with ⟨_ | _, u⟩ <;> rw [hr] at hchunk
    · exact ⟨_, rfl, 0, Nat.zero_le _, senseAt_chunk (hchunk 0) _ _⟩
    · refine ⟨readChunk env y y.amountLeft u, ?_, y.amountLeft, Nat.le_refl _, hchunk _⟩
      dsimp only
      rw [Nat.sub_self, if_pos rfl]
  obtain ⟨t, ht, hk⟩ := hpass
  rw [readLoop, maxIoTransfer_eq, Loop.run_succ_leave ht]
  exact hk

/-! ## A read inside the unit -/

/-- A read does not run past the end of the unit. -/
def Inside (s : Ums) : Prop :=
  ∀ x, ReadsFrom s x → x.amountLeft ≤ x.s.lun.numSectors - x.lbaOffset

theorem inside_of_not_read (h : s.cmd.readSix = none) : s.Inside := by
  intro x hread
  obtain ⟨six, hsix, -⟩ := hread.cmd
  rw [h] at hsix
  cases hsix

/-- What holds each time the loop of a read inside the unit begins a pass: from the second one on,
the next wait is for all there is on the ring. -/
structure Chunked (y : ReadLoop) : Prop where
  some : y.amountLeft ≠ 0
  inside : y.amountLeft ≤ y.s.lun.numSectors - y.lbaOffset
  first : y.firstRead = true → y.s.w.inQueue = []
  later : y.firstRead = false → y.s.w.txCountIn ≠ 0 ∧ y.s.w.inQueue.length ≤ y.s.w.txCountIn
  stall : y.s.canStall = 0

/-- A request that is not waited for stays on the ring. -/
theorem inWrite_queue {w : World} (env : Env) (buf len : ℕ) (hqueue : w.inQueue = []) :
    ∃ rest, (xusbDeviceEp1InWrite env buf len false w).2.inQueue =
        ⟨buf, min len usbEpBufferMaxSize, w.mem⟩ :: rest ∧
      (xusbDeviceEp1InWrite env buf len false w).2.txCountIn = rest.length + 1 ∧
      (xusbDeviceEp1InWrite env buf len false w).2.sent = w.sent := by
  have hone : ({ w with txCountIn := 0 }.pushIn buf (min len usbEpBufferMaxSize)).inQueue =
      [⟨buf, min len usbEpBufferMaxSize, w.mem⟩] := by
    show w.inQueue ++ _ = _
    rw [hqueue]
    rfl
  rw [xusbDeviceEp1InWrite, if_neg Bool.false_ne_true]
  dsimp only
  split
  · refine ⟨[⟨buf, 0, w.mem⟩], ?_, rfl, rfl⟩
    exact congrArg (· ++ [(⟨buf, 0, w.mem⟩ : Trb)]) hone
  · exact ⟨[], hone, rfl, rfl⟩

/-- The wait for the chunk before leaves an empty ring. -/
theorem readChunk_idle {y : ReadLoop} {k sector count : ℕ} (hclean : Clean env) (h : Chunked y)
    (hk : k ≤ 64) :
    Idle (readChunk env y k (y.s.sdmmcStorageAccess env false sector count y.bufCurrent).2) := by
  have hsmall : k * lbaSize < 2 ^ 32 := by
    rw [lbaSize_eq]
    omega
  set t := (y.s.sdmmcStorageAccess env false sector count y.bufCurrent).2 with ht
  cases hfirst : y.firstRead with
  | true =>
    rw [readChunk, hfirst]
    exact ⟨h.first hfirst, h.stall, hsmall⟩
  | false =>
    obtain ⟨hcount, hring⟩ := h.later hfirst
    have hwait : (t.w.waitIn env).2.inQueue = [] := by
      rw [waitIn_clean hclean (w := t.w) hcount]
      show y.s.w.inQueue.drop (y.s.w.txCountIn + (env t.w.tick).more) = []
      exact List.drop_of_length_le (Nat.le_trans hring (Nat.le_add_right _ _))
    rw [readChunk, hfirst]
    exact ⟨hwait, h.stall, hsmall⟩

theorem senseAt_idle (code info : ℕ) (h : Idle s) : Idle (s.senseAt code info) :=
  ⟨h.queue, h.stall, h.small⟩

theorem readPass_chunked {y : ReadLoop} (hclean : Clean env) (h : Chunked y) :
    (readPass env 64 y).All Chunked Idle := by
  have hsome := h.some
  have hinside := h.inside
  obtain ⟨c, hc⟩ : ∃ c, c = min (min y.amountLeft 64) (y.s.lun.numSectors - y.lbaOffset) := ⟨_, rfl⟩
  have hpos : c ≠ 0 := by omega
  have hidle : ∀ k ≤ 64, Idle (readChunk env y k (y.s.sdmmcStorageAccess env false
      (add32 y.s.lun.offset y.lbaOffset) c y.bufCurrent).2) := fun k ↦ readChunk_idle hclean h
  have hlun : ∀ k, (readChunk env y k (y.s.sdmmcStorageAccess env false
      (add32 y.s.lun.offset y.lbaOffset) c y.bufCurrent).2).lun.numSectors =
        y.s.lun.numSectors := by
    intro k
    rw [readChunk]
    cases y.firstRead <;> rfl
  rw [readPass]
  dsimp only
  rw [← hc, if_neg hpos]
  rcases hr : y.s.sdmmcStorageAccess env false (add32 y.s.lun.offset y.lbaOffset) c
    y.bufCurrent with ⟨_ | _, t⟩ <;> rw [hr] at hidle hlun <;> dsimp only
  · exact senseAt_idle _ _ (hidle 0 (Nat.zero_le _))
  have hchunk := hidle c (by omega)
  split
  · exact hchunk
  · next hmore =>
    obtain ⟨rest, hqueue, hcount, -⟩ := inWrite_queue (w := (readChunk env y c t).w) env
      (readChunk env y c t).bulk.inBuf (readChunk env y c t).bulk.inLength hchunk.queue
    refine ⟨hmore, ?_, fun hfirst ↦ absurd hfirst Bool.false_ne_true, fun _ ↦ ⟨?_, ?_⟩,
      hchunk.stall⟩
    · show y.amountLeft - c ≤ (readChunk env y c t).lun.numSectors - (y.lbaOffset + c)
      rw [hlun]
      omega
    · exact fun hzero ↦ absurd (hcount.symm.trans hzero) (Nat.succ_ne_zero _)
    · exact Nat.le_of_eq ((congrArg List.length hqueue).trans hcount.symm)

/-- A pass that goes round leaves fewer sectors. -/
theorem readPass_less {y z : ReadLoop} {m : ℕ} (h : readPass env m y = .again z) :
    z.amountLeft < y.amountLeft := by
  rw [readPass] at h
  obtain ⟨c, hc⟩ : ∃ c, c = min (min y.amountLeft m) (y.s.lun.numSectors - y.lbaOffset) := ⟨_, rfl⟩
  dsimp only at h
  rw [← hc] at h
  by_cases hnone : c = 0
  · rw [if_pos hnone] at h
    cases h
  rw [if_neg hnone] at h
  rcases hr : y.s.sdmmcStorageAccess env false (add32 y.s.lun.offset y.lbaOffset) c
    y.bufCurrent with ⟨_ | _, t⟩ <;> rw [hr] at h <;> dsimp only at h
  · cases h
  · split at h
    · cases h
    · cases h
      show y.amountLeft - c < y.amountLeft
      omega

/-- The rule for the loop of a read: it is left with what one of its passes leaves it with. -/
theorem readLoop_rule {I : ReadLoop → Prop} {Q : Ums → Prop} {y : ReadLoop}
    (hpass : ∀ z, I z → (readPass env 64 z).All I Q) (hy : I y) : Q (readLoop env y) := by
  have hrun := Loop.run_all hpass hy (y.amountLeft + 1)
  obtain ⟨u, hu⟩ : ∃ u, Loop.run (readPass env 64) (y.amountLeft + 1) y = .leave u := by
    refine Loop.run_leave_of_measure I (·.amountLeft) (fun z z' hz hstep ↦ ?_) hy
      (Nat.lt_succ_self _)
    have hnext := hpass z hz
    rw [hstep] at hnext
    exact ⟨hnext, readPass_less hstep⟩
  rw [hu] at hrun
  rw [readLoop, maxIoTransfer_eq, hu]
  exact hrun

/-- **A read inside the unit** leaves an empty ring. -/
theorem readLoop_idle {y : ReadLoop} (hclean : Clean env) (h : ReadsFrom s y) (hinside : s.Inside)
    (hidle : Idle y.s) : Idle (readLoop env y) := by
  have hfirst : y.firstRead = true := by
    rw [h.start]
  exact readLoop_rule (fun _ hz ↦ readPass_chunked hclean hz)
    ⟨h.some, hinside y h, fun _ ↦ hidle.queue,
      fun hlater ↦ absurd (hfirst.symm.trans hlater) Bool.noConfusion, hidle.stall⟩

/-! ## Operations on other things -/

theorem Kept.idle (h : Kept s s') (hidle : Idle s) : Idle s' where
  queue := h.inQueue.trans hidle.queue
  stall := h.canStall.trans hidle.stall
  small := by
    rw [h.bulk]
    exact hidle.small

theorem limitData_idle (h : Idle s) : Idle s.polled.opened.limitData where
  queue := by
    rw [limitData_w]
    exact h.queue
  stall := (limitData_canStall _).trans h.stall
  small := by
    rw [limitData_bulk]
    exact h.small

/-- A wait for the other endpoint leaves an empty ring alone. -/
theorem waitOut_inQueue (env : Env) {w : World} (h : w.inQueue = []) :
    (w.waitOut env).2.inQueue = [] := by
  rw [World.waitOut]
  dsimp only
  split
  · exact h
  · simp [World.complete, World.next, h]

theorem xusbDeviceEp1OutRead_inQueue (env : Env) (buf len : ℕ) {w : World} (h : w.inQueue = []) :
    (xusbDeviceEp1OutRead env buf len w).2.2.inQueue = [] :=
  waitOut_inQueue (w := { w with txCountOut := 1, txBytesOut := min len usbEpBufferMaxSize }) env h

theorem transferStartOut_idle (h : Idle s) : Idle (s.transferStartOut env) :=
  ⟨xusbDeviceEp1OutRead_inQueue env _ _ h.queue, h.stall, h.small⟩

theorem transferFinishOut_idle (h : Idle s) : Idle (s.transferFinishOut env) :=
  ⟨waitOut_inQueue env h.queue, h.stall, h.small⟩

theorem setUpReply_idle {r : Reply} (hsmall : r.size ≤ usbEpBulkInMaxXfer) (h : Idle s) :
    Idle (s.setUpReply r) := by
  have hset : ∀ n ≤ usbEpBulkInMaxXfer, Idle (if s.dataDir = .toHost then
      { s with
        bulk.inLength := min n s.dataSizeFromCmnd
        bulk.inBufState := .full
        residue := s.residue - min n s.dataSizeFromCmnd
        w.reply := s.w.reply.take (min n s.dataSizeFromCmnd) }
      else s) := by
    intro n hn
    split
    · refine ⟨h.queue, h.stall, ?_⟩
      show min n s.dataSizeFromCmnd < 2 ^ 32
      rw [usbEpBulkInMaxXfer_eq] at hn
      omega
    · exact h
  cases r with
  | ioError => exact h
  | invalidArg => exact hset 0 (Nat.zero_le _)
  | len n => exact hset n hsmall

theorem raiseException_idle (st : UmsState) (h : Idle s) : Idle (s.raiseException st) := by
  rw [raiseException]
  split
  · exact ⟨h.queue, h.stall, h.small⟩
  · exact h

/-! ## The data phase and the status -/

theorem transferStartIn_idle (hclean : Clean env) (h : Idle s) :
    Idle (s.transferStartIn env true) :=
  ⟨(transferStartIn_clean hclean h.queue).1, h.stall, h.small⟩

theorem sendStatus_idle (hclean : Clean env) (h : Idle s) : Idle (s.sendStatus env) :=
  transferStartIn_idle hclean ⟨h.queue, h.stall, by
    show usbBulkCsWrapLen < 2 ^ 32
    decide⟩

/-- A pass of the padding that goes round leaves less to send. -/
theorem padPass_less {y y' : PadLoop} (h : padPass env y = .again y') :
    y'.s.usbAmountLeft < y.s.usbAmountLeft := by
  rw [padPass] at h
  dsimp only at h
  by_cases hleft : y.s.usbAmountLeft = 0
  · rw [if_pos hleft] at h
    cases h
  · rw [if_neg hleft] at h
    cases h
    show y.s.usbAmountLeft - min y.s.usbAmountLeft usbEpBufferMaxSize < y.s.usbAmountLeft
    rw [usbEpBufferMaxSize_eq]
    omega

/-- **The rule of the padding**: what every pass keeps, and leaves with, it ends with. -/
theorem padWithZeros_rule {I : PadLoop → Prop} {Q : Ums → Prop}
    (hpass : ∀ y, I y → (padPass env y).All I Q)
    (h : I ⟨s.bulk.inLength, { s with
      bulk.inBufState := .empty, usbAmountLeft := add32 s.bulk.inLength s.residue }⟩) :
    Q (s.padWithZeros env) := by
  set t : Ums := { s with
    bulk.inBufState := .empty, usbAmountLeft := add32 s.bulk.inLength s.residue } with ht
  have hall := Loop.run_all hpass h (t.usbAmountLeft + 1)
  have hends : ∃ r, Loop.run (padPass env) (t.usbAmountLeft + 1) ⟨s.bulk.inLength, t⟩ = .leave r :=
    Loop.run_leave_of_measure (fun _ ↦ True) (·.s.usbAmountLeft)
      (fun _ _ _ hstep ↦ ⟨trivial, padPass_less hstep⟩) trivial (Nat.lt_succ_self _)
  obtain ⟨r, hr⟩ := hends
  rw [hr] at hall
  rw [padWithZeros]
  dsimp only
  rw [hr]
  exact hall

theorem padPass_idle {y : PadLoop} (hclean : Clean env) (h : Idle y.s) :
    (padPass env y).All (fun y' ↦ Idle y'.s) Idle := by
  rw [padPass]
  dsimp only
  split
  · exact h
  · set nsend := min y.s.usbAmountLeft usbEpBufferMaxSize with hnsend
    set t : Ums := y.s.fillMem (y.s.bulk.inBuf + y.currentLenToKeep)
      (sub32 nsend y.currentLenToKeep) fun _ ↦ 0 with ht
    set u : Ums := { t with bulk.inLength := nsend } with hu
    have hready : Idle u := by
      refine ⟨h.queue, h.stall, ?_⟩
      show nsend < 2 ^ 32
      rw [hnsend, usbEpBufferMaxSize_eq]
      omega
    have hsend := transferStartIn_idle hclean hready
    exact ⟨hsend.queue, hsend.stall, hsend.small⟩

theorem padWithZeros_idle (hclean : Clean env) (h : Idle s) : Idle (s.padWithZeros env) :=
  padWithZeros_rule (I := fun y ↦ Idle y.s) (fun _ hy ↦ padPass_idle hclean hy)
    ⟨h.queue, h.stall, h.small⟩

theorem sendReply_idle (hclean : Clean env) (h : Idle s) : Idle (s.sendReply env) := by
  rw [sendReply]
  split
  · exact h
  split
  · exact transferStartIn_idle hclean h
  · exact padWithZeros_idle hclean h

theorem throwAwayData_idle (h : Idle s) : Idle (s.throwAwayData env).2 := by
  have hdrop : Idle s.dropBuffer := by
    rw [dropBuffer]
    split
    · exact ⟨h.queue, h.stall, h.small⟩
    · exact h
  rw [throwAwayData]
  split
  · exact h
  split
  · have hstart : Idle (({ s with
        bulk.outLength := min s.usbAmountLeft usbEpBufferMaxSize } : Ums).transferStartOut env) :=
      transferStartOut_idle ⟨h.queue, h.stall, h.small⟩
    exact ⟨hstart.queue, hstart.stall, hstart.small⟩
  split
  · exact raiseException_idle _ hdrop
  · exact hdrop

theorem finishReply_idle (hclean : Clean env) (h : Idle s) : Idle (s.finishReply env).2 := by
  rw [finishReply]
  cases s.dataDir with
  | none => exact h
  | unknown => exact h
  | toHost =>
    have hsend := sendReply_idle hclean h
    exact ⟨hsend.queue, hsend.stall, hsend.small⟩
  | fromHost =>
    dsimp only
    split
    · exact h
    split
    · exact raiseException_idle _ h
    · exact throwAwayData_idle h

/-! ## Exceptions and command blocks -/

theorem resetLun_idle (h : Idle s) : Idle s.resetLun := by
  rw [resetLun]
  split
  · exact ⟨h.queue, h.stall, h.small⟩
  · exact ⟨h.queue, rfl, h.small⟩

theorem takeException_idle (h : Idle s) : Idle s.takeException := by
  have hclear : Idle
      { s with bulk.inBufState := .empty, bulk.outBufState := .empty, state := .normal } :=
    ⟨h.queue, h.stall, h.small⟩
  rw [takeException]
  split
  · exact resetLun_idle hclear
  · exact hclear

theorem handleException_idle (hclean : Clean env) (h : Idle s) : Idle (s.handleException env) := by
  have htake := takeException_idle h
  rw [handleException]
  cases s.state with
  | normal => exact htake
  | abortBulkOut => exact sendStatus_idle hclean htake
  | protocolReset =>
    dsimp only
    rw [resetOccurred]
    split
    · exact ⟨htake.queue, htake.stall, htake.small⟩
    · exact ⟨htake.queue, htake.stall, htake.small⟩
  | exit => exact ⟨htake.queue, htake.stall, htake.small⟩
  | terminated => exact htake

theorem countTimeouts_idle (h : Idle s) : Idle (s.countTimeouts env) := by
  have hep : Idle (s.countEpTimeouts env) := by
    rw [countEpTimeouts]
    split
    · exact ⟨h.queue, h.stall, h.small⟩
    split
    · have hpoll : Idle (s.poll env).2 := ⟨h.queue, h.stall, h.small⟩
      rcases hp : s.poll env with ⟨_ | _, t⟩ <;> rw [hp] at hpoll <;> dsimp only
      · split
        · exact hpoll
        · exact ⟨hpoll.queue, hpoll.stall, hpoll.small⟩
      · exact ⟨hpoll.queue, hpoll.stall, hpoll.small⟩
    · exact h
  have hcount : Idle (s.countEpTimeouts env).countUnmounted := by
    rw [countUnmounted]
    split
    · exact ⟨hep.queue, hep.stall, hep.small⟩
    · exact hep
  rw [countTimeouts]
  split
  · exact raiseException_idle _ hcount
  · exact hcount

theorem acceptCbw_idle (h : Idle s) : Idle (s.acceptCbw env) := by
  rw [acceptCbw]
  split
  · exact ⟨h.queue, h.stall, h.small⟩
  · rw [changeLun]
    split
    · exact ⟨h.queue, h.stall, h.small⟩
    · exact ⟨h.queue, h.stall, h.small⟩

theorem readCbw_idle (h : Idle s) : Idle (s.readCbw env).2 := by
  rw [readCbw]
  split
  · exact ⟨h.queue, h.stall, h.small⟩
  split
  · exact h
  · exact acceptCbw_idle h

theorem receivedCbw_idle (h : Idle s) : Idle (s.receivedCbw env).2 := by
  rw [receivedCbw]
  set u : Ums := if s.bulk.outStatus ≠ 0 ∨ s.allLunsUnmounted then s.countTimeouts env else s
  have hu : Idle u := by
    show Idle (if s.bulk.outStatus ≠ 0 ∨ s.allLunsUnmounted then s.countTimeouts env else s)
    split
    · exact countTimeouts_idle h
    · exact h
  split
  · exact hu
  · exact readCbw_idle ⟨hu.queue, hu.stall, hu.small⟩

theorem awaitCbw_idle (h : Idle s) : Idle (s.awaitCbw env) := by
  have hset : Idle { s with bulk.outLength := usbBulkCbWrapLen } :=
    ⟨h.queue, h.stall, h.small⟩
  rw [awaitCbw]
  dsimp only
  split
  · have hfinish : Idle (({ s with bulk.outLength := usbBulkCbWrapLen } : Ums).transferFinishOut
        env) := transferFinishOut_idle hset
    exact ⟨hfinish.queue, hfinish.stall, hfinish.small⟩
  · have hstart : Idle (({ s with bulk.outLength := usbBulkCbWrapLen } : Ums).transferStartOut
        env) := transferStartOut_idle hset
    exact ⟨hstart.queue, hstart.stall, hstart.small⟩

theorem getNextCommand_idle (h : Idle s) : Idle (s.getNextCommand env).2 := by
  have hreceived : Idle ((s.awaitCbw env).receivedCbw env).2 := receivedCbw_idle (awaitCbw_idle h)
  rw [getNextCommand]
  rcases hr : (s.awaitCbw env).receivedCbw env with ⟨ok, t⟩
  rw [hr] at hreceived
  exact ⟨hreceived.queue, hreceived.stall, hreceived.small⟩

/-! ## Writing -/

theorem requested_idle (hreq : x.amountLeftToReq ≠ 0) (h : Idle x.s) :
    Idle (x.requested env).s := by
  have hw : (x.requested env).s.w =
      (xusbDeviceEp1OutRead env x.s.bulk.outBuf x.request x.s.w).2.2 :=
    congrArg (·.2.2) (xusbDeviceEp1OutReadBig_eq env x.s.bulk.outBuf x.s.w
      (WriteLoop.request_pos hreq) x.request_le)
  refine ⟨?_, h.stall, h.small⟩
  rw [hw]
  exact xusbDeviceEp1OutRead_inQueue env _ _ h.queue

theorem emptyWrite_idle (h : Idle x.s) : (emptyWrite x).All (fun y ↦ Idle y.s) Idle := by
  rw [emptyWrite]
  split
  · exact ⟨h.queue, h.stall, h.small⟩
  · exact h

theorem writeBuffer_idle (h : Idle x.s) : (writeBuffer env x).All (fun y ↦ Idle y.s) Idle := by
  by_cases hfull : x.s.bulk.outBufState = .full
  · rw [writeBuffer_of_full hfull]
    split
    · exact ⟨h.queue, h.stall, h.small⟩
    split
    · exact emptyWrite_idle ⟨h.queue, h.stall, h.small⟩
    split
    · exact emptyWrite_idle ⟨h.queue, h.stall, h.small⟩
    · exact ⟨h.queue, h.stall, h.small⟩
  · rw [writeBuffer, if_pos hfull]
    exact h

theorem writePass_idle (env : Env) (h : Idle x.s) :
    (writePass env x).All (fun y ↦ Idle y.s) Idle := by
  by_cases hleft : x.amountLeftToWrite = 0
  · rw [writePass_done hleft]
    exact h
  by_cases hreq : x.amountLeftToReq = 0
  · have hrequest : writeRequest env x = .again x := by rw [writeRequest, if_pos hreq]
    rw [writePass, if_neg hleft, hrequest]
    exact writeBuffer_idle h
  by_cases hin : x.usbLbaOffset < x.s.lun.numSectors
  · rw [writePass_of_request hleft hreq hin]
    exact writeBuffer_idle (requested_idle hreq h)
  · rw [writePass_past hleft hreq (Nat.le_of_not_lt hin)]
    exact ⟨h.queue, h.stall, h.small⟩

end Ums

/-! ## Sessions -/

namespace Gadget

variable {volumes : List Volume} {secCnt : MmcType → ℕ} {env : Env} {g : Gadget}

/-- The condition on a step: a read does not run past the end of the unit. -/
def Inside : Gadget → Prop
  | parse s => s.polled.Inside
  | _ => True

theorem parse_idle {s : Ums} (hclean : Clean env) (hinside : s.polled.Inside) (h : s.Idle) :
    (step (.parse s) env).ums.Idle := by
  have hparse := Ums.parse_answers env s.polled
  have hlimited := Ums.limitData_idle h
  have hchecked : s.polled.checked.2.Idle := (Ums.checked_kept s.polled).1.idle hlimited
  rw [step, Ums.handleEp0Ctrl_quiet hclean.quiet]
  cases hp : s.polled.parseScsiCmd env with
  | writing x =>
    rw [hp] at hparse
    rw [hparse.1] at hchecked
    exact hchecked
  | replied r t =>
    rw [hp] at hparse
    dsimp only
    rw [ums_parsed]
    rcases hparse with hanswer | ⟨-, rfl, hc⟩ | ⟨x, hread, rfl, rfl⟩
    · exact Ums.setUpReply_idle hanswer.small (hanswer.kept.idle hlimited)
    · rw [hc] at hchecked
      exact hchecked
    · rw [hread.checked] at hchecked
      exact Ums.readLoop_idle hclean hread hinside hchecked

/-- **The step lemma**: a clean step keeps the endpoint idle, if what it reads is inside the
unit. -/
theorem idle_step (hclean : Clean env) (hinside : g.Inside) (h : g.ums.Idle) :
    (g.step env).ums.Idle := by
  cases g with
  | top s =>
    have hpoll : (s.poll env).2.Idle := ⟨h.queue, h.stall, h.small⟩
    rw [step]
    rcases hp : s.poll env with ⟨combo, t⟩
    rw [hp] at hpoll
    dsimp only
    split
    · exact hpoll
    split
    · rw [ums_loopEnd]
      exact Ums.handleException_idle hclean hpoll
    have hnext : ((t.handleEp0Ctrl env).getNextCommand env).2.Idle := by
      rw [Ums.handleEp0Ctrl_quiet hclean.quiet]
      exact Ums.getNextCommand_idle ⟨hpoll.queue, hpoll.stall, hpoll.small⟩
    rcases hn : (t.handleEp0Ctrl env).getNextCommand env with ⟨ok, u⟩
    rw [hn] at hnext
    dsimp only
    split
    · rw [ums_loopEnd]
      exact hnext
    · exact hnext
  | parse s => exact parse_idle hclean hinside h
  | writing x =>
    have hpass := Ums.writePass_idle env h
    rw [step]
    cases hp : Ums.writePass env x with
    | again y =>
      rw [hp] at hpass
      exact hpass
    | leave u =>
      rw [hp] at hpass
      dsimp only
      rw [ums_parsed]
      exact hpass
  | reply s =>
    have hfinish : ((s.handleEp0Ctrl env).finishReply env).2.Idle := by
      rw [Ums.handleEp0Ctrl_quiet hclean.quiet]
      exact Ums.finishReply_idle hclean ⟨h.queue, h.stall, h.small⟩
    rw [step]
    rcases hf : (s.handleEp0Ctrl env).finishReply env with ⟨fatal, u⟩
    rw [hf] at hfinish
    dsimp only
    split
    · rw [ums_loopEnd]
      exact hfinish
    · exact hfinish
  | status s =>
    rw [step, ums_loopEnd]
    exact Ums.sendStatus_idle hclean h
  | exited s => exact h

/-- **The run lemma**: the endpoint is idle throughout a session without USB errors in which no
read runs past the end of its unit. -/
theorem idle_run (hg : Starts volumes secCnt g) {envs : List Env}
    (halong : Machine.Along step (fun g env ↦ Clean env ∧ g.Inside) g envs) :
    (Machine.run step g envs).ums.Idle := by
  obtain ⟨-, w, hw, rfl⟩ := hg
  exact Machine.run_inv_along (I := fun g ↦ g.ums.Idle)
    (fun g env hidle hstep ↦ idle_step hstep.1 hstep.2 hidle) ⟨hw.inQueue, rfl, Nat.two_pow_pos 32⟩
    halong

end Gadget

end Usb
end SdLoader
