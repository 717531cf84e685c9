import SdLoader.Usb.Commands

/-!
# The mass storage gadget: what a step of a session does

Everything but the start of an iteration is an operation on behalf of the active unit, and
`step_does` says of a step taken from there what `Does` says of an operation.  At the start of an
iteration another unit may become the active one; `top_does` says what happens then: no sectors are
transferred, and the partition of an eMMC is switched if the new unit has another one.

`Gadget.Fits` is the condition under which the buffers hold what a step puts into them.
-/

set_option autoImplicit false

namespace SdLoader
namespace Usb
namespace Ums

variable {env : Env} {A : Bool → Prop} {B : Prop} {s s' : Ums}

/-! ## The data phase -/

/-- The padding of a reply fits behind the bulk-IN pointer: what there is to send is at least what
is kept, and if it is more than one buffer it starts in the first. -/
def PadFits (s : Ums) : Prop :=
  let total := add32 s.bulk.inLength s.residue
  total = 0 ∨ s.bulk.inLength ≤ min total usbEpBufferMaxSize ∧
    (s.bulk.inBuf = usbEpBulkInBufAddr ∨ total ≤ usbEpBulkOutMaxXfer)

/-- What is sent fits behind the bulk-IN pointer. -/
def SendFits (s : Ums) : Prop :=
  if s.dataSize = 0 then True
  else if s.residue = 0 ∨ s.canStall ≠ 0 then
    s.bulk.inBuf = usbEpBulkInBufAddr ∨ s.bulk.inLength ≤ usbEpBulkOutMaxXfer
  else PadFits s

/-- What is thrown away fits into the bulk-OUT buffer. -/
def DrainFits (s : Ums) : Prop :=
  s.bulk.outBufState = .empty → s.usbAmountLeft ≤ usbEpBulkOutMaxXfer

/-- What `_finish_reply` sends, or throws away, fits into the buffers. -/
def ReplyFits (s : Ums) : Prop :=
  match s.dataDir with
  | .toHost => SendFits s
  | .fromHost => s.residue ≠ 0 → s.shortPacketReceived = 0 → DrainFits s
  | _ => True

/-- What holds each time the loop of the padding begins a pass. -/
structure PadInv (env : Env) (s : Ums) (x : PadLoop) : Prop where
  does : Does env never (Buffers s ∧ PadFits s) s x.s
  buf : x.s.bulk.inBuf = s.bulk.inBuf
  fits : PadFits s → x.s.usbAmountLeft = 0 ∨
    x.currentLenToKeep ≤ min x.s.usbAmountLeft usbEpBufferMaxSize ∧
      (s.bulk.inBuf = usbEpBulkInBufAddr ∨ x.s.usbAmountLeft ≤ usbEpBulkOutMaxXfer)

theorem padPass_does {x : PadLoop} (h : PadInv env s x) :
    (padPass env x).All (PadInv env s) (Does env never (Buffers s ∧ PadFits s) s) := by
  rw [padPass]
  by_cases hleft : x.s.usbAmountLeft = 0
  · simp only [hleft, ↓reduceIte]
    exact h.does
  simp only [hleft, ↓reduceIte]
  set nsend := min x.s.usbAmountLeft usbEpBufferMaxSize with hnsend
  have hroom : PadFits s → x.currentLenToKeep ≤ nsend ∧
      (s.bulk.inBuf = usbEpBulkInBufAddr ∨ nsend ≤ usbEpBulkOutMaxXfer) := by
    intro hfit
    obtain ⟨hkeep, hbuf⟩ := (h.fits hfit).resolve_left hleft
    exact ⟨hkeep, hbuf.imp_right fun hle ↦ Nat.le_trans (Nat.min_le_left _ _) hle⟩
  have hmost : nsend ≤ 0x10000 := Nat.min_le_right _ _
  -- Both the bytes cleared and the bytes sent lie in the `nsend` bytes behind the pointer.
  have hbounds : Buffers s ∧ PadFits s → (Event.fill s.bulk.inBuf nsend).InBounds := by
    rintro ⟨hbuf, hfit⟩
    rw [Event.InBounds, Event.region, xusbRingAddr_eq, usbEpBulkInBufAddr_eq]
    rcases (hroom hfit).2 with hin | hle
    · rw [hin, usbEpBulkInBufAddr_eq]
      omega
    · rw [usbEpBulkOutMaxXfer_eq] at hle
      rcases hbuf.into with hin | hin <;> rw [hin] <;>
        simp only [usbEpBulkInBufAddr_eq, usbEpBulkOutBufAddr_eq] <;> omega
  set t : Ums := x.s.fillMem (x.s.bulk.inBuf + x.currentLenToKeep)
    (sub32 nsend x.currentLenToKeep) fun _ ↦ 0 with ht
  have hfill : Does env never (Buffers s ∧ PadFits s) s t := by
    refine h.does.trans (fillMem_does fun hb ↦ ?_)
    obtain ⟨hkeep, -⟩ := hroom hb.2
    obtain ⟨hlow, hhigh⟩ := hbounds hb
    rw [Event.region] at hlow hhigh
    dsimp only at hlow hhigh
    rw [sub32_of_le hkeep, h.buf, Event.InBounds, Event.region]
    dsimp only
    omega
  set u : Ums := { t with bulk.inLength := nsend } with hu
  have hset : Does env never (Buffers s ∧ PadFits s) s u := hfill.trans (quiet_does rfl)
  have hsend : Does env never (Buffers s ∧ PadFits s) s (u.transferStartIn env true) := by
    refine hset.trans (transferStartIn_does env true fun hb ↦ ?_)
    have hregion := hbounds hb
    have hclamp : min nsend usbEpBufferMaxSize = nsend := Nat.min_eq_left hmost
    show (Event.bulkIn x.s.bulk.inBuf (min nsend usbEpBufferMaxSize)).InBounds
    rw [hclamp, h.buf]
    exact hregion
  refine ⟨hsend.trans (quiet_does rfl), h.buf, fun hfit ↦ ?_⟩
  show x.s.usbAmountLeft - nsend = 0 ∨ 0 ≤ min (x.s.usbAmountLeft - nsend) usbEpBufferMaxSize ∧
    (s.bulk.inBuf = usbEpBulkInBufAddr ∨ x.s.usbAmountLeft - nsend ≤ usbEpBulkOutMaxXfer)
  refine .inr ⟨Nat.zero_le _, ?_⟩
  exact ((h.fits hfit).resolve_left hleft).2.imp_right fun hle ↦ Nat.le_trans (Nat.sub_le _ _) hle

theorem padWithZeros_does : Does env never (Buffers s ∧ PadFits s) s (s.padWithZeros env) := by
  set t : Ums := { s with
    bulk.inBufState := .empty, usbAmountLeft := add32 s.bulk.inLength s.residue } with ht
  have hrun := Loop.run_all (fun x hx ↦ padPass_does hx) (s := ⟨s.bulk.inLength, t⟩)
    (⟨quiet_does rfl, rfl, id⟩ : PadInv env s ⟨s.bulk.inLength, t⟩) (t.usbAmountLeft + 1)
  rw [padWithZeros]
  dsimp only
  refine hrun.elim ?_ ?_
  · intro x hx
    exact hx.does
  · intro r hr
    exact hr

theorem throwAwayData_does :
    Does env never (Buffers s ∧ DrainFits s) s (s.throwAwayData env).2 := by
  rw [throwAwayData]
  split
  · exact .refl s
  split
  · next h =>
    set t : Ums := { s with bulk.outLength := min s.usbAmountLeft usbEpBufferMaxSize } with ht
    have hset : Does env never (Buffers s ∧ DrainFits s) s t := quiet_does rfl
    refine (hset.trans (transferStartOut_does env fun hb ↦ ⟨⟨hb.1.out, hb.1.into⟩, ?_⟩)).trans
      (quiet_does rfl)
    have hle := hb.2 h.1
    rw [usbEpBulkOutMaxXfer_eq] at hle
    show min (min s.usbAmountLeft usbEpBufferMaxSize) usbEpBufferMaxSize ≤ 0x8000
    omega
  have hdrop : Does env never (Buffers s ∧ DrainFits s) s s.dropBuffer := by
    rw [dropBuffer]
    split
    · exact quiet_does rfl
    · exact .refl s
  split
  · exact hdrop.trans (raiseException_does _ _)
  · exact hdrop

theorem sendReply_does : Does env never (Buffers s ∧ SendFits s) s (s.sendReply env) := by
  rw [sendReply, SendFits]
  by_cases hsize : s.dataSize = 0
  · simp only [hsize, ↓reduceIte]
    exact .refl s
  simp only [hsize, ↓reduceIte]
  by_cases hres : s.residue = 0 ∨ s.canStall ≠ 0
  · simp only [hres, ↓reduceIte]
    refine transferStartIn_does env true fun ⟨hbuf, hfit⟩ ↦ ?_
    rw [Event.InBounds, Event.region, xusbRingAddr_eq, usbEpBulkInBufAddr_eq]
    have hmost : min s.bulk.inLength usbEpBufferMaxSize ≤ 0x10000 := Nat.min_le_right _ _
    have hmin : min s.bulk.inLength usbEpBufferMaxSize ≤ s.bulk.inLength := Nat.min_le_left _ _
    rcases hfit with hin | hle
    · rw [hin, usbEpBulkInBufAddr_eq]
      dsimp only
      omega
    · rw [usbEpBulkOutMaxXfer_eq] at hle
      rcases hbuf.into with hin | hin <;> rw [hin] <;>
        simp only [usbEpBulkInBufAddr_eq, usbEpBulkOutBufAddr_eq] <;> omega
  · simp only [hres, ↓reduceIte]
    exact padWithZeros_does

/-- **What the end of the data phase does.** -/
theorem finishReply_does :
    Does env never (Buffers s ∧ ReplyFits s) s (s.finishReply env).2 := by
  rw [finishReply, ReplyFits]
  cases hdir : s.dataDir with
  | none => exact .refl s
  | unknown => exact .refl s
  | toHost =>
    exact sendReply_does.trans
      (Same.does_quiet ⟨rfl, rfl, rfl, rfl, rfl, .inr (.inl rfl), rfl, rfl⟩ rfl)
  | fromHost =>
    dsimp only
    split
    · exact .refl s
    next hres =>
    split
    · exact raiseException_does _ s
    next hshort =>
    exact throwAwayData_does.mono (fun _ h ↦ h) (fun h ↦ h)
      (And.imp_right fun hfit ↦ hfit hres (not_not.mp hshort))

theorem length_csw (s : Ums) : s.csw.length = usbBulkCsWrapLen := rfl

theorem sendStatus_does : Does env A (Buffers s) s (s.sendStatus env) := by
  have hput : Does env A (Buffers s) s (s.put s.csw) := put_does (by rw [length_csw]; decide)
  have hset : Does env A (Buffers s) s { s.put s.csw with bulk.inLength := usbBulkCsWrapLen } :=
    hput.trans (quiet_does rfl)
  refine hset.trans (transferStartIn_does env true fun hbuf ↦ ?_)
  have hregion := hbuf.inBounds (show 13 ≤ 0x8000 by decide)
  exact hregion

/-! ## Exceptions -/

theorem resetLun_does : Does env A B s s.resetLun := by
  rw [resetLun]
  split
  · exact setLun_does rfl rfl
  · exact quiet_does rfl

theorem resetOccurred_does : Does env A B s s.resetOccurred := by
  rw [resetOccurred]
  split
  · exact setLun_does rfl rfl
  · exact quiet_does rfl

theorem takeException_does : Does env A B s s.takeException := by
  have hclear : Does env A B s
      { s with bulk.inBufState := .empty, bulk.outBufState := .empty, state := .normal } :=
    quiet_does rfl
  rw [takeException]
  split
  · exact hclear.trans resetLun_does
  · exact hclear

theorem handleException_does : Does env A (Buffers s) s (s.handleException env) := by
  have htake : Does env A (Buffers s) s s.takeException := takeException_does
  rw [handleException]
  cases s.state with
  | normal => exact htake
  | abortBulkOut => exact htake.next sendStatus_does id
  | protocolReset =>
    have hclear : Does env A (Buffers s) s { s.takeException with bulk.outIgnore := false } :=
      htake.trans (quiet_does rfl)
    exact hclear.trans resetOccurred_does
  | exit => exact htake.trans (quiet_does rfl)
  | terminated => exact htake

/-! ## Command blocks -/

theorem countTimeouts_does : Does env A B s (s.countTimeouts env) := by
  have hep : Does env A B s (s.countEpTimeouts env) := by
    rw [countEpTimeouts]
    split
    · exact quiet_does rfl
    split
    · have hpoll : Does env A B s (s.poll env).2 := poll_does env s
      rcases hp : s.poll env with ⟨_ | _, t⟩ <;> rw [hp] at hpoll <;> dsimp only
      · split
        · exact hpoll
        · exact hpoll.trans (quiet_does rfl)
      · exact hpoll.trans (quiet_does rfl)
    · exact .refl s
  have hcount : Does env A B s (s.countEpTimeouts env).countUnmounted := by
    rw [countUnmounted]
    split
    · exact hep.trans (quiet_does rfl)
    · exact hep
  rw [countTimeouts]
  split
  · exact hcount.trans (raiseException_does _ _)
  · exact hcount

theorem awaitCbw_does : Does env A (Buffers s) s (s.awaitCbw env) := by
  have hset : Does env A (Buffers s) s { s with bulk.outLength := usbBulkCbWrapLen } :=
    quiet_does rfl
  rw [awaitCbw]
  dsimp only
  split
  · exact (hset.trans (transferFinishOut_does env)).trans (quiet_does rfl)
  · refine (hset.trans (transferStartOut_does env fun hbuf ↦ ⟨⟨hbuf.out, hbuf.into⟩, ?_⟩)).trans
      (quiet_does rfl)
    show min usbBulkCbWrapLen usbEpBufferMaxSize ≤ 0x8000
    decide

/-- What there is to say of a look at a command block wrapper: nothing is taken over, or a
meaningful one is, after an operation that transfers nothing. -/
def Received (env : Env) (B : Prop) (s : Ums) (r : Bool × Ums) : Prop :=
  r.1 = false ∧ Does env never B s r.2 ∨
    r.1 = true ∧ ∃ t, Does env never B s t ∧ (t.cbw 13).toNat < t.lunCnt ∧
      Does env never B (t.acceptCbw env) r.2

theorem readCbw_does {t : Ums} (h : Does env never B s t) : Received env B s (t.readCbw env) := by
  rw [readCbw]
  split
  · exact .inl ⟨rfl, h.trans (quiet_does rfl)⟩
  split
  · exact .inl ⟨rfl, h⟩
  next hmeaning =>
  exact .inr ⟨rfl, t, h, Nat.lt_of_not_le fun hle ↦ hmeaning (.inl hle), .refl _⟩

theorem receivedCbw_does {t : Ums} (h : Does env never B s t) :
    Received env B s (t.receivedCbw env) := by
  rw [receivedCbw]
  set u : Ums := if t.bulk.outStatus ≠ 0 ∨ t.allLunsUnmounted then t.countTimeouts env else t
  have hu : Does env never B s u := by
    show Does env never B s
      (if t.bulk.outStatus ≠ 0 ∨ t.allLunsUnmounted then t.countTimeouts env else t)
    split
    · exact h.trans countTimeouts_does
    · exact h
  split
  · exact .inl ⟨rfl, hu⟩
  · exact readCbw_does (hu.trans (quiet_does rfl))

/-- **What waiting for a command does.** -/
theorem getNextCommand_does : Received env (Buffers s) s (s.getNextCommand env) := by
  have hrec : Received env (Buffers s) s ((s.awaitCbw env).receivedCbw env) :=
    receivedCbw_does awaitCbw_does
  rw [getNextCommand]
  rcases hr : (s.awaitCbw env).receivedCbw env with ⟨ok, t⟩
  rw [hr] at hrec
  rcases hrec with ⟨hok, hdoes⟩ | ⟨hok, u, hu, hlun, hdoes⟩
  · exact .inl ⟨hok, hdoes.trans (quiet_does rfl)⟩
  · exact .inr ⟨hok, u, hu, hlun, hdoes.trans (quiet_does rfl)⟩

/-- What taking over a command block leaves alone. -/
theorem acceptCbw_keeps (env : Env) (s : Ums) :
    (s.acceptCbw env).lunIdx = (s.cbw 13).toNat ∧ (s.acceptCbw env).lunCnt = s.lunCnt ∧
      (s.acceptCbw env).luns = s.luns ∧ (Buffers s → Buffers (s.acceptCbw env)) ∧
      (s.acceptCbw env).w.trace = s.w.trace := by
  rw [acceptCbw]
  by_cases hlun : (s.cbw 13).toNat = s.lunIdx
  · rw [if_pos hlun]
    exact ⟨hlun.symm, rfl, rfl, fun h ↦ ⟨h.out, h.into⟩, rfl⟩
  rw [if_neg hlun, changeLun]
  split <;> exact ⟨rfl, rfl, rfl, fun h ↦ ⟨h.out, h.into⟩, rfl⟩

end Ums

/-! ## Steps -/

namespace Gadget

variable {env : Env} {g : Gadget}

theorem ums_loopEnd (s : Ums) : (loopEnd s).ums = s := by
  rw [loopEnd]
  split <;> rfl

theorem ums_parsed (s : Ums) : (parsed s).ums = s := by
  rw [parsed]
  split
  · exact ums_loopEnd s
  · rfl

/-- The transfers a step makes. -/
def Acts (env : Env) : Gadget → Bool → Prop
  | parse s => Ums.Reading (s.handleEp0Ctrl env)
  | writing _ => Ums.writes
  | _ => Ums.never

/-- The buffers hold what a step puts into them. -/
def Fits (env : Env) : Gadget → Prop
  | parse s => (s.handleEp0Ctrl env).ParseFits
  | reply s => (s.handleEp0Ctrl env).ReplyFits
  | _ => True

/-- A write under way is one to a mounted unit that may be written. -/
def WriteOk : Gadget → Prop
  | writing x => (x.s.lun.ro = 0 ∧ x.s.lun.unmounted = false) ∧ Ums.WriteInv x
  | _ => True

theorem loopEnd_writeOk (s : Ums) : (loopEnd s).WriteOk := by
  rw [loopEnd]
  split <;> exact trivial

theorem parsed_writeOk (s : Ums) : (parsed s).WriteOk := by
  rw [parsed]
  split
  · exact loopEnd_writeOk s
  · exact trivial

/-- A command is being carried out. -/
def Active : Gadget → Prop
  | parse _ => True
  | writing _ => True
  | _ => False

theorem not_active_loopEnd (s : Ums) : ¬ (loopEnd s).Active := by
  rw [loopEnd]
  split <;> exact id

/-- A command that is being carried out was so before the step, unless the step began with the start
of an iteration. -/
theorem active_of_step (htop : ∀ s, g ≠ .top s) (h : (step g env).Active) : g.Active := by
  cases g with
  | top s => exact absurd rfl (htop s)
  | parse s => exact trivial
  | writing x => exact trivial
  | reply s =>
    rw [step] at h
    dsimp only at h
    split at h
    · exact absurd h (not_active_loopEnd _)
    · exact h
  | status s => exact absurd h (not_active_loopEnd _)
  | exited s => exact h

/-- What the step `parse` does, and what is under way after it. -/
theorem parse_does (s : Ums) :
    Ums.Does env (Acts env (.parse s)) (s.Buffers ∧ Fits env (.parse s)) s
        (step (.parse s) env).ums ∧ (step (.parse s) env).WriteOk := by
  have hep : ∀ {A : Bool → Prop} {B : Prop}, Ums.Does env A B s (s.handleEp0Ctrl env) :=
    Ums.handleEp0Ctrl_does env s
  have hparse := Ums.parseScsiCmd_does env (s.handleEp0Ctrl env)
  have hB : s.Buffers ∧ Fits env (.parse s) →
      (s.handleEp0Ctrl env).Buffers ∧ (s.handleEp0Ctrl env).ParseFits :=
    fun h ↦ ⟨(hep (A := Ums.never) (B := True)).buffers h.1, h.2⟩
  rw [step]
  cases hp : (s.handleEp0Ctrl env).parseScsiCmd env with
  | replied r t =>
    rw [hp] at hparse
    dsimp only
    rw [ums_parsed]
    refine ⟨(hep.trans (hparse.mono (fun _ h ↦ h) (fun h ↦ h) hB)).trans
      (Ums.setUpReply_does r), parsed_writeOk _⟩
  | writing x =>
    rw [hp] at hparse
    exact ⟨hep.trans (hparse.1.mono (fun _ h ↦ h) (fun h ↦ h) hB), hparse.2⟩

/-- What the step `writing` does, and what is under way after it. -/
theorem writing_does (env : Env) {x : Ums.WriteLoop} (h : WriteOk (.writing x)) :
    Ums.Does env Ums.writes (x.s.Buffers) x.s (step (.writing x) env).ums ∧
      (step (.writing x) env).WriteOk := by
  have hpass := Ums.writePass_does env h.2
  rw [step]
  cases hp : Ums.writePass env x with
  | leave t =>
    rw [hp] at hpass
    dsimp only
    rw [ums_parsed]
    exact ⟨hpass, parsed_writeOk _⟩
  | again x' =>
    rw [hp] at hpass
    obtain ⟨hinv, hdoes⟩ := hpass
    refine ⟨hdoes, ⟨?_, ?_⟩, hinv⟩
    · rw [LogicalUnit.static_ro hdoes.lun_static]
      exact h.1.1
    · rw [hdoes.lun_unmounted ⟨true, rfl⟩]
      exact h.1.2

/-- **What a step does**, other than one from the start of an iteration. -/
theorem step_does (env : Env) (htop : ∀ s, g ≠ .top s) (h : g.WriteOk) :
    Ums.Does env (Acts env g) (g.ums.Buffers ∧ Fits env g) g.ums (step g env).ums ∧
      (step g env).WriteOk := by
  cases g with
  | top s => exact absurd rfl (htop s)
  | parse s => exact parse_does s
  | writing x =>
    obtain ⟨hdoes, hok⟩ := writing_does env h
    exact ⟨hdoes.mono (fun _ ha ↦ ha) (fun ha ↦ ha) And.left, hok⟩
  | reply s =>
    have hep : Ums.Does env Ums.never (s.Buffers ∧ Fits env (.reply s)) s (s.handleEp0Ctrl env) :=
      Ums.handleEp0Ctrl_does env s
    have hfinish : Ums.Does env Ums.never (s.Buffers ∧ Fits env (.reply s)) (s.handleEp0Ctrl env)
        ((s.handleEp0Ctrl env).finishReply env).2 :=
      Ums.finishReply_does.mono (fun _ ha ↦ ha) (fun ha ↦ ha) (And.imp_left hep.buffers)
    rw [step]
    rcases hf : (s.handleEp0Ctrl env).finishReply env with ⟨fatal, t⟩
    rw [hf] at hfinish
    dsimp only
    split
    · rw [ums_loopEnd]
      exact ⟨hep.trans hfinish, loopEnd_writeOk t⟩
    · exact ⟨hep.trans hfinish, trivial⟩
  | status s =>
    rw [step, ums_loopEnd]
    exact ⟨Ums.sendStatus_does.mono (fun _ ha ↦ ha) (fun ha ↦ ha) And.left, loopEnd_writeOk _⟩
  | exited s => exact ⟨.refl s, trivial⟩

/-- The step `top` transfers nothing and takes no command over. -/
def Waits (env : Env) (s : Ums) : Prop :=
  Ums.Does env Ums.never s.Buffers s (step (.top s) env).ums ∧ ¬ (step (.top s) env).Active

/-- The step `top` takes a command over, from the wrapper received in `t`. -/
structure TakesOver (env : Env) (s t : Ums) : Prop where
  before : Ums.Does env Ums.never s.Buffers s t
  lun : (t.cbw 13).toNat < t.lunCnt
  after : Ums.Does env Ums.never s.Buffers (t.acceptCbw env) (step (.top s) env).ums

/-- **What a step from the start of an iteration does.** -/
theorem top_does (env : Env) (s : Ums) :
    (step (.top s) env).WriteOk ∧ (Waits env s ∨ ∃ t, TakesOver env s t) := by
  have hpoll : Ums.Does env Ums.never s.Buffers s (s.poll env).2 := Ums.poll_does env s
  have hstep : step (.top s) env = step (.top s) env := rfl
  conv at hstep => rhs; rw [step]
  rcases hp : s.poll env with ⟨combo, s₁⟩
  rw [hp] at hpoll hstep
  dsimp only at hpoll hstep
  by_cases hexit : (combo && !s₁.preventMediaRemoval) = true
  · rw [if_pos hexit] at hstep
    rw [Waits, hstep]
    exact ⟨trivial, .inl ⟨hpoll, id⟩⟩
  rw [if_neg hexit] at hstep
  by_cases hstate : s₁.state ≠ .normal
  · rw [if_pos hstate] at hstep
    rw [Waits, hstep, ums_loopEnd]
    exact ⟨loopEnd_writeOk _, .inl ⟨hpoll.next Ums.handleException_does id,
      not_active_loopEnd _⟩⟩
  rw [if_neg hstate] at hstep
  have hep : Ums.Does env Ums.never s.Buffers s (s₁.handleEp0Ctrl env) :=
    hpoll.trans (Ums.handleEp0Ctrl_does env s₁)
  have hnext : Ums.Received env (s₁.handleEp0Ctrl env).Buffers (s₁.handleEp0Ctrl env)
    ((s₁.handleEp0Ctrl env).getNextCommand env) := Ums.getNextCommand_does
  rcases hr : (s₁.handleEp0Ctrl env).getNextCommand env with ⟨ok, u⟩
  rw [hr] at hnext hstep
  dsimp only at hstep
  rcases hnext with ⟨hok, hdoes⟩ | ⟨-, t, ht, hlun, hdoes⟩
  · simp only at hok hdoes
    subst hok
    rw [Bool.not_false, Bool.true_or, if_pos rfl] at hstep
    rw [Waits, hstep, ums_loopEnd]
    exact ⟨loopEnd_writeOk _, .inl ⟨hep.trans (hdoes.mono (fun _ h ↦ h) (fun h ↦ h) hep.buffers),
      not_active_loopEnd _⟩⟩
  · have hums : (step (.top s) env).ums = u ∧ (step (.top s) env).WriteOk := by
      rw [hstep]
      split
      · exact ⟨ums_loopEnd u, loopEnd_writeOk u⟩
      · exact ⟨rfl, trivial⟩
    refine ⟨hums.2, .inr ⟨t, hep.next ht id, hlun, ?_⟩⟩
    rw [hums.1]
    exact hdoes.mono (fun _ h ↦ h) (fun h ↦ h) hep.buffers

end Gadget

end Usb
end SdLoader
