import SdLoader.Usb.Answer

/-!
# The mass storage gadget: data from the host

How much of what the host sends is consumed before a command is over.

A write consumes what it asks for, and `_finish_reply` throws away the rest, or all of it if the
command is not a write.  It does so once, with a request that is limited to
`USB_EP_BUFFER_MAX_SIZE`.  So what is left over is the rest of the data, if there is more than that,
and it stays in the endpoint where the next command block is expected.

* `OutLaw` — the data phase comes to an end, and has consumed exactly what the host announced.
* `Spent` — so much of it has been consumed when the command has been carried out.
* `consuming_pass` — the step lemma of a write: what it has asked for is what it has consumed.
* `outLaw_of_outFits`, `outFits_of_outLaw` — the two directions.
* `outPhase_iff` — the law holds of a command, whatever the storages do, exactly if `OutFits`.
-/

set_option autoImplicit false

namespace SdLoader
namespace Usb

/-- The host plays its part: it sends all it is asked for, and does not ask for a reset. -/
structure Faithful (env : Env) : Prop extends Exact env where
  quiet : ∀ t, (env t).flag = false

theorem faithful_calmly : Faithful calmly := ⟨exact_calmly, fun _ ↦ rfl⟩

/-- Nothing goes wrong on the bus, and every transfer of sectors fails. -/
def stubbornly : Env := fun _ ↦ { calm with ok := false }

theorem faithful_stubbornly : Faithful stubbornly := ⟨⟨fun _ ↦ rfl, fun _ ↦ rfl⟩, fun _ ↦ rfl⟩

/-! ## The law -/

/-- What a write under way has yet to ask for. -/
def Gadget.toRequest : Gadget → ℕ
  | .writing x => x.amountLeftToReq
  | _ => 0

namespace Ums

variable {env : Env} {envs : ℕ → Env} {s t u : Ums} {x y : WriteLoop} {r T : ℕ}

/-- **The law.**  The data phase of the command comes to an end, and by then exactly what the host
announced has been consumed. -/
def OutLaw (s : Ums) (envs : ℕ → Env) : Prop :=
  Machine.Until Gadget.step Gadget.Over
    (fun g ↦ g.ums.w.consumed = s.w.consumed + s.dataSize) (.parse s) envs

/-- **The condition.**  If the command is admitted as a write, its loop completes, and no more than
one request is needed for what is left after the first one of the loop; if it is not, no more than
one request is needed at all. -/
structure OutFits (s : Ums) : Prop where
  write : ∀ x, Admits s x → x.Completes ∧ s.dataSize ≤ x.request + usbEpBufferMaxSize
  other : (∀ x, ¬ Admits s x) → s.dataSize ≤ usbEpBufferMaxSize

/-- The command has been carried out, and `r` bytes of its data have been consumed. -/
structure Spent (s u : Ums) (r : ℕ) : Prop where
  dataDir : u.dataDir = .fromHost
  state : u.state = .normal
  empty : u.bulk.outBufState = .empty
  short : u.shortPacketReceived = 0
  left : u.usbAmountLeft = s.dataSize - r
  consumed : u.w.consumed = s.w.consumed + r
  le : r ≤ s.dataSize
  residue : u.residue = 0 → r = s.dataSize

/-! ## The end of the data phase -/

/-- A request that is answered in full consumes as much. -/
theorem consumed_transferStartOut (hexact : Exact env) (s : Ums) :
    (s.transferStartOut env).w.consumed =
      min s.bulk.outLength usbEpBufferMaxSize + s.w.consumed := by
  obtain ⟨-, -, hlog⟩ := xusbDeviceEp1OutRead_log env s.bulk.outBuf s.bulk.outLength s.w
  have hactual := (xusbDeviceEp1OutRead_exact hexact s.bulk.outBuf s.bulk.outLength s.w).2
  refine (consumed_cons hlog).trans ?_
  rw [Event.consumed, hactual]

theorem Spent.polled (h : Spent s u r) : Spent s u.polled r :=
  ⟨h.dataDir, h.state, h.empty, h.short, h.left, h.consumed, h.le, h.residue⟩

/-- **What `_finish_reply` throws away**: one request, of what is left. -/
theorem finishReply_spent (hexact : Exact env) (h : Spent s u r) :
    ∃ t, u.finishReply env = (false, t) ∧ t.state = .normal ∧
      t.w.consumed = s.w.consumed + (r + min (s.dataSize - r) usbEpBufferMaxSize) := by
  have hle := h.le
  have hconsumed := h.consumed
  by_cases hres : u.residue = 0
  · have hall := h.residue hres
    refine ⟨u, ?_, h.state, by omega⟩
    rw [finishReply, h.dataDir]
    exact if_pos hres
  have hthrow : u.finishReply env = u.throwAwayData env := by
    rw [finishReply, h.dataDir]
    refine (if_neg hres).trans (if_neg (not_not_intro h.short))
  rw [hthrow]
  by_cases hleft : u.usbAmountLeft = 0
  · have hall := h.left
    refine ⟨u, ?_, h.state, by omega⟩
    rw [throwAwayData, if_pos ⟨h.empty, hleft⟩]
  · have hasks : u.throwAwayData env = (false, { ({ u with
        bulk.outLength := min u.usbAmountLeft usbEpBufferMaxSize } : Ums).transferStartOut env with
          usbAmountLeft := u.usbAmountLeft - min u.usbAmountLeft usbEpBufferMaxSize }) := by
      rw [throwAwayData, if_neg fun hnone ↦ hleft hnone.2,
        if_pos ⟨h.empty, Nat.pos_of_ne_zero hleft⟩]
      rfl
    refine ⟨_, hasks, h.state, ?_⟩
    have hmore := consumed_transferStartOut hexact
      { u with bulk.outLength := min u.usbAmountLeft usbEpBufferMaxSize }
    have hamount := h.left
    refine hmore.trans ?_
    show min (min u.usbAmountLeft usbEpBufferMaxSize) usbEpBufferMaxSize + u.w.consumed = _
    omega

/-- **A command that has been carried out meets the law** exactly if one more request is enough. -/
theorem until_of_spent (henvs : ∀ n, Faithful (envs n)) (h : Spent s u r) :
    Machine.Until Gadget.step Gadget.Over
        (fun g ↦ g.ums.w.consumed = s.w.consumed + s.dataSize) (.reply u) envs ↔
      s.dataSize ≤ r + usbEpBufferMaxSize := by
  obtain ⟨t, hfinish, hstate, hconsumed⟩ := finishReply_spent (henvs 0).toExact h.polled
  have hstep : Gadget.step (.reply u) (envs 0) = .status t := by
    rw [Gadget.step, handleEp0Ctrl_quiet (henvs 0).quiet, hfinish]
    dsimp only
    rw [Bool.false_or, if_neg]
    rw [decide_eq_true_eq]
    exact not_not_intro hstate
  have hle := h.le
  rw [Machine.until_step (fun hover : Gadget.Over (.reply u) ↦ hover), hstep,
    Machine.until_of_stop (trivial : Gadget.Over (.status t))]
  show t.w.consumed = s.w.consumed + s.dataSize ↔ _
  rw [hconsumed]
  omega

/-! ## A write -/

/-- What holds each time the loop of a write of `T` bytes begins a pass: what it has asked for is
what it has consumed. -/
structure Consuming (s : Ums) (T : ℕ) (x : WriteLoop) : Prop where
  dataDir : x.s.dataDir = .fromHost
  state : x.s.state = .normal
  empty : x.s.bulk.outBufState = .empty
  short : x.s.shortPacketReceived = 0
  total : T ≤ s.dataSize
  toReq : x.amountLeftToReq ≤ x.amountLeftToWrite
  toWrite : x.amountLeftToWrite ≤ T
  left : x.s.usbAmountLeft = s.dataSize - (T - x.amountLeftToReq)
  residue : x.s.residue = s.dataSize - (T - x.amountLeftToWrite)
  consumed : x.s.w.consumed = s.w.consumed + (T - x.amountLeftToReq)
  begun : x.amountLeftToReq = T ∧ x.usbLbaOffset < x.s.lun.numSectors ∨
    min T usbEpBulkOutMaxXfer ≤ T - x.amountLeftToReq

/-- A loop that is left has spent what it has asked for. -/
theorem Consuming.spent (h : Consuming s T x) (hu : u.dataDir = x.s.dataDir)
    (hstate : u.state = x.s.state) (hempty : u.bulk.outBufState = .empty)
    (hshort : u.shortPacketReceived = x.s.shortPacketReceived) (hres : u.residue = x.s.residue)
    {more : ℕ} (hmore : more ≤ x.amountLeftToReq)
    (hleft : u.usbAmountLeft = x.s.usbAmountLeft - more)
    (hconsumed : u.w.consumed = x.s.w.consumed + more) :
    Spent s u (T - x.amountLeftToReq + more) where
  dataDir := hu.trans h.dataDir
  state := hstate.trans h.state
  empty := hempty
  short := hshort.trans h.short
  left := by
    rw [hleft, h.left]
    omega
  consumed := by
    rw [hconsumed, h.consumed]
    omega
  le := by
    have htotal := h.total
    have htoReq := h.toReq
    have htoWrite := h.toWrite
    omega
  residue hzero := by
    have htotal := h.total
    have htoReq := h.toReq
    have htoWrite := h.toWrite
    rw [hres, h.residue] at hzero
    omega

/-- What the request of a pass consumes. -/
theorem consumed_requested (hexact : Exact env) (hreq : x.amountLeftToReq ≠ 0) :
    (x.requested env).s.w.consumed = x.s.w.consumed + x.request := by
  have hmost := x.request_le
  rw [usbEpBulkOutMaxXfer_eq] at hmost
  have hw : (x.requested env).s.w =
      (xusbDeviceEp1OutRead env x.s.bulk.outBuf x.request x.s.w).2.2 :=
    congrArg (·.2.2) (xusbDeviceEp1OutReadBig_eq env x.s.bulk.outBuf x.s.w
      (WriteLoop.request_pos hreq) x.request_le)
  obtain ⟨-, -, hlog⟩ := xusbDeviceEp1OutRead_log env x.s.bulk.outBuf x.request x.s.w
  have hactual := (xusbDeviceEp1OutRead_exact hexact x.s.bulk.outBuf x.request x.s.w).2
  rw [hw, consumed_cons hlog, Event.consumed, hactual, usbEpBufferMaxSize_eq]
  omega

/-- The storage fails: what has been asked for is lost. -/
theorem spent_of_fail (hexact : Exact env) (h : Consuming s T x) (hreq : x.amountLeftToReq ≠ 0) :
    Spent s (((x.requested env).access env).2.senseAt ssWriteError x.lbaOffset)
      (T - x.amountLeftToReq + x.request) := by
  refine h.spent (u := ((x.requested env).access env).2.senseAt ssWriteError x.lbaOffset)
    rfl rfl rfl rfl rfl (Nat.min_le_left _ _) rfl ?_
  refine Eq.trans ?_ (consumed_requested hexact hreq)
  exact (access_kept true (add32 (x.requested env).taken.lun.offset x.lbaOffset)
    ((x.requested env).amount / lbaSize) (x.requested env).taken.bulk.outBuf
    (x.requested env).taken).consumed

/-- **The step lemma.**  A pass goes round to a loop that has consumed what it has asked for, or
leaves with a command that has been carried out, the first request of which has been consumed. -/
theorem consuming_pass (hexact : Exact env) (h : Consuming s T x) :
    (writePass env x).All (Consuming s T)
      (fun u ↦ ∃ r, Spent s u r ∧ min T usbEpBulkOutMaxXfer ≤ r) := by
  have htotal := h.total
  have htoReq := h.toReq
  have htoWrite := h.toWrite
  by_cases hleft : x.amountLeftToWrite = 0
  · rw [writePass_done hleft]
    refine ⟨_, h.spent rfl rfl h.empty rfl rfl (Nat.zero_le _) rfl rfl, ?_⟩
    have hmin := Nat.min_le_left T usbEpBulkOutMaxXfer
    omega
  by_cases hreq : x.amountLeftToReq = 0
  · rw [writePass_spin hleft hreq h.empty]
    exact h
  by_cases hin : x.usbLbaOffset < x.s.lun.numSectors
  · obtain ⟨hamount, hpass⟩ := writePass_exact hexact hleft hreq hin
    have hrequest : x.request = min x.amountLeftToReq 0x8000 := by
      rw [WriteLoop.request, usbEpBulkOutMaxXfer_eq]
    have hbegun : min T usbEpBulkOutMaxXfer ≤ T - x.amountLeftToReq + x.request := by
      rw [usbEpBulkOutMaxXfer_eq]
      rcases h.begun with ⟨hall, -⟩ | hfirst
      · omega
      · rw [usbEpBulkOutMaxXfer_eq] at hfirst
        omega
    cases hp : writePass env x with
    | leave u =>
      rw [hp] at hpass
      split at hpass
      · cases hpass
      split at hpass
      · cases hpass
      · cases hpass
        exact ⟨_, spent_of_fail hexact h hreq, hbegun⟩
    | again y =>
      have hadv := advances_of_again hp hreq
      have hblocks : lbaSize * x.blocks ≤ x.request := by
        have hmin := Nat.min_le_left (x.request / lbaSize) (x.s.lun.numSectors - x.lbaOffset)
        rw [lbaSize_eq] at hmin ⊢
        rw [WriteLoop.blocks, lbaSize_eq]
        omega
      have hkept : y.s.dataDir = x.s.dataDir ∧ y.s.state = x.s.state ∧
          y.s.shortPacketReceived = x.s.shortPacketReceived ∧
          y.s.w.consumed = x.s.w.consumed + x.request := by
        rw [hp] at hpass
        split at hpass
        · cases hpass
          exact ⟨rfl, rfl, rfl, consumed_requested hexact hreq⟩
        split at hpass
        · cases hpass
          refine ⟨rfl, rfl, rfl, Eq.trans ?_ (consumed_requested hexact hreq)⟩
          exact (access_kept true (add32 (x.requested env).taken.lun.offset x.lbaOffset)
            ((x.requested env).amount / lbaSize) (x.requested env).taken.bulk.outBuf
            (x.requested env).taken).consumed
        · cases hpass
      obtain ⟨hdir, hstate, hshort, hconsumed⟩ := hkept
      have htoReq' := hadv.toReq
      have htoWrite' := hadv.toWrite
      exact
        { dataDir := hdir.trans h.dataDir
          state := hstate.trans h.state
          empty := hadv.empty
          short := hshort.trans h.short
          total := htotal
          toReq := by omega
          toWrite := by omega
          left := by
            rw [hadv.left, h.left]
            omega
          residue := by
            rw [hadv.residue, h.residue]
            omega
          consumed := by
            rw [hconsumed, h.consumed]
            omega
          begun := .inr (by omega) }
  · rw [writePass_past hleft hreq (Nat.le_of_not_lt hin)]
    refine ⟨_, h.spent (u := x.s.senseAt ssLogicalBlockAddressOutOfRange x.usbLbaOffset) rfl rfl
      h.empty rfl rfl (Nat.zero_le _) rfl rfl, ?_⟩
    exact h.begun.resolve_left fun hfirst ↦ hin hfirst.2

/-- The gadget when the loop of a write has been left. -/
theorem parsed_of_spent (h : Spent s u r) (reply : Reply) :
    Gadget.parsed (u.setUpReply reply) = .reply u := by
  have hdir : ¬ u.dataDir = .toHost := by
    rw [h.dataDir]
    exact DataDir.noConfusion
  have hsame : u.setUpReply reply = u := by
    cases reply with
    | ioError => rfl
    | invalidArg => exact if_neg hdir
    | len n => exact if_neg hdir
  rw [hsame, Gadget.parsed, if_neg (not_not_intro h.state)]

/-- **The run lemma of a write**: a loop that is on its way to where it is left meets the law, if
one request is enough for what is left after its first one. -/
theorem until_of_consuming (henvs : ∀ n, Faithful (envs n)) (hgoing : x.Going)
    (h : Consuming s T x)
    (hfit : s.dataSize ≤ min T usbEpBulkOutMaxXfer + usbEpBufferMaxSize) :
    Machine.Until Gadget.step Gadget.Over
      (fun g ↦ g.ums.w.consumed = s.w.consumed + s.dataSize) (.writing x) envs := by
  refine Machine.until_of_measure (P := Faithful)
    (I := fun g ↦ ∃ x, g = .writing x ∧ x.Going ∧ Consuming s T x)
    Gadget.toRequest ?_ ⟨x, rfl, hgoing, h⟩ henvs
  rintro _ env ⟨x, rfl, hgoing, h⟩ henv
  refine ⟨id, ?_⟩
  have hpass := consuming_pass henv.toExact h
  rw [Gadget.step]
  cases hp : writePass env x with
  | again y =>
    rw [hp] at hpass
    obtain ⟨hgoing', hless⟩ := going_step hgoing hp
    exact .inr ⟨⟨y, rfl, hgoing', hpass⟩, hless⟩
  | leave u =>
    rw [hp] at hpass
    obtain ⟨r, hspent, hr⟩ := hpass
    refine .inl fun envs' henvs' ↦ ?_
    dsimp only
    rw [parsed_of_spent hspent]
    exact (until_of_spent henvs' hspent).mpr (by omega)

/-! ## The command -/

/-- What the checks leave of the data phase. -/
theorem limited_spent (hready : s.Ready) (hdir : s.dataDir = .fromHost)
    (h : Kept s.polled.opened.limitData t) : Spent s t 0 where
  dataDir := h.dataDir.trans ((limitData_dataDir _).trans hdir)
  state := h.state.trans ((limitData_state _).trans hready.state)
  empty := by
    rw [h.bulk, limitData_bulk]
    exact hready.empty
  short := h.shortPacketReceived.trans (limitData_shortPacketReceived _)
  left := h.usbAmountLeft.trans (limitData_usbAmountLeft _)
  consumed := by
    rw [h.consumed, limitData_w]
    rfl
  le := Nat.zero_le _
  residue hzero := by
    have hsize : t.residue = s.dataSize := h.residue.trans (limitData_residue _)
    have hsome := hready.some (by rw [hdir]; exact DataDir.noConfusion)
    omega

/-- A command that is not admitted as a write has been carried out once it has been parsed. -/
theorem step_of_not_admits (hready : s.Ready) (hdir : s.dataDir = .fromHost)
    (henv : Faithful env) (hnot : ∀ x, ¬ Admits s.polled x) :
    ∃ t, Gadget.step (.parse s) env = .reply t ∧ Spent s t 0 := by
  have hparse := parse_answers env s.polled
  rw [Gadget.step, handleEp0Ctrl_quiet henv.quiet]
  cases hp : s.polled.parseScsiCmd env with
  | writing x =>
    rw [hp] at hparse
    exact absurd hparse (hnot x)
  | replied r t =>
    rw [hp] at hparse
    rcases hparse with hanswer | ⟨-, -, hchecked⟩ | ⟨x, hread, -, -⟩
    · have hspent := limited_spent hready hdir hanswer.kept
      exact ⟨t, parsed_of_spent hspent r, hspent⟩
    · have hkept := (checked_kept s.polled).1
      rw [hchecked] at hkept
      have hspent := limited_spent hready hdir hkept
      exact ⟨t, parsed_of_spent hspent r, hspent⟩
    · -- A read of at least one block sends its data to the host.
      have hkept := (checked_kept s.polled).1
      rw [hread.checked] at hkept
      have hfrom : x.s.dataDir = .fromHost := hkept.dataDir.trans ((limitData_dataDir _).trans hdir)
      exact absurd (hfrom.symm.trans hread.dataDir) DataDir.noConfusion

/-- A command that is admitted as a write is at the start of its loop. -/
theorem step_of_admits (hready : s.Ready) (hdir : s.dataDir = .fromHost) (henv : Faithful env)
    (h : Admits s.polled x) :
    Gadget.step (.parse s) env = .writing x ∧ x.Entered ∧
      Consuming s x.amountLeftToWrite x := by
  have hparse := parse_of_admits env h
  obtain ⟨hx, hsize⟩ := entered_of_parse hparse
  have hkept := (checked_kept s.polled).1
  rw [h.1] at hkept
  have hspent := limited_spent hready hdir hkept
  refine ⟨?_, hx, ?_⟩
  · rw [Gadget.step, handleEp0Ctrl_quiet henv.quiet, hparse]
  · have htotal : x.amountLeftToWrite ≤ s.dataSize := by
      rw [hsize]
      exact Nat.min_le_right _ _
    have htoReq := hx.toReq
    exact
      { dataDir := hspent.dataDir
        state := hspent.state
        empty := hspent.empty
        short := hspent.short
        total := htotal
        toReq := by omega
        toWrite := Nat.le_refl _
        left := by
          rw [hspent.left]
          omega
        residue := by
          rw [hkept.residue, limitData_residue]
          show s.dataSize = _
          omega
        consumed := by
          rw [hspent.consumed]
          omega
        begun := .inl ⟨htoReq, by rw [hx.usbLba]; exact hx.inside⟩ }

/-- **A command that fits meets the law**, whatever the storages do. -/
theorem outLaw_of_outFits (hready : s.Ready) (hdir : s.dataDir = .fromHost)
    (hfits : s.polled.OutFits) (henvs : ∀ n, Faithful (envs n)) : OutLaw s envs := by
  rw [OutLaw, Machine.until_step (fun hover : Gadget.Over (.parse s) ↦ hover)]
  by_cases hadmits : ∃ x, Admits s.polled x
  · obtain ⟨x, hx⟩ := hadmits
    obtain ⟨hstep, hentered, hconsuming⟩ := step_of_admits hready hdir (henvs 0) hx
    obtain ⟨hcompletes, hfit⟩ := hfits.write x hx
    have hrequest : x.request = min x.amountLeftToWrite usbEpBulkOutMaxXfer := by
      rw [WriteLoop.request, hentered.toReq]
    rw [hstep]
    rw [hrequest] at hfit
    exact until_of_consuming (fun n ↦ henvs (n + 1)) (going_of_completes hentered hcompletes)
      hconsuming hfit
  · have hnot : ∀ x, ¬ Admits s.polled x := fun x hx ↦ hadmits ⟨x, hx⟩
    obtain ⟨t, hstep, hspent⟩ := step_of_not_admits hready hdir (henvs 0) hnot
    have hfew : s.dataSize ≤ usbEpBufferMaxSize := hfits.other hnot
    rw [hstep, until_of_spent (fun n ↦ henvs (n + 1)) hspent]
    omega

/-- A write that is stuck does not get to the end of its data phase. -/
theorem not_until_of_stuck (h : x.Stuck) :
    ¬ Machine.Until Gadget.step Gadget.Over
      (fun g ↦ g.ums.w.consumed = s.w.consumed + s.dataSize) (.writing x) fun _ ↦ calmly := by
  refine Machine.not_until_of_inv (I := fun g ↦ ∃ x, g = .writing x ∧ x.Stuck) ?_ ⟨x, rfl, h⟩
  rintro _ n ⟨x, rfl, hx⟩
  obtain ⟨y, hy, hstuck⟩ := stuck_step hx
  exact ⟨id, y, by rw [Gadget.step, hy], hstuck⟩

/-- A write the storage fails in the first transfer of. -/
theorem request_of_stubbornly (hentered : x.Entered) (hcompletes : x.Completes)
    (h : Consuming s x.amountLeftToWrite x)
    (hlaw : Machine.Until Gadget.step Gadget.Over
      (fun g ↦ g.ums.w.consumed = s.w.consumed + s.dataSize) (.writing x) fun _ ↦ stubbornly) :
    s.dataSize ≤ x.request + usbEpBufferMaxSize := by
  rw [Machine.until_step (fun hover : Gadget.Over (.writing x) ↦ hover), Gadget.step] at hlaw
  have htoReq := hentered.toReq
  by_cases hleft : x.amountLeftToWrite = 0
  · rw [writePass_done hleft] at hlaw
    dsimp only at hlaw
    have hspent : Spent s x.s (x.amountLeftToWrite - x.amountLeftToReq + 0) :=
      h.spent rfl rfl h.empty rfl rfl (Nat.zero_le _) rfl rfl
    rw [parsed_of_spent hspent, until_of_spent (fun _ ↦ faithful_stubbornly) hspent] at hlaw
    omega
  have hreq : x.amountLeftToReq ≠ 0 := by omega
  have hin : x.usbLbaOffset < x.s.lun.numSectors := by
    rw [hentered.usbLba]
    exact hentered.inside
  obtain ⟨hamount, hpass⟩ := writePass_exact faithful_stubbornly.toExact hleft hreq hin
  have hrequest : x.request = min x.amountLeftToWrite 0x8000 := by
    rw [WriteLoop.request, htoReq, usbEpBulkOutMaxXfer_eq]
  -- A loop that completes has a block to write, or nothing at all.
  have hblock : 512 ≤ x.amountLeftToWrite := by
    rcases hcompletes with hzero | ⟨hblocks, -⟩ | ⟨i, hmore, hpast⟩
    · exact absurd hzero hleft
    · rw [lbaSize_eq] at hblocks
      omega
    · by_contra hsmall
      rw [usbEpBulkOutMaxXfer_eq] at hmore hpast
      obtain rfl : i = 0 := by omega
      rw [Nat.mul_zero, Nat.add_zero, Nat.mod_eq_of_lt hentered.lba] at hpast
      exact absurd hentered.inside (Nat.not_lt_of_le hpast)
  have hsome : (x.requested stubbornly).amount ≠ 0 := by
    have hroom := hentered.inside
    rw [hamount, WriteLoop.blocks, lbaSize_eq]
    omega
  have hfail : ¬ ((x.requested stubbornly).access stubbornly).1 = true := Bool.false_ne_true
  rw [if_neg hsome, if_neg hfail] at hpass
  rw [hpass] at hlaw
  dsimp only at hlaw
  have hspent := spent_of_fail faithful_stubbornly.toExact h hreq
  rw [parsed_of_spent hspent, until_of_spent (fun _ ↦ faithful_stubbornly) hspent] at hlaw
  omega

/-- **A command that meets the law fits.** -/
theorem outFits_of_outLaw (hready : s.Ready) (hdir : s.dataDir = .fromHost)
    (hlaw : ∀ envs, (∀ n, Faithful (envs n)) → OutLaw s envs) : s.polled.OutFits := by
  have hnext : ∀ env, Faithful env → Machine.Until Gadget.step Gadget.Over
      (fun g ↦ g.ums.w.consumed = s.w.consumed + s.dataSize) (Gadget.step (.parse s) env)
        fun _ ↦ env := by
    intro env henv
    have hall := hlaw (fun _ ↦ env) fun _ ↦ henv
    rwa [OutLaw, Machine.until_step (fun hover : Gadget.Over (.parse s) ↦ hover)] at hall
  refine ⟨fun x hx ↦ ?_, fun hnot ↦ ?_⟩
  · obtain ⟨hcalm, hentered, -⟩ := step_of_admits hready hdir faithful_calmly hx
    have hcompletes : x.Completes := by
      by_contra hnot
      have hall := hnext calmly faithful_calmly
      rw [hcalm] at hall
      exact not_until_of_stuck (stuck_of_not_completes hentered hnot) hall
    obtain ⟨hstep, -, hconsuming⟩ := step_of_admits hready hdir faithful_stubbornly hx
    have hall := hnext stubbornly faithful_stubbornly
    rw [hstep] at hall
    exact ⟨hcompletes, request_of_stubbornly (s := s) hentered hcompletes hconsuming hall⟩
  · obtain ⟨t, hstep, hspent⟩ := step_of_not_admits hready hdir faithful_calmly hnot
    have hall := hnext calmly faithful_calmly
    rw [hstep, until_of_spent (fun _ ↦ faithful_calmly) hspent, Nat.zero_add] at hall
    exact hall

end Ums

/-- **The data phase of a command that takes data from the host.**  In any session, a command for
which the host announces data, and sends just that, consumes exactly that, whatever the storages do,
exactly if it fits. -/
theorem outPhase_iff {volumes : List Volume} {secCnt : MmcType → ℕ} {s : Ums}
    (h : Reachable volumes secCnt (.parse s)) (hdir : s.dataDir = .fromHost) :
    (∀ envs, (∀ n, Faithful (envs n)) → s.OutLaw envs) ↔ s.polled.OutFits := by
  have hready := Gadget.ready_of_reachable h
  exact ⟨Ums.outFits_of_outLaw hready hdir,
    fun hfits envs ↦ Ums.outLaw_of_outFits hready hdir hfits⟩

/-- The host announces a write of 200 blocks. -/
def announcesWrite : List Env :=
  [hears (wrapper 102400 0 0 [0x2A, 0, 0, 0, 0, 0, 0, 0, 200, 0])]

/-- It is the first command there is, and hears of the reset. -/
def longWrite : Ums := (Machine.run Gadget.step (firstGadget [sdVolume]) announcesWrite).ums

theorem reachable_longWrite : Reachable [sdVolume] (fun _ ↦ 0x1000) (.parse longWrite) :=
  ⟨firstGadget [sdVolume], announcesWrite, starts_firstGadget (by decide), rfl⟩

theorem outPhase_iff_longWrite :
    (∀ envs, (∀ n, Faithful (envs n)) → longWrite.OutLaw envs) ↔ longWrite.polled.OutFits :=
  outPhase_iff reachable_longWrite rfl

theorem outPhase_counterexample :
    ¬ ∀ volumes secCnt s, Reachable volumes secCnt (.parse s) → s.dataDir = .fromHost →
      ∀ envs, (∀ n, Faithful (envs n)) → s.OutLaw envs := by
  intro h
  have hlaw := h _ _ longWrite reachable_longWrite rfl (fun _ ↦ calmly) fun _ ↦ faithful_calmly
  have hrefused : longWrite.polled.checked.1 = false := rfl
  have hnot : ∀ x, ¬ Ums.Admits longWrite.polled x := by
    rintro x ⟨hc, -⟩
    rw [hc] at hrefused
    cases hrefused
  obtain ⟨t, hstep, hspent⟩ := Ums.step_of_not_admits
    (Gadget.ready_of_reachable reachable_longWrite) rfl faithful_calmly hnot
  rw [Ums.OutLaw, Machine.until_step (fun hover : Gadget.Over (.parse longWrite) ↦ hover), hstep,
    Ums.until_of_spent (fun _ ↦ faithful_calmly) hspent] at hlaw
  have hsize : longWrite.dataSize = 102400 := rfl
  rw [hsize, usbEpBufferMaxSize_eq] at hlaw
  omega

end Usb
end SdLoader
