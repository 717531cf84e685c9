import SdLoader.Xusb.Requests

/-!
# What one event changes

* `Side` — an event leaves everything outside the rings of the endpoints as it was, and the bulk
  rings as ones that can be added to.
* `handleEvent_other` and `handleEvent_onCntrl` — a transfer event of the control endpoint makes
  room on its ring, and puts the status stage there if a data stage was waited for; any other event
  is answered as a request of the host is.
* `Cntrl.event` — either way the control ring is a queue, and has no more than one TRB to be done.
-/

set_option autoImplicit false

namespace SdLoader
namespace Xusb

/-- What is not on the control ring. -/
structure Side (x x' : Xotg) : Prop where
  events : x'.eventEnqueue = x.eventEnqueue ∧ x'.eventDequeue = x.eventDequeue ∧
    x'.eventCcs = x.eventCcs
  mem : ∀ a, ¬ InRing cntrlQueue a → (∀ d, ¬ InRing (bulkQueue d) a) → x'.trbs a = x.trbs a
  bulk : ∀ e, x.BulkOk e → x'.BulkOk e

variable {x x' x₁ : Xotg} {o : Objects} {seen : Seen} {trb t : Trb} {res : ℕ} {l : Line}
  {P : Xotg → Trb → Prop} {s : Setup}

theorem Quiet.side (h : Quiet x x') : Side x x' where
  events := h.events
  mem := fun a _ ha ↦ h.mem a ha
  bulk := h.bulk

theorem Side.trans (h : Side x x₁) (h' : Side x₁ x') : Side x x' where
  events := ⟨h'.events.1.trans h.events.1, h'.events.2.1.trans h.events.2.1,
    h'.events.2.2.trans h.events.2.2⟩
  mem := fun a ha hb ↦ (h'.mem a ha hb).trans (h.mem a ha hb)
  bulk := fun e he ↦ h'.bulk e (h.bulk e he)

theorem not_inRing_cntrl {d : Dir} {i : ℕ} (hi : i < 16) :
    ¬ InRing cntrlQueue (bulkQueue d + 16 * i) := by
  rintro ⟨j, hj, heq⟩
  cases d <;> rw [bulkQueue] at heq
  · rw [cntrlQueue_eq, bulkOutQueue_eq] at heq
    omega
  · rw [cntrlQueue_eq, bulkInQueue_eq] at heq
    omega

theorem not_inRing_bulk {d : Dir} {i : ℕ} (hi : i < 16) :
    ¬ InRing (bulkQueue d) (cntrlQueue + 16 * i) := by
  rintro ⟨j, hj, heq⟩
  exact not_inRing_cntrl hj ⟨i, hi, heq.symm⟩

/-- A TRB is added to the control ring. -/
theorem side_queueCntrl (hring : RingAt cntrlQueue x.trbs x.cntrl.enqueue)
    (ht : t.trbType ≠ trbLink) (n : ℕ) :
    Side x { x.queueCntrl t with waitForEventTrb := n } := by
  obtain ⟨-, hframe⟩ := hring.queue ht
  have hslot : ∀ d, ∀ i < 16, slot (x.cntrl.queue x.trbs t).1 (bulkQueue d) i =
      slot x.trbs (bulkQueue d) i := fun d i hi ↦ hframe _ (not_inRing_cntrl hi)
  refine ⟨⟨rfl, rfl, rfl⟩, fun a ha _ ↦ hframe a ha, fun e h ↦ ⟨fun d i hi ↦ ?_, fun hready d ↦ ?_⟩⟩
  · have hsame := hslot d i (by omega)
    rw [Xotg.queueCntrl]
    simp only [hsame]
    exact h.types d i hi
  · have hd := (h.ready hready d).congr (hslot d)
    cases d <;> exact hd

/-- The dequeue pointer of the control ring moves on. -/
theorem side_advance (x : Xotg) : Side x { x with cntrl := x.cntrl.advance x.trbs } where
  events := ⟨rfl, rfl, rfl⟩
  mem := fun _ _ _ ↦ rfl
  bulk := fun e h ↦ ⟨h.types, fun hready d ↦ by
    have hd := h.ready hready d
    cases d <;> exact hd⟩

theorem advance_enqueue (r : RingPtrs) (m : Trbs) : (r.advance m).enqueue = r.enqueue := by
  rw [RingPtrs.advance]
  split <;> rfl

/-! ## Events -/

theorem quiet_advanceDequeue (x : Xotg) (htrb : trb.epId ≠ epCtrlIn) :
    Quiet x (x.advanceDequeue trb) := by
  have hout : Quiet x { x with bulkOut := x.bulkOut.advance x.trbs } :=
    ⟨rfl, rfl, ⟨rfl, rfl, rfl⟩, fun _ _ ↦ rfl, fun e h ↦ ⟨h.types, fun hready d ↦ by
      have hd := h.ready hready d
      cases d with
      | out => exact (advance_enqueue x.bulkOut x.trbs).symm ▸ hd
      | into => exact hd⟩⟩
  have hin : Quiet x { x with bulkIn := x.bulkIn.advance x.trbs } :=
    ⟨rfl, rfl, ⟨rfl, rfl, rfl⟩, fun _ _ ↦ rfl, fun e h ↦ ⟨h.types, fun hready d ↦ by
      have hd := h.ready hready d
      cases d with
      | out => exact hd
      | into => exact (advance_enqueue x.bulkIn x.trbs).symm ▸ hd⟩⟩
  rw [Xotg.advanceDequeue, if_neg htrb]
  split
  · exact hout
  split
  · exact hin
  · exact .refl x

theorem quiet_countTransfer (x : Xotg) (d : Dir) (n : ℕ) : Quiet x (x.countTransfer d n) :=
  .of_eq rfl ⟨rfl, rfl, rfl⟩ rfl ⟨rfl, rfl, rfl⟩ id

theorem configuring_next {d : DevState} (h : d.next.Configuring) : d.Configuring := by
  cases d <;> rcases h with h | h <;> first | exact .inl rfl | exact .inr rfl | cases h

theorem quiet_handleTransferEvent (x : Xotg) (htrb : trb.epId ≠ epCtrlIn) :
    Quiet x (x.handleTransferEvent trb).2 := by
  have hadv := quiet_advanceDequeue x htrb
  rw [Xotg.handleTransferEvent]
  split
  · split
    · exact hadv.trans (quiet_countTransfer _ _ _)
    split
    · exact hadv.trans (quiet_countTransfer _ _ _)
    · exact hadv
  split
  · exact hadv.trans (quiet_setEpStall _ _ _)
  split
  · exact hadv
  split <;> exact hadv

theorem quiet_handlePortChange (x : Xotg) (seen : Seen) : Quiet x (x.handlePortChange seen).2 := by
  rw [Xotg.handlePortChange]
  show Quiet x (if seen.portscConnect.testBit 17 then _ else x)
  split
  · exact .of_eq rfl ⟨rfl, rfl, rfl⟩ rfl ⟨rfl, rfl, rfl⟩ id
  · exact .refl x

theorem handleEp0_answers (x : Xotg) (o : Objects) (seen : Seen) (s : Setup) :
    Answers (Reply o s) x (x.handleEp0 o seen s).2 := by
  have hquiet : Quiet x { x with halted := Function.update x.halted epCtrlIn false } :=
    .of_eq rfl ⟨rfl, rfl, rfl⟩ rfl ⟨rfl, rfl, rfl⟩ id
  rw [Xotg.handleEp0]
  split
  · obtain ⟨x₁, h₁, h⟩ := answerSetup_answers
      { x with halted := Function.update x.halted epCtrlIn false } o seen s
    exact ⟨x₁, hquiet.trans h₁, h⟩
  · exact hquiet.answers

/-- An event that is not about the control endpoint is answered as a request is. -/
theorem handleEvent_other (x : Xotg) (o : Objects) (seen : Seen) (res : ℕ)
    (htrb : ¬ trb.onCntrl) :
    Answers (fun x₁ t ↦ Reply o trb.setup x₁ t) x (x.handleEvent o seen res trb).2 := by
  rw [Trb.onCntrl, decide_eq_true_eq] at htrb
  rw [Xotg.handleEvent]
  split
  case isTrue htype => exact (quiet_handleTransferEvent x fun h ↦ htrb ⟨htype, h⟩).answers
  split
  · exact (quiet_handlePortChange x seen).answers
  split
  · have hquiet : Quiet x { x with ctrlSeqNum := trb.ctrlSeqNum } :=
      .of_eq rfl ⟨rfl, rfl, rfl⟩ rfl ⟨rfl, rfl, rfl⟩ id
    obtain ⟨x₁, h₁, h⟩ := handleEp0_answers { x with ctrlSeqNum := trb.ctrlSeqNum } o seen trb.setup
    exact ⟨x₁, hquiet.trans h₁, h⟩
  · exact (Quiet.refl x).answers

/-- The completion code says that the transfer was done. -/
def Trb.succeeded (t : Trb) : Prop := t.compCode = 1 ∨ t.compCode = 13

/-- A transfer event of the control endpoint: room is made on its ring, and the status stage of a
data stage that was done is put there. -/
theorem handleEvent_onCntrl (x : Xotg) (o : Objects) (seen : Seen) (res : ℕ) (htrb : trb.onCntrl) :
    let x₁ := { x with cntrl := x.cntrl.advance x.trbs }
    ((trb.succeeded ∧ x.waitForEventTrb = trbData) ∧ (x.handleEvent o seen res trb).2 =
        { x₁.queueCntrl (createStatusTrb x₁.cntrl.producerCycle .out) with
          waitForEventTrb := trbStatus }) ∨
      (¬ (trb.succeeded ∧ x.waitForEventTrb = trbData) ∧
        Quiet x₁ (x.handleEvent o seen res trb).2) := by
  intro x₁
  rw [Trb.onCntrl, decide_eq_true_eq] at htrb
  have hadv : x.advanceDequeue trb = x₁ := if_pos htrb.2
  rw [Xotg.handleEvent, if_pos htrb.1, Xotg.handleTransferEvent, hadv]
  by_cases hok : trb.compCode = 1 ∨ trb.compCode = 13
  · rw [if_pos hok, if_pos htrb.2]
    by_cases hdata : x.waitForEventTrb = trbData
    · refine .inl ⟨⟨hok, hdata⟩, ?_⟩
      rw [if_pos hdata]
      simp only [Xotg.issueStatusTrb, or_true, if_true]
    · refine .inr ⟨fun h ↦ hdata h.2, ?_⟩
      rw [if_neg hdata]
      split
      · exact .of_eq rfl ⟨rfl, rfl, rfl⟩ rfl ⟨rfl, rfl, rfl⟩ configuring_next
      · exact .refl x₁
  · refine .inr ⟨fun h ↦ hok h.1, ?_⟩
    rw [if_neg hok]
    split
    · exact quiet_setEpStall x₁ _ _
    split
    · exact .refl x₁
    split <;> exact .refl x₁

/-! ## The control ring -/

theorem Line.Inv.congr {base : ℕ} {m : Trbs} (h : l.Inv base)
    (hsame : ∀ i < 16, slot m base i = slot l.trbs base i) :
    { l with trbs := m }.Inv base := by
  have hlink := hsame 15 (by omega)
  refine ⟨h.holds.congr (fun i hi ↦ hsame i (by omega)) (by omega), fun i hi ↦ ?_, ?_, fun hk ↦ ?_,
    h.enqueue, h.cycle, h.dequeue, h.ctl, h.took, h.order⟩
  · rw [hsame i (by omega)]
    exact h.types i hi
  · rw [hlink]
    exact h.link
  · rw [hlink]
    exact h.linkCycle hk

/-- The control ring is a queue with no more than one TRB to be done, and the driver waits for what
was added last, unless it has started a bulk transfer since. -/
structure Cntrl (x : Xotg) (ctl : Fetcher) (queued fetched : List Trb) (done : ℕ)
    (bulkSince : Bool) : Prop where
  line : Line.Inv cntrlQueue ⟨x.trbs, x.cntrl, ctl, queued, fetched, done⟩
  one : queued.length ≤ done + 1
  waits : ∀ t, queued.getLast? = some t →
    x.waitForEventTrb = if bulkSince then trbNormal else t.trbType

variable {ctl : Fetcher} {queued fetched : List Trb} {done : ℕ} {bulkSince : Bool}

theorem Cntrl.ringAt (h : Cntrl x ctl queued fetched done bulkSince) :
    RingAt cntrlQueue x.trbs x.cntrl.enqueue :=
  ⟨⟨queued.length % 15, Nat.mod_lt _ (by omega), h.line.enqueue⟩, h.line.types, h.line.link⟩

theorem Cntrl.quiet (h : Cntrl x ctl queued fetched done bulkSince) (hquiet : Quiet x x') :
    Cntrl x' ctl queued fetched done bulkSince where
  line := by
    rw [hquiet.cntrl]
    exact h.line.congr fun i hi ↦ hquiet.mem _ fun d ↦ not_inRing_bulk hi
  one := h.one
  waits := fun t ht ↦ hquiet.wait.trans (h.waits t ht)

theorem queuedBy_quiet (hcntrl : x'.cntrl = x.cntrl) : queuedBy x x' = [] := by
  rw [queuedBy, if_pos (congrArg RingPtrs.enqueue hcntrl)]

/-- What has been added is what the driver has put on the ring. -/
theorem queuedBy_queueCntrl (h : Cntrl x ctl queued fetched done bulkSince) (n : ℕ) (t : Trb) :
    queuedBy x { x.queueCntrl t with waitForEventTrb := n } = [t] := by
  have hk := Nat.mod_lt queued.length (show 0 < 15 by omega)
  have henq : x.cntrl.enqueue = cntrlQueue + 16 * (queued.length % 15) := h.line.enqueue
  rw [queuedBy, Xotg.queueCntrl]
  rcases queue_at h.line.types h.line.link hk h.line.enqueue t with ⟨-, hq⟩ | ⟨hlast, hq⟩
  · simp only [hq, henq, Function.update_self]
    exact if_neg (by omega)
  · simp only [hq, henq, hlast]
    rw [if_neg (by omega), Function.update_of_ne (by omega), Function.update_self]

/-- A TRB is added to the empty control ring. -/
theorem Cntrl.queue (h : Cntrl x ctl queued fetched done bulkSince)
    (hempty : done = queued.length) (hcycle : t.cycle = x.cntrl.producerCycle % 2)
    (htype : t.trbType ≠ trbLink) :
    Cntrl { x.queueCntrl t with waitForEventTrb := t.trbType } ctl (queued ++ [t]) fetched done
      false where
  line := by
    have hbit : x.cntrl.producerCycle % 2 = x.cntrl.producerCycle := by
      have hcyc : x.cntrl.producerCycle = Ring.bit 15 queued.length := h.line.cycle
      rw [hcyc]
      exact Nat.mod_eq_of_lt (Ring.bit_lt _ _)
    exact h.line.queue (hcycle.trans hbit) htype (by simp only; omega)
  one := by
    rw [List.length_append, List.length_singleton]
    omega
  waits := fun t' ht' ↦ by
    rw [List.getLast?_concat] at ht'
    cases ht'
    rfl

/-- What an answer does to the control ring. -/
theorem Cntrl.answers (h : Cntrl x ctl queued fetched done bulkSince) (hans : Answers P x x') :
    Cntrl x' ctl (queued ++ queuedBy x x') fetched done
        (if queuedBy x x' = [] then bulkSince else false) ∧ Side x x' := by
  obtain ⟨x₁, hquiet, rfl | ⟨hempty, t, hcycle, htype, -, rfl⟩⟩ := hans
  · rw [queuedBy_quiet hquiet.cntrl, List.append_nil, if_pos rfl]
    exact ⟨h.quiet hquiet, hquiet.side⟩
  · have h₁ := h.quiet hquiet
    have hnew : queuedBy x { x₁.queueCntrl t with waitForEventTrb := t.trbType } = [t] := by
      rw [← queuedBy_queueCntrl h₁ t.trbType t, queuedBy, queuedBy, hquiet.cntrl]
    rw [hnew, if_neg (List.cons_ne_nil t [])]
    exact ⟨h₁.queue ((pointers_eq_iff h₁.line).mp hempty) hcycle htype,
      hquiet.side.trans (side_queueCntrl h₁.ringAt htype _)⟩

/-- What is added in an answer. -/
theorem Cntrl.added (h : Cntrl x ctl queued fetched done bulkSince) (hans : Answers P x x') :
    ∀ t ∈ queuedBy x x', ∃ x₁, P x₁ t ∧ x'.controlBuf = x₁.controlBuf := by
  intro t ht
  obtain ⟨x₁, hquiet, rfl | ⟨-, t', -, -, hP, rfl⟩⟩ := hans
  · rw [queuedBy_quiet hquiet.cntrl] at ht
    cases ht
  · have hnew : queuedBy x { x₁.queueCntrl t' with waitForEventTrb := t'.trbType } = [t'] := by
      rw [← queuedBy_queueCntrl (h.quiet hquiet) t'.trbType t', queuedBy, queuedBy, hquiet.cntrl]
    rw [hnew, List.mem_singleton] at ht
    subst ht
    exact ⟨x₁, hP, rfl⟩

/-- A transfer event of the control endpoint says that a TRB is done. -/
theorem Cntrl.advance (h : Cntrl x ctl queued fetched done bulkSince)
    (hdone : done < fetched.length) :
    Cntrl { x with cntrl := x.cntrl.advance x.trbs } ctl queued fetched (done + 1) bulkSince :=
  ⟨h.line.complete hdone, Nat.le_succ_of_le h.one, h.waits⟩

theorem queuedBy_advance (x y : Xotg) :
    queuedBy { x with cntrl := x.cntrl.advance x.trbs } y = queuedBy x y := by
  rw [queuedBy, queuedBy, advance_enqueue]

/-- **What an event does to the control ring.**  It stays a queue, with no more than one TRB to be
done. -/
theorem Cntrl.event (h : Cntrl x ctl queued fetched done bulkSince)
    (hdone : trb.onCntrl → done < fetched.length) (o : Objects) (seen : Seen) (res : ℕ) :
    let x' := (x.handleEvent o seen res trb).2
    Cntrl x' ctl (queued ++ queuedBy x x') fetched (if trb.onCntrl then done + 1 else done)
        (if queuedBy x x' = [] then bulkSince else false) ∧ Side x x' := by
  intro x'
  by_cases htrb : trb.onCntrl
  · have hadv := h.advance (hdone htrb)
    have hall : queued.length = done + 1 := by
      have hle := h.line.holds.le
      have hone := h.one
      simp only at hle
      have := hdone htrb
      omega
    rw [if_pos htrb, ← queuedBy_advance]
    rcases handleEvent_onCntrl x o seen res htrb with ⟨-, heq⟩ | ⟨-, hquiet⟩
    · have htype : (createStatusTrb (x.cntrl.advance x.trbs).producerCycle .out).trbType =
          trbStatus :=
        createStatusTrb_trbType _ _
      have hlink : (createStatusTrb (x.cntrl.advance x.trbs).producerCycle .out).trbType ≠
          trbLink := by
        rw [htype]
        decide
      have hqueue := hadv.queue hall.symm (createStatusTrb_cycle _ .out) hlink
      rw [htype] at hqueue
      rw [show x' = _ from heq, queuedBy_queueCntrl hadv, if_neg (List.cons_ne_nil _ [])]
      exact ⟨hqueue, (side_advance x).trans (side_queueCntrl hadv.ringAt hlink _)⟩
    · rw [queuedBy_quiet hquiet.cntrl, List.append_nil, if_pos rfl]
      exact ⟨hadv.quiet hquiet, (side_advance x).trans hquiet.side⟩
  · rw [if_neg htrb]
    exact h.answers (handleEvent_other x o seen res htrb)

end Xusb
end SdLoader
