import SdLoader.Xusb.Events

/-!
# Any order of the driver and the controller

* `World.Inv` — what every step of either keeps.
* `events_handled_once` — the driver handles the events that are posted, in their order, each once.
  An interrupt is over when all those have been handled that were there when it was taken, and it is
  an error to take one when there is none.
* `control_one_at_a_time` — the control ring has no more than one TRB to be done, whatever the host
  asks for and whenever, and the controller takes those that were added, in their order.  Nothing
  but the rings is written.
* `status_stage_iff` — the status stage of a control read follows its data stage, unless a bulk
  transfer has been started in between.
* `data_stage_bounded` — what a data stage is read from, and how much of it.
-/

set_option autoImplicit false

namespace SdLoader
namespace Xusb

/-- An address is in none of the rings. -/
def Outside (a : ℕ) : Prop := a < eventRing ∨ eventRing + 1280 ≤ a

/-- What every step keeps, when the memory was `m` at the start. -/
structure World.Inv (m : Trbs) (w : World) : Prop where
  cntrl : Cntrl w.x w.ctl w.queued w.fetched (w.handled.countP Trb.onCntrl) w.bulkSince
  bulk : w.x.BulkOk w.enumerated
  events : Ring.Holds 32 Trb.cycle (slot w.x.trbs eventRing) w.posted w.handled.length
  dequeue : w.x.eventDequeue = eventAddr w.handled.length
  ccs : w.x.eventCcs = Ring.bit 32 w.handled.length
  handled : w.handled = w.posted.take w.handled.length
  room : w.released ≤ w.handled.length ∧ w.posted.length ≤ w.released + 32
  loop : w.busy → w.handled.length < w.snapshot ∧ w.snapshot ≤ w.posted.length ∧
    w.x.eventEnqueue = eventAddr w.snapshot
  taken : w.posted.countP Trb.onCntrl ≤ w.fetched.length
  frame : ∀ a, Outside a → w.x.trbs a = m a

variable {m : Trbs} {w : World} {o : Objects} {seen : Seen} {x x' : Xotg}

/-! ## The rings are apart -/

theorem not_inRing_event {i : ℕ} (hi : i < 32) :
    ¬ InRing cntrlQueue (eventRing + 16 * i) ∧
      ∀ d, ¬ InRing (bulkQueue d) (eventRing + 16 * i) := by
  refine ⟨?_, fun d ↦ ?_⟩
  · rintro ⟨j, hj, heq⟩
    rw [cntrlQueue_eq] at heq
    omega
  · rintro ⟨j, hj, heq⟩
    cases d <;> rw [bulkQueue] at heq
    · rw [bulkOutQueue_eq] at heq
      omega
    · rw [bulkInQueue_eq] at heq
      omega

theorem event_ne {i j : ℕ} (hi : i < 32) : eventRing + 16 * i ≠ cntrlQueue + 16 * j ∧
    ∀ d, eventRing + 16 * i ≠ bulkQueue d + 16 * j := by
  refine ⟨?_, fun d ↦ ?_⟩
  · rw [cntrlQueue_eq]
    omega
  · cases d <;> rw [bulkQueue]
    · rw [bulkOutQueue_eq]
      omega
    · rw [bulkInQueue_eq]
      omega

theorem Side.events_slot (h : Side x x') {i : ℕ} (hi : i < 32) :
    slot x'.trbs eventRing i = slot x.trbs eventRing i :=
  h.mem _ (not_inRing_event hi).1 (not_inRing_event hi).2

theorem Xotg.BulkOk.congr {e : Prop} {m : Trbs} (h : x.BulkOk e)
    (hsame : ∀ d, ∀ i < 16, slot m (bulkQueue d) i = slot x.trbs (bulkQueue d) i) :
    { x with trbs := m }.BulkOk e where
  types := fun d i hi ↦ by
    rw [hsame d i (by omega)]
    exact h.types d i hi
  ready := fun hready d ↦ by
    have hd := (h.ready hready d).congr (hsame d)
    cases d <;> exact hd

theorem Outside.not_inRing {a : ℕ} (h : Outside a) :
    ¬ InRing cntrlQueue a ∧ ∀ d, ¬ InRing (bulkQueue d) a := by
  refine ⟨?_, fun d ↦ ?_⟩
  · rintro ⟨i, hi, rfl⟩
    rw [Outside, cntrlQueue_eq] at h
    omega
  · rintro ⟨i, hi, rfl⟩
    rw [Outside] at h
    cases d <;> rw [bulkQueue] at h
    · rw [bulkOutQueue_eq] at h
      omega
    · rw [bulkInQueue_eq] at h
      omega

theorem Side.frame (h : Side x x') {a : ℕ} (ha : Outside a) : x'.trbs a = x.trbs a :=
  h.mem a ha.not_inRing.1 ha.not_inRing.2

/-! ## The start -/

theorem clearRings_inside (m : Trbs) {a : ℕ} (ha : eventRing ≤ a) (ha' : a < eventRing + 1280) :
    clearRings m a = ⟨0, 0, 0, 0⟩ := if_pos ⟨ha, ha'⟩

theorem clearRings_outside (m : Trbs) {a : ℕ} (ha : Outside a) : clearRings m a = m a := by
  refine if_neg fun h ↦ ?_
  have hsize : 5 * (trbSlots * trbSize) = 1280 := rfl
  rw [Outside] at ha
  omega

theorem clearRings_ring (m : Trbs) {base i : ℕ}
    (hbase : base = cntrlQueue ∨ ∃ d, base = bulkQueue d)
    (hi : i < 16) : slot (clearRings m) base i = ⟨0, 0, 0, 0⟩ := by
  have hin : ∀ {b : ℕ}, eventRing ≤ b → b ≤ eventRing + 1024 →
      slot (clearRings m) b i = ⟨0, 0, 0, 0⟩ := fun hb hb' ↦
    clearRings_inside m (by omega) (by omega)
  rcases hbase with rfl | ⟨d, rfl⟩
  · exact hin (by rw [cntrlQueue_eq]; omega) (by rw [cntrlQueue_eq]; omega)
  · cases d
    · exact hin (by rw [bulkQueue, bulkOutQueue_eq]; omega) (by rw [bulkQueue, bulkOutQueue_eq])
    · exact hin (by rw [bulkQueue, bulkInQueue_eq]; omega)
        (by rw [bulkQueue, bulkInQueue_eq]; omega)

theorem inv_start (x : Xotg) (gadget : Gadget) : (World.start x gadget).Inv x.trbs := by
  have hzero : ∀ i < 15, slot (clearRings x.trbs) cntrlQueue i = ⟨0, 0, 0, 0⟩ :=
    fun i hi ↦ clearRings_ring _ (.inl rfl) (by omega)
  have hline : (Line.init (clearRings x.trbs) cntrlQueue).Inv cntrlQueue :=
    inv_init (by decide) (fun i hi ↦ by rw [hzero i hi]; decide)
      fun i hi ↦ by rw [hzero i hi]; decide
  have hbulk : ∀ d, ∀ i < 15,
      slot (epInitContext (clearRings x.trbs) cntrlQueue).1 (bulkQueue d) i = ⟨0, 0, 0, 0⟩ :=
    fun d i hi ↦ by
      rw [← clearRings_ring x.trbs (.inr ⟨d, rfl⟩) (show i < 16 by omega), slot, slot]
      refine epInitContext_frame _ _ fun heq ↦ ?_
      exact not_inRing_bulk (show 15 < 16 by omega) ⟨i, by omega, heq.symm⟩
  refine ⟨⟨hline, Nat.zero_le _, fun t ht ↦ by cases ht⟩, ⟨fun d i hi ↦ ?_, ?_⟩,
    Ring.holds_nil fun i hi ↦ ?_, rfl, (Ring.bit_of_lt (show 0 < 32 by omega)).symm, rfl,
    ⟨Nat.le_refl _, Nat.zero_le _⟩, ?_, Nat.zero_le _, fun a ha ↦ ?_⟩
  · have hslot : slot (World.start x gadget).x.trbs (bulkQueue d) i = _ := hbulk d i hi
    rw [hslot]
    decide
  · rintro (h | h | h) <;> cases h
  · have hslot : slot (World.start x gadget).x.trbs eventRing i = ⟨0, 0, 0, 0⟩ :=
      (epInitContext_frame _ _ (event_ne hi).1).trans (clearRings_inside _ (by omega) (by omega))
    rw [hslot]
    decide
  · exact fun h ↦ by cases h
  · refine (epInitContext_frame _ _ fun heq ↦ ?_).trans (clearRings_outside _ ha)
    exact ha.not_inRing.1 ⟨15, by omega, heq⟩

/-! ## The controller -/

theorem World.Inv.fetch (h : w.Inv m) : (w.step o .fetch).Inv m where
  cntrl := ⟨h.cntrl.line.fetch, h.cntrl.one, h.cntrl.waits⟩
  bulk := h.bulk
  events := h.events
  dequeue := h.dequeue
  ccs := h.ccs
  handled := h.handled
  room := h.room
  loop := h.loop
  taken := by
    have htaken := h.taken
    rw [World.step]
    simp only [List.length_append]
    omega
  frame := h.frame

/-- An event is written to a slot of the event ring. -/
theorem slot_post (x : Trbs) (event : Trb) (k : ℕ) {base i : ℕ}
    (hbase : base = cntrlQueue ∨ ∃ d, base = bulkQueue d) :
    slot (Function.update x (eventAddr k) event) base i = slot x base i := by
  have hk := Nat.mod_lt k (show 0 < 32 by omega)
  refine Function.update_of_ne (fun heq ↦ ?_) ..
  rw [eventAddr_eq] at heq
  rcases hbase with rfl | ⟨d, rfl⟩
  · exact (event_ne hk).1 heq.symm
  · exact (event_ne hk).2 d heq.symm

theorem World.Inv.post (h : w.Inv m) {event : Trb} (hlegit : w.Legit (.post event)) :
    (w.step o (.post event)).Inv m := by
  obtain ⟨hcycle, hroom, hcntrl⟩ := hlegit
  have hk := Nat.mod_lt w.posted.length (show 0 < 32 by omega)
  have hrel := h.room
  have hslot := slot_update w.x.trbs eventRing event (w.posted.length % 32)
  have hcount : (w.posted ++ [event]).countP Trb.onCntrl ≤ w.fetched.length := by
    have htaken := h.taken
    rw [List.countP_append, List.countP_singleton]
    split
    case isTrue hon => exact hcntrl hon
    case isFalse => exact htaken
  rw [World.step]
  refine ⟨⟨h.cntrl.line.congr fun i _ ↦ slot_post _ _ _ (.inl rfl), h.cntrl.one, h.cntrl.waits⟩,
    h.bulk.congr fun d i _ ↦ slot_post _ _ _ (.inr ⟨d, rfl⟩), ?_, h.dequeue, h.ccs, ?_, ?_, ?_,
    hcount, fun a ha ↦ ?_⟩
  · refine h.events.push (by omega) hcycle ((hslot _).trans (if_pos rfl)) fun i _ hi ↦ ?_
    exact (hslot i).trans (if_neg hi)
  · rw [List.take_append_of_le_length h.events.le]
    exact h.handled
  · simp only [List.length_append, List.length_singleton]
    omega
  · intro hbusy
    have hloop := h.loop hbusy
    refine ⟨hloop.1, ?_, hloop.2.2⟩
    rw [List.length_append]
    exact Nat.le_add_right_of_le hloop.2.1
  · refine (Function.update_of_ne (fun heq ↦ ?_) ..).trans (h.frame a ha)
    rw [Outside, heq, eventAddr_eq] at ha
    omega

/-! ## The driver -/

/-- The event at the dequeue pointer is the driver's when one has been posted that is not
handled. -/
theorem ownsEvent_iff (h : w.Inv m) : w.x.ownsEvent ↔ w.handled.length < w.posted.length := by
  rw [Xotg.ownsEvent, h.dequeue, h.ccs]
  exact h.events.owned_iff (by omega)

theorem World.Inv.enter (h : w.Inv m) : (w.step o .enter).Inv m := by
  rw [World.step]
  split
  · exact h
  case isFalse hidle =>
  have hx : ∀ k, Cntrl { w.x with eventEnqueue := eventAddr k } w.ctl w.queued w.fetched
      (w.handled.countP Trb.onCntrl) w.bulkSince :=
    fun k ↦ ⟨h.cntrl.line, h.cntrl.one, h.cntrl.waits⟩
  have hb : ∀ k, { w.x with eventEnqueue := eventAddr k }.BulkOk w.enumerated := fun k ↦
    ⟨h.bulk.types, fun hready d ↦ by
      have hd := h.bulk.ready hready d
      cases d <;> exact hd⟩
  split
  case isTrue hown =>
    have hlt := (ownsEvent_iff h).mp hown
    exact ⟨hx _, hb _, h.events, h.dequeue, h.ccs, h.handled, h.room,
      fun _ ↦ ⟨hlt, Nat.le_refl _, rfl⟩, h.taken, h.frame⟩
  case isFalse =>
    exact ⟨hx _, hb _, h.events, h.dequeue, h.ccs, h.handled, h.room,
      fun hbusy ↦ absurd hbusy hidle, h.taken, h.frame⟩

/-- The driver at event number `k`. -/
def Xotg.atEvent (x : Xotg) (k : ℕ) : Xotg :=
  { x with eventDequeue := eventAddr k, eventCcs := Ring.bit 32 k }

theorem nextEvent_eq {k : ℕ} (hdequeue : x.eventDequeue = eventAddr k)
    (hccs : x.eventCcs = Ring.bit 32 k) : x.nextEvent = x.atEvent (k + 1) := by
  have hlast : eventRing + (2 * trbSlots - 1) * trbSize = eventRing + 16 * 31 := rfl
  have hbit := Ring.bit_lt 32 k
  rw [Xotg.nextEvent, Xotg.atEvent, hdequeue, hlast, eventAddr_eq, eventAddr_eq, hccs, trbSize]
  rcases Ring.succ_cases (show 0 < 32 by omega) k with ⟨hk, hmod, hflip⟩ | ⟨hk, hmod, hkeep⟩
  · have hxor : Ring.bit 32 k ^^^ 1 = 1 - Ring.bit 32 k := by
      obtain hb | hb : Ring.bit 32 k = 0 ∨ Ring.bit 32 k = 1 := by omega
      all_goals rw [hb]; rfl
    rw [if_pos (by omega), hmod, hflip, hxor, Nat.mul_zero, Nat.add_zero]
  · rw [if_neg (by omega), hmod, hkeep, Nat.mul_succ, Nat.add_assoc]

/-- The event at the dequeue pointer comes after those that have been handled. -/
theorem take_handled (h : w.Inv m) (hlt : w.handled.length < w.posted.length) :
    w.posted.take (w.handled.length + 1) = w.handled ++ [w.x.trbs w.x.eventDequeue] := by
  rw [h.events.take_succ hlt, ← h.handled, h.dequeue]
  rfl

/-- A transfer event is about a TRB that has been taken and was not known to be done. -/
theorem done_lt_fetched (h : w.Inv m) (hlt : w.handled.length < w.posted.length)
    (hon : (w.x.trbs w.x.eventDequeue).onCntrl) :
    w.handled.countP Trb.onCntrl < w.fetched.length := by
  have hcount := (List.take_sublist (w.handled.length + 1) w.posted).countP_le (p := Trb.onCntrl)
  rw [take_handled h hlt, List.countP_append, List.countP_singleton, if_pos hon] at hcount
  exact Nat.lt_of_lt_of_le hcount h.taken

/-- What the event at the dequeue pointer does. -/
theorem event_spec (h : w.Inv m) (hlt : w.handled.length < w.posted.length) (o : Objects)
    (seen : Seen) :
    let e := w.x.trbs w.x.eventDequeue
    let x' := (w.x.handleEvent o seen w.res e).2
    Cntrl x' w.ctl (w.queued ++ queuedBy w.x x') w.fetched ((w.handled ++ [e]).countP Trb.onCntrl)
        (if queuedBy w.x x' = [] then w.bulkSince else false) ∧ Side w.x x' := by
  intro e x'
  have hevent := h.cntrl.event (done_lt_fetched h hlt) o seen w.res
  have hcount : (w.handled ++ [e]).countP Trb.onCntrl =
      if e.onCntrl then w.handled.countP Trb.onCntrl + 1 else w.handled.countP Trb.onCntrl := by
    rw [List.countP_append, List.countP_singleton]
    split <;> rfl
  rw [hcount]
  exact hevent

/-- One pass handles one event, and is the last one when that was the last of those that had been
posted when the interrupt was taken. -/
theorem pass_eq (h : w.Inv m) (hbusy : w.busy = true) (o : Objects) (seen : Seen) :
    let r := w.x.handleEvent o seen w.res (w.x.trbs w.x.eventDequeue)
    w.step o (.pass seen) = w.after (r.1, r.2.atEvent (w.handled.length + 1))
      (decide (w.handled.length + 1 ≠ w.snapshot)) := by
  intro r
  obtain ⟨hlt, hle, hsnap⟩ := h.loop hbusy
  have hroom := h.room
  obtain ⟨-, hside⟩ := event_spec h (Nat.lt_of_lt_of_le hlt hle) o seen
  have hown := (ownsEvent_iff h).mpr (Nat.lt_of_lt_of_le hlt hle)
  have hnext : r.2.nextEvent = r.2.atEvent (w.handled.length + 1) :=
    nextEvent_eq (hside.events.2.1.trans h.dequeue) (hside.events.2.2.trans h.ccs)
  have henq : r.2.eventEnqueue = eventAddr w.snapshot := hside.events.1.trans hsnap
  have hlast : eventAddr (w.handled.length + 1) = eventAddr w.snapshot ↔
      w.handled.length + 1 = w.snapshot := by
    rw [eventAddr_eq, eventAddr_eq]
    refine ⟨fun heq ↦ ?_, fun heq ↦ by rw [heq]⟩
    have hmod : (w.handled.length + 1) % 32 = w.snapshot % 32 := by omega
    exact Ring.mod_inj (Nat.le_refl _) (by omega) hlt (by omega) hmod
  have hpass : Xotg.eventPass o seen (w.res, w.x) =
      if r.2.nextEvent.eventDequeue = r.2.nextEvent.eventEnqueue then .leave (r.1, r.2.nextEvent)
      else .again (r.1, r.2.nextEvent) := if_pos hown
  have hend : (r.2.atEvent (w.handled.length + 1)).eventDequeue =
      (r.2.atEvent (w.handled.length + 1)).eventEnqueue ↔ w.handled.length + 1 = w.snapshot :=
    henq.symm ▸ hlast
  rw [World.step, if_pos hbusy, hpass, hnext]
  by_cases hsnap : w.handled.length + 1 = w.snapshot
  · rw [if_pos (hend.mpr hsnap), decide_eq_false (not_not_intro hsnap)]
  · rw [if_neg (mt hend.mp hsnap), decide_eq_true hsnap]

/-- The state after a pass. -/
theorem pass_after (h : w.Inv m) (hbusy : w.busy = true) (o : Objects) (seen : Seen) :
    let e := w.x.trbs w.x.eventDequeue
    let r := w.x.handleEvent o seen w.res e
    let more := decide (w.handled.length + 1 ≠ w.snapshot)
    w.step o (.pass seen) = { w with
      x := r.2.atEvent (w.handled.length + 1)
      res := r.1
      busy := more
      handled := w.handled ++ [e]
      released := if more then w.released else w.handled.length + 1
      queued := w.queued ++ queuedBy w.x r.2
      bulkSince := if queuedBy w.x r.2 = [] then w.bulkSince else false } := by
  intro e r more
  obtain ⟨hlt, hle, -⟩ := h.loop hbusy
  have hown := (ownsEvent_iff h).mpr (Nat.lt_of_lt_of_le hlt hle)
  rw [pass_eq h hbusy, World.after, if_pos hown, List.length_append, List.length_singleton]
  rfl

theorem World.Inv.pass (h : w.Inv m) : (w.step o (.pass seen)).Inv m := by
  by_cases hbusy : w.busy = true
  · obtain ⟨hlt, hle, hsnap⟩ := h.loop hbusy
    have hnew := Nat.lt_of_lt_of_le hlt hle
    have hroom := h.room
    obtain ⟨hcntrl, hside⟩ := event_spec h hnew o seen
    have hlen : (w.handled ++ [w.x.trbs w.x.eventDequeue]).length = w.handled.length + 1 :=
      List.length_append
    rw [pass_after h hbusy]
    refine ⟨⟨hcntrl.line, hcntrl.one, hcntrl.waits⟩, ?_, ?_, ?_, ?_, ?_, ?_, ?_, h.taken,
      fun a ha ↦ (hside.frame ha).trans (h.frame a ha)⟩ <;> simp only [hlen]
    · have hbulk := hside.bulk _ h.bulk
      exact ⟨hbulk.types, fun hready d ↦ by
        have hd := hbulk.ready hready d
        cases d <;> exact hd⟩
    · exact (h.events.pull (by omega) hnew).congr (fun i hi ↦ hside.events_slot hi) (by omega)
    · rfl
    · rfl
    · exact (take_handled h hnew).symm
    · split <;> omega
    · intro hmore
      have hne := of_decide_eq_true hmore
      exact ⟨by omega, hle, hside.events.1.trans hsnap⟩
  · rw [World.step, if_neg hbusy]
    exact h

/-- A transfer is started on a bulk endpoint: its ring is written, and the driver waits for it. -/
theorem issueNormalTrb_spec (x : Xotg) (buf len : ℕ) (d : Dir)
    (hring : RingAt (bulkQueue d) x.trbs (x.bulk d).enqueue) :
    let x' := x.issueNormalTrb buf len d
    (∀ a, ¬ InRing (bulkQueue d) a → x'.trbs a = x.trbs a) ∧
      RingAt (bulkQueue d) x'.trbs (x'.bulk d).enqueue ∧ ∀ d' ≠ d, x'.bulk d' = x.bulk d' := by
  have htype : ∀ c, (createNormalTrb c buf len).trbType ≠ trbLink := fun c ↦ by
    rw [createNormalTrb_trbType]
    decide
  cases d with
  | out =>
    obtain ⟨hafter, hframe⟩ := hring.queue (htype x.bulkOut.producerCycle)
    exact ⟨hframe, hafter, fun d' hd ↦ by cases d' <;> first | exact absurd rfl hd | rfl⟩
  | into =>
    obtain ⟨hafter, hframe⟩ := hring.queue (htype x.bulkIn.producerCycle)
    exact ⟨hframe, hafter, fun d' hd ↦ by cases d' <;> first | exact absurd rfl hd | rfl⟩

theorem World.Inv.transfer (h : w.Inv m) (hready : w.enumerated = true) (buf len : ℕ) (d : Dir) :
    (w.step o (.bulk buf len d)).Inv m := by
  have hring := h.bulk.ready (.inl hready)
  obtain ⟨hmem, hafter, hother⟩ := issueNormalTrb_spec w.x buf len d (hring d)
  have hkeep : (w.x.issueNormalTrb buf len d).cntrl = w.x.cntrl ∧
      (w.x.issueNormalTrb buf len d).waitForEventTrb = trbNormal ∧
      (w.x.issueNormalTrb buf len d).eventEnqueue = w.x.eventEnqueue ∧
      (w.x.issueNormalTrb buf len d).eventDequeue = w.x.eventDequeue ∧
      (w.x.issueNormalTrb buf len d).eventCcs = w.x.eventCcs := by
    cases d <;> exact ⟨rfl, rfl, rfl, rfl, rfl⟩
  obtain ⟨hcntrl, hwait, henq, hdeq, hccs⟩ := hkeep
  have hslot : ∀ d', ∀ i < 16, d' ≠ d → slot (w.x.issueNormalTrb buf len d).trbs (bulkQueue d') i =
      slot w.x.trbs (bulkQueue d') i := fun d' i hi hd ↦ hmem _ fun hin ↦ by
    obtain ⟨j, hj, heq⟩ := hin
    exact bulkQueue_ne hd hi hj heq
  have hrings : ∀ d', RingAt (bulkQueue d') (w.x.issueNormalTrb buf len d).trbs
      ((w.x.issueNormalTrb buf len d).bulk d').enqueue := fun d' ↦ by
    by_cases hd : d' = d
    · subst hd
      exact hafter
    · rw [hother d' hd]
      exact (hring d').congr fun i hi ↦ hslot d' i hi hd
  rw [World.step]
  refine ⟨⟨?_, h.cntrl.one, fun t _ ↦ hwait⟩, ⟨fun d' ↦ (hrings d').types, fun _ ↦ hrings⟩, ?_,
    hdeq.trans h.dequeue, hccs.trans h.ccs, h.handled, h.room, fun hbusy ↦ ?_, h.taken,
    fun a ha ↦ (hmem a (ha.not_inRing.2 d)).trans (h.frame a ha)⟩
  · rw [hcntrl]
    exact h.cntrl.line.congr fun i hi ↦ hmem _ (not_inRing_bulk hi)
  · exact h.events.congr (fun i hi ↦ hmem _ ((not_inRing_event hi).2 d)) (by omega)
  · obtain ⟨hlt, hle, hsnap⟩ := h.loop hbusy
    exact ⟨hlt, hle, henq.trans hsnap⟩

/-- A step that leaves the rings alone. -/
theorem World.Inv.rest (h : w.Inv m) {b : Bool} (hquiet : Quiet w.x x')
    (hbulk : x'.BulkOk b) : { w with x := x', enumerated := b }.Inv m where
  cntrl := h.cntrl.quiet hquiet
  bulk := hbulk
  events := h.events.congr (fun i hi ↦ hquiet.side.events_slot hi) (by omega)
  dequeue := hquiet.events.2.1.trans h.dequeue
  ccs := hquiet.events.2.2.trans h.ccs
  handled := h.handled
  room := h.room
  loop := fun hbusy ↦ by
    obtain ⟨hlt, hle, hsnap⟩ := h.loop hbusy
    exact ⟨hlt, hle, hquiet.events.1.trans hsnap⟩
  taken := h.taken
  frame := fun a ha ↦ (hquiet.side.frame ha).trans (h.frame a ha)

theorem World.Inv.step (h : w.Inv m) {a : Act} (ha : w.Legit a) : (w.step o a).Inv m := by
  cases a with
  | fetch => exact h.fetch
  | post event => exact h.post ha
  | enter => exact h.enter
  | pass seen => exact h.pass
  | enumerate =>
    exact h.rest (.refl w.x) ⟨h.bulk.types, fun _ ↦ h.bulk.ready (.inr (.inr ha))⟩
  | bulk buf len d => exact h.transfer ha buf len d
  | sendMaxLun maxLun =>
    have hquiet : Quiet w.x { w.x with maxLun, maxLunSet := true } :=
      .of_eq rfl ⟨rfl, rfl, rfl⟩ rfl ⟨rfl, rfl, rfl⟩ id
    exact h.rest hquiet (hquiet.bulk _ h.bulk)
  | classDone =>
    have hquiet : Quiet w.x { w.x with deviceState := .configured } :=
      (Quiet.refl w.x).configure .configured fun _ ↦ h.bulk.ready (.inl ha)
    exact h.rest hquiet (hquiet.bulk _ h.bulk)

/-! ## Whole runs -/

variable {gadget : Gadget} {acts : List Act}

/-- What a run keeps. -/
theorem inv_run (x : Xotg) (gadget : Gadget)
    (hacts : Machine.Along (World.step o) World.Legit (World.start x gadget) acts) :
    (Machine.run (World.step o) (World.start x gadget) acts).Inv x.trbs :=
  Machine.run_inv_along (fun _ _ h ha ↦ h.step ha) (inv_start x gadget) hacts

/-- The rest of the loop, when no event is posted in the meantime. -/
theorem passes (seens : List Seen) {w : World} (h : w.Inv m) (hbusy : w.busy = true)
    (hlen : w.handled.length + seens.length = w.snapshot) :
    let w' := Machine.run (World.step o) w (seens.map .pass)
    w'.handled = w.posted.take w.snapshot ∧ w'.busy = false ∧ w'.released = w.snapshot := by
  induction seens generalizing w with
  | nil =>
    have hlt := (h.loop hbusy).1
    rw [List.length_nil] at hlen
    omega
  | cons seen seens ih =>
    obtain ⟨hlt, hle, -⟩ := h.loop hbusy
    have hafter := pass_after h hbusy o seen
    rw [List.length_cons] at hlen
    rw [List.map_cons, Machine.run_cons]
    by_cases hlast : w.handled.length + 1 = w.snapshot
    · have hnil : seens = [] := List.eq_nil_of_length_eq_zero (by omega)
      have hmore : decide (w.handled.length + 1 ≠ w.snapshot) = false :=
        decide_eq_false (not_not_intro hlast)
      rw [hnil, hafter, hmore]
      refine ⟨?_, rfl, hlast⟩
      rw [← hlast, take_handled h (by omega)]
      rfl
    · have hmore : decide (w.handled.length + 1 ≠ w.snapshot) = true := decide_eq_true hlast
      have hinv : (w.step o (.pass seen)).Inv m := h.pass
      rw [hafter, hmore] at hinv ⊢
      refine ih hinv rfl ?_
      simp only [List.length_append, List.length_singleton]
      omega

/-- The host reads the device descriptor, up to the interrupt for the end of the data stage. -/
def controlRead : List Act :=
  [.post ⟨0x01000680, 0x00120000, 0, 0xFC01⟩, .enter, .pass ⟨true, fun _ ↦ true, 0, 0⟩, .fetch,
    .post ⟨0, 0, 0x01000000, 0x8001⟩, .enter]

theorem controlRead_legit : Machine.Along (World.step default) World.Legit
    (World.start default .ums) controlRead :=
  ⟨by decide +kernel, by decide +kernel, by decide +kernel, by decide +kernel, by decide +kernel,
    by decide +kernel, trivial⟩

/-- **Every event is handled once.**  The events that are handled are those that have been posted,
in their order.  Taking an interrupt when there is none to handle is an error.  One that is taken is
over when exactly those events have been handled that were there when it was taken. -/
theorem events_handled_once (o : Objects) (x : Xotg) (gadget : Gadget) (acts : List Act)
    (hacts : Machine.Along (World.step o) World.Legit (World.start x gadget) acts) :
    let w := Machine.run (World.step o) (World.start x gadget) acts
    w.handled <+: w.posted ∧
      (w.busy = true → ∀ seen,
        (w.step o (.pass seen)).handled.length = w.handled.length + 1 ∧
        ((w.step o (.pass seen)).busy = false ↔ w.handled.length + 1 = w.snapshot)) ∧
      (w.busy = false → w.handled = w.posted →
        (w.step o .enter).res = xusbErrorInvalidCycle ∧ (w.step o .enter).busy = false) ∧
      (w.busy = false → ∀ seens : List Seen, seens ≠ [] →
        w.handled.length + seens.length = w.posted.length →
        let w' := Machine.run (World.step o) w (.enter :: seens.map .pass)
        w'.handled = w.posted ∧ w'.busy = false ∧ w'.released = w.posted.length) := by
  intro w
  have hinv : w.Inv x.trbs := inv_run x gadget hacts
  refine ⟨?_, fun hbusy seen ↦ ?_, fun hidle hall ↦ ?_, fun hidle seens hne hlen ↦ ?_⟩
  · rw [hinv.handled]
    exact List.take_prefix ..
  · rw [pass_after hinv hbusy]
    refine ⟨List.length_append, ?_⟩
    simp only [decide_eq_false_iff_not, ne_eq, not_not]
  · have hown : ¬ { w.x with eventEnqueue := eventAddr w.posted.length }.ownsEvent := fun hown ↦
      absurd ((ownsEvent_iff hinv).mp hown) (by rw [hall]; exact Nat.lt_irrefl _)
    rw [World.step, if_neg (by rw [hidle]; exact Bool.false_ne_true), if_neg hown]
    exact ⟨rfl, hidle⟩
  · have hlt : w.handled.length < w.posted.length := by
      have := List.length_pos_iff.mpr hne
      omega
    have hown : { w.x with eventEnqueue := eventAddr w.posted.length }.ownsEvent :=
      (ownsEvent_iff hinv).mpr hlt
    have henter : (w.step o .enter).Inv x.trbs := hinv.enter
    have hstep : w.step o .enter = { w with
        x := { w.x with eventEnqueue := eventAddr w.posted.length }
        busy := true
        res := usbResOk
        snapshot := w.posted.length } := by
      rw [World.step, if_neg (by rw [hidle]; exact Bool.false_ne_true), if_pos hown]
    rw [hstep] at henter
    rw [Machine.run_cons, hstep]
    obtain ⟨hhandled, hover, hreleased⟩ := passes seens henter rfl hlen
    refine ⟨hhandled.trans ?_, hover, hreleased⟩
    exact List.take_of_length_le (Nat.le_refl _)

theorem events_handled_once_read :
    let w := Machine.run (World.step default) (World.start default .ums) controlRead
    w.handled <+: w.posted ∧
      (w.step default (.pass ⟨true, fun _ ↦ true, 0, 0⟩)).handled.length = 2 := by
  have honce := events_handled_once default default .ums controlRead controlRead_legit
  exact ⟨honce.1, (honce.2.1 (by decide +kernel) _).1.trans (by decide +kernel)⟩

/-- **The control ring has one TRB at a time.**  Whatever the host asks for, and in whatever order
the driver and the controller go on, no more than one TRB on the control ring is not done; the
controller takes those that were added, in their order, and the last of them after two looks; the
driver's pointers tell whether one is left to be done; and nothing but the rings is written. -/
theorem control_one_at_a_time (o : Objects) (x : Xotg) (gadget : Gadget) (acts : List Act)
    (hacts : Machine.Along (World.step o) World.Legit (World.start x gadget) acts) :
    let w := Machine.run (World.step o) (World.start x gadget) acts
    w.queued.length ≤ w.handled.countP Trb.onCntrl + 1 ∧
      w.fetched <+: w.queued ∧
      (Machine.run (World.step o) w [.fetch, .fetch]).fetched = w.queued ∧
      (w.x.cntrl.enqueue = w.x.cntrl.dequeue ↔ w.handled.countP Trb.onCntrl = w.queued.length) ∧
      ∀ a, Outside a → w.x.trbs a = x.trbs a := by
  intro w
  have hinv : w.Inv x.trbs := inv_run x gadget hacts
  have hline : w.line.Inv cntrlQueue := hinv.cntrl.line
  have hone := hinv.cntrl.one
  have hdone : w.handled.countP Trb.onCntrl ≤ w.fetched.length := hline.order.1
  have htook : w.fetched = w.queued.take w.fetched.length := hline.took
  refine ⟨hone, ?_, ?_, pointers_eq_iff hline, hinv.frame⟩
  · rw [htook]
    exact List.take_prefix ..
  · refine fetch_all 1 hline ?_
    show w.queued.length - w.fetched.length ≤ 1
    omega

theorem control_one_at_a_time_read :
    let w := Machine.run (World.step default) (World.start default .ums) controlRead
    w.queued.length = 1 ∧ w.fetched <+: w.queued ∧
      (Machine.run (World.step default) w [.fetch, .fetch]).fetched = w.queued := by
  have hone := control_one_at_a_time default default .ums controlRead controlRead_legit
  exact ⟨by decide +kernel, hone.2.1, hone.2.2.1⟩

/-- **The status stage of a control read.**  When the data stage is done, the status stage is added
to the control ring if no bulk transfer has been started since the data stage was added, and nothing
is added if one has. -/
theorem status_stage_iff (o : Objects) (x : Xotg) (gadget : Gadget) (acts : List Act)
    (hacts : Machine.Along (World.step o) World.Legit (World.start x gadget) acts) :
    let w := Machine.run (World.step o) (World.start x gadget) acts
    let event := w.x.trbs w.x.eventDequeue
    w.busy = true → event.onCntrl → event.succeeded →
      ∀ data, w.queued.getLast? = some data → data.trbType = trbData →
      ∀ seen, (w.step o (.pass seen)).queued = if w.bulkSince then w.queued
        else w.queued ++ [createStatusTrb (Ring.bit 15 w.queued.length) .out] := by
  intro w event hbusy hon hok data hlast hdata seen
  have hinv : w.Inv x.trbs := inv_run x gadget hacts
  obtain ⟨hlt, hle, -⟩ := hinv.loop hbusy
  have hdone := done_lt_fetched hinv (Nat.lt_of_lt_of_le hlt hle) hon
  have hadv := hinv.cntrl.advance hdone
  have hwait : w.x.waitForEventTrb = if w.bulkSince then trbNormal else trbData := by
    rw [← hdata]
    exact hinv.cntrl.waits data hlast
  have hnew : queuedBy w.x (w.x.handleEvent o seen w.res event).2 = if w.bulkSince then []
      else [createStatusTrb (Ring.bit 15 w.queued.length) .out] := by
    rw [← queuedBy_advance]
    have hcycle : (w.x.cntrl.advance w.x.trbs).producerCycle = Ring.bit 15 w.queued.length :=
      hadv.line.cycle
    rcases handleEvent_onCntrl w.x o seen w.res hon with ⟨⟨-, hwas⟩, heq⟩ | ⟨hnot, hquiet⟩
    · have hsince : ¬ w.bulkSince = true := fun hb ↦ by
        rw [hwait, if_pos hb] at hwas
        exact absurd hwas (by decide)
      rw [if_neg hsince, heq, queuedBy_queueCntrl hadv, hcycle]
    · have hsince : w.bulkSince = true := by
        by_contra hb
        exact hnot ⟨hok, by rw [hwait, if_neg hb]⟩
      rw [if_pos hsince]
      exact queuedBy_quiet hquiet.cntrl
  rw [pass_after hinv hbusy]
  simp only
  rw [hnew]
  split
  · exact List.append_nil _
  · rfl

theorem status_stage_iff_read :
    let w := Machine.run (World.step default) (World.start default .ums) controlRead
    (w.step default (.pass ⟨true, fun _ ↦ true, 0, 0⟩)).queued =
      w.queued ++ [createStatusTrb 1 .out] := by
  have hstage := status_stage_iff default default .ums controlRead controlRead_legit
    (by decide +kernel) (by decide +kernel) (.inl (by decide +kernel))
    (createDataTrb 1 0 0 .into) (by decide +kernel) (by decide +kernel)
  exact (hstage _).trans (by decide +kernel)

/-- **What a data stage may be.**  It is no longer than the host has asked for, but for the status
of an endpoint, which is two bytes; and it is read from one object, but for the string descriptor
`0xEE`, of which 40 bytes may be asked for and which has 18. -/
theorem data_stage_bounded (o : Objects) (ho : o.Fits) (x : Xotg) (gadget : Gadget)
    (acts : List Act)
    (hacts : Machine.Along (World.step o) World.Legit (World.start x gadget) acts) :
    let w := Machine.run (World.step o) (World.start x gadget) acts
    let event := w.x.trbs w.x.eventDequeue
    w.busy = true → event.trbType = trbSetup → ∀ seen,
      let w' := w.step o (.pass seen)
      ∃ added, w'.queued = w.queued ++ added ∧
        ∀ t ∈ added, t.trbType = trbData → Bounded o event.setup w'.x t := by
  intro w event hbusy hsetup seen w'
  have hinv : w.Inv x.trbs := inv_run x gadget hacts
  have hother : ¬ event.onCntrl := fun hon ↦ by
    rw [Trb.onCntrl, decide_eq_true_eq, hsetup] at hon
    exact absurd hon.1 (by decide)
  have hadded := hinv.cntrl.added (handleEvent_other w.x o seen w.res hother)
  have hafter : w' = _ := pass_after hinv hbusy o seen
  rw [hafter]
  refine ⟨_, rfl, fun t ht hdata ↦ ?_⟩
  obtain ⟨x₁, hreply, hbuf⟩ := hadded t ht
  have hsmall : event.setup.wValue < 2 ^ 16 ∧ event.setup.wLength < 2 ^ 16 :=
    ⟨Nat.mod_lt _ (by decide), Nat.mod_lt _ (by decide)⟩
  exact (hreply ho hsmall hdata).congr hbuf

/-- The first 18 bytes of the device descriptor are asked for. -/
theorem data_stage_bounded_device :
    let w := Machine.run (World.step (umsObjects fun i ↦ 0x1000 * i)) (World.start default .ums)
      [.post ⟨0x01000680, 0x00120000, 0, 0xFC01⟩, .enter]
    let w' := w.step (umsObjects fun i ↦ 0x1000 * i) (.pass ⟨true, fun _ ↦ true, 0, 0⟩)
    ∃ added, w'.queued = w.queued ++ added ∧ ∀ t ∈ added, t.trbType = trbData →
      Bounded (umsObjects fun i ↦ 0x1000 * i) ⟨0x80, 6, 0x100, 0, 18⟩ w'.x t :=
  data_stage_bounded _ (umsObjects_fits _) default .ums
    [.post ⟨0x01000680, 0x00120000, 0, 0xFC01⟩, .enter]
    ⟨by decide +kernel, by decide +kernel, trivial⟩ (by decide +kernel) (by decide +kernel) _

end Xusb
end SdLoader
