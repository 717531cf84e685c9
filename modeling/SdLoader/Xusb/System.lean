import SdLoader.Xusb.TransferRing

/-!
# The driver and the controller

`World.step` is whatever either of them does next, so that a run is any order of the two.  The
controller looks at the control ring and posts events; the driver takes an interrupt, handles one
event after the other, and starts transfers on the bulk endpoints when it has been enumerated.
`_xusb_ep_operation` is cut at the points where the controller may come in: `enter` is what it does
in front of its loop, and `pass` is one pass of it.

* `World.Legit` — what the controller keeps to: it posts an event where there is room for one, with
  the cycle bit of the lap, and no more transfer events for the control endpoint than it has taken
  TRBs from there.
-/

set_option autoImplicit false

namespace SdLoader
namespace Xusb

/-- A transfer event of the control endpoint. -/
def Trb.onCntrl (t : Trb) : Bool := t.trbType = trbTransfer ∧ t.epId = epCtrlIn

/-- The driver and the controller, and what they have done. -/
structure World where
  x : Xotg
  /-- The controller at the control ring. -/
  ctl : Fetcher
  /-- The events the controller has posted. -/
  posted : List Trb
  /-- How many of them it knows to be handled, from `ERDP`. -/
  released : ℕ
  /-- The driver is in the loop of `_xusb_ep_operation`. -/
  busy : Bool
  /-- `res` in `_xusb_ep_operation`. -/
  res : ℕ
  /-- `xusb_device_enumerate` has succeeded. -/
  enumerated : Bool
  /-- How many events had been posted when `EREP` was read. -/
  snapshot : ℕ
  /-- The events the driver has handled. -/
  handled : List Trb
  /-- The TRBs that were added to the control ring. -/
  queued : List Trb
  /-- The TRBs the controller has taken from it. -/
  fetched : List Trb
  /-- A bulk transfer was started after the last of them was added. -/
  bulkSince : Bool

/-- What happens next. -/
inductive Act
  /-- The controller looks at a TRB of the control ring. -/
  | fetch
  /-- The controller posts an event. -/
  | post (event : Trb)
  /-- The driver takes an interrupt. -/
  | enter
  /-- The driver goes once through its loop. -/
  | pass (seen : Seen)
  /-- `xusb_device_enumerate` returns. -/
  | enumerate
  /-- `_xusb_issue_normal_trb` -/
  | bulk (buf len : ℕ) (direction : Dir)
  /-- The gadget calls `xusb_device_class_send_max_lun`. -/
  | sendMaxLun (maxLun : ℕ)
  /-- `xusb_device_class_send_max_lun`, or `xusb_device_class_send_hid_report`, returns. -/
  | classDone

/-- What `_xusb_queue_trb` has added to the control ring. -/
def queuedBy (x x' : Xotg) : List Trb :=
  if x'.cntrl.enqueue = x.cntrl.enqueue then [] else [x'.trbs x.cntrl.enqueue]

/-- Where the controller puts event number `k`. -/
def eventAddr (k : ℕ) : ℕ := eventRing + trbSize * (k % (2 * trbSlots))

namespace World

/-- The driver is at the end of a pass. -/
def after (w : World) (r : ℕ × Xotg) (busy : Bool) : World :=
  let handled := if w.x.ownsEvent then w.handled ++ [w.x.trbs w.x.eventDequeue] else w.handled
  { w with
    x := r.2
    res := r.1
    busy
    handled
    released := if busy then w.released else handled.length
    queued := w.queued ++ queuedBy w.x r.2
    bulkSince := if queuedBy w.x r.2 = [] then w.bulkSince else false }

def step (o : Objects) (w : World) : Act → World
  | .fetch =>
    let (ctl, trb) := w.ctl.step w.x.trbs
    { w with ctl, fetched := w.fetched ++ trb.toList }
  | .post event =>
    { w with
      x := { w.x with trbs := Function.update w.x.trbs (eventAddr w.posted.length) event }
      posted := w.posted ++ [event] }
  | .enter =>
    let x := { w.x with eventEnqueue := eventAddr w.posted.length }
    if w.busy then w
    else if x.ownsEvent then
      { w with x, busy := true, res := usbResOk, snapshot := w.posted.length }
    else { w with x, res := xusbErrorInvalidCycle }
  | .pass seen =>
    if w.busy then
      match Xotg.eventPass o seen (w.res, w.x) with
      | .again r => w.after r true
      | .leave r => w.after r false
    else w
  | .enumerate => { w with enumerated := true }
  | .bulk buf len direction =>
    { w with x := w.x.issueNormalTrb buf len direction, bulkSince := true }
  | .sendMaxLun maxLun => { w with x := { w.x with maxLun, maxLunSet := true } }
  | .classDone => { w with x := { w.x with deviceState := .configured } }

/-- What the controller keeps to, and when the driver does what. -/
def Legit (w : World) : Act → Prop
  | .post event => event.cycle = Ring.bit 32 w.posted.length ∧ w.posted.length < w.released + 32 ∧
      (event.onCntrl → w.posted.countP Trb.onCntrl < w.fetched.length)
  | .enumerate => w.x.deviceState = .configured
  | .bulk .. | .sendMaxLun _ | .classDone => w.enumerated
  | _ => True

instance (w : World) : (a : Act) → Decidable (w.Legit a)
  | .post _ => inferInstanceAs (Decidable (_ ∧ _ ∧ _))
  | .enumerate => inferInstanceAs (Decidable (_ = _))
  | .bulk .. | .sendMaxLun _ | .classDone => inferInstanceAs (Decidable (_ = _))
  | .fetch | .enter | .pass _ => isTrue trivial

/-- The control ring and its two ends. -/
def line (w : World) : Line where
  trbs := w.x.trbs
  ptrs := w.x.cntrl
  ctl := w.ctl
  queued := w.queued
  fetched := w.fetched
  done := w.handled.countP Trb.onCntrl

end World

/-! ## The start -/

/-- `memset` of the five rings. -/
def clearRings (m : Trbs) : Trbs := fun a ↦
  if eventRing ≤ a ∧ a < eventRing + 5 * (trbSlots * trbSize) then ⟨0, 0, 0, 0⟩ else m a

/-- `xusb_device_init`, and `xusb_device_enumerate` in front of its loop. -/
def xusbDeviceInit (x : Xotg) (gadget : Gadget) : Xotg :=
  let (trbs, cntrl) := epInitContext (clearRings x.trbs) cntrlQueue
  { x with
    trbs, cntrl
    bulkOut := ⟨0, 0, 0⟩
    bulkIn := ⟨0, 0, 0⟩
    eventEnqueue := eventRing
    eventDequeue := eventRing
    eventCcs := 1
    deviceState := .default
    txBytes := fun _ ↦ 0
    txCount := fun _ ↦ 0
    ctrlSeqNum := 0
    configNum := 0
    interfaceNum := 0
    waitForEventTrb := trbSetup
    portSpeed := 0
    gadget
    maxLun := 0
    maxLunSet := false
    bulkResetReq := false
    running := Function.update x.running epCtrlIn true
    deviceAddr := 0 }

/-- The driver waits for the first event. -/
def World.start (x : Xotg) (gadget : Gadget) : World where
  x := xusbDeviceInit x gadget
  ctl := ⟨cntrlQueue, 1⟩
  posted := []
  released := 0
  busy := false
  res := usbResOk
  enumerated := false
  snapshot := 0
  handled := []
  queued := []
  fetched := []
  bulkSince := false

/-! ## Where the rings are -/

theorem cntrlQueue_eq : cntrlQueue = eventRing + 512 := rfl

theorem bulkInQueue_eq : bulkInQueue = eventRing + 768 := rfl

theorem bulkOutQueue_eq : bulkOutQueue = eventRing + 1024 := rfl

theorem eventAddr_eq (k : ℕ) : eventAddr k = eventRing + 16 * (k % 32) := rfl

/-- The ring of a bulk endpoint. -/
def bulkQueue : Dir → ℕ
  | .out => bulkOutQueue
  | .into => bulkInQueue

/-- An address is in the ring at `base`. -/
def InRing (base a : ℕ) : Prop := ∃ i < 16, a = base + 16 * i

/-- A ring the driver may add to. -/
structure RingAt (base : ℕ) (m : Trbs) (enqueue : ℕ) : Prop where
  enqueue : ∃ i < 15, enqueue = base + 16 * i
  types : ∀ i < 15, (slot m base i).trbType ≠ trbLink
  link : LinkAt (slot m base 15) base

variable {base : ℕ} {m m' : Trbs} {r : RingPtrs} {t : Trb}

theorem RingAt.congr {enqueue : ℕ} (h : RingAt base m enqueue)
    (hsame : ∀ i < 16, slot m' base i = slot m base i) : RingAt base m' enqueue where
  enqueue := h.enqueue
  types := fun i hi ↦ by
    rw [hsame i (by omega)]
    exact h.types i hi
  link := by
    rw [hsame 15 (by omega)]
    exact h.link

/-- Adding a TRB to a ring writes to that ring, and leaves it one to which a TRB can be added. -/
theorem RingAt.queue (h : RingAt base m r.enqueue) (ht : t.trbType ≠ trbLink) :
    RingAt base (r.queue m t).1 (r.queue m t).2.enqueue ∧
      ∀ a, ¬ InRing base a → (r.queue m t).1 a = m a := by
  obtain ⟨k, hk, henq⟩ := h.enqueue
  have htypes : ∀ i < 15, (slot (Function.update m (base + 16 * k) t) base i).trbType ≠ trbLink :=
    fun i hi ↦ by
      rw [slot_update]
      split
      · exact ht
      · exact h.types i hi
  have hframe : ∀ a, ¬ InRing base a → Function.update m (base + 16 * k) t a = m a :=
    fun a ha ↦ Function.update_of_ne (fun heq ↦ ha ⟨k, by omega, heq⟩) ..
  rcases queue_at h.types h.link hk henq t with ⟨hlt, hq⟩ | ⟨rfl, hq⟩ <;> rw [hq]
  · refine ⟨⟨⟨k + 1, by omega, rfl⟩, htypes, ?_⟩, hframe⟩
    rw [slot_update, if_neg (by omega)]
    exact h.link
  · refine ⟨⟨⟨0, by omega, rfl⟩, fun i hi ↦ ?_, ?_⟩, fun a ha ↦ ?_⟩
    · rw [slot_update, if_neg (by omega)]
      exact htypes i hi
    · rw [slot_update, if_pos rfl]
      exact h.link.relink _
    · exact (Function.update_of_ne (fun heq ↦ ha ⟨15, by omega, heq⟩) ..).trans (hframe a ha)

end Xusb
end SdLoader
