import SdLoader.Xusb.Defs

/-!
# The ring of an endpoint is a queue

The driver adds TRBs to the ring, the controller takes them, and the driver learns by an event that
one is done: `Line.step`, in any order.  As long as no more than 14 TRBs are queued and not done,
the controller takes those that were queued, in the order in which they were, each of them once, and
the driver can tell by its two pointers whether all of them are done: `transfer_ring_fifo`.

There are 15 slots, but a 15th TRB would not do: the pointers would be the same as in an empty ring,
and the link TRB would be given the cycle bit of the next lap before the controller has followed it.
-/

set_option autoImplicit false

namespace SdLoader
namespace Xusb

/-- A ring with the driver at one end of it and the controller at the other, and what they have
done. -/
structure Line where
  trbs : Trbs
  ptrs : RingPtrs
  ctl : Fetcher
  /-- The TRBs the driver has queued. -/
  queued : List Trb
  /-- The TRBs the controller has taken. -/
  fetched : List Trb
  /-- How many of them the driver knows to be done. -/
  done : ℕ

/-- What happens next. -/
inductive Move
  /-- The driver queues a TRB. -/
  | queue (trb : Trb)
  /-- The controller looks at a TRB. -/
  | fetch
  /-- The driver handles the event that a TRB is done. -/
  | complete

def Line.step (s : Line) : Move → Line
  | .queue trb =>
    let (trbs, ptrs) := s.ptrs.queue s.trbs trb
    { s with trbs, ptrs, queued := s.queued ++ [trb] }
  | .fetch =>
    let (ctl, trb) := s.ctl.step s.trbs
    { s with ctl, fetched := s.fetched ++ trb.toList }
  | .complete => { s with ptrs := s.ptrs.advance s.trbs, done := s.done + 1 }

/-- A TRB is queued with the cycle bit of the ring, and while less than 14 are not done; one that is
done has been taken. -/
def Line.Legit (s : Line) : Move → Prop
  | .queue trb => trb.cycle = s.ptrs.producerCycle ∧ trb.trbType ≠ trbLink ∧
      s.queued.length < s.done + 14
  | .fetch => True
  | .complete => s.done < s.fetched.length

instance (s : Line) : (i : Move) → Decidable (s.Legit i)
  | .queue _ => inferInstanceAs (Decidable (_ ∧ _ ∧ _))
  | .fetch => isTrue trivial
  | .complete => inferInstanceAs (Decidable (_ < _))

/-- The ring after `_xusb_ep_init_context`. -/
def Line.init (m : Trbs) (base : ℕ) : Line where
  trbs := (epInitContext m base).1
  ptrs := (epInitContext m base).2
  ctl := { ptr := base, ccs := 1 }
  queued := []
  fetched := []
  done := 0

/-- The TRB in slot `i`. -/
def slot (m : Trbs) (base i : ℕ) : Trb := m (base + 16 * i)

/-- The link TRB leads back to the start of the ring. -/
structure LinkAt (t : Trb) (base : ℕ) : Prop where
  type : t.trbType = trbLink
  seg : t.segPtr = base
  toggle : t.toggleCycle = 1

/-- Where the controller is: at the slot of the next TRB, or still at the link in front of it. -/
def CtlAt (base k : ℕ) (f : Fetcher) : Prop :=
  f.ptr = base + 16 * (k % 15) ∧ f.ccs = Ring.bit 15 k ∨
    (k % 15 = 0 ∧ 0 < k) ∧ f.ptr = base + 240 ∧ f.ccs = 1 - Ring.bit 15 k

/-- What every move keeps. -/
structure Line.Inv (base : ℕ) (s : Line) : Prop where
  holds : Ring.Holds 15 Trb.cycle (slot s.trbs base) s.queued s.fetched.length
  types : ∀ i < 15, (slot s.trbs base i).trbType ≠ trbLink
  link : LinkAt (slot s.trbs base 15) base
  linkCycle : 15 ≤ s.queued.length →
    (slot s.trbs base 15).cycle = Ring.bit 15 (s.queued.length - 15)
  enqueue : s.ptrs.enqueue = base + 16 * (s.queued.length % 15)
  cycle : s.ptrs.producerCycle = Ring.bit 15 s.queued.length
  dequeue : s.ptrs.dequeue = base + 16 * (s.done % 15)
  ctl : CtlAt base s.fetched.length s.ctl
  took : s.fetched = s.queued.take s.fetched.length
  order : s.done ≤ s.fetched.length ∧ s.queued.length ≤ s.done + 14

variable {base : ℕ} {s : Line} {m : Trbs} {t : Trb}

theorem relink_cycle (t : Trb) (c : ℕ) : (t.relink c).cycle = c % 2 := by
  simp only [Trb.cycle, Trb.relink]
  omega

theorem LinkAt.relink (h : LinkAt t base) (c : ℕ) : LinkAt (t.relink c) base where
  type := by
    have htype := h.type
    simp only [Trb.trbType, Trb.relink] at htype ⊢
    omega
  seg := h.seg
  toggle := by
    simp only [Trb.toggleCycle, Trb.relink]
    omega

theorem epInitContext_slot (m : Trbs) (base : ℕ) {i : ℕ} (hi : i < 15) :
    slot (epInitContext m base).1 base i = slot m base i := by
  rw [epInitContext, slot]
  exact Function.update_of_ne (by rw [trbSize, trbSlots]; omega) ..

theorem epInitContext_link (m : Trbs) (hbase : 16 ∣ base) :
    LinkAt (slot (epInitContext m base).1 base 15) base := by
  have hslot : slot (epInitContext m base).1 base 15 = _ := Function.update_self ..
  rw [hslot]
  obtain ⟨k, rfl⟩ := hbase
  refine ⟨?_, ?_, ?_⟩
  · simp only [Trb.trbType, trbLink]
    omega
  · simp only [Trb.segPtr]
    omega
  · simp only [Trb.toggleCycle, trbLink]
    omega

theorem inv_init (hbase : 16 ∣ base) (hfree : ∀ i < 15, (slot m base i).cycle ≠ 1)
    (htypes : ∀ i < 15, (slot m base i).trbType ≠ trbLink) : (Line.init m base).Inv base where
  holds := Ring.holds_nil fun i hi ↦ by
    rw [Line.init, epInitContext_slot m base hi]
    exact hfree i hi
  types := fun i hi ↦ by
    rw [Line.init, epInitContext_slot m base hi]
    exact htypes i hi
  link := epInitContext_link m hbase
  linkCycle := fun h ↦ absurd h (Nat.not_succ_le_zero 14)
  enqueue := rfl
  cycle := (Ring.bit_of_lt (show 0 < 15 by omega)).symm
  dequeue := rfl
  ctl := .inl ⟨rfl, (Ring.bit_of_lt (show 0 < 15 by omega)).symm⟩
  took := rfl
  order := ⟨Nat.le_refl _, Nat.zero_le _⟩

/-! ## One move -/

/-- Slot `i` replaced. -/
theorem slot_update (m : Trbs) (base : ℕ) (t : Trb) (i j : ℕ) :
    slot (Function.update m (base + 16 * i) t) base j = if j = i then t else slot m base j := by
  rw [slot, slot]
  by_cases hij : j = i
  · rw [if_pos hij, hij, Function.update_self]
  · rw [if_neg hij, Function.update_of_ne (by omega)]

/-- What queueing a TRB does: it goes to the slot at the enqueue pointer, and behind the last one
the link is given the cycle bit of the lap. -/
theorem queue_at {r : RingPtrs} (htypes : ∀ i < 15, (slot m base i).trbType ≠ trbLink)
    (hlink : LinkAt (slot m base 15) base) {k : ℕ} (hk : k < 15) (henq : r.enqueue = base + 16 * k)
    (t : Trb) :
    (k < 14 ∧ r.queue m t = (Function.update m (base + 16 * k) t,
        { r with enqueue := base + 16 * (k + 1) })) ∨
      (k = 14 ∧ r.queue m t =
        (Function.update (Function.update m (base + 16 * 14) t) (base + 16 * 15)
            ((slot m base 15).relink r.producerCycle),
          { r with enqueue := base, producerCycle := r.producerCycle ^^^ 1 })) := by
  have hnext : base + 16 * k + trbSize = base + 16 * (k + 1) := by
    rw [trbSize]
    omega
  have hread : ∀ j, j ≠ k → Function.update m (base + 16 * k) t (base + 16 * j) = slot m base j :=
    fun j hj ↦ (slot_update m base t k j).trans (if_neg hj)
  rcases Nat.lt_or_ge k 14 with hlt | hge
  · refine .inl ⟨hlt, ?_⟩
    rw [RingPtrs.queue]
    simp only [henq, hnext, hread _ (show k + 1 ≠ k by omega)]
    exact if_neg (htypes _ (by omega))
  · have hlast : k = 14 := by omega
    subst hlast
    refine .inr ⟨rfl, ?_⟩
    rw [RingPtrs.queue]
    simp only [henq, hnext, hread _ (show 14 + 1 ≠ 14 by omega)]
    rw [if_pos hlink.type, (hlink.relink _).seg]

theorem bit_xor (k : ℕ) : Ring.bit 15 k ^^^ 1 = 1 - Ring.bit 15 k := by
  have hbit := Ring.bit_lt 15 k
  generalize Ring.bit 15 k = b at *
  obtain rfl | rfl : b = 0 ∨ b = 1 := by omega
  · rfl
  · rfl

theorem Line.Inv.queue (hinv : s.Inv base) (hcycle : t.cycle = s.ptrs.producerCycle)
    (htype : t.trbType ≠ trbLink) (hroom : s.queued.length < s.done + 14) :
    (s.step (.queue t)).Inv base := by
  have horder := hinv.order
  have hk := Nat.mod_lt s.queued.length (show 0 < 15 by omega)
  have hbit : t.cycle = Ring.bit 15 s.queued.length := hcycle.trans hinv.cycle
  have htook : s.fetched = (s.queued ++ [t]).take s.fetched.length := by
    rw [List.take_append_of_le_length hinv.holds.le]
    exact hinv.took
  have hlen : (s.queued ++ [t]).length = s.queued.length + 1 := List.length_append
  have hslot := slot_update s.trbs base t (s.queued.length % 15)
  have hsucc := Ring.succ_cases (show 0 < 15 by omega) s.queued.length
  rcases queue_at hinv.types hinv.link hk hinv.enqueue t with ⟨hlt, hqueue⟩ | ⟨hlast, hqueue⟩
  · obtain ⟨-, hmod, hnext⟩ := hsucc.resolve_left (by omega)
    rw [Line.step, hqueue]
    refine ⟨?_, fun i hi ↦ ?_, ?_, fun hlong ↦ ?_, ?_, ?_, hinv.dequeue, hinv.ctl, htook, ?_⟩
    · exact hinv.holds.push (by omega) hbit ((hslot _).trans (if_pos rfl))
        fun i _ hi ↦ (hslot i).trans (if_neg hi)
    · simp only [hslot]
      split
      · exact htype
      · exact hinv.types i hi
    · simp only [hslot]
      rw [if_neg (by omega)]
      exact hinv.link
    · simp only [hslot, hlen] at hlong ⊢
      rw [if_neg (by omega), hinv.linkCycle (by omega)]
      rw [Ring.bit, Ring.bit]
      omega
    · simp only [hlen]
      rw [hmod]
    · simp only [hlen]
      rw [hnext]
      exact hinv.cycle
    · simp only [hlen]
      omega
  · obtain ⟨-, hmod, hnext⟩ := hsucc.resolve_right (by omega)
    rw [hlast] at hslot
    have hslot' := slot_update (Function.update s.trbs (base + 16 * 14) t) base
      ((slot s.trbs base 15).relink s.ptrs.producerCycle) 15
    rw [Line.step, hqueue]
    refine ⟨?_, fun i hi ↦ ?_, ?_, fun hlong ↦ ?_, ?_, ?_, hinv.dequeue, hinv.ctl, htook, ?_⟩
    · refine hinv.holds.push (by omega) hbit ?_ fun i hi hne ↦ ?_
      · rw [hslot', hlast, if_neg (by omega), hslot, if_pos rfl]
      · rw [hslot', if_neg (by omega), hslot, if_neg (by omega)]
    · simp only [hslot', hslot]
      rw [if_neg (by omega)]
      split
      · exact htype
      · exact hinv.types i hi
    · simp only [hslot', if_true]
      exact hinv.link.relink _
    · simp only [hslot', if_true, hlen] at hlong ⊢
      rw [relink_cycle, hinv.cycle, Ring.bit, Ring.bit]
      omega
    · simp only [hlen]
      rw [hmod, Nat.mul_zero, Nat.add_zero]
    · simp only [hlen]
      rw [hnext, hinv.cycle, bit_xor]
    · simp only [hlen]
      omega

/-- What a look at a TRB does.  At the slot of the next TRB the controller takes it or waits; at the
link, which has the cycle bit of the lap that is over, it goes on to the first slot. -/
theorem fetch_cases (hinv : s.Inv base) :
    let k := s.fetched.length
    (k < s.queued.length ∧ s.ctl = ⟨base + 16 * (k % 15), Ring.bit 15 k⟩ ∧
        s.step .fetch = { s with
          ctl := ⟨base + 16 * (k % 15 + 1), Ring.bit 15 k⟩
          fetched := s.fetched ++ [slot s.trbs base (k % 15)] }) ∨
      (k = s.queued.length ∧ s.step .fetch = s) ∨
      (k % 15 = 0 ∧ s.ctl.ptr = base + 240 ∧
        s.step .fetch = { s with ctl := ⟨base, Ring.bit 15 k⟩ }) := by
  intro k
  have hle := hinv.holds.le
  have horder := hinv.order
  have hmod : k % 15 < 15 := Nat.mod_lt k (by omega)
  have hown := hinv.holds.owned_iff (by omega)
  have hctl : ∀ {ptr ccs : ℕ}, s.ctl.ptr = ptr → s.ctl.ccs = ccs → s.ctl = ⟨ptr, ccs⟩ :=
    fun hptr hccs ↦ by rw [← hptr, ← hccs]
  rcases hinv.ctl with ⟨hptr, hccs⟩ | ⟨⟨hzero, hpos⟩, hptr, hccs⟩
  · have hctl := hctl hptr hccs
    have htrb : s.trbs (base + 16 * (k % 15)) = slot s.trbs base (k % 15) := rfl
    by_cases hnew : k < s.queued.length
    · have hstep : s.ctl.step s.trbs = (⟨base + 16 * (k % 15 + 1), Ring.bit 15 k⟩,
          some (slot s.trbs base (k % 15))) := by
        rw [hctl, Fetcher.step, htrb]
        refine (if_neg (not_not_intro (hown.mpr hnew))).trans
          ((if_neg (hinv.types _ hmod)).trans ?_)
        rw [trbSize, Nat.add_assoc, Nat.mul_succ]
      refine .inl ⟨hnew, hctl, ?_⟩
      rw [Line.step, hstep]
      rfl
    · have hstep : s.ctl.step s.trbs = (s.ctl, none) := by
        rw [hctl, Fetcher.step, htrb]
        exact if_pos (mt hown.mp hnew)
      refine .inr (.inl ⟨by omega, ?_⟩)
      rw [Line.step, hstep]
      simp only [Option.toList, List.append_nil]
  · have hctl := hctl hptr hccs
    have htrb : s.trbs (base + 240) = slot s.trbs base 15 := rfl
    have hbit := Ring.bit_lt 15 k
    have hcycle : (slot s.trbs base 15).cycle = 1 - Ring.bit 15 k := by
      rw [hinv.linkCycle (by omega), Ring.bit, Ring.bit]
      omega
    have hback : 1 - (1 - Ring.bit 15 k) = Ring.bit 15 k := by omega
    have hstep : s.ctl.step s.trbs = (⟨base, Ring.bit 15 k⟩, none) := by
      rw [hctl, Fetcher.step, htrb, if_neg (not_not_intro hcycle), if_pos hinv.link.type,
        hinv.link.seg, if_pos hinv.link.toggle, hback]
    refine .inr (.inr ⟨hzero, hptr, ?_⟩)
    rw [Line.step, hstep]
    simp only [Option.toList, List.append_nil]

theorem Line.Inv.fetch (hinv : s.Inv base) : (s.step .fetch).Inv base := by
  have horder := hinv.order
  rcases fetch_cases hinv with ⟨hnew, -, hstep⟩ | ⟨-, hstep⟩ | ⟨hzero, -, hstep⟩ <;>
    rw [hstep]
  · have hlen : (s.fetched ++ [slot s.trbs base (s.fetched.length % 15)]).length =
        s.fetched.length + 1 := List.length_append
    refine ⟨?_, hinv.types, hinv.link, hinv.linkCycle, hinv.enqueue, hinv.cycle, hinv.dequeue,
      ?_, ?_, ?_⟩ <;> simp only [hlen]
    · exact hinv.holds.pull (by omega) hnew
    · rcases Ring.succ_cases (show 0 < 15 by omega) s.fetched.length with
        ⟨hlast, hzero, hflip⟩ | ⟨hlt, hnext, hkeep⟩
      · have hbit := Ring.bit_lt 15 s.fetched.length
        exact .inr ⟨⟨hzero, Nat.succ_pos _⟩, by simp only [hlast], by simp only [hflip]; omega⟩
      · exact .inl ⟨by simp only [hnext], hkeep.symm⟩
    · rw [hinv.holds.take_succ hnew, ← hinv.took]
    · omega
  · exact hinv
  · refine ⟨hinv.holds, hinv.types, hinv.link, hinv.linkCycle, hinv.enqueue, hinv.cycle,
      hinv.dequeue, .inl ⟨?_, rfl⟩, hinv.took, hinv.order⟩
    simp only [hzero, Nat.mul_zero, Nat.add_zero]

theorem fetch_grows (hinv : s.Inv base) : s.fetched.length ≤ (s.step .fetch).fetched.length := by
  rcases fetch_cases hinv with ⟨-, -, hstep⟩ | ⟨-, hstep⟩ | ⟨-, -, hstep⟩ <;> rw [hstep]
  rw [List.length_append]
  exact Nat.le_add_right _ _

/-- Of two looks, one takes a TRB, if there is one to take. -/
theorem fetch_twice (hinv : s.Inv base) (hnew : s.fetched.length < s.queued.length) :
    s.fetched.length < ((s.step .fetch).step .fetch).fetched.length := by
  rcases fetch_cases hinv with ⟨-, -, hstep⟩ | ⟨hall, -⟩ | ⟨-, -, hstep⟩
  · refine Nat.lt_of_lt_of_le ?_ (fetch_grows hinv.fetch)
    rw [hstep, List.length_append]
    exact Nat.lt_succ_self _
  · exact absurd hall (Nat.ne_of_lt hnew)
  · have hinv' := hinv.fetch
    rw [hstep] at hinv' ⊢
    rcases fetch_cases hinv' with ⟨-, -, hstep⟩ | ⟨hall, -⟩ | ⟨-, hptr, -⟩
    · rw [hstep, List.length_append]
      exact Nat.lt_succ_self _
    · exact absurd hall (Nat.ne_of_lt hnew)
    · exact absurd hptr (by simp only; omega)

theorem Line.Inv.complete (hinv : s.Inv base) (hdone : s.done < s.fetched.length) :
    (s.step .complete).Inv base := by
  have horder := hinv.order
  have hadvance : (s.ptrs.advance s.trbs).dequeue = base + 16 * ((s.done + 1) % 15) := by
    have hnext : s.ptrs.dequeue + trbSize = base + 16 * (s.done % 15 + 1) := by
      rw [hinv.dequeue, trbSize]
      omega
    rw [RingPtrs.advance, hnext]
    rcases Ring.succ_cases (show 0 < 15 by omega) s.done with ⟨hlast, hzero, -⟩ | ⟨hlt, hmod, -⟩
    · have htrb : s.trbs (base + 16 * (s.done % 15 + 1)) = slot s.trbs base 15 := by
        rw [hlast, slot]
      rw [htrb, if_pos hinv.link.type, hinv.link.seg, hzero, Nat.mul_zero, Nat.add_zero]
    · rw [hmod]
      exact congrArg RingPtrs.dequeue (if_neg (hinv.types _ hlt))
  have hkeep : (s.ptrs.advance s.trbs).enqueue = s.ptrs.enqueue ∧
      (s.ptrs.advance s.trbs).producerCycle = s.ptrs.producerCycle := by
    rw [RingPtrs.advance]
    split <;> exact ⟨rfl, rfl⟩
  rw [Line.step]
  exact ⟨hinv.holds, hinv.types, hinv.link, hinv.linkCycle, hkeep.1.trans hinv.enqueue,
    hkeep.2.trans hinv.cycle, hadvance, hinv.ctl, hinv.took, by
      simp only
      omega⟩

/-! ## Whole runs -/

theorem Line.Inv.step (hinv : s.Inv base) {i : Move} (hlegit : s.Legit i) :
    (s.step i).Inv base := by
  cases i with
  | queue trb => exact hinv.queue hlegit.1 hlegit.2.1 hlegit.2.2
  | fetch => exact hinv.fetch
  | complete => exact hinv.complete hlegit

theorem step_fetch_queued (s : Line) : (s.step .fetch).queued = s.queued := rfl

/-- As often as it takes, the controller gets everything. -/
theorem fetch_all (n : ℕ) {s : Line} (hinv : s.Inv base)
    (hn : s.queued.length - s.fetched.length ≤ n) :
    (Machine.run Line.step s (List.replicate (2 * n) .fetch)).fetched = s.queued := by
  induction n generalizing s with
  | zero =>
    have hall := List.take_of_length_le (Nat.le_of_sub_eq_zero (Nat.le_zero.mp hn))
    exact hinv.took.trans hall
  | succ n ih =>
    have hgrows := Nat.le_trans (fetch_grows hinv) (fetch_grows hinv.fetch)
    have htwice := fetch_twice hinv
    refine ih hinv.fetch.fetch ?_
    rw [step_fetch_queued, step_fetch_queued]
    omega

/-- The driver can tell by its pointers that nothing is left to be done. -/
theorem pointers_eq_iff (hinv : s.Inv base) :
    s.ptrs.enqueue = s.ptrs.dequeue ↔ s.done = s.queued.length := by
  have horder := hinv.order
  have hle := hinv.holds.le
  rw [hinv.enqueue, hinv.dequeue]
  constructor
  · intro heq
    have hmod : s.done % 15 = s.queued.length % 15 := by omega
    exact Ring.mod_inj (Nat.le_refl _) (by omega) (by omega) (by omega) hmod
  · intro heq
    rw [heq]

/-- The driver writes to the ring only. -/
theorem step_trbs (hinv : s.Inv base) (i : Move) {a : ℕ} (ha : ∀ j < 16, a ≠ base + 16 * j) :
    (s.step i).trbs a = s.trbs a := by
  cases i with
  | queue trb =>
    have hk := Nat.mod_lt s.queued.length (show 0 < 15 by omega)
    rcases queue_at hinv.types hinv.link hk hinv.enqueue trb with ⟨hlt, hqueue⟩ | ⟨-, hqueue⟩ <;>
      rw [Line.step, hqueue]
    · exact Function.update_of_ne (ha _ (by omega)) ..
    · exact (Function.update_of_ne (ha 15 (by omega)) ..).trans
        (Function.update_of_ne (ha 14 (by omega)) ..)
  | fetch => rfl
  | complete => rfl

/-- **The ring of an endpoint is a queue**, if its slots are clear to begin with, as
`xusb_device_init` leaves them.  While no more than 14 TRBs are queued and not done, the controller
takes those that were queued, in their order, each once, and all of them if it looks often enough;
the two pointers of the driver are the same when, and only when, all are done; and nothing but the
ring is written. -/
theorem transfer_ring_fifo (m : Trbs) (base : ℕ) (hbase : 16 ∣ base)
    (hfree : ∀ i < 15, (slot m base i).cycle ≠ 1)
    (htypes : ∀ i < 15, (slot m base i).trbType ≠ trbLink) (moves : List Move)
    (hmoves : Machine.Along Line.step Line.Legit (Line.init m base) moves) :
    let s := Machine.run Line.step (Line.init m base) moves
    s.fetched <+: s.queued ∧
      (Machine.run Line.step s (List.replicate
        (2 * (s.queued.length - s.fetched.length)) .fetch)).fetched = s.queued ∧
      (s.ptrs.enqueue = s.ptrs.dequeue ↔ s.done = s.queued.length) ∧
      ∀ a, (∀ i < 16, a ≠ base + 16 * i) → s.trbs a = m a := by
  have hrun := Machine.run_inv_along
    (I := fun s ↦ s.Inv base ∧ ∀ a, (∀ i < 16, a ≠ base + 16 * i) → s.trbs a = m a)
    (fun s i hs hlegit ↦ ⟨hs.1.step hlegit, fun a ha ↦ (step_trbs hs.1 i ha).trans (hs.2 a ha)⟩)
    ⟨inv_init hbase hfree htypes, fun a ha ↦ Function.update_of_ne (ha 15 (by omega)) ..⟩ hmoves
  obtain ⟨hinv, hframe⟩ := hrun
  intro s
  refine ⟨?_, fetch_all _ hinv (Nat.le_refl _), pointers_eq_iff hinv, hframe⟩
  rw [hinv.took]
  exact List.take_prefix ..

/-- Two TRBs are queued, and the controller has taken one. -/
theorem transfer_ring_fifo_two :
    let s := Machine.run Line.step (Line.init (fun _ ↦ ⟨0, 0, 0, 0⟩) 0x200)
      [.queue (createNormalTrb 1 0x1000 31), .fetch, .queue (createNormalTrb 1 0x2000 512)]
    s.fetched.length = 1 ∧ s.fetched <+: s.queued ∧
      (Machine.run Line.step s (List.replicate 2 .fetch)).fetched = s.queued := by
  have hfifo := transfer_ring_fifo (fun _ ↦ ⟨0, 0, 0, 0⟩) 0x200 (by decide) (by decide) (by decide)
    [.queue (createNormalTrb 1 0x1000 31), .fetch, .queue (createNormalTrb 1 0x2000 512)]
    ⟨by decide, by decide, by decide, trivial⟩
  exact ⟨by decide, hfifo.1, hfifo.2.1⟩

end Xusb
end SdLoader
