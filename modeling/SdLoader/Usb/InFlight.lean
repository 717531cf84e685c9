import SdLoader.Usb.Residue

/-!
# The mass storage gadget: the transfer in flight

A read of several chunks sends one while it reads the next.  The buffer that is being sent belongs
to the controller until the transfer has been waited for: nobody is to write to it, and no other
transfer is to be started.

* `Outcome.Writes` — the bytes a read of sectors writes; `accessMem_of_not_writes` leaves all
  others.
* `ReadLoop.settled` — the world in which a pass starts the next transfer, or is left.
* `PassLaw`, `FlightLaw` — what is wanted of a pass, and of all passes of a read.
* `Undisturbed` — the condition: no pass after the first finds the end of the unit; the card is not
  initialised again while the bulk-IN buffer is being sent; and every wait sees the end of all that
  is on the ring.
* `Handed` — what is known of the transfer in flight.  `Handed.step` keeps it, and `passLaw_iff`
  uses it.
* `flight_law` — in every run, the law is met by all reads if and only if the condition is.
-/

set_option autoImplicit false

namespace SdLoader
namespace Usb

/-- The bytes that are written when sectors are read to `buf`: those of the sectors, as far as they
come, and those the initialisation of the card leaves in the scratch buffer. -/
def Outcome.Writes (o : Outcome) (count buf a : ℕ) : Prop :=
  (o.reinit = true ∧ o.hit a = true ∧ sdmmcUpperBuffer ≤ a ∧ a < sdmmcUpperBuffer + lbaSize) ∨
    (o.ok = true ∨ o.hit a = true) ∧ buf ≤ a ∧ a < buf + lbaSize * count

/-- No other byte is written. -/
theorem Ums.accessMem_of_not_writes {o : Outcome} {count buf a : ℕ} (h : ¬o.Writes count buf a)
    (mem : ℕ → UInt8) : Ums.accessMem o false count buf mem a = mem a := by
  obtain ⟨hscratch, hsectors⟩ := not_or.mp h
  have hmem : (if o.reinit then Store.smear mem sdmmcUpperBuffer lbaSize o.hit o.scratch else mem) a
      = mem a := by
    split
    · next hreinit => exact if_neg fun hin ↦ hscratch ⟨hreinit, hin.2.2, hin.1, hin.2.1⟩
    · rfl
  rw [Ums.accessMem]
  simp only [Bool.false_eq_true, ↓reduceIte]
  split
  · next hok =>
    rw [← hmem]
    exact if_neg fun hin ↦ hsectors ⟨.inl hok, hin⟩
  · rw [← hmem]
    exact if_neg fun hin ↦ hsectors ⟨.inr hin.2.2, hin.1, hin.2.1⟩

namespace Ums

variable {env : Env} {s t : Ums} {x y : ReadLoop}

/-! ## The law -/

/-- How many sectors a pass reads. -/
def ReadLoop.amount (x : ReadLoop) : ℕ :=
  min (min x.amountLeft 64) (x.s.lun.numSectors - x.lbaOffset)

/-- The sectors are read. -/
def ReadLoop.read (env : Env) (x : ReadLoop) : Bool × Ums :=
  x.s.sdmmcStorageAccess env false (add32 x.s.lun.offset x.lbaOffset) x.amount x.bufCurrent

/-- The bytes a pass writes. -/
def ReadLoop.Writes (env : Env) (x : ReadLoop) (a : ℕ) : Prop :=
  x.amount ≠ 0 ∧ (env x.s.w.tick).Writes x.amount x.bufCurrent a

/-- The world in which a pass starts the next transfer, or is left.  The transfer before has been
waited for, if the pass is not the first and has not found the end of the unit. -/
def ReadLoop.settled (env : Env) (x : ReadLoop) : World :=
  if x.amount = 0 then x.s.w
  else if x.firstRead then (x.read env).2.w
  else ((x.read env).2.transferFinishIn env).w

/-- What is wanted of a pass, if there is a transfer in flight, the one that has been started at the
end of the pass before: it is that of the `bulk_in_length` bytes from `bulk_in_buf` on. -/
structure PassLaw (env : Env) (x : ReadLoop) : Prop where
  /-- No byte of it is written. -/
  spared : x.firstRead = false → ∀ k < x.s.bulk.inLength, ¬x.Writes env (x.s.bulk.inBuf + k)
  /-- It is over, and nothing else is on the ring, when the next one is started or the loop is
  left. -/
  ended : x.firstRead = false → (x.settled env).inQueue = []

/-- What is wanted of a read. -/
structure ReadLoop.FlightLaw (env : Env) (y : ReadLoop) : Prop where
  passes : Loop.Along (readPass env 64) (PassLaw env) (y.amountLeft + 1) y
  /-- If a transfer has been started, none is in flight when the data phase begins. -/
  left : ∀ z, readPass env 64 y = .again z → (readLoop env y).w.inQueue = []

/-- **The condition on a pass** with a transfer in flight. -/
structure PassFree (env : Env) (x : ReadLoop) : Prop where
  /-- The end of the unit has not been reached. -/
  inside : x.firstRead = false → x.lbaOffset < x.s.lun.numSectors
  /-- If it is the bulk-IN buffer that is being sent, the card is not initialised again, or not as
  far as the scratch buffer is used. -/
  intact : x.firstRead = false → x.s.bulk.inBuf = usbEpBulkInBufAddr →
    (env x.s.w.tick).reinit = true →
      ∀ k < lbaSize, (env x.s.w.tick).hit (sdmmcUpperBuffer + k) = false
  /-- As many requests are completed during the wait as are on the ring. -/
  completes : x.firstRead = false → x.s.w.inQueue.length ≤
    (if (env (x.s.w.tick + 1)).usb = 0 then x.s.w.txCountIn else 0) + (env (x.s.w.tick + 1)).more

/-- The condition on a read. -/
def ReadLoop.Undisturbed (env : Env) (y : ReadLoop) : Prop :=
  Loop.Along (readPass env 64) (PassFree env) (y.amountLeft + 1) y

/-! ## The passes -/

/-- What is known as a pass begins.  If it is not the first, a transfer is in flight. -/
structure Handed (x : ReadLoop) : Prop where
  some : x.amountLeft ≠ 0
  buf : x.bufCurrent = if x.useBuf1 then usbEpBulkInBufAddr else usbEpBulkOutBufAddr
  inBuf : x.firstRead = false →
    x.s.bulk.inBuf = if x.useBuf1 then usbEpBulkOutBufAddr else usbEpBulkInBufAddr
  inLength : x.firstRead = false →
    lbaSize ≤ x.s.bulk.inLength ∧ x.s.bulk.inLength ≤ usbEpBulkInMaxXfer
  flying : x.firstRead = false →
    ∃ trb ∈ x.s.w.inQueue, trb.addr = x.s.bulk.inBuf ∧ trb.len = x.s.bulk.inLength
  counted : x.firstRead = false → x.s.w.txCountIn ≠ 0

/-- A transfer that is started and not waited for is put at the end of the ring. -/
theorem inWrite_flying (env : Env) (buf : ℕ) {len : ℕ} (h : len ≤ usbEpBufferMaxSize) (w : World) :
    (∃ trb ∈ (xusbDeviceEp1InWrite env buf len false w).2.inQueue, trb.addr = buf ∧ trb.len = len) ∧
      (xusbDeviceEp1InWrite env buf len false w).2.txCountIn ≠ 0 := by
  have hlen : min len usbEpBufferMaxSize = len := Nat.min_eq_left h
  rw [xusbDeviceEp1InWrite, hlen, if_neg Bool.false_ne_true]
  split
  · refine ⟨⟨⟨buf, len, w.mem⟩, ?_, rfl, rfl⟩, Nat.succ_ne_zero _⟩
    exact List.mem_append_left _ (List.mem_append_right _ (List.mem_singleton_self _))
  · refine ⟨⟨⟨buf, len, w.mem⟩, ?_, rfl, rfl⟩, Nat.succ_ne_zero _⟩
    exact List.mem_append_right _ (List.mem_singleton_self _)

/-- A pass that goes round again has read sectors and started to send them. -/
structure HandsOver (env : Env) (x z : ReadLoop) : Prop where
  amount : x.amount ≠ 0
  first : z.firstRead = false
  some : z.amountLeft ≠ 0
  useBuf1 : z.useBuf1 = !x.useBuf1
  buf : z.bufCurrent = if z.useBuf1 then usbEpBulkInBufAddr else usbEpBulkOutBufAddr
  inBuf : z.s.bulk.inBuf = x.bufCurrent
  inLength : z.s.bulk.inLength = x.amount * lbaSize
  starts : ∃ w, w.inQueue = (x.settled env).inQueue ∧
    z.s.w = (xusbDeviceEp1InWrite env x.bufCurrent (x.amount * lbaSize) false w).2

/-- What a pass puts on the ring, it puts there when it is settled; and one that leaves puts nothing
there. -/
theorem readPass_settled (env : Env) (x : ReadLoop) :
    (readPass env 64 x).All (HandsOver env x) fun u ↦ u.w.inQueue = (x.settled env).inQueue := by
  obtain ⟨c, hc⟩ : ∃ c, c = x.amount := ⟨_, rfl⟩
  have hmin : min (min x.amountLeft 64) (x.s.lun.numSectors - x.lbaOffset) = c := hc.symm
  have hsettled : x.settled env = if c = 0 then x.s.w else
      if x.firstRead then (x.read env).2.w else ((x.read env).2.transferFinishIn env).w := by
    rw [ReadLoop.settled, hc]
  have hread : x.s.sdmmcStorageAccess env false (add32 x.s.lun.offset x.lbaOffset) c x.bufCurrent =
      x.read env := by
    rw [ReadLoop.read, hc]
  rw [readPass]
  dsimp only
  rw [hmin]
  by_cases hnone : c = 0
  · rw [if_pos hnone] at hsettled ⊢
    change _ = (x.settled env).inQueue
    rw [hsettled]
    rfl
  rw [if_neg hnone] at hsettled ⊢
  rw [hread]
  rcases hr : x.read env with ⟨ok, t⟩
  rw [hr] at hsettled
  have hchunk : ∀ k, (readChunk env x k t).w.inQueue = (x.settled env).inQueue := by
    intro k
    rw [readChunk, hsettled]
    dsimp only
    split <;> rfl
  cases ok with
  | false => exact hchunk 0
  | true =>
    dsimp only
    by_cases hlast : x.amountLeft - c = 0
    · rw [if_pos hlast]
      exact hchunk c
    · rw [if_neg hlast]
      have hamount : x.amount * lbaSize = c * lbaSize := by rw [hc]
      exact
        { amount := hc ▸ hnone
          first := rfl
          some := hlast
          useBuf1 := rfl
          buf := rfl
          inBuf := rfl
          inLength := hamount.symm
          starts := ⟨_, hchunk c, by rw [hamount]; rfl⟩ }

theorem ReadLoop.amount_le (x : ReadLoop) : x.amount ≤ 64 :=
  Nat.le_trans (Nat.min_le_left _ _) (Nat.min_le_right _ _)

/-- **The step lemma.** -/
theorem Handed.step {z : ReadLoop} (h : Handed x) (hpass : readPass env 64 x = .again z) :
    Handed z := by
  have hnext := readPass_settled env x
  rw [hpass] at hnext
  have hover : HandsOver env x z := hnext
  obtain ⟨w, -, hw⟩ := hover.starts
  have hmost := x.amount_le
  have hamount := hover.amount
  have hlength : lbaSize ≤ x.amount * lbaSize ∧ x.amount * lbaSize ≤ usbEpBulkInMaxXfer := by
    rw [lbaSize_eq, usbEpBulkInMaxXfer_eq]
    omega
  have hfits : x.amount * lbaSize ≤ usbEpBufferMaxSize := Nat.le_trans hlength.2 (by decide)
  obtain ⟨hflying, hcounted⟩ := inWrite_flying env x.bufCurrent hfits w
  rw [← hw] at hflying hcounted
  refine ⟨hover.some, hover.buf, fun _ ↦ ?_, fun _ ↦ ?_, fun _ ↦ ?_, fun _ ↦ hcounted⟩
  · rw [hover.inBuf, hover.useBuf1, h.buf]
    cases x.useBuf1 <;> rfl
  · rw [hover.inLength]
    exact hlength
  · rw [hover.inBuf, hover.inLength]
    exact hflying

/-- What is on the ring after the wait. -/
theorem settled_waited (h : Handed x) (hlater : x.firstRead = false) (hsome : x.amount ≠ 0) :
    (x.settled env).inQueue = x.s.w.inQueue.drop
      ((if (env (x.s.w.tick + 1)).usb = 0 then x.s.w.txCountIn else 0) +
        (env (x.s.w.tick + 1)).more) := by
  obtain ⟨w, hw⟩ : ∃ w, w = (x.read env).2.w := ⟨_, rfl⟩
  have hring : w.inQueue = x.s.w.inQueue ∧ w.txCountIn = x.s.w.txCountIn ∧
      w.tick = x.s.w.tick + 1 := hw ▸ ⟨rfl, rfl, rfl⟩
  have hsettled : x.settled env = (w.waitIn env).2 := by
    rw [ReadLoop.settled, if_neg hsome, hlater, hw]
    rfl
  have hcounted : w.txCountIn ≠ 0 := hring.2.1 ▸ h.counted hlater
  rw [hsettled, World.waitIn]
  dsimp only
  rw [if_neg hcounted, ← hring.1, ← hring.2.1, ← hring.2.2]
  by_cases husb : (env w.tick).usb = 0
  · rw [if_pos husb, if_pos husb]
    rfl
  · rw [if_neg husb, if_neg husb, Nat.zero_add]
    rfl

/-- The end of the unit. -/
theorem amount_eq_zero (h : Handed x) : x.amount = 0 ↔ x.s.lun.numSectors ≤ x.lbaOffset := by
  have hsome := h.some
  rw [ReadLoop.amount]
  omega

/-- What can be hit of the transfer in flight: nothing but the scratch buffer. -/
theorem spared_iff (h : Handed x) (hlater : x.firstRead = false) (hsome : x.amount ≠ 0) :
    (∀ k < x.s.bulk.inLength, ¬x.Writes env (x.s.bulk.inBuf + k)) ↔
      (x.s.bulk.inBuf = usbEpBulkInBufAddr → (env x.s.w.tick).reinit = true →
        ∀ k < lbaSize, (env x.s.w.tick).hit (sdmmcUpperBuffer + k) = false) := by
  obtain ⟨hleast, hmost⟩ := h.inLength hlater
  have hamount := x.amount_le
  have hscratch : sdmmcUpperBuffer = usbEpBulkInBufAddr := rfl
  rw [lbaSize_eq] at hleast
  rw [usbEpBulkInMaxXfer_eq] at hmost
  constructor
  · intro hall hbuf hreinit k hk
    rw [lbaSize_eq] at hk
    by_contra hhit
    refine hall k (by omega) ⟨hsome, .inl ⟨hreinit, ?_, ?_, ?_⟩⟩
    · rw [hbuf, ← hscratch]
      exact (Bool.not_eq_false _).mp hhit
    · rw [hbuf, ← hscratch]
      exact Nat.le_add_right _ _
    · rw [hbuf, ← hscratch, lbaSize_eq]
      omega
  · rintro hintact k hk ⟨-, ⟨hreinit, hhit, hlow, hhigh⟩ | ⟨-, hlow, hhigh⟩⟩
    · -- The scratch buffer is the start of the bulk-IN buffer.
      rw [sdmmcUpperBuffer_eq] at hlow hhigh
      rw [lbaSize_eq] at hhigh
      have hbuf : x.s.bulk.inBuf = usbEpBulkInBufAddr := by
        rw [h.inBuf hlater] at hhigh ⊢
        cases hturn : x.useBuf1 with
        | false => rfl
        | true =>
          rw [hturn, if_pos rfl, usbEpBulkOutBufAddr_eq] at hhigh
          omega
      have hnone := hintact hbuf hreinit k
        (by rw [hbuf, usbEpBulkInBufAddr_eq] at hhigh; rw [lbaSize_eq]; omega)
      rw [hscratch, ← hbuf, hhit] at hnone
      cases hnone
    · -- The sectors come into the other buffer.
      have hinBuf := h.inBuf hlater
      have hcurrent := h.buf
      rw [lbaSize_eq] at hhigh
      rw [usbEpBulkInBufAddr_eq, usbEpBulkOutBufAddr_eq] at hinBuf hcurrent
      cases hturn : x.useBuf1 <;> rw [hturn] at hinBuf hcurrent <;>
        simp only [Bool.false_eq_true, ↓reduceIte] at hinBuf hcurrent <;> omega

/-- **One pass** meets the law if and only if it meets the condition. -/
theorem passLaw_iff (h : Handed x) : PassLaw env x ↔ PassFree env x := by
  cases hfirst : x.firstRead with
  | true =>
    have hnone : ∀ P : Prop, x.firstRead = false → P := fun P hlater ↦ by
      rw [hfirst] at hlater
      cases hlater
    exact ⟨fun _ ↦ ⟨hnone _, hnone _, hnone _⟩, fun _ ↦ ⟨hnone _, hnone _⟩⟩
  | false =>
    have hring : x.s.w.inQueue ≠ [] := by
      obtain ⟨trb, hmem, -⟩ := h.flying hfirst
      exact List.ne_nil_of_mem hmem
    constructor
    · intro hlaw
      have hsome : x.amount ≠ 0 := by
        intro hnone
        have hover := hlaw.ended hfirst
        rw [ReadLoop.settled, if_pos hnone] at hover
        exact hring hover
      have hover := hlaw.ended hfirst
      rw [settled_waited h hfirst hsome, List.drop_eq_nil_iff] at hover
      refine ⟨fun _ ↦ ?_, fun _ ↦ (spared_iff h hfirst hsome).mp (hlaw.spared hfirst),
        fun _ ↦ hover⟩
      exact Nat.lt_of_not_le fun hend ↦ hsome ((amount_eq_zero h).mpr hend)
    · intro hfree
      have hsome : x.amount ≠ 0 := fun hnone ↦
        Nat.not_le.mpr (hfree.inside hfirst) ((amount_eq_zero h).mp hnone)
      refine ⟨fun _ ↦ (spared_iff h hfirst hsome).mpr (hfree.intact hfirst), fun _ ↦ ?_⟩
      rw [settled_waited h hfirst hsome, List.drop_eq_nil_iff]
      exact hfree.completes hfirst

/-! ## The read -/

/-- The first pass begins with nothing in flight. -/
theorem ReadsFrom.handed (h : ReadsFrom s y) : Handed y := by
  have hfirst : y.firstRead = true := by rw [h.start]
  have hnone : ∀ P : Prop, y.firstRead = false → P := fun P hlater ↦ by
    rw [hfirst] at hlater
    cases hlater
  refine ⟨h.some, ?_, hnone _, hnone _, hnone _, hnone _⟩
  rw [h.start]
  rfl

/-- If no pass leaves a transfer in flight, the loop does not. -/
theorem left_of_passes {z : ReadLoop} (hpass : readPass env 64 y = .again z)
    (hlaw : Loop.Along (readPass env 64) (PassLaw env) (y.amountLeft + 1) y) :
    (readLoop env y).w.inQueue = [] := by
  obtain ⟨u, hu⟩ : ∃ u, Loop.run (readPass env 64) (y.amountLeft + 1) y = .leave u :=
    Loop.run_leave_of_measure (fun _ ↦ True) (·.amountLeft)
      (fun _ _ _ hstep ↦ ⟨trivial, readPass_less hstep⟩) trivial (Nat.lt_succ_self _)
  have hnext := readPass_settled env y
  rw [hpass] at hnext
  have hover : HandsOver env y z := hnext
  have hrest : (Loop.run (readPass env 64) y.amountLeft z).All
      (fun x ↦ x.firstRead = false) fun v ↦ v.w.inQueue = [] := by
    refine Loop.run_all_along (I := fun x : ReadLoop ↦ x.firstRead = false)
      (fun x hlater hx ↦ ?_) hover.first (hlaw.2 z hpass)
    have hsettled := readPass_settled env x
    cases hr : readPass env 64 x with
    | again x' =>
      rw [hr] at hsettled
      have hover' : HandsOver env x x' := hsettled
      exact hover'.first
    | leave v =>
      rw [hr] at hsettled
      exact hsettled.trans (hx.ended hlater)
  rw [Loop.run_succ_again hpass] at hu
  rw [hu] at hrest
  rw [readLoop, maxIoTransfer_eq, Loop.run_succ_again hpass, hu]
  exact hrest

/-- **A read** meets the law if and only if it meets the condition. -/
theorem flightLaw_iff (h : ReadsFrom s y) : y.FlightLaw env ↔ y.Undisturbed env := by
  have hpasses : Loop.Along (readPass env 64) (PassLaw env) (y.amountLeft + 1) y ↔
      y.Undisturbed env :=
    Loop.along_iff (fun _ _ hx hpass ↦ Handed.step hx hpass) (fun _ hx ↦ passLaw_iff hx) h.handed _
  constructor
  · exact fun hlaw ↦ hpasses.mp hlaw.passes
  · intro hfree
    have hlaw := hpasses.mpr hfree
    exact ⟨hlaw, fun z hpass ↦ left_of_passes hpass hlaw⟩

end Ums

namespace Gadget

variable {env : Env} {g : Gadget}

/-- The law, for the read that is carried out in the step, if there is one. -/
def FlightLaw (g : Gadget) (env : Env) : Prop :=
  ∀ s y, g = .parse s → Ums.ReadsFrom (s.handleEp0Ctrl env) y → y.FlightLaw env

/-- **The condition**, for that read. -/
def Undisturbed (g : Gadget) (env : Env) : Prop :=
  ∀ s y, g = .parse s → Ums.ReadsFrom (s.handleEp0Ctrl env) y → y.Undisturbed env

theorem flightLaw_iff : g.FlightLaw env ↔ g.Undisturbed env :=
  forall₄_congr fun _ _ _ hread ↦ Ums.flightLaw_iff hread

end Gadget

/-- **The transfer in flight.**  In every run, no read writes to a buffer that is being sent, starts
a transfer with another one in flight or leaves one behind, if and only if in no read a pass after
the first finds the end of the unit, the card is initialised again while the bulk-IN buffer is being
sent, or a wait returns before the ring is empty. -/
theorem flight_law (g : Gadget) (is : List Env) :
    Machine.Along Gadget.step Gadget.FlightLaw g is ↔
      Machine.Along Gadget.step Gadget.Undisturbed g is :=
  ⟨Machine.Along.mono fun _ _ ↦ Gadget.flightLaw_iff.mp,
    Machine.Along.mono fun _ _ ↦ Gadget.flightLaw_iff.mpr⟩

/-- Two blocks are to be read from the last one of the volume on. -/
def pastEnd : Ums :=
  (Machine.run Gadget.step (firstGadget [sdVolume])
    (announces 1024 [0x28, 0, 0, 0, 0, 0x3F, 0, 0, 2, 0])).ums

/-- The loop of that read as it is entered. -/
def pastEndLoop : Ums.ReadLoop :=
  ⟨0x3F, 2, true, true, usbEpBulkInBufAddr, (pastEnd.handleEp0Ctrl calmly).checked.2⟩

theorem readsFrom_pastEnd : (pastEnd.handleEp0Ctrl calmly).ReadsFrom pastEndLoop where
  checked := Prod.ext (by decide +kernel) rfl
  cmd := ⟨false, by decide +kernel, by decide +kernel⟩
  lba := by decide +kernel
  amount := by decide +kernel
  some := by decide
  start := rfl

/-- The last block is being sent when the end of the unit is found, and nothing waits for it. -/
theorem flight_counterexample :
    ¬∀ is, Machine.Along Gadget.step Gadget.FlightLaw (firstGadget [sdVolume]) is := by
  intro h
  have hall := h (announces 1024 [0x28, 0, 0, 0, 0, 0x3F, 0, 0, 2, 0] ++ [calmly])
  obtain ⟨-, hlaw, -⟩ := (Machine.along_append ..).mp hall
  have hleft := (hlaw pastEnd pastEndLoop rfl readsFrom_pastEnd).left
  cases hpass : Ums.readPass calmly 64 pastEndLoop with
  | again z =>
    have hring := congrArg List.length (hleft z hpass)
    exact absurd hring (by decide +kernel)
  | leave u =>
    have hgoes : (Ums.readPass calmly 64 pastEndLoop).All (fun _ ↦ True) fun _ ↦ False := trivial
    rw [hpass] at hgoes
    exact hgoes

end Usb
end SdLoader
