import SdLoader.Usb.Idle

/-!
# The mass storage gadget: reads of several chunks

How the host comes to be sent other bytes than those that were read.

The buffer of a chunk is left alone until the endpoint has been waited for, but not by the gadget
alone: the storage driver uses the bulk-IN buffer when it initialises a card, and a read that runs
past the end of the unit has it cleared for the padding.

* `Grown` — what has been sent, and what there is to reply, is only added to.
* `Flying` — the first chunk, which starts with a 1, is on its way.
* `Spoiled` — the host has been sent something else than a 1 in its place.
* `readLoop_several` — with the storage as it is `spoiling`, a read of several chunks is spoiled, or
  is about to be cleared; either way it is after the data phase (`finishReply_several`).
-/

set_option autoImplicit false

namespace SdLoader
namespace Usb

/-! ## Growing -/

/-- A wait only adds to what has been sent. -/
theorem World.waitIn_sent (env : Env) (w : World) :
    w.sent <+: (w.waitIn env).2.sent ∧ (w.waitIn env).2.reply = w.reply := by
  rw [World.waitIn]
  dsimp only
  split
  · exact ⟨List.prefix_rfl, rfl⟩
  split
  · exact ⟨List.prefix_append _ _, rfl⟩
  · exact ⟨List.prefix_append _ _, rfl⟩

theorem xusbDeviceEp1InWrite_sent (env : Env) (buf len : ℕ) (sync : Bool) (w : World) :
    w.sent <+: (xusbDeviceEp1InWrite env buf len sync w).2.sent ∧
      (xusbDeviceEp1InWrite env buf len sync w).2.reply = w.reply := by
  rw [xusbDeviceEp1InWrite]
  split
  · exact World.waitIn_sent env ({ w with txCountIn := 0 }.pushIn buf (min len usbEpBufferMaxSize))
  · split
    · exact ⟨List.prefix_rfl, rfl⟩
    · exact ⟨List.prefix_rfl, rfl⟩

namespace Ums

variable {env : Env} {s t u : Ums}

/-- What has been sent, and what there is to reply, has only been added to, and the command is the
same. -/
structure Grown (s t : Ums) : Prop where
  sent : s.w.sent <+: t.w.sent
  reply : s.w.reply <+: t.w.reply
  residue : t.residue ≤ s.residue
  dataDir : t.dataDir = s.dataDir
  dataSize : t.dataSize = s.dataSize
  state : t.state = s.state
  stall : t.canStall = s.canStall

theorem Grown.refl (s : Ums) : Grown s s :=
  ⟨List.prefix_rfl, List.prefix_rfl, Nat.le_refl _, rfl, rfl, rfl, rfl⟩

theorem Grown.trans (h : Grown s t) (h' : Grown t u) : Grown s u where
  sent := h.sent.trans h'.sent
  reply := h.reply.trans h'.reply
  residue := Nat.le_trans h'.residue h.residue
  dataDir := h'.dataDir.trans h.dataDir
  dataSize := h'.dataSize.trans h.dataSize
  state := h'.state.trans h.state
  stall := h'.stall.trans h.stall

theorem senseAt_grown (code info : ℕ) (s : Ums) : Grown s (s.senseAt code info) :=
  ⟨List.prefix_rfl, List.prefix_rfl, Nat.le_refl _, rfl, rfl, rfl, rfl⟩

theorem access_grown (env : Env) (isWrite : Bool) (sector count buf : ℕ) (s : Ums) :
    Grown s (s.sdmmcStorageAccess env isWrite sector count buf).2 :=
  ⟨List.prefix_rfl, List.prefix_rfl, Nat.le_refl _, rfl, rfl, rfl, rfl⟩

theorem transferStartIn_grown (env : Env) (sync : Bool) (s : Ums) :
    Grown s (s.transferStartIn env sync) := by
  obtain ⟨hsent, hreply⟩ := xusbDeviceEp1InWrite_sent env s.bulk.inBuf s.bulk.inLength sync s.w
  refine ⟨hsent, ?_, Nat.le_refl _, rfl, rfl, rfl, rfl⟩
  show s.w.reply <+: (xusbDeviceEp1InWrite env s.bulk.inBuf s.bulk.inLength sync s.w).2.reply
  exact hreply.symm ▸ List.prefix_rfl

theorem transferFinishIn_grown (env : Env) (s : Ums) : Grown s (s.transferFinishIn env) := by
  obtain ⟨hsent, hreply⟩ := World.waitIn_sent env s.w
  refine ⟨hsent, ?_, Nat.le_refl _, rfl, rfl, rfl, rfl⟩
  show s.w.reply <+: (s.w.waitIn env).2.reply
  exact hreply.symm ▸ List.prefix_rfl

theorem readChunk_grown (env : Env) (y : ReadLoop) (amount : ℕ) (t : Ums) :
    Grown t (readChunk env y amount t) := by
  have hset : ∀ (got : List UInt8) (u : Ums), Grown u { u with
      residue := u.residue - amount * lbaSize
      bulk.inLength := amount * lbaSize
      bulk.inBufState := .full
      bulk.inBuf := y.bufCurrent
      w.reply := u.w.reply ++ got } := fun got u ↦
    ⟨List.prefix_rfl, List.prefix_append _ _, Nat.sub_le _ _, rfl, rfl, rfl, rfl⟩
  rw [readChunk]
  dsimp only
  split
  · exact hset _ t
  · exact (transferFinishIn_grown env t).trans (hset _ _)

theorem readPass_grown (env : Env) (m : ℕ) (y : ReadLoop) :
    (readPass env m y).All (fun z ↦ Grown y.s z.s) (Grown y.s) := by
  rw [readPass]
  set amount := min (min y.amountLeft m) (y.s.lun.numSectors - y.lbaOffset)
  dsimp only
  by_cases hnone : amount = 0
  · rw [if_pos hnone]
    exact ⟨List.prefix_rfl, List.prefix_rfl, Nat.le_refl _, rfl, rfl, rfl, rfl⟩
  rw [if_neg hnone]
  have hacc := access_grown env false (add32 y.s.lun.offset y.lbaOffset) amount y.bufCurrent y.s
  rcases hr : y.s.sdmmcStorageAccess env false (add32 y.s.lun.offset y.lbaOffset) amount
    y.bufCurrent with ⟨_ | _, t⟩ <;> rw [hr] at hacc <;> dsimp only
  · exact (hacc.trans (readChunk_grown env y 0 t)).trans (senseAt_grown _ _ _)
  · have hchunk := hacc.trans (readChunk_grown env y amount t)
    split
    · exact hchunk
    · exact hchunk.trans (transferStartIn_grown env false _)

theorem padPass_grown (env : Env) (y : PadLoop) :
    (padPass env y).All (fun z ↦ Grown y.s z.s) (Grown y.s) := by
  rw [padPass]
  dsimp only
  split
  · exact .refl y.s
  · set nsend := min y.s.usbAmountLeft usbEpBufferMaxSize
    set v : Ums := { y.s.fillMem (y.s.bulk.inBuf + y.currentLenToKeep)
      (sub32 nsend y.currentLenToKeep) fun _ ↦ 0 with bulk.inLength := nsend }
    have hv : Grown y.s v :=
      ⟨List.prefix_rfl, List.prefix_rfl, Nat.le_refl _, rfl, rfl, rfl, rfl⟩
    have hsend := hv.trans (transferStartIn_grown env true v)
    exact ⟨hsend.sent, hsend.reply, hsend.residue, hsend.dataDir, hsend.dataSize, hsend.state,
      hsend.stall⟩

theorem padWithZeros_grown (env : Env) (s : Ums) : Grown s (s.padWithZeros env) := by
  refine padWithZeros_rule (I := fun y ↦ Grown s y.s) (fun y hy ↦ ?_)
    ⟨List.prefix_rfl, List.prefix_rfl, Nat.le_refl _, rfl, rfl, rfl, rfl⟩
  have hpass := padPass_grown env y
  cases hp : padPass env y <;> rw [hp] at hpass
  · exact hy.trans hpass
  · exact hy.trans hpass

/-- The end of the data phase, if data is expected. -/
theorem finishReply_toHost (env : Env) (hdir : s.dataDir = .toHost) (hsize : s.dataSize ≠ 0)
    (hstall : s.canStall = 0) :
    (s.finishReply env).2 = (if s.residue = 0 then s.transferStartIn env true
      else s.padWithZeros env).resetBufferIn := by
  have hsend : s.sendReply env =
      if s.residue = 0 then s.transferStartIn env true else s.padWithZeros env := by
    rw [sendReply, if_neg hsize]
    refine if_congr ?_ rfl rfl
    rw [hstall]
    exact or_iff_left (not_not_intro rfl)
  rw [finishReply, hdir, ← hsend]

theorem finishReply_grown (env : Env) (hdir : s.dataDir = .toHost) (hsize : s.dataSize ≠ 0)
    (hstall : s.canStall = 0) : Grown s (s.finishReply env).2 := by
  have hreset : ∀ u : Ums, Grown s u → Grown s u.resetBufferIn := fun u hu ↦
    ⟨hu.sent, hu.reply, hu.residue, hu.dataDir, hu.dataSize, hu.state, hu.stall⟩
  rw [finishReply_toHost env hdir hsize hstall]
  refine hreset _ ?_
  split
  · exact transferStartIn_grown env true s
  · exact padWithZeros_grown env s

/-! ## The first chunk -/

/-- The card is initialised each time sectors are read, which leaves a 2 in the scratch buffer; the
sectors are full of 1.  Requests fetch their data when they are completed. -/
def spoiling : Env := fun _ ↦
  { calm with early := fun _ ↦ false, reinit := true, bytes := fun _ ↦ 1, scratch := fun _ ↦ 2 }

theorem clean_spoiling : Clean spoiling := ⟨fun _ ↦ rfl, fun _ ↦ rfl⟩

/-- The first byte that has been sent is not a 1, as that of the reply is. -/
structure Spoiled (s u : Ums) : Prop where
  grown : Grown s u
  first : ∃ c, c ≠ 1 ∧ s.w.sent ++ [c] <+: u.w.sent
  reply : [1] <+: u.w.reply
  residue : u.residue < s.residue

/-- The first chunk is on its way, and has not been waited for. -/
structure Flying (s u : Ums) : Prop where
  grown : Grown s u
  queue : ∃ t rest, u.w.inQueue = t :: rest ∧ t.addr = usbEpBulkInBufAddr ∧ t.len ≠ 0
  count : u.w.txCountIn ≠ 0
  buf : u.bulk.inBuf = usbEpBulkInBufAddr
  sent : u.w.sent = s.w.sent
  reply : [1] <+: u.w.reply
  residue : u.residue < s.residue
  more : u.residue ≠ 0

theorem Spoiled.after (h : Spoiled s t) (h' : Grown t u) : Spoiled s u where
  grown := h.grown.trans h'
  first := by
    obtain ⟨c, hc, hsent⟩ := h.first
    exact ⟨c, hc, hsent.trans h'.sent⟩
  reply := h.reply.trans h'.reply
  residue := Nat.lt_of_le_of_lt h'.residue h.residue

/-- The oldest request sends what is in memory when it is completed. -/
theorem waitIn_first {w : World} {t : Trb} {rest : List Trb} (hqueue : w.inQueue = t :: rest)
    (hlen : t.len ≠ 0) (hcount : w.txCountIn ≠ 0) :
    w.sent ++ [w.mem t.addr] <+: (w.waitIn spoiling).2.sent := by
  obtain ⟨n, hn⟩ := Nat.exists_eq_succ_of_ne_zero hcount
  have hsent : (w.waitIn spoiling).2.sent = w.sent ++ (Store.slice w.mem t.addr t.len ++
      (rest.take n).flatMap fun t ↦ Store.slice w.mem t.addr t.len) := by
    rw [waitIn_clean clean_spoiling hcount]
    show w.sent ++ (w.inQueue.take w.txCountIn).flatMap _ = _
    rw [hqueue, hn, List.take_succ_cons, List.flatMap_cons]
    rfl
  rw [hsent, List.prefix_append_right_inj]
  exact (Store.first_slice _ _ hlen).trans (List.prefix_append _ _)

/-- **The first pass** of a read of several chunks. -/
theorem readPass_flying {lba n : ℕ} (hreply : s.w.reply = []) (hqueue : s.w.inQueue = [])
    (hresidue : n * lbaSize ≤ s.residue) (hlba : lba < s.lun.numSectors)
    (hseveral : ¬ (n ≤ 64 ∧ n ≤ s.lun.numSectors - lba)) :
    ∃ z, readPass spoiling 64 ⟨lba, n, true, true, usbEpBulkInBufAddr, s⟩ = .again z ∧
      z.firstRead = false ∧ z.bufCurrent = usbEpBulkOutBufAddr ∧ Flying s z.s := by
  rw [lbaSize_eq] at hresidue
  set y : ReadLoop := ⟨lba, n, true, true, usbEpBulkInBufAddr, s⟩ with hy
  obtain ⟨c, hc⟩ : ∃ c, c = min (min n 64) (s.lun.numSectors - lba) := ⟨_, rfl⟩
  have hpos : c ≠ 0 := by omega
  have hless : n - c ≠ 0 := by omega
  set sector := add32 s.lun.offset lba with hsector
  set t := (s.sdmmcStorageAccess spoiling false sector c usbEpBulkInBufAddr).2 with ht
  have hacc : s.sdmmcStorageAccess spoiling false sector c usbEpBulkInBufAddr = (true, t) := rfl
  set u := readChunk spoiling y c t with hu
  have hpass : readPass spoiling 64 y = .again ⟨lba + c, n - c, false, false, usbEpBulkOutBufAddr,
      u.transferStartIn spoiling false⟩ := by
    rw [readPass]
    dsimp only
    rw [← hc, if_neg hpos, hacc]
    dsimp only
    rw [if_neg hless]
    rfl
  obtain ⟨rest, hring, hcount, hsent⟩ := inWrite_queue (w := u.w) spoiling usbEpBulkInBufAddr
    (c * lbaSize) hqueue
  have hgrown : Grown s (u.transferStartIn spoiling false) :=
    ((access_grown spoiling false sector c usbEpBulkInBufAddr s).trans
      (readChunk_grown spoiling y c t)).trans (transferStartIn_grown spoiling false u)
  refine ⟨_, hpass, rfl, rfl, hgrown, ⟨_, rest, hring, rfl, ?_⟩, ?_, rfl, hsent,
    ?_, ?_, ?_⟩
  · show min (c * lbaSize) usbEpBufferMaxSize ≠ 0
    rw [lbaSize_eq, usbEpBufferMaxSize_eq]
    omega
  · exact fun hzero ↦ absurd (hcount.symm.trans hzero) (Nat.succ_ne_zero _)
  · -- The reply starts with what has been read.
    have hbyte : t.w.mem usbEpBulkInBufAddr = 1 := by
      refine Store.blit_of_mem (Nat.le_refl _) ?_
      rw [lbaSize_eq]
      omega
    have hfirst : [t.w.mem usbEpBulkInBufAddr] <+:
        Store.slice t.w.mem usbEpBulkInBufAddr (c * lbaSize) :=
      Store.first_slice _ _ (by rw [lbaSize_eq]; omega)
    have hwhole : u.w.reply = Store.slice t.w.mem usbEpBulkInBufAddr (c * lbaSize) := by
      show s.w.reply ++ _ = _
      rw [hreply]
      rfl
    rw [hbyte, ← hwhole] at hfirst
    exact hfirst.trans (transferStartIn_grown spoiling false u).reply
  · show s.residue - c * lbaSize < s.residue
    rw [lbaSize_eq]
    omega
  · show s.residue - c * lbaSize ≠ 0
    rw [lbaSize_eq]
    omega

/-- **The second pass**: it spoils the first chunk, unless there is nothing more to read. -/
theorem readPass_spoils {y : ReadLoop} (hfirst : y.firstRead = false)
    (hbuf : y.bufCurrent = usbEpBulkOutBufAddr) (h : Flying s y.s) :
    (readPass spoiling 64 y).All (fun z ↦ Spoiled s z.s)
      (fun u ↦ Spoiled s u ∨ Flying s u ∧ u.bulk.inLength = 0) := by
  rw [readPass]
  set amount := min (min y.amountLeft 64) (y.s.lun.numSectors - y.lbaOffset)
  dsimp only
  by_cases hnone : amount = 0
  · rw [if_pos hnone]
    refine .inr ⟨⟨h.grown.trans ?_, h.queue, h.count, h.buf, h.sent, h.reply, h.residue, h.more⟩,
      rfl⟩
    exact ⟨List.prefix_rfl, List.prefix_rfl, Nat.le_refl _, rfl, rfl, rfl, rfl⟩
  rw [if_neg hnone]
  set sector := add32 y.s.lun.offset y.lbaOffset with hsector
  set t := (y.s.sdmmcStorageAccess spoiling false sector amount y.bufCurrent).2 with ht
  have hacc : y.s.sdmmcStorageAccess spoiling false sector amount y.bufCurrent = (true, t) := rfl
  rw [hacc]
  dsimp only
  have hgrown : Grown t (readChunk spoiling y amount t) := readChunk_grown spoiling y amount t
  have hgrown' : Grown y.s (readChunk spoiling y amount t) :=
    (access_grown spoiling false sector amount y.bufCurrent y.s).trans hgrown
  -- The card has been initialised while the first chunk was on its way.
  have hbyte : t.w.mem usbEpBulkInBufAddr = 2 := by
    have haway : t.w.mem usbEpBulkInBufAddr =
        Store.smear y.s.w.mem sdmmcUpperBuffer lbaSize (fun _ ↦ true) (fun _ ↦ 2)
          usbEpBulkInBufAddr := by
      refine Store.blit_of_not_mem (.inl ?_)
      rw [hbuf]
      decide
    rw [haway]
    exact Store.smear_of_hit (Nat.le_refl _) (by decide) rfl
  have hspoiled : Spoiled s (readChunk spoiling y amount t) := by
    obtain ⟨r, rest, hqueue, haddr, hlen⟩ := h.queue
    have hfinish := waitIn_first (w := t.w) hqueue hlen h.count
    have hbefore : t.w.sent = s.w.sent := h.sent
    rw [haddr, hbyte, hbefore] at hfinish
    refine ⟨h.grown.trans hgrown', ⟨2, by decide, ?_⟩, h.reply.trans hgrown'.reply,
      Nat.lt_of_le_of_lt hgrown'.residue h.residue⟩
    have hsame : (readChunk spoiling y amount t).w.sent = (t.w.waitIn spoiling).2.sent := by
      rw [readChunk, hfirst]
      rfl
    rw [hsame]
    exact hfinish
  split
  · exact .inl hspoiled
  · exact hspoiled.after (transferStartIn_grown spoiling false _)

/-- **A read of several chunks.** -/
theorem readLoop_several {y : ReadLoop} (h : ReadsFrom s y) (hreply : y.s.w.reply = [])
    (hqueue : y.s.w.inQueue = []) (hresidue : y.amountLeft * lbaSize ≤ y.s.residue)
    (hseveral : ¬ (y.amountLeft ≤ 64 ∧ y.amountLeft ≤ y.s.lun.numSectors - y.lbaOffset)) :
    Spoiled y.s (readLoop spoiling y) ∨
      Flying y.s (readLoop spoiling y) ∧ (readLoop spoiling y).bulk.inLength = 0 := by
  have hsome := h.some
  obtain ⟨z, hz, hfirst, hbuf, hflying⟩ := readPass_flying hreply hqueue hresidue h.lba hseveral
  rw [← h.start] at hz
  have hlater : ∀ x : ReadLoop, Spoiled y.s x.s → (readPass spoiling 64 x).All
      (fun x ↦ Spoiled y.s x.s) (fun u ↦ Spoiled y.s u ∨ Flying y.s u ∧ u.bulk.inLength = 0) := by
    intro x hx
    have hgrown := readPass_grown spoiling 64 x
    cases hp : readPass spoiling 64 x <;> rw [hp] at hgrown
    · exact hx.after hgrown
    · exact .inl (hx.after hgrown)
  obtain ⟨n, hn⟩ := Nat.exists_eq_succ_of_ne_zero hsome
  have hrun := Loop.run_all_of_first hlater (readPass_spoils hfirst hbuf hflying) n
  rw [readLoop, maxIoTransfer_eq, hn, Loop.run_succ_again hz]
  cases hr : Loop.run (readPass spoiling 64) (n + 1) z <;> rw [hr] at hrun
  · exact .inl hrun
  · exact hrun

/-- The first pass of the padding clears the chunk that is on its way. -/
theorem padPass_spoils {y : PadLoop} (hkeep : y.currentLenToKeep = 0)
    (hleft : y.s.usbAmountLeft ≠ 0) (h : Flying s y.s) :
    (padPass spoiling y).All (fun z ↦ Spoiled s z.s) (Spoiled s) := by
  have hgrown := padPass_grown spoiling y
  obtain ⟨r, rest, hqueue, haddr, hlen⟩ := h.queue
  rw [padPass] at hgrown ⊢
  dsimp only at hgrown ⊢
  rw [if_neg hleft] at hgrown ⊢
  set nsend := min y.s.usbAmountLeft usbEpBufferMaxSize with hnsend
  set v : Ums := { y.s.fillMem (y.s.bulk.inBuf + y.currentLenToKeep)
    (sub32 nsend y.currentLenToKeep) fun _ ↦ 0 with bulk.inLength := nsend } with hv
  set w : World := { v.w with txCountIn := 0 }.pushIn v.bulk.inBuf
    (min v.bulk.inLength usbEpBufferMaxSize) with hw
  have hring : w.inQueue = r :: (rest ++ [⟨v.bulk.inBuf, min v.bulk.inLength usbEpBufferMaxSize,
      v.w.mem⟩]) := by
    show y.s.w.inQueue ++ _ = _
    rw [hqueue]
    rfl
  have hbyte : w.mem usbEpBulkInBufAddr = 0 := by
    show Store.blit y.s.w.mem (y.s.bulk.inBuf + y.currentLenToKeep)
      (sub32 nsend y.currentLenToKeep) (fun _ ↦ 0) usbEpBulkInBufAddr = 0
    rw [h.buf, hkeep, sub32_of_le (Nat.zero_le _)]
    refine Store.blit_of_mem (Nat.le_refl _) ?_
    rw [hnsend, usbEpBufferMaxSize_eq]
    omega
  have hsent := waitIn_first hring hlen (Nat.one_ne_zero : w.txCountIn ≠ 0)
  have hbefore : w.sent = s.w.sent := h.sent
  rw [haddr, hbyte, hbefore] at hsent
  exact ⟨h.grown.trans hgrown, ⟨0, by decide, hsent⟩, h.reply.trans hgrown.reply,
    Nat.lt_of_le_of_lt hgrown.residue h.residue⟩

/-- **After the data phase** the read is spoiled. -/
theorem finishReply_several (hdir : u.dataDir = .toHost) (hsize : u.dataSize ≠ 0)
    (hstall : u.canStall = 0) (hsmall : s.residue < 2 ^ 32)
    (h : Spoiled s u ∨ Flying s u ∧ u.bulk.inLength = 0) :
    Spoiled s (u.finishReply spoiling).2 := by
  rcases h with h | ⟨h, hlength⟩
  · exact h.after (finishReply_grown spoiling hdir hsize hstall)
  have hresidue := h.residue
  have hmore := h.more
  have hpad : Spoiled s (u.padWithZeros spoiling) := by
    refine padWithZeros_rule (I := fun y ↦ Spoiled s y.s ∨
      y.currentLenToKeep = 0 ∧ y.s.usbAmountLeft ≠ 0 ∧ Flying s y.s) ?_ (.inr ⟨hlength, ?_, ?_⟩)
    · rintro y (hy | ⟨hkeep, hleft, hy⟩)
      · have hgrown := padPass_grown spoiling y
        cases hp : padPass spoiling y <;> rw [hp] at hgrown
        · exact .inl (hy.after hgrown)
        · exact hy.after hgrown
      · have hpass := padPass_spoils hkeep hleft hy
        cases hp : padPass spoiling y <;> rw [hp] at hpass
        · exact .inl hpass
        · exact hpass
    · show add32 u.bulk.inLength u.residue ≠ 0
      rw [hlength, add32_of_lt (by omega), Nat.zero_add]
      exact hmore
    · refine ⟨h.grown.trans ?_, h.queue, h.count, h.buf, h.sent, h.reply, h.residue, h.more⟩
      exact ⟨List.prefix_rfl, List.prefix_rfl, Nat.le_refl _, rfl, rfl, rfl, rfl⟩
  rw [finishReply_toHost spoiling hdir hsize hstall, if_neg hmore]
  refine hpad.after ?_
  exact ⟨List.prefix_rfl, List.prefix_rfl, Nat.le_refl _, rfl, rfl, rfl, rfl⟩

end Ums
end Usb
end SdLoader
