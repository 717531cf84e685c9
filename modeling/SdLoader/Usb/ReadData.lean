import SdLoader.Usb.InPhase
import SdLoader.Usb.Medium
import SdLoader.Usb.Wire

/-!
# The mass storage gadget: the data of a read

What the host is sent of the sectors it has asked for.

The loop of `_scsi_read` has two buffers.  It reads a chunk into one of them while the chunk before
is being sent from the other, waits for that, and starts to send the new one.  The last chunk it
leaves for `_finish_reply`.  So in between there are sectors that have been read and not sent, and
whether they are sent as they were read depends on what becomes of their buffer:

* `World.Carries` — the ring will send just these bytes, whatever becomes of the 32K from an address
  on, and whenever the controller fetches them.
* `Pumping` — what has been sent, and what the ring carries past the buffer that is filled next, is
  what has been read.
* `Fetched` — the ring is empty, and what has been sent, and what is in the buffer, is what has been
  read.
* `pumping_step` — one leads to the other, and on to the next pass.

Unless a card has to be initialised again, nothing else is written to while a chunk is on its way,
and a read inside its unit has no chunk that is followed by nothing.

* `readData` — a read that is accepted sends the contents of its sectors.
-/

set_option autoImplicit false

namespace SdLoader
namespace Usb

/-! ## The ring -/

/-- A request sends what was in its range when it was made, if that is still there. -/
theorem bytes_agree {addr len : ℕ} {early : ℕ → Bool} {first mem : ℕ → UInt8}
    (h : ∀ a, addr ≤ a → a < addr + len → mem a = first a) :
    Trb.bytes ⟨addr, len, first⟩ early mem = Store.slice first addr len := by
  rw [Trb.bytes, Store.slice]
  refine List.map_congr_left fun k hk ↦ ?_
  have hlt := List.mem_range.mp hk
  dsimp only
  rw [h (addr + k) (Nat.le_add_right _ _) (Nat.add_lt_add_left hlt addr), ite_self]

namespace World

variable {w : World} {buf : ℕ} {flight : List UInt8}

/-- The requests on the ring send `flight`, even if the buffer at `buf` is written to first. -/
def Carries (w : World) (buf : ℕ) (flight : List UInt8) : Prop :=
  ∀ (early : ℕ → Bool) (mem : ℕ → UInt8),
    (∀ a, a < buf ∨ buf + usbEpBulkInMaxXfer ≤ a → mem a = w.mem a) →
      w.inQueue.flatMap (fun t ↦ t.bytes early mem) = flight

theorem carries_nil (h : w.inQueue = []) (buf : ℕ) : w.Carries buf [] := by
  intro early mem _
  rw [h, List.flatMap_nil]

end World

/-- **A chunk that is not waited for** is carried past every other buffer. -/
theorem inWrite_carries {w : World} (env : Env) {addr len buf : ℕ} (hqueue : w.inQueue = [])
    (hlen : len ≤ usbEpBufferMaxSize)
    (hapart : addr + len ≤ buf ∨ buf + usbEpBulkInMaxXfer ≤ addr) :
    (xusbDeviceEp1InWrite env addr len false w).2.Carries buf (Store.slice w.mem addr len) := by
  have hmin : min len usbEpBufferMaxSize = len := Nat.min_eq_left hlen
  intro early mem hmem
  have hsame : (xusbDeviceEp1InWrite env addr len false w).2.mem = w.mem := by
    rw [xusbDeviceEp1InWrite, if_neg Bool.false_ne_true]
    split <;> rfl
  rw [hsame] at hmem
  have hchunk : Trb.bytes ⟨addr, len, w.mem⟩ early mem = Store.slice w.mem addr len :=
    bytes_agree fun a hlo hhi ↦ hmem a (by omega)
  have hempty : Trb.bytes ⟨addr, 0, w.mem⟩ early mem = [] := rfl
  rw [xusbDeviceEp1InWrite, if_neg Bool.false_ne_true, hmin]
  dsimp only
  split
  · show ((w.inQueue ++ [(⟨addr, len, w.mem⟩ : Trb)]) ++ [(⟨addr, 0, w.mem⟩ : Trb)]).flatMap _ = _
    rw [hqueue, List.nil_append, List.flatMap_append, List.flatMap_singleton,
      List.flatMap_singleton, hchunk, hempty, List.append_nil]
  · show (w.inQueue ++ [(⟨addr, len, w.mem⟩ : Trb)]).flatMap _ = _
    rw [hqueue, List.nil_append, List.flatMap_singleton, hchunk]

/-- A wait for all there is on the ring sends all of it. -/
theorem waitIn_all {env : Env} (hclean : Clean env) {w : World} (hcount : w.txCountIn ≠ 0)
    (hring : w.inQueue.length ≤ w.txCountIn) :
    (w.waitIn env).2.inQueue = [] ∧ (w.waitIn env).2.mem = w.mem ∧
      (w.waitIn env).2.moved = w.moved ∧ (w.waitIn env).2.selected = w.selected ∧
      (w.waitIn env).2.sent =
        w.sent ++ w.inQueue.flatMap fun t ↦ t.bytes (env w.tick).early w.mem := by
  have hall : w.inQueue.length ≤ w.txCountIn + (env w.tick).more :=
    Nat.le_trans hring (Nat.le_add_right _ _)
  rw [waitIn_clean hclean hcount]
  refine ⟨List.drop_of_length_le hall, rfl, rfl, rfl, ?_⟩
  show w.sent ++ (w.inQueue.take (w.txCountIn + (env w.tick).more)).flatMap _ = _
  rw [List.take_of_length_le hall]
  rfl

namespace Ums

variable {env : Env} {envs : ℕ → Env} {s t u : Ums} {p : MmcType × ℕ} {a lba n : ℕ} {six : Bool}
  {y : ReadLoop}

/-! ## A pass -/

/-- The command is the same, for the same unit, and has not failed. -/
structure Steady (s t : Ums) : Prop where
  dataDir : t.dataDir = s.dataDir
  dataSize : t.dataSize = s.dataSize
  state : t.state = s.state
  phase : t.phaseError = s.phaseError
  lun : t.lun = s.lun
  tag : t.tag = s.tag
  selected : t.w.selected = s.w.selected

theorem Steady.refl (s : Ums) : Steady s s := ⟨rfl, rfl, rfl, rfl, rfl, rfl, rfl⟩

theorem Steady.trans (h : Steady s t) (h' : Steady t u) : Steady s u where
  dataDir := h'.dataDir.trans h.dataDir
  dataSize := h'.dataSize.trans h.dataSize
  state := h'.state.trans h.state
  phase := h'.phase.trans h.phase
  lun := h'.lun.trans h.lun
  tag := h'.tag.trans h.tag
  selected := h'.selected.trans h.selected

/-- The buffer that is in use. -/
def bufferOf (useBuf1 : Bool) : ℕ := if useBuf1 then usbEpBulkInBufAddr else usbEpBulkOutBufAddr

/-- What holds each time the loop of a read begins a pass: what has been sent, and what the ring
carries past the current buffer, is what has been read. -/
structure Pumping (s : Ums) (p : MmcType × ℕ) (a lba n : ℕ) (y : ReadLoop) : Prop where
  some : y.amountLeft ≠ 0
  inside : y.amountLeft ≤ y.s.lun.numSectors - y.lbaOffset
  first : y.firstRead = true → y.s.w.inQueue = []
  later : y.firstRead = false → y.s.w.txCountIn ≠ 0 ∧ y.s.w.inQueue.length ≤ y.s.w.txCountIn
  steady : Steady s y.s
  blocks : y.lbaOffset + y.amountLeft = lba + n
  begun : lba ≤ y.lbaOffset
  buf : y.bufCurrent = bufferOf y.useBuf1
  residue : y.s.residue = lbaSize * y.amountLeft
  data : ∃ new flight, y.s.w.moved = new ++ s.w.moved ∧
    Covers p false a new (a + (y.lbaOffset - lba)) ∧ y.s.w.Carries y.bufCurrent flight ∧
    y.s.w.sent ++ flight = s.w.sent ++ contents new

/-- The chunk that has been read is in the buffer, and the ones before have been sent. -/
structure Fetched (s : Ums) (p : MmcType × ℕ) (a k : ℕ) (u : Ums) : Prop where
  steady : Steady s u
  queue : u.w.inQueue = []
  small : u.bulk.inLength ≤ usbEpBulkInMaxXfer
  data : ∃ new, u.w.moved = new ++ s.w.moved ∧ Covers p false a new (a + k) ∧
    u.w.sent ++ Store.slice u.w.mem u.bulk.inBuf u.bulk.inLength = s.w.sent ++ contents new

/-- A transfer that does not fail. -/
theorem access_sound (hsound : Sound env) (isWrite : Bool) (sector count buf : ℕ) (s : Ums) :
    (s.sdmmcStorageAccess env isWrite sector count buf).1 = true ∧
      Steady s (s.sdmmcStorageAccess env isWrite sector count buf).2 := by
  refine ⟨hsound.ok _, rfl, rfl, rfl, rfl, rfl, rfl, ?_⟩
  show partAfter (env s.w.tick) s.lun.type s.w.selected = s.w.selected
  rw [partAfter, if_neg]
  rintro ⟨-, hreinit⟩
  exact absurd (hreinit.symm.trans (hsound.calm _)) Bool.noConfusion

/-- The memory after a read that does not fail. -/
theorem access_mem (hsound : Sound env) (sector count buf : ℕ) (s : Ums) :
    (s.sdmmcStorageAccess env false sector count buf).2.w.mem =
      Store.blit s.w.mem buf (lbaSize * count) (env s.w.tick).bytes := by
  show accessMem (env s.w.tick) false count buf s.w.mem = _
  simp only [accessMem, hsound.calm, hsound.ok, Bool.false_eq_true, ↓reduceIte]

/-- The chunk a pass reads, and the wait for the chunk before. -/
theorem fetched_of_pumping (hclean : Clean env) (hsound : Sound env) (hloc : Located s p a lba n)
    (h : Pumping s p a lba n y) {c : ℕ} (hc : c ≤ 64) :
    Fetched s p a (y.lbaOffset + c - lba) (readChunk env y c (y.s.sdmmcStorageAccess env false
      (add32 y.s.lun.offset y.lbaOffset) c y.bufCurrent).2) := by
  obtain ⟨new, flight, hmoved, hcovers, hcarries, hsent⟩ := h.data
  obtain ⟨hplace, hstart, hsectors⟩ := hloc
  have hsome := h.some
  have hblocks := h.blocks
  have hbegun := h.begun
  have hlun := h.steady.lun
  obtain ⟨-, hsteady⟩ := access_sound hsound false (add32 y.s.lun.offset y.lbaOffset) c
    y.bufCurrent y.s
  have hmem := access_mem hsound (add32 y.s.lun.offset y.lbaOffset) c y.bufCurrent y.s
  have hsector : add32 y.s.lun.offset y.lbaOffset = a + (y.lbaOffset - lba) := by
    rw [hlun, add32_of_lt (by omega)]
    omega
  rw [hsector] at hsteady hmem ⊢
  set t := (y.s.sdmmcStorageAccess env false (a + (y.lbaOffset - lba)) c y.bufCurrent).2 with ht
  -- What has been read is on record.
  set new' : Transfer := ⟨y.s.lun.type, t.w.selected, false, a + (y.lbaOffset - lba),
    Store.slice t.w.mem y.bufCurrent (lbaSize * c)⟩ with hnew'
  have htmoved : t.w.moved = (new' :: new) ++ s.w.moved := by
    show (if (env y.s.w.tick).ok then new' :: y.s.w.moved else y.s.w.moved) = _
    rw [if_pos (hsound.ok _), hmoved]
    rfl
  have hnewplace : new'.place = p := by
    rw [← hplace, ← hlun, ← h.steady.selected, ← hsteady.selected]
    rfl
  have hcovers' : Covers p false a (new' :: new) (a + (y.lbaOffset + c - lba)) := by
    refine ⟨hnewplace, rfl, hcovers, ?_⟩
    show _ = lbaSize * (a + (y.lbaOffset - lba)) +
      (Store.slice t.w.mem y.bufCurrent (lbaSize * c)).length
    rw [Store.length_slice, lbaSize_eq]
    omega
  have hagree : ∀ x, x < y.bufCurrent ∨ y.bufCurrent + usbEpBulkInMaxXfer ≤ x →
      t.w.mem x = y.s.w.mem x := by
    intro x hx
    rw [hmem]
    refine Store.blit_of_not_mem ?_
    rw [lbaSize_eq]
    rw [usbEpBulkInMaxXfer_eq] at hx
    omega
  have hsmall : c * lbaSize ≤ usbEpBulkInMaxXfer := by
    rw [lbaSize_eq, usbEpBulkInMaxXfer_eq]
    omega
  have hcount : c * lbaSize = lbaSize * c := Nat.mul_comm _ _
  cases hfirst : y.firstRead with
  | true =>
    have hqueue := h.first hfirst
    have hnone : flight = [] := by
      rw [← hcarries (fun _ ↦ true) y.s.w.mem fun _ _ ↦ rfl, hqueue, List.flatMap_nil]
    rw [readChunk, hfirst]
    refine ⟨h.steady.trans ⟨rfl, rfl, rfl, rfl, rfl, rfl, hsteady.selected⟩, hqueue, hsmall,
      new' :: new, htmoved, hcovers', ?_⟩
    rw [hnone, List.append_nil] at hsent
    show y.s.w.sent ++ Store.slice t.w.mem y.bufCurrent (c * lbaSize) = _
    rw [hsent, hcount, contents, List.append_assoc]
  | false =>
    obtain ⟨hpending, hring⟩ := h.later hfirst
    obtain ⟨hqueue, hwmem, hwmoved, hwsel, hwsent⟩ := waitIn_all hclean (w := t.w) hpending hring
    rw [readChunk, hfirst]
    refine ⟨h.steady.trans ⟨rfl, rfl, rfl, rfl, rfl, rfl, hwsel.trans hsteady.selected⟩, hqueue,
      hsmall, new' :: new, hwmoved.trans htmoved, hcovers', ?_⟩
    have hflight : (t.w.inQueue.flatMap fun r ↦ r.bytes (env t.w.tick).early t.w.mem) = flight :=
      hcarries (env t.w.tick).early t.w.mem hagree
    show (t.w.waitIn env).2.sent ++
      Store.slice (t.w.waitIn env).2.mem y.bufCurrent (c * lbaSize) = _
    rw [hwsent, hwmem, hflight, hcount, contents]
    show y.s.w.sent ++ flight ++ _ = _
    rw [hsent, List.append_assoc]

theorem readChunk_lun (env : Env) (y : ReadLoop) (c : ℕ) (t : Ums) :
    (readChunk env y c t).lun = t.lun ∧ (readChunk env y c t).residue = t.residue - c * lbaSize ∧
      (readChunk env y c t).bulk.inBuf = y.bufCurrent ∧
      (readChunk env y c t).bulk.inLength = c * lbaSize := by
  rw [readChunk]
  cases y.firstRead <;> exact ⟨rfl, rfl, rfl, rfl⟩

/-- The two buffers do not overlap. -/
theorem bufferOf_apart (useBuf1 : Bool) :
    bufferOf useBuf1 + usbEpBulkInMaxXfer ≤ bufferOf (!useBuf1) ∨
      bufferOf (!useBuf1) + usbEpBulkInMaxXfer ≤ bufferOf useBuf1 := by
  cases useBuf1
  · exact .inr (by decide)
  · exact .inl (by decide)

/-- A request that is not waited for has sent nothing yet. -/
theorem transferStartIn_pushes (env : Env) (u : Ums) :
    Steady u (u.transferStartIn env false) ∧
      (u.transferStartIn env false).w.moved = u.w.moved ∧
      (u.transferStartIn env false).w.sent = u.w.sent := by
  set w := (xusbDeviceEp1InWrite env u.bulk.inBuf u.bulk.inLength false u.w).2 with hw
  have hsame : w.moved = u.w.moved ∧ w.sent = u.w.sent ∧ w.selected = u.w.selected := by
    rw [hw, xusbDeviceEp1InWrite, if_neg Bool.false_ne_true]
    split <;> exact ⟨rfl, rfl, rfl⟩
  exact ⟨⟨rfl, rfl, rfl, rfl, rfl, rfl, hsame.2.2⟩, hsame.1, hsame.2.1⟩

/-- **The step lemma.**  A pass goes round to another one like it, or leaves the last chunk in the
buffer. -/
theorem pumping_step (hclean : Clean env) (hsound : Sound env) (hloc : Located s p a lba n)
    (h : Pumping s p a lba n y) :
    (readPass env 64 y).All (Pumping s p a lba n) (fun u ↦ Fetched s p a n u ∧ u.residue = 0) := by
  have hsome := h.some
  have hinside := h.inside
  have hblocks := h.blocks
  have hbegun := h.begun
  have hresidue := h.residue
  obtain ⟨c, hc⟩ : ∃ c, c = min (min y.amountLeft 64) (y.s.lun.numSectors - y.lbaOffset) := ⟨_, rfl⟩
  have hpos : c ≠ 0 := by omega
  have hfetched := fetched_of_pumping hclean hsound hloc h (c := c) (by omega)
  obtain ⟨hok, -⟩ := access_sound hsound false (add32 y.s.lun.offset y.lbaOffset) c
    y.bufCurrent y.s
  rw [readPass]
  dsimp only
  rw [← hc, if_neg hpos]
  have hres : (y.s.sdmmcStorageAccess env false (add32 y.s.lun.offset y.lbaOffset) c
    y.bufCurrent).2.residue = y.s.residue := rfl
  rcases hr : y.s.sdmmcStorageAccess env false (add32 y.s.lun.offset y.lbaOffset) c
    y.bufCurrent with ⟨_ | _, t⟩ <;> rw [hr] at hok hfetched hres
  · cases hok
  dsimp only at hfetched hres ⊢
  obtain ⟨-, hleft, hbuf, hlength⟩ := readChunk_lun env y c t
  rw [hres, hresidue, lbaSize_eq] at hleft
  split
  · next hlast =>
    have hall : y.lbaOffset + c - lba = n := by omega
    rw [hall] at hfetched
    exact ⟨hfetched, by omega⟩
  · next hmore =>
    obtain ⟨new, hmoved, hcovers, hsent⟩ := hfetched.data
    set u := readChunk env y c t with hu
    have hsmall := hfetched.small
    have hapart := bufferOf_apart y.useBuf1
    rw [← h.buf, ← hbuf] at hapart
    obtain ⟨hsteady, hkept, hquiet⟩ := transferStartIn_pushes env u
    obtain ⟨rest, hqueue, hcount, -⟩ := inWrite_queue (w := u.w) env u.bulk.inBuf u.bulk.inLength
      hfetched.queue
    have hsectors : u.lun.numSectors = y.s.lun.numSectors := by
      rw [hfetched.steady.lun, h.steady.lun]
    refine ⟨hmore, ?_, fun hfirst ↦ absurd hfirst Bool.false_ne_true, fun _ ↦ ⟨?_, ?_⟩,
      hfetched.steady.trans hsteady, ?_, Nat.le_add_right_of_le hbegun, rfl, ?_,
      new, Store.slice u.w.mem u.bulk.inBuf u.bulk.inLength, hkept.trans hmoved, hcovers, ?_, ?_⟩
    · show y.amountLeft - c ≤ u.lun.numSectors - (y.lbaOffset + c)
      omega
    · exact fun hzero ↦ absurd (hcount.symm.trans hzero) (Nat.succ_ne_zero _)
    · exact Nat.le_of_eq ((congrArg List.length hqueue).trans hcount.symm)
    · show y.lbaOffset + c + (y.amountLeft - c) = lba + n
      omega
    · show u.residue = lbaSize * (y.amountLeft - c)
      rw [lbaSize_eq]
      omega
    · refine inWrite_carries env hfetched.queue ?_ ?_
      · rw [usbEpBufferMaxSize_eq]
        rw [usbEpBulkInMaxXfer_eq] at hsmall
        omega
      · show u.bulk.inBuf + u.bulk.inLength ≤ bufferOf (!y.useBuf1) ∨
          bufferOf (!y.useBuf1) + usbEpBulkInMaxXfer ≤ u.bulk.inBuf
        omega
    · show (u.transferStartIn env false).w.sent ++ _ = _
      rw [hquiet, hsent]

/-! ## The command -/

/-- **The run lemma**: what the loop of a read leaves. -/
theorem readLoop_fetched (hclean : Clean env) (hsound : Sound env) (hloc : Located s p a lba n)
    (h : Pumping s p a lba n y) : Fetched s p a n (readLoop env y) ∧ (readLoop env y).residue = 0 :=
  readLoop_rule (fun _ hz ↦ pumping_step hclean hsound hloc hz) h

/-- **The law.**  The data phase of the command is over, the host has been sent the `n` blocks from
`lba` on, as the media held them when the command was received, and the command has passed, which is
what the status wrapper says that is sent next. -/
def ReadLaw (s : Ums) (lba n : ℕ) (g : Gadget) : Prop :=
  ∃ u, g = .status u ∧ u.Passes ∧ (∀ k, g.Reports k s.tag 0 0) ∧ u.w.inQueue = [] ∧
    ∀ m : Media, m.Consistent u.w.moved →
    u.w.sent = s.w.sent ++ Store.slice (m.after s.w.moved s.lun.place)
      (lbaSize * (s.lun.offset + lba)) (lbaSize * n)

/-- A read that is accepted is carried out. -/
theorem readsFrom_of_addresses (hcmd : s.cmd.readSix = some six) (h : Addresses s six lba n)
    (hlim : Limits s t n) : ReadsFrom s ⟨lba, n, true, true, usbEpBulkInBufAddr, t⟩ := by
  have hpos := h.some
  have hinside := h.inside
  have hsame : s.checked.2 = t := by rw [hlim.checked]
  have hstart := h.start
  rw [hsame] at hstart
  refine ⟨hlim.checked, ⟨six, hcmd, hstart⟩, ?_, ?_, hpos, rfl⟩
  · show lba < t.lun.numSectors
    rw [LogicalUnit.static_numSectors hlim.lun]
    omega
  · show n = t.dataSizeFromCmnd / lbaSize
    rw [hlim.amount, lbaSize_eq]
    omega

/-- The loop of a read as it is entered. -/
theorem pumping_start (h : Addresses s six lba n) (hlim : Limits s t n) (hqueue : t.w.inQueue = [])
    (p : MmcType × ℕ) :
    Pumping t p (s.lun.offset + lba) lba n ⟨lba, n, true, true, usbEpBulkInBufAddr, t⟩ where
  some := h.some
  inside := by
    have hinside := h.inside
    show n ≤ t.lun.numSectors - lba
    rw [LogicalUnit.static_numSectors hlim.lun]
    omega
  first := fun _ ↦ hqueue
  later := fun hlater ↦ absurd hlater Bool.noConfusion
  steady := .refl t
  blocks := rfl
  begun := Nat.le_refl _
  buf := rfl
  residue := hlim.residue
  data := by
    refine ⟨[], [], rfl, ?_, World.carries_nil hqueue _, rfl⟩
    show s.lun.offset + lba + (lba - lba) = s.lun.offset + lba
    omega

theorem waitIn_moved (env : Env) (w : World) :
    (w.waitIn env).2.moved = w.moved ∧ (w.waitIn env).2.selected = w.selected := by
  rw [World.waitIn]
  dsimp only
  split
  · exact ⟨rfl, rfl⟩
  · split <;> exact ⟨rfl, rfl⟩

/-- **The last chunk** is sent by `_finish_reply`. -/
theorem finishReply_fetched {k : ℕ} (hclean : Clean env) (h : Fetched s p a k u)
    (hresidue : u.residue = 0) (hdir : u.dataDir = .toHost) (hsize : u.dataSize ≠ 0) :
    ∃ v, u.finishReply env = (false, v) ∧ Steady s v ∧ v.residue = 0 ∧ v.w.inQueue = [] ∧
      ∃ new, v.w.moved = new ++ s.w.moved ∧ Covers p false a new (a + k) ∧
        v.w.sent = s.w.sent ++ contents new := by
  obtain ⟨new, hmoved, hcovers, hsent⟩ := h.data
  have hsmall := h.small
  obtain ⟨hqueue, hgone, -, -⟩ := transferStartIn_clean hclean h.queue
  set v := u.transferStartIn env true with hv
  have hfinish : u.finishReply env = (false, v.resetBufferIn) := by
    rw [finishReply, hdir]
    show (false, (u.sendReply env).resetBufferIn) = _
    rw [sendReply, if_neg hsize, if_pos (.inl hresidue)]
  set w : World := { u.w with txCountIn := 0 }.pushIn u.bulk.inBuf
    (min u.bulk.inLength usbEpBufferMaxSize) with hw
  have hwait : v.w = (w.waitIn env).2 := rfl
  obtain ⟨hkept, hselected⟩ := waitIn_moved env w
  rw [← hwait] at hkept hselected
  have hsteady : Steady u v.resetBufferIn := ⟨rfl, rfl, rfl, rfl, rfl, rfl, hselected⟩
  have hmin : min u.bulk.inLength usbEpBufferMaxSize = u.bulk.inLength := by
    rw [usbEpBufferMaxSize_eq]
    rw [usbEpBulkInMaxXfer_eq] at hsmall
    omega
  rw [hmin, hsent] at hgone
  exact ⟨v.resetBufferIn, hfinish, h.steady.trans hsteady, hresidue, hqueue, new,
    hkept.trans hmoved, hcovers, hgone⟩

theorem Fetched.polled {k : ℕ} (h : Fetched s p a k u) : Fetched s p a k u.polled :=
  ⟨h.steady.trans ⟨rfl, rfl, rfl, rfl, rfl, rfl, rfl⟩, h.queue, h.small, h.data⟩

theorem Passes.of_steady (h : Steady t u) (hlim : Limits s t n) (hresidue : u.residue = 0) :
    u.Passes := by
  refine passes_of_sense hresidue (h.phase.trans hlim.phase) ?_
  rw [h.lun]
  exact hlim.sense

/-- The wrapper of a command that has passed. -/
theorem Passes.reports (h : u.Passes) (htag : u.tag = s.tag) (k : Env) :
    (Gadget.status u).Reports k s.tag 0 0 := by
  have hreports := Gadget.status_reports k u
  rwa [h.residue, h.status, htag] at hreports

/-- **A read that is accepted meets the law**, if its unit is the one whose partition is selected
and nothing is left on the ring. -/
theorem until_readLaw (hready : s.Ready) (hal : Aligned s) (hidx : s.lunIdx < s.lunCnt)
    (hqueue : s.w.inQueue = []) (hcmd : s.cmd.readSix = some six)
    (haddr : Addresses s.polled six lba n) (henvs : ∀ k, Clean (envs k) ∧ Sound (envs k)) :
    Machine.Until Gadget.step Gadget.Over (ReadLaw s lba n) (.parse s) envs := by
  have hcmd' : s.polled.cmd.readSix = some six := hcmd
  have hlim : Limits s.polled s.polled.checked.2 n := haddr.limits hready.small (.inl hcmd')
  set t := s.polled.checked.2 with ht
  have hread := readsFrom_of_addresses hcmd' haddr hlim
  have htqueue : t.w.inQueue = [] := by
    rw [hlim.kept.inQueue, limitData_w]
    exact hqueue
  have hloc := located_of_limits hal hidx haddr hlim
  have hdir := hread.dataDir
  have hstate : t.state = .normal := hlim.kept.state.trans ((limitData_state _).trans hready.state)
  have hsize : t.dataSize ≠ 0 := by
    rw [hlim.kept.dataSize, limitData_dataSize]
    show s.dataSize ≠ 0
    have hannounced : s.dataSize = lbaSize * n := haddr.announced
    have hsome := haddr.some
    rw [hannounced, lbaSize_eq]
    omega
  -- The loop is gone through in one step.
  obtain ⟨hfetched, hresidue⟩ := readLoop_fetched (henvs 0).1 (henvs 0).2 hloc
    (pumping_start haddr hlim htqueue s.lun.place)
  set u := readLoop (envs 0) ⟨lba, n, true, true, usbEpBulkInBufAddr, t⟩ with hu
  have hparsed : Gadget.parsed (u.setUpReply .ioError) = .reply u := by
    rw [setUpReply, Gadget.parsed, if_neg (not_not_intro (hfetched.steady.state.trans hstate))]
  rw [Machine.until_step (fun hover : Gadget.Over (.parse s) ↦ hover), Gadget.step,
    handleEp0Ctrl_quiet (henvs 0).1.quiet, parse_of_readsFrom _ hread]
  dsimp only
  rw [hparsed, Machine.until_step (fun hover : Gadget.Over (.reply u) ↦ hover), Gadget.step,
    handleEp0Ctrl_quiet (henvs (0 + 1)).1.quiet]
  -- The last chunk is sent, and then the status is due.
  obtain ⟨v, hfinish, hsteady, hres, hempty, new, hmoved, hcovers, hsent⟩ :=
    finishReply_fetched (henvs (0 + 1)).1 hfetched.polled hresidue
      (hfetched.steady.dataDir.trans hdir) (by rw [polled, hfetched.steady.dataSize]; exact hsize)
  rw [hfinish]
  dsimp only
  have hstay : ¬ decide (v.state ≠ .normal) = true := by
    rw [decide_eq_true_eq, hsteady.state, hstate]
    exact not_not_intro rfl
  rw [Bool.false_or, if_neg hstay, Machine.until_of_stop (trivial : Gadget.Over (.status v))]
  have hpasses : v.Passes := .of_steady hsteady hlim hres
  have htag : v.tag = s.tag := hsteady.tag.trans hlim.tag
  refine ⟨v, rfl, hpasses, hpasses.reports htag, hempty, fun m hm ↦ ?_⟩
  have hbefore : t.w.moved = s.w.moved := hlim.moved
  have hlength := hcovers.length
  rw [hmoved, hbefore] at hm
  obtain ⟨hcontents, -⟩ := contents_of_reads hcovers hm.append
  have hwhole : (contents new).length = lbaSize * n := by
    rw [lbaSize_eq] at hlength ⊢
    omega
  have htsent : t.w.sent = s.w.sent := by
    rw [hlim.kept.sent, limitData_w]
    rfl
  rw [hsent, htsent, hcontents, hwhole]

end Ums

/-- **The data of a read.**  In a session in which the storages have not failed, and the host sends
a command block when it has received everything, a read that is accepted, of blocks inside its unit,
sends the contents of their sectors, all of them and nothing else, and passes, unless the bus or the
storage fails. -/
theorem readData {volumes : List Volume} {secCnt : MmcType → ℕ} {g : Gadget} {past : List Env}
    {s : Ums} {six : Bool} {lba n : ℕ} {envs : ℕ → Env} (hg : Starts volumes secCnt g)
    (halong : Machine.Along Gadget.step (fun g env ↦ g.Settled env ∧ g.Collects env) g past)
    (hrun : Machine.run Gadget.step g past = .parse s) (hcmd : s.cmd.readSix = some six)
    (haddr : s.polled.Addresses six lba n) (henvs : ∀ k, Clean (envs k) ∧ Sound (envs k)) :
    Machine.Until Gadget.step Gadget.Over (s.ReadLaw lba n) (.parse s) envs := by
  have hready : s.Ready := Gadget.ready_of_reachable ⟨g, past, hg, hrun⟩
  obtain ⟨hal, hidx⟩ := Gadget.aligned_of_settled hg (halong.mono fun _ _ h ↦ h.1) hrun
  have hqueue := Gadget.inQueue_of_collects hg (halong.mono fun _ _ h ↦ h.2) hrun
  exact Ums.until_readLaw hready hal hidx hqueue hcmd haddr henvs

/-- A volume of 0x200 sectors on the SD card. -/
def wideVolume : Volume := ⟨.sd, 0, 0x100, 0x200, 0⟩

/-- A command is carried out, and then the host announces a read of 100 blocks. -/
def announcesChunks : List Env :=
  firstCommand 0 ++ [hears (wrapper 51200 0x80 0 [0x28, 0, 0, 0, 0, 5, 0, 0, 100, 0])]

/-- A hundred blocks are read, in two chunks. -/
def chunkedRead : Ums := (Machine.run Gadget.step (firstGadget [wideVolume]) announcesChunks).ums

theorem readData_chunkedRead :
    Machine.Until Gadget.step Gadget.Over (chunkedRead.ReadLaw 5 100) (.parse chunkedRead)
      fun _ ↦ calmly := by
  have halong : Machine.Along Gadget.step (fun g env ↦ g.Settled env ∧ g.Collects env)
      (firstGadget [wideVolume]) announcesChunks :=
    ⟨⟨fun _ ↦ rfl, Gadget.collects_of_ums rfl⟩, ⟨fun _ _ _ _ ↦ rfl, Gadget.collects_of_ums rfl⟩,
      ⟨trivial, Gadget.collects_of_ums rfl⟩, ⟨trivial, Gadget.collects_of_ums rfl⟩,
      ⟨fun _ ↦ rfl, Gadget.collects_of_ums rfl⟩, trivial⟩
  have haddr : chunkedRead.polled.Addresses false 5 100 :=
    ⟨rfl, rfl, rfl, by decide, rfl, by decide, by decide⟩
  exact readData (starts_firstGadget (by decide)) halong rfl rfl haddr
    fun _ ↦ ⟨Ums.clean_calmly, sound_calmly⟩

end Usb
end SdLoader
