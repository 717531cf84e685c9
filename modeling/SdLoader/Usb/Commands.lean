import SdLoader.Usb.Effect

/-!
# The mass storage gadget: what its commands do

One lemma for each command handler, in terms of `Does`.  A handler that replies writes to the start
of the bulk-IN buffer and does no more; the three that reach a storage go through loops, and what a
pass of each does is what the loop does.

`parseScsiCmd_does` puts them together: a parsed command has read, if it has accessed the storage at
all, and only if it has passed the checks of a command that needs the medium.
-/

set_option autoImplicit false

namespace SdLoader
namespace Usb
namespace Ums

variable {env : Env} {A : Bool → Prop} {B : Prop} {s s' : Ums}

/-- No transfers at all. -/
def never (_ : Bool) : Prop := False

/-- Transfers from the storage only. -/
def reads (isWrite : Bool) : Prop := isWrite = false

/-- Transfers to the storage only. -/
def writes (isWrite : Bool) : Prop := isWrite = true

/-! ## Replies -/

theorem refuse_does (code : ℕ) : Does env A B s (s.refuse code).2 := sense_does code s

theorem replyWith_does {n : ℕ} {l : List UInt8} (hlen : l.length ≤ 0x8000) :
    Does env A (Buffers s) s (s.replyWith n l).2 :=
  (put_does hlen).trans (quiet_does rfl)

theorem length_padTo (n : ℕ) (c : UInt8) (t : List UInt8) :
    (padTo n c t).length = max n t.length := by
  rw [padTo, List.length_append, List.length_replicate]
  omega

theorem length_hex04_le (v : ℕ) : (hex04 v).length ≤ 8 := by
  have h := (List.dropWhile_sublist (· = hexDigit 0)
    (l := (([7, 6, 5, 4, 3, 2, 1, 0] : List ℕ).map
      fun i ↦ hexDigit (v / 16 ^ i % 16)).take 4)).length_le
  rw [hex04, List.length_append]
  simp only [List.map_cons, List.map_nil, List.take_succ_cons, List.take_zero, List.length_cons,
    List.length_nil] at h ⊢
  simp only [List.drop_succ_cons, List.drop_zero, List.length_cons, List.length_nil]
  omega

theorem length_volumeName_le (p : ℕ) : ((volumeName p).getD []).length ≤ 5 := by
  unfold volumeName
  split <;> decide

theorem length_serialText_le (s : Ums) : s.serialText.length ≤ 19 := by
  have hhex := length_hex04_le (s.w.serial s.lun.type)
  have hname := length_volumeName_le s.lun.partition
  have htype : (ascii (if s.lun.type = .sd then " SD " else " eMMC ")).length ≤ 6 := by
    split <;> decide
  have hpart : (if s.lun.partition = 0 then ascii "RAW"
      else (volumeName s.lun.partition).getD []).length ≤ 5 := by
    split
    · decide
    · exact hname
  rw [serialText, List.length_append, List.length_append]
  omega

theorem length_productId_le (s : Ums) : s.productId.length ≤ 10 := by
  have htype : (ascii (if s.lun.type = .sd then "SD " else "eMMC ")).length ≤ 5 := by
    split <;> decide
  have hname := length_volumeName_le s.lun.partition
  rw [productId]
  split
  · decide
  · split
    · next t h =>
      rw [h] at hname
      rw [List.length_append]
      exact Nat.add_le_add htype hname
    · decide

theorem scsiInquiry_does : Does env A (Buffers s) s s.scsiInquiry.2 := by
  have hserial := length_serialText_le s
  have hproduct := length_productId_le s
  rw [scsiInquiry]
  split
  · refine replyWith_does ?_
    simp only [length_padTo, List.length_append, List.length_cons, List.length_nil]
    omega
  · refine replyWith_does ?_
    have hvendor : (ascii "hekate").length = 6 := by decide
    have hrev : (ascii "1.00").length = 4 := by decide
    simp only [length_padTo, List.length_append, List.length_cons, List.length_nil, hvendor, hrev]
    omega

theorem scsiRequestSense_does : Does env A (Buffers s) s s.scsiRequestSense.2 :=
  (setLun_does rfl rfl).trans ((replyWith_does (by simp [toBe32, toBe16])).mono (fun _ h ↦ h)
    (fun h ↦ h) fun h ↦ ⟨h.out, h.into⟩)

theorem scsiReadCapacity_does : Does env A (Buffers s) s s.scsiReadCapacity.2 := by
  rw [scsiReadCapacity]
  split
  · exact refuse_does _
  · exact replyWith_does (by simp [toBe32, toBe16])

theorem scsiLogSense_does : Does env A (Buffers s) s s.scsiLogSense.2 := by
  have hput : Does env A (Buffers s) s (s.put (List.replicate 8 0)) := put_does (by decide)
  rw [scsiLogSense]
  split
  · exact refuse_does _
  split
  · exact refuse_does _
  split
  · exact replyWith_does (by decide)
  split
  · exact replyWith_does (by decide)
  · exact hput.trans (refuse_does _)

theorem length_cachingPage (changeable : Bool) : (cachingPage changeable).length = 20 := by
  cases changeable <;> decide

theorem scsiModeSense_does (six : Bool) : Does env A (Buffers s) s (s.scsiModeSense six).2 := by
  rw [scsiModeSense]
  dsimp only
  split
  · exact refuse_does _
  split
  · exact refuse_does _
  split
  · split
    · exact replyWith_does (by simp [length_cachingPage])
    · exact replyWith_does (by simp [length_cachingPage, toBe16])
  · refine (put_does ?_).trans (refuse_does _)
    split <;> simp

theorem scsiReadFormatCapacities_does : Does env A (Buffers s) s s.scsiReadFormatCapacities.2 :=
  replyWith_does (by simp [toBe32, toBe16])

theorem scsiPreventAllowRemoval_does : Does env A B s s.scsiPreventAllowRemoval.2 := by
  rw [scsiPreventAllowRemoval]
  split
  · exact refuse_does _
  split
  · exact refuse_does _
  · show Does env A B s (s.setLun fun l ↦
      { l with preventMediumRemoval := (s.cmnd 4 &&& 1).toNat })
    exact setLun_does rfl rfl

/-- An ejected unit stays in the table, without its medium. -/
theorem unmount_does :
    Does env never B s (s.setLun fun l ↦ { l with unmounted := true }) where
  lunIdx := rfl
  lunCnt := rfl
  tag := rfl
  static i := by
    rw [setLun]
    dsimp only
    rcases eq_or_ne i s.lunIdx with rfl | hne
    · rw [Function.update_self]
      rfl
    · rw [Function.update_of_ne hne]
  unmounted h := absurd h.choose_spec id
  buffers h := ⟨h.out, h.into⟩
  selected := .inl rfl
  partition h := h
  log := ⟨[], rfl, fun _ h ↦ absurd h List.not_mem_nil⟩

theorem scsiStartStop_does : Does env never B s s.scsiStartStop.2 := by
  rw [scsiStartStop]
  dsimp only
  split
  · exact refuse_does _
  split
  · exact refuse_does _
  split
  · split
    · exact refuse_does _
    · exact .refl s
  split
  · exact refuse_does _
  split
  · exact .refl s
  · exact unmount_does.trans (quiet_does rfl)

/-! ## Reading -/

theorem maxIoTransfer_eq (n : ℕ) : maxIoTransfer n = 64 := by
  by_cases h : 0x80000 / lbaSize ≤ n <;> simp only [maxIoTransfer, h, ↓reduceIte] <;> rfl

/-- A chunk fits into either buffer. -/
theorem chunk_inBounds {buf count : ℕ} (hbuf : buf = usbEpBulkInBufAddr ∨ buf = usbEpBulkOutBufAddr)
    (hcount : count ≤ 64) : (Event.fill buf (lbaSize * count)).InBounds := by
  rw [Event.InBounds, Event.region, usbEpBulkInBufAddr_eq, xusbRingAddr_eq, lbaSize_eq]
  rcases hbuf with rfl | rfl <;> simp only [usbEpBulkInBufAddr_eq, usbEpBulkOutBufAddr_eq] <;>
    omega

theorem readChunk_does {x : ReadLoop} (amount : ℕ) {t : Ums}
    (hbuf : x.bufCurrent = usbEpBulkInBufAddr ∨ x.bufCurrent = usbEpBulkOutBufAddr) :
    Does env A B t (readChunk env x amount t) := by
  have hwait : Does env A B t (if x.firstRead then t else t.transferFinishIn env) := by
    split
    · exact .refl t
    · exact transferFinishIn_does env
  exact hwait.trans (Same.does_quiet ⟨rfl, rfl, rfl, rfl, rfl, .inr hbuf, rfl, rfl⟩ rfl)

/-- What holds each time the loop of a read begins a pass. -/
structure ReadInv (env : Env) (s : Ums) (x : ReadLoop) : Prop where
  does : Does env reads (Buffers s) s x.s
  lba : x.lbaOffset ≤ s.lun.numSectors
  buf : x.bufCurrent = usbEpBulkInBufAddr ∨ x.bufCurrent = usbEpBulkOutBufAddr

theorem readPass_does {x : ReadLoop} (h : ReadInv env s x) :
    (readPass env 64 x).All (ReadInv env s) (Does env reads (Buffers s) s) := by
  have hnum : x.s.lun.numSectors = s.lun.numSectors :=
    LogicalUnit.static_numSectors h.does.lun_static
  have hlba := h.lba
  rw [readPass]
  set amount := min (min x.amountLeft 64) (x.s.lun.numSectors - x.lbaOffset) with hamount
  by_cases hzero : amount = 0
  · simp only [hzero, ↓reduceIte]
    exact (h.does.trans (senseAt_does _ _ _)).trans
      (quiet_does rfl)
  simp only [hzero, ↓reduceIte]
  have hpos : 0 < amount := Nat.pos_of_ne_zero hzero
  have hle : x.lbaOffset + amount ≤ x.s.lun.numSectors := by omega
  have hfits : amount ≤ 64 := by omega
  have hacc : Does env reads (Buffers s) x.s (x.s.sdmmcStorageAccess env false
      (add32 x.s.lun.offset x.lbaOffset) amount x.bufCurrent).2 :=
    sdmmcStorageAccess_does rfl hpos hle fun _ ↦ chunk_inBounds h.buf hfits
  rcases hr : x.s.sdmmcStorageAccess env false (add32 x.s.lun.offset x.lbaOffset) amount
    x.bufCurrent with ⟨_ | _, s₁⟩ <;> rw [hr] at hacc
  · exact ((h.does.trans hacc).trans (readChunk_does 0 h.buf)).trans (senseAt_does _ _ _)
  have hchunk := (h.does.trans hacc).trans (readChunk_does amount h.buf)
  dsimp only
  split
  · exact hchunk
  refine ⟨hchunk.trans (transferStartIn_does env false fun _ ↦ ?_), hnum ▸ hle, ?_⟩
  · -- What is sent is the chunk that has just been read.
    have hregion := chunk_inBounds h.buf hfits
    rw [Nat.mul_comm] at hregion
    exact ⟨hregion.1, Nat.le_trans (Nat.add_le_add_left (Nat.min_le_left _ _) _) hregion.2⟩
  · cases x.useBuf1
    · exact .inl rfl
    · exact .inr rfl

theorem readLoop_does {x : ReadLoop} (h : ReadInv env s x) :
    Does env reads (Buffers s) s (readLoop env x) := by
  have hrun := Loop.run_all (fun x hx ↦ readPass_does hx) h (x.amountLeft + 1)
  rw [readLoop, maxIoTransfer_eq]
  refine hrun.elim ?_ ?_
  · intro x hx
    exact hx.does
  · intro r hr
    exact hr

theorem scsiRead_does (six : Bool) :
    Does env reads (Buffers s) s (s.scsiRead env six).2 := by
  rw [scsiRead]
  split
  · exact refuse_does _
  split
  · exact refuse_does _
  · next hlba =>
    dsimp only
    split
    · exact .refl s
    · exact readLoop_does ⟨.refl s, Nat.le_of_not_le hlba, .inl rfl⟩

/-! ## Verifying -/

/-- The first transfer of a verification fits behind the bulk-IN pointer. -/
def VerifyFits (s : Ums) : Prop :=
  s.bulk.inBuf = usbEpBulkInBufAddr ∨ be16 s.cmnd 7 ≤ 64 ∨
    s.lun.numSectors - be32 s.cmnd 2 ≤ 64

/-- What holds each time the loop of a verification begins a pass. -/
structure VerifyInv (env : Env) (s : Ums) (x : VerifyLoop) : Prop where
  does : Does env reads (Buffers s ∧ VerifyFits s) s x.s
  lba : x.lbaOffset ≤ s.lun.numSectors
  buf : x.s.bulk.inBuf = s.bulk.inBuf
  fits : VerifyFits s → s.bulk.inBuf = usbEpBulkInBufAddr ∨ x.verificationLength ≤ 64 ∨
    s.lun.numSectors - x.lbaOffset ≤ 64

theorem sdmmcStorageAccess_bulk (isWrite : Bool) (sector count buf : ℕ) (t : Ums) :
    (t.sdmmcStorageAccess env isWrite sector count buf).2.bulk = t.bulk :=
  rfl

theorem verifyPass_does {x : VerifyLoop} (h : VerifyInv env s x) :
    (verifyPass env x).All (VerifyInv env s) (Does env reads (Buffers s ∧ VerifyFits s) s) := by
  have hnum : x.s.lun.numSectors = s.lun.numSectors :=
    LogicalUnit.static_numSectors h.does.lun_static
  have hlba := h.lba
  rw [verifyPass]
  split
  · exact h.does
  set amount := min (min x.verificationLength (usbEpBufferMaxSize / lbaSize))
    (x.s.lun.numSectors - x.lbaOffset) with hamount
  have hmost : usbEpBufferMaxSize / lbaSize = 128 := rfl
  rw [hmost] at hamount
  by_cases hzero : amount = 0
  · simp only [hzero, ↓reduceIte]
    exact h.does.trans (senseAt_does _ _ _)
  simp only [hzero, ↓reduceIte]
  have hpos : 0 < amount := Nat.pos_of_ne_zero hzero
  have hle : x.lbaOffset + amount ≤ x.s.lun.numSectors := by omega
  have hacc : Does env reads (Buffers s ∧ VerifyFits s) x.s (x.s.sdmmcStorageAccess env false
      (add32 x.s.lun.offset x.lbaOffset) amount x.s.bulk.inBuf).2 := by
    refine sdmmcStorageAccess_does rfl hpos hle fun ⟨hbuf, hfits⟩ ↦ ?_
    rw [h.buf]
    rcases h.fits hfits with hin | hlen | hlast
    · rw [Event.InBounds, Event.region, hin, xusbRingAddr_eq, usbEpBulkInBufAddr_eq, lbaSize_eq]
      omega
    · exact chunk_inBounds hbuf.into (by omega)
    · exact chunk_inBounds hbuf.into (by omega)
  have hbulk : (x.s.sdmmcStorageAccess env false (add32 x.s.lun.offset x.lbaOffset) amount
    x.s.bulk.inBuf).2.bulk = x.s.bulk := sdmmcStorageAccess_bulk _ _ _ _ _
  rcases hr : x.s.sdmmcStorageAccess env false (add32 x.s.lun.offset x.lbaOffset) amount
    x.s.bulk.inBuf with ⟨_ | _, s₁⟩ <;> rw [hr] at hacc hbulk
  · exact (h.does.trans hacc).trans (senseAt_does _ _ _)
  · refine ⟨h.does.trans hacc, hnum ▸ hle, ?_, fun hfits ↦ ?_⟩
    · rw [hbulk, h.buf]
    · rcases h.fits hfits with hin | hlen | hlast
      · exact .inl hin
      · exact .inr (.inl (by dsimp only; omega))
      · exact .inr (.inr (by dsimp only; omega))

theorem verifyLoop_does {x : VerifyLoop} (h : VerifyInv env s x) :
    Does env reads (Buffers s ∧ VerifyFits s) s (verifyLoop env x) := by
  have hrun := Loop.run_all (fun x hx ↦ verifyPass_does hx) h (x.verificationLength + 1)
  rw [verifyLoop]
  refine hrun.elim ?_ ?_
  · intro x hx
    exact hx.does
  · intro r hr
    exact hr

theorem scsiVerify_does :
    Does env reads (Buffers s ∧ (s.cmnd 1 &&& 0xEF = 0 → VerifyFits s)) s (s.scsiVerify env).2 := by
  rw [scsiVerify]
  split
  · exact refuse_does _
  next hlba =>
  split
  · exact refuse_does _
  next hblock =>
  split
  · exact .refl s
  · have hloop : Does env reads (Buffers s ∧ VerifyFits s) s
        (verifyLoop env ⟨be32 s.cmnd 2, be16 s.cmnd 7, s⟩) :=
      verifyLoop_does ⟨.refl s, Nat.le_of_not_le hlba, rfl, id⟩
    exact hloop.mono (fun _ ha ↦ ha) (fun ha ↦ ha)
      (And.imp_right fun hfits ↦ hfits (not_not.mp hblock))

/-! ## Writing -/

/-- What holds each time the loop of a write begins a pass.  A buffer that is waiting to be written
has been asked for in the pass that writes it. -/
structure WriteInv (x : WriteLoop) : Prop where
  lba : x.lbaOffset ≤ x.s.lun.numSectors
  fresh : (x.amountLeftToReq = 0 → x.amountLeftToWrite = 0) ∨ x.s.bulk.outBufState = .empty

/-- What a half of a pass keeps of it. -/
structure Halfway (env : Env) (x x' : WriteLoop) : Prop where
  does : Does env writes (Buffers x.s) x.s x'.s
  lba : x'.lbaOffset ≤ x'.s.lun.numSectors
  fits : x'.s.bulk.outBufState = .empty ∨ x'.s.bulk.outLength ≤ usbEpBulkOutMaxXfer

theorem writeRequest_does {x : WriteLoop} (h : WriteInv x) (hleft : x.amountLeftToWrite ≠ 0) :
    (writeRequest env x).All (Halfway env x) (Does env writes (Buffers x.s) x.s) := by
  rw [writeRequest]
  by_cases hreq : x.amountLeftToReq = 0
  · rw [if_pos hreq]
    refine ⟨.refl x.s, h.lba, h.fresh.elim (fun hw ↦ absurd (hw hreq) hleft) .inl⟩
  rw [if_neg hreq]
  by_cases hend : x.s.lun.numSectors ≤ x.usbLbaOffset
  · simp only [hend, ↓reduceIte]
    exact senseAt_does _ _ _
  simp only [hend, ↓reduceIte]
  set amount := min x.amountLeftToReq usbEpBulkOutMaxXfer with hamount
  have hmost : amount ≤ usbEpBulkOutMaxXfer := Nat.min_le_right _ _
  have hpos : 0 < amount := by
    rw [hamount, usbEpBulkOutMaxXfer_eq]
    omega
  set t : Ums :=
    { x.s with usbAmountLeft := x.s.usbAmountLeft - amount, bulk.outLength := amount } with ht
  have hasked : Does env writes (Buffers x.s) x.s t :=
    quiet_does rfl
  have hread : Does env writes (Buffers t) t (t.transferOutBigRead env) :=
    transferOutBigRead_does env hpos hmost
  exact ⟨hasked.trans (hread.mono (fun _ ha ↦ ha) (fun ha ↦ ha) hasked.buffers), h.lba,
    .inr hmost⟩

theorem emptyWrite_does {x y : WriteLoop} (hdoes : Does env writes (Buffers x.s) x.s y.s)
    (hlba : y.lbaOffset ≤ y.s.lun.numSectors) (hempty : y.s.bulk.outBufState = .empty) :
    (emptyWrite y).All (fun x' ↦ WriteInv x' ∧ Does env writes (Buffers x.s) x.s x'.s)
      (Does env writes (Buffers x.s) x.s) := by
  rw [emptyWrite]
  split
  · exact hdoes.trans (quiet_does rfl)
  · exact ⟨⟨hlba, .inr hempty⟩, hdoes⟩

/-- What is written lies inside the window, and inside the buffer. -/
theorem writeAmount_le (lba : ℕ) (t : Ums) :
    t.writeAmount lba / lbaSize ≤ t.lun.numSectors - lba ∧ t.writeAmount lba ≤ t.bulk.outLength ∧
      lbaSize * (t.writeAmount lba / lbaSize) = t.writeAmount lba := by
  rw [writeAmount, lbaSize_eq]
  split <;> refine ⟨?_, ?_, ?_⟩ <;> omega

theorem writeBuffer_does {x y : WriteLoop} (h : Halfway env x y) :
    (writeBuffer env y).All (fun x' ↦ WriteInv x' ∧ Does env writes (Buffers x.s) x.s x'.s)
      (Does env writes (Buffers x.s) x.s) := by
  rw [writeBuffer]
  by_cases hfull : y.s.bulk.outBufState ≠ .full
  · rw [if_pos hfull]
    have hempty : y.s.bulk.outBufState = .empty := by
      cases hs : y.s.bulk.outBufState with
      | empty => rfl
      | full => exact absurd hs hfull
    exact ⟨⟨h.lba, .inr hempty⟩, h.does⟩
  rw [if_neg hfull]
  have hlen : y.s.bulk.outLength ≤ usbEpBulkOutMaxXfer :=
    h.fits.resolve_left fun he ↦ hfull (by rw [he]; exact BufState.noConfusion)
  set t : Ums := { y.s with bulk.outBufState := .empty } with ht
  have hfits : t.bulk.outLength ≤ 0x8000 := hlen
  have htaken : Does env writes (Buffers x.s) x.s t :=
    h.does.trans (quiet_does rfl)
  dsimp only
  split
  · exact htaken.trans (senseAt_does _ _ _)
  obtain ⟨hwindow, hbuffer, hwhole⟩ := writeAmount_le y.lbaOffset t
  set amount := t.writeAmount y.lbaOffset with hamount
  by_cases hzero : amount = 0
  · rw [if_pos hzero]
    exact emptyWrite_does htaken h.lba rfl
  rw [if_neg hzero]
  rw [lbaSize_eq] at hwhole hwindow ⊢
  have hlba : y.lbaOffset ≤ t.lun.numSectors := h.lba
  have hacc : Does env writes (Buffers x.s) t (t.sdmmcStorageAccess env true
      (add32 t.lun.offset y.lbaOffset) (amount / 512) t.bulk.outBuf).2 := by
    refine sdmmcStorageAccess_does rfl (by omega) (by omega) fun hbuf ↦ ?_
    rw [(htaken.buffers hbuf).out]
    exact chunk_inBounds (.inr rfl) (by omega)
  have hbulk : (t.sdmmcStorageAccess env true (add32 t.lun.offset y.lbaOffset) (amount / 512)
    t.bulk.outBuf).2.bulk = t.bulk := sdmmcStorageAccess_bulk _ _ _ _ _
  have hlun : (t.sdmmcStorageAccess env true (add32 t.lun.offset y.lbaOffset) (amount / 512)
    t.bulk.outBuf).2.lun = t.lun := rfl
  rcases hr : t.sdmmcStorageAccess env true (add32 t.lun.offset y.lbaOffset) (amount / 512)
    t.bulk.outBuf with ⟨_ | _, s₁⟩ <;> rw [hr] at hacc hbulk hlun
  · exact (htaken.trans hacc).trans (senseAt_does _ _ _)
  · refine emptyWrite_does (y := ⟨_, _, _, _, _⟩) ((htaken.trans hacc).trans
      (quiet_does rfl)) ?_ ?_
    · show y.lbaOffset + amount / 512 ≤ s₁.lun.numSectors
      rw [hlun]
      omega
    · show s₁.bulk.outBufState = .empty
      rw [hbulk]

/-- **One pass of a write**: it writes to the active unit, inside its window, from the bulk-OUT
buffer. -/
theorem writePass_does (env : Env) {x : WriteLoop} (h : WriteInv x) :
    (writePass env x).All (fun x' ↦ WriteInv x' ∧ Does env writes (Buffers x.s) x.s x'.s)
      (Does env writes (Buffers x.s) x.s) := by
  rw [writePass]
  by_cases hleft : x.amountLeftToWrite = 0
  · rw [if_pos hleft]
    exact .refl x.s
  rw [if_neg hleft]
  have hreq : (writeRequest env x).All (Halfway env x) (Does env writes (Buffers x.s) x.s) :=
    writeRequest_does h hleft
  cases hr : writeRequest env x with
  | leave s =>
    rw [hr] at hreq
    exact hreq
  | again y =>
    rw [hr] at hreq
    exact writeBuffer_does hreq

/-! ## Parsing -/

theorem limitData_does : Does env A B s s.limitData := by
  rw [limitData]
  split <;> exact quiet_does rfl

theorem clearSense_does : Does env A B s s.clearSense := by
  rw [clearSense]
  split
  · exact setLun_does rfl rfl
  · exact .refl s

theorem maskLun_does : Does env A B s s.maskLun :=
  quiet_does rfl

theorem checkUnit_does (mask : ℕ) (needsMedium : Bool) :
    Does env A B s (s.checkUnit mask needsMedium).2 := by
  rw [checkUnit]
  split
  · show Does env A B s (s.setLun fun l ↦
      { l with senseData := l.unitAttentionData, unitAttentionData := ssNoSense })
    exact setLun_does rfl rfl
  split
  · exact maskLun_does.trans (sense_does _ _)
  split
  · exact maskLun_does.trans (sense_does _ _)
  · exact maskLun_does

theorem checkScsiCmd_does (cmndSize : ℕ) (dataDir : DataDir) (mask : ℕ) (needsMedium : Bool) :
    Does env A B s (s.checkScsiCmd cmndSize dataDir mask needsMedium).2 := by
  rw [checkScsiCmd]
  split
  · exact limitData_does.trans (quiet_does rfl)
  · exact (limitData_does.trans clearSense_does).trans (checkUnit_does _ _)

/-- **What passing the checks says.** -/
theorem checkScsiCmd_passed {cmndSize : ℕ} {dataDir : DataDir} {mask : ℕ} {needsMedium : Bool}
    (h : s.checkScsiCmd cmndSize dataDir mask needsMedium = (true, s')) :
    s' = s.limitData.clearSense.maskLun ∧ s.directionDiffers dataDir = false ∧
      (s.limitData.clearSense.lun.unmounted && needsMedium) = false := by
  rw [checkScsiCmd] at h
  by_cases hsize : s.directionDiffers dataDir ∨ s.cmndSize < cmndSize
  · rw [if_pos hsize] at h
    exact absurd (congrArg Prod.fst h) Bool.false_ne_true
  rw [if_neg hsize, checkUnit] at h
  split at h
  · exact absurd (congrArg Prod.fst h) Bool.false_ne_true
  split at h
  · exact absurd (congrArg Prod.fst h) Bool.false_ne_true
  split at h
  · exact absurd (congrArg Prod.fst h) Bool.false_ne_true
  · next hmedium =>
    exact ⟨(congrArg Prod.snd h).symm, Bool.eq_false_iff.mpr fun hd ↦ hsize (.inl hd),
      Bool.eq_false_iff.mpr hmedium⟩

theorem checked_does : Does env A B s s.checked.2 := by
  have hopened : Does env A B s s.opened :=
    quiet_does rfl
  exact hopened.trans (checkScsiCmd_does _ _ _ _)

theorem limitData_lun (s : Ums) : s.limitData.lun = s.lun := by
  rw [limitData]
  split <;> rfl

theorem clearSense_unmounted (s : Ums) : s.clearSense.lun.unmounted = s.lun.unmounted := by
  rw [clearSense]
  split
  · rw [setLun_lun]
  · rfl

theorem checked_passed (h : s.checked = (true, s')) :
    s' = s.opened.limitData.clearSense.maskLun ∧
      s.opened.directionDiffers (s.cmd.spec s).dataDir = false ∧
      (s.lun.unmounted && (s.cmd.spec s).needsMedium) = false := by
  obtain ⟨hs', hdir, hmedium⟩ := checkScsiCmd_passed h
  have hlun : s.opened.lun = s.lun := rfl
  rw [clearSense_unmounted, limitData_lun, hlun] at hmedium
  exact ⟨hs', hdir, hmedium⟩

/-- The transfers a command may make as it is parsed: from the storage, if it needs the medium and
the medium is there. -/
def Reading (s : Ums) (isWrite : Bool) : Prop :=
  isWrite = false ∧ s.lun.unmounted = false ∧ (s.cmd.spec s).needsMedium = true

/-- If the command is a verification, its first transfer fits behind the bulk-IN pointer. -/
def ParseFits (s : Ums) : Prop :=
  s.cmd = .verify → s.checked.1 = true → s.checked.2.cmnd 1 &&& 0xEF = 0 → VerifyFits s.checked.2

/-- What parsing a command does. -/
def ParsedDoes (env : Env) (s : Ums) : Parsed → Prop
  | .replied _ s' => Does env (Reading s) (Buffers s ∧ ParseFits s) s s'
  | .writing x => Does env (Reading s) (Buffers s ∧ ParseFits s) s x.s ∧
    (x.s.lun.ro = 0 ∧ x.s.lun.unmounted = false) ∧ WriteInv x

/-- One operation after another, the bounds of which hold if the pointers are in order. -/
theorem Does.next {t : Ums} (h : Does env A B s t) (h' : Does env A (Buffers t) t s')
    (hB : B → Buffers s) : Does env A B s s' :=
  h.trans (h'.mono (fun _ ha ↦ ha) (fun ha ↦ ha) fun hb ↦ h.buffers (hB hb))

/-- Transfers from the storage by a command that has passed. -/
theorem Does.reading {t : Ums} (h : Does env reads B t s') (hmount : s.lun.unmounted = false)
    (hneeds : (s.cmd.spec s).needsMedium = true) : Does env (Reading s) B t s' :=
  h.mono (fun _ hb ↦ ⟨hb, hmount, hneeds⟩) (fun _ ↦ ⟨false, rfl⟩) id

theorem scsiWrite_does {t : Ums} (six : Bool)
    (h : Does env (Reading s) (Buffers s ∧ ParseFits s) s t)
    (hmount : t.lun.unmounted = false) : ParsedDoes env s (t.scsiWrite six) := by
  rw [scsiWrite]
  split
  · exact h.trans (refuse_does _)
  next hro =>
  split
  · exact h.trans (refuse_does _)
  next lba _ =>
  by_cases hend : t.lun.numSectors ≤ lba
  · simp only [hend, ↓reduceIte]
    exact h.trans (refuse_does _)
  · simp only [hend, ↓reduceIte]
    exact ⟨h, ⟨not_not.mp hro, hmount⟩, Nat.le_of_not_le hend, .inl id⟩

/-- **What parsing does.** -/
theorem parseScsiCmd_does (env : Env) (s : Ums) : ParsedDoes env s (s.parseScsiCmd env) := by
  have hchecked : Does env (Reading s) (Buffers s ∧ ParseFits s) s s.checked.2 := checked_does
  have hfits : s.ParseFits → s.cmd = .verify → s.checked.1 = true →
      s.checked.2.cmnd 1 &&& 0xEF = 0 → VerifyFits s.checked.2 := id
  rw [parseScsiCmd]
  rcases hc : s.checked with ⟨_ | _, t⟩ <;> rw [hc] at hchecked hfits
  · exact hchecked
  dsimp only at hchecked hfits ⊢
  obtain ⟨-, -, hmedium⟩ := checked_passed hc
  have hlun : t.lun.unmounted = s.lun.unmounted := by
    have hdoes : Does env reads True s s.checked.2 := checked_does
    rw [hc] at hdoes
    exact hdoes.lun_unmounted ⟨false, rfl⟩
  have hmount : (s.cmd.spec s).needsMedium = true → s.lun.unmounted = false := by
    intro h
    rwa [h, Bool.and_true] at hmedium
  cases hcmd : s.cmd with
  | inquiry => exact hchecked.next scsiInquiry_does And.left
  | logSense => exact hchecked.next scsiLogSense_does And.left
  | modeSelect6 => exact hchecked.trans (refuse_does _)
  | modeSelect10 => exact hchecked.trans (refuse_does _)
  | modeSense6 => exact hchecked.next (scsiModeSense_does true) And.left
  | modeSense10 => exact hchecked.next (scsiModeSense_does false) And.left
  | preventAllowMediumRemoval => exact hchecked.trans scsiPreventAllowRemoval_does
  | read6 =>
    have hneeds : (s.cmd.spec s).needsMedium = true := by rw [hcmd]; rfl
    exact hchecked.next ((scsiRead_does true).reading (hmount hneeds) hneeds) And.left
  | read10 =>
    have hneeds : (s.cmd.spec s).needsMedium = true := by rw [hcmd]; rfl
    exact hchecked.next ((scsiRead_does false).reading (hmount hneeds) hneeds) And.left
  | read12 =>
    have hneeds : (s.cmd.spec s).needsMedium = true := by rw [hcmd]; rfl
    exact hchecked.next ((scsiRead_does false).reading (hmount hneeds) hneeds) And.left
  | readCapacity => exact hchecked.next scsiReadCapacity_does And.left
  | readFormatCapacities => exact hchecked.next scsiReadFormatCapacities_does And.left
  | requestSense => exact hchecked.next scsiRequestSense_does And.left
  | startStopUnit =>
    have hnone : ∀ b, ¬ Reading s b := by
      rintro b ⟨-, -, h⟩
      rw [hcmd] at h
      exact Bool.noConfusion h
    exact hchecked.trans (scsiStartStop_does.mono (fun _ h ↦ h.elim)
      (fun ⟨b, hb⟩ ↦ absurd hb (hnone b)) id)
  | synchronizeCache => exact hchecked
  | testUnitReady => exact hchecked
  | verify =>
    have hneeds : (s.cmd.spec s).needsMedium = true := by rw [hcmd]; rfl
    refine hchecked.trans ((scsiVerify_does.reading (hmount hneeds) hneeds).mono (fun _ h ↦ h)
      (fun h ↦ h) fun ⟨hbuf, hfit⟩ ↦ ⟨hchecked.buffers hbuf, hfits hfit hcmd rfl⟩)
  | write6 =>
    have hneeds : (s.cmd.spec s).needsMedium = true := by rw [hcmd]; rfl
    exact scsiWrite_does true hchecked (hlun.trans (hmount hneeds))
  | write10 =>
    have hneeds : (s.cmd.spec s).needsMedium = true := by rw [hcmd]; rfl
    exact scsiWrite_does false hchecked (hlun.trans (hmount hneeds))
  | write12 =>
    have hneeds : (s.cmd.spec s).needsMedium = true := by rw [hcmd]; rfl
    exact scsiWrite_does false hchecked (hlun.trans (hmount hneeds))
  | other => exact hchecked.trans (refuse_does _)

theorem setUpReply_does (r : Reply) : Does env A B s (s.setUpReply r) := by
  have hset : ∀ n, Does env A B s (if s.dataDir = .toHost then
      { s with
        bulk.inLength := min n s.dataSizeFromCmnd
        bulk.inBufState := .full
        residue := s.residue - min n s.dataSizeFromCmnd
        w.reply := s.w.reply.take (min n s.dataSizeFromCmnd) }
      else s) := by
    intro n
    split
    · exact quiet_does rfl
    · exact .refl s
  cases r with
  | ioError => exact .refl s
  | invalidArg => exact hset 0
  | len n => exact hset n

end Ums
end Usb
end SdLoader
