import SdLoader.Usb.Access

/-!
# The mass storage gadget: the bulk buffers

Where the gadget fills memory, and what it hands to hardware.

The two bulk buffers have 32K each, and lie one after the other in front of the XUSB rings.  Most
paths ask for no more than one buffer at a time.  Those that do not are the ones `Gadget.Fits` is
about: they are limited to `USB_EP_BUFFER_MAX_SIZE`, which is 64K.

* `buffers_step` — the bulk-IN pointer points to one of the two buffers, always.
* `inBounds_step` — a step that fits stays between the start of the first and the end of the second.
* `fits_of_inBounds` — and no other does.
* `bounds_iff` — so a session stays there exactly if all of its steps fit.
-/

set_option autoImplicit false

namespace SdLoader
namespace Usb

variable {volumes : List Volume} {secCnt : MmcType → ℕ} {env : Env} {g : Gadget}

namespace Ums

variable {A : Bool → Prop} {B : Prop} {s s' : Ums} {e : Event}

/-! ## What stays on record -/

theorem Does.mem (h : Does env A B s s') (he : e ∈ s.w.trace) : e ∈ s'.w.trace := by
  obtain ⟨es, hes, -⟩ := h.log
  rw [hes]
  exact List.mem_append_right es he

/-- A request, once made, is on record. -/
theorem mem_transferStartIn (s : Ums) :
    Event.bulkIn s.bulk.inBuf (min s.bulk.inLength usbEpBufferMaxSize) ∈
      (s.transferStartIn env true).w.trace := by
  have h := World.waitIn_same env ({ s.w with txCountIn := 0 }.pushIn s.bulk.inBuf
    (min s.bulk.inLength usbEpBufferMaxSize))
  have htrace : (s.transferStartIn env true).w.trace =
    .bulkIn s.bulk.inBuf (min s.bulk.inLength usbEpBufferMaxSize) :: s.w.trace := h.trace
  rw [htrace]
  exact List.mem_cons_self

theorem mem_transferStartOut (env : Env) (s : Ums) :
    ∃ actual, Event.bulkOut s.bulk.outBuf (min s.bulk.outLength usbEpBufferMaxSize) actual ∈
      (s.transferStartOut env).w.trace := by
  obtain ⟨-, -, hlog⟩ := xusbDeviceEp1OutRead_log env s.bulk.outBuf s.bulk.outLength s.w
  refine ⟨(xusbDeviceEp1OutRead env s.bulk.outBuf s.bulk.outLength s.w).2.1, ?_⟩
  show _ ∈ (xusbDeviceEp1OutRead env s.bulk.outBuf s.bulk.outLength s.w).2.2.trace
  rw [hlog]
  exact List.mem_cons_self

/-! ## What does not fit -/

/-- The second buffer ends where the rings begin. -/
theorem not_inBounds_of_lt {addr len : ℕ} (h : xusbRingAddr < addr + len) :
    ¬ (Event.fill addr len).InBounds :=
  fun hin ↦ absurd hin.2 (Nat.not_le_of_lt h)

theorem Buffers.second (h : Buffers s) (hin : s.bulk.inBuf ≠ usbEpBulkInBufAddr) :
    s.bulk.inBuf = usbEpBulkOutBufAddr :=
  h.into.resolve_left hin

/-- A pass of a verification keeps what is on record. -/
theorem mem_verifyPass {x : VerifyLoop} (h : e ∈ x.s.w.trace) :
    (verifyPass env x).All (fun x' ↦ e ∈ x'.s.w.trace) (fun s ↦ e ∈ s.w.trace) := by
  rw [verifyPass]
  split
  · exact h
  dsimp only
  split
  · exact h
  next amount _ =>
  rcases hr : x.s.sdmmcStorageAccess env false (add32 x.s.lun.offset x.lbaOffset)
    (min (min x.verificationLength (usbEpBufferMaxSize / lbaSize))
      (x.s.lun.numSectors - x.lbaOffset)) x.s.bulk.inBuf with ⟨ok, t⟩
  have hmem : e ∈ t.w.trace := by
    rw [show t = (ok, t).2 from rfl, ← hr]
    exact List.mem_cons_of_mem _ h
  cases ok with
  | false => exact hmem
  | true => exact hmem

/-- **A verification that does not fit** reads past the second buffer. -/
theorem verify_overruns (env : Env) (hbuf : Buffers s) (hlba : be32 s.cmnd 2 < s.lun.numSectors)
    (hblock : s.cmnd 1 &&& 0xEF = 0) (h : ¬ VerifyFits s) :
    ∃ e ∈ (s.scsiVerify env).2.w.trace, ¬ e.InBounds := by
  rw [VerifyFits, not_or, not_or] at h
  obtain ⟨hin, hlen, hlast⟩ := h
  have hpos : be16 s.cmnd 7 ≠ 0 := by omega
  have hloop : s.scsiVerify env =
      (.len 0, verifyLoop env ⟨be32 s.cmnd 2, be16 s.cmnd 7, s⟩) := by
    simp only [scsiVerify, Nat.not_le_of_lt hlba, hblock, hpos, ↓reduceIte, ne_eq,
      not_true_eq_false]
  set amount := min (min (be16 s.cmnd 7) (usbEpBufferMaxSize / lbaSize))
    (s.lun.numSectors - be32 s.cmnd 2) with hamount
  have hmost : usbEpBufferMaxSize / lbaSize = 128 := rfl
  rw [hmost] at hamount
  set r := s.sdmmcStorageAccess env false (add32 s.lun.offset (be32 s.cmnd 2)) amount s.bulk.inBuf
    with hr
  obtain ⟨a, hmem, hbufa, hcount⟩ : ∃ a, Event.access a ∈ r.2.w.trace ∧
      a.buf = s.bulk.inBuf ∧ a.count = amount := ⟨_, List.mem_cons_self, rfl, rfl⟩
  have hfirst : (verifyPass env ⟨be32 s.cmnd 2, be16 s.cmnd 7, s⟩).All
      (fun x' ↦ .access a ∈ x'.s.w.trace) (fun s ↦ .access a ∈ s.w.trace) := by
    have hne : amount ≠ 0 := by omega
    rw [verifyPass]
    simp only [hpos, ↓reduceIte]
    rw [if_neg hne, ← hr]
    rcases hres : r with ⟨_ | _, t⟩ <;> rw [hres] at hmem
    · exact hmem
    · exact hmem
  refine ⟨.access a, ?_, fun hinb ↦ ?_⟩
  · have hrun := Loop.run_all_of_first (fun x hx ↦ mem_verifyPass hx) hfirst (be16 s.cmnd 7)
    rw [hloop, verifyLoop]
    refine hrun.elim ?_ ?_
    · intro x hx
      exact hx
    · intro r hr
      exact hr
  · obtain ⟨-, hhigh⟩ := hinb
    rw [Event.region, hbufa, hcount, hbuf.second hin, usbEpBulkOutBufAddr_eq, xusbRingAddr_eq,
      lbaSize_eq] at hhigh
    dsimp only at hhigh
    omega

/-- A request on the bulk-IN endpoint keeps what is on record. -/
theorem mem_transferStartIn_of_mem (h : e ∈ s.w.trace) : e ∈ (s.transferStartIn env true).w.trace :=
  (transferStartIn_does (B := False) env true False.elim :
    Does env never False s (s.transferStartIn env true)).mem h

/-- A pass of the padding keeps what is on record. -/
theorem mem_padPass {x : PadLoop} (h : e ∈ x.s.w.trace) :
    (padPass env x).All (fun x' ↦ e ∈ x'.s.w.trace) (fun s ↦ e ∈ s.w.trace) := by
  rw [padPass]
  dsimp only
  split
  · exact h
  · exact mem_transferStartIn_of_mem (List.mem_cons_of_mem _ h)

/-- What the first pass of padding clears is not in bounds unless the padding fits. -/
theorem pad_region (hbuf : Buffers s) (h : ¬ PadFits s) :
    ¬ (Event.fill (s.bulk.inBuf + s.bulk.inLength) (sub32
      (min (add32 s.bulk.inLength s.residue) usbEpBufferMaxSize) s.bulk.inLength)).InBounds := by
  set total := add32 s.bulk.inLength s.residue with htotal
  have hover : s.bulk.inLength ≤ min total usbEpBufferMaxSize →
      s.bulk.inBuf ≠ usbEpBulkInBufAddr ∧ ¬ total ≤ usbEpBulkOutMaxXfer := by
    intro hle
    refine ⟨fun hin ↦ h (.inr ⟨hle, .inl hin⟩), fun hfew ↦ h (.inr ⟨hle, .inr hfew⟩)⟩
  have hlow : usbEpBulkInBufAddr ≤ s.bulk.inBuf := by
    rcases hbuf.into with hin | hin
    · rw [hin]
    · rw [hin]
      decide
  rw [usbEpBulkInBufAddr_eq] at hlow
  refine not_inBounds_of_lt ?_
  rw [xusbRingAddr_eq, sub32]
  split
  · next hle =>
    obtain ⟨hin, hmuch⟩ := hover hle
    rw [hbuf.second hin, usbEpBulkOutBufAddr_eq]
    rw [usbEpBulkOutMaxXfer_eq] at hmuch
    rw [usbEpBufferMaxSize_eq] at hle ⊢
    omega
  · omega

/-- **Padding that does not fit** clears memory past the second buffer. -/
theorem pad_overruns (env : Env) (hbuf : Buffers s) (h : ¬ PadFits s) :
    ∃ e ∈ (s.padWithZeros env).w.trace, ¬ e.InBounds := by
  have hpos : add32 s.bulk.inLength s.residue ≠ 0 := fun hzero ↦ h (.inl hzero)
  refine ⟨_, ?_, pad_region hbuf h⟩
  set total := add32 s.bulk.inLength s.residue with htotal
  set t : Ums := { s with bulk.inBufState := .empty, usbAmountLeft := total } with ht
  set fill : Event := .fill (s.bulk.inBuf + s.bulk.inLength)
    (sub32 (min total usbEpBufferMaxSize) s.bulk.inLength) with hfill
  have hfirst : (padPass env ⟨s.bulk.inLength, t⟩).All (fun x' ↦ fill ∈ x'.s.w.trace)
      (fun s ↦ fill ∈ s.w.trace) := by
    rw [padPass]
    dsimp only
    rw [if_neg hpos]
    exact mem_transferStartIn_of_mem List.mem_cons_self
  have hrun := Loop.run_all_of_first (fun x hx ↦ mem_padPass hx) hfirst total
  rw [padWithZeros]
  dsimp only
  refine hrun.elim ?_ ?_
  · intro x hx
    exact hx
  · intro r hr
    exact hr

/-- **A reply that does not fit** is sent from, or cleared, past the second buffer. -/
theorem send_overruns (env : Env) (hbuf : Buffers s) (h : ¬ SendFits s) :
    ∃ e ∈ (s.sendReply env).w.trace, ¬ e.InBounds := by
  rw [SendFits] at h
  by_cases hsize : s.dataSize = 0
  · rw [if_pos hsize] at h
    exact absurd trivial h
  rw [if_neg hsize] at h
  rw [sendReply, if_neg hsize]
  by_cases hres : s.residue = 0 ∨ s.canStall ≠ 0
  · rw [if_pos hres, not_or] at h
    rw [if_pos hres]
    refine ⟨_, mem_transferStartIn s, not_inBounds_of_lt ?_⟩
    obtain ⟨hin, hmuch⟩ := h
    rw [usbEpBulkOutMaxXfer_eq] at hmuch
    rw [hbuf.second hin, usbEpBulkOutBufAddr_eq, usbEpBufferMaxSize_eq, xusbRingAddr_eq]
    omega
  · rw [if_neg hres] at h ⊢
    exact pad_overruns env hbuf h

/-- **Data that does not fit** is thrown away past the second buffer. -/
theorem drain_overruns (env : Env) (hbuf : Buffers s) (h : ¬ DrainFits s) :
    ∃ e ∈ (s.throwAwayData env).2.w.trace, ¬ e.InBounds := by
  rw [DrainFits, Classical.not_imp] at h
  obtain ⟨hempty, hmuch⟩ := h
  rw [usbEpBulkOutMaxXfer_eq] at hmuch
  set amount := min s.usbAmountLeft usbEpBufferMaxSize with hamount
  set t : Ums := { s with bulk.outLength := amount } with ht
  have hthrow : s.throwAwayData env =
      (false, { t.transferStartOut env with
        usbAmountLeft := (t.transferStartOut env).usbAmountLeft - amount }) := by
    rw [throwAwayData, if_neg (fun hnone ↦ by omega), if_pos ⟨hempty, by omega⟩]
  obtain ⟨actual, hmem⟩ := mem_transferStartOut env t
  refine ⟨.bulkOut t.bulk.outBuf (min t.bulk.outLength usbEpBufferMaxSize) actual, ?_,
    fun hinb ↦ ?_⟩
  · rw [hthrow]
    exact hmem
  · have hout : t.bulk.outBuf = usbEpBulkOutBufAddr := hbuf.out
    have hlen : t.bulk.outLength = amount := rfl
    obtain ⟨-, hhigh⟩ := hinb
    rw [Event.region, hout, hlen, usbEpBulkOutBufAddr_eq, xusbRingAddr_eq] at hhigh
    rw [usbEpBufferMaxSize_eq] at hamount hhigh
    dsimp only at hhigh
    omega

/-- The end of a data phase that stays in bounds fits. -/
theorem replyFits_of_inBounds (env : Env) (hbuf : Buffers s)
    (h : ∀ e ∈ (s.finishReply env).2.w.trace, e.InBounds) : ReplyFits s := by
  by_contra hfit
  have hover : ∃ e ∈ (s.finishReply env).2.w.trace, ¬ e.InBounds := by
    rw [finishReply]
    rw [ReplyFits] at hfit
    cases hdir : s.dataDir with
    | none =>
      rw [hdir] at hfit
      exact absurd trivial hfit
    | unknown =>
      rw [hdir] at hfit
      exact absurd trivial hfit
    | toHost =>
      rw [hdir] at hfit
      exact send_overruns env hbuf hfit
    | fromHost =>
      rw [hdir] at hfit
      simp only [Classical.not_imp] at hfit
      obtain ⟨hres, hshort, hdrain⟩ := hfit
      simp only [hres, hshort, ↓reduceIte, ne_eq, not_true_eq_false]
      exact drain_overruns env hbuf hdrain
  obtain ⟨e, he, hout⟩ := hover
  exact hout (h e he)

/-- A command the parsing of which stays in bounds fits. -/
theorem parseFits_of_inBounds {r : Reply} (hbuf : Buffers s)
    (hparse : s.parseScsiCmd env = .replied r s') (h : ∀ e ∈ s'.w.trace, e.InBounds) :
    ParseFits s := by
  intro hcmd hpass hblock
  rcases hc : s.checked with ⟨ok, t⟩
  rw [hc] at hpass hblock
  dsimp only at hpass hblock ⊢
  subst hpass
  have hbuf' : Buffers t := by
    have hdoes : Does env never True s s.checked.2 := checked_does
    rw [hc] at hdoes
    exact hdoes.buffers hbuf
  have hverify : s' = (t.scsiVerify env).2 := by
    rw [parseScsiCmd, hc] at hparse
    dsimp only at hparse
    rw [hcmd, ScsiCmd.handle, Parsed.of] at hparse
    injection hparse with _ hs'
    exact hs'.symm
  by_contra hfit
  by_cases hlba : be32 t.cmnd 2 < t.lun.numSectors
  · obtain ⟨e, he, hout⟩ := verify_overruns env hbuf' hlba hblock hfit
    rw [← hverify] at he
    exact hout (h e he)
  · exact hfit (.inr (.inr (by omega)))

end Ums

/-! ## Sessions -/

namespace Gadget

/-- The bulk-OUT pointer stays where it is, and the bulk-IN pointer goes to one buffer or the
other. -/
theorem buffers_step (env : Env) (h : g.ums.Buffers) (hok : g.WriteOk) :
    (g.step env).ums.Buffers := by
  by_cases htop : ∃ s, g = .top s
  · obtain ⟨s, rfl⟩ := htop
    obtain ⟨-, ⟨hdoes, -⟩ | ⟨t, hbefore, -, hafter⟩⟩ := top_does env s
    · exact hdoes.buffers h
    · obtain ⟨-, -, -, haccept, -⟩ := Ums.acceptCbw_keeps env t
      exact hafter.buffers (haccept (hbefore.buffers h))
  · exact (step_does env (fun s hs ↦ htop ⟨s, hs⟩) hok).1.buffers h

/-- **A step that fits stays in bounds.** -/
theorem inBounds_step (hbuf : g.ums.Buffers) (hok : g.WriteOk) (hfits : Fits env g)
    (h : ∀ e ∈ g.ums.w.trace, e.InBounds) : ∀ e ∈ (g.step env).ums.w.trace, e.InBounds := by
  refine record_step h hok (fun _ e he ↦ he.bounds ⟨hbuf, hfits⟩) ?_
  rintro s t e rfl he
  exact he.bounds hbuf

/-- **A step that stays in bounds fits.** -/
theorem fits_of_inBounds (hbuf : g.ums.Buffers)
    (h : ∀ e ∈ (g.step env).ums.w.trace, e.InBounds) : Fits env g := by
  cases g with
  | parse s =>
    have hep : Ums.Does env Ums.never True s (s.handleEp0Ctrl env) := Ums.handleEp0Ctrl_does env s
    rw [step] at h
    cases hp : (s.handleEp0Ctrl env).parseScsiCmd env with
    | replied r t =>
      rw [hp] at h
      dsimp only at h
      rw [ums_parsed] at h
      refine Ums.parseFits_of_inBounds (hep.buffers hbuf) hp fun e he ↦ h e ?_
      have hset : Ums.Does env Ums.never True t (t.setUpReply r) := Ums.setUpReply_does r
      exact hset.mem he
    | writing x =>
      -- A verification is over when it has been parsed.
      intro hcmd
      rw [Ums.parseScsiCmd] at hp
      rcases hc : (s.handleEp0Ctrl env).checked with ⟨_ | _, t⟩ <;> rw [hc] at hp
      · exact absurd hp Ums.Parsed.noConfusion
      · dsimp only at hp
        rw [hcmd] at hp
        exact absurd hp Ums.Parsed.noConfusion
  | reply s =>
    have hep : Ums.Does env Ums.never True s (s.handleEp0Ctrl env) := Ums.handleEp0Ctrl_does env s
    refine Ums.replyFits_of_inBounds env (hep.buffers hbuf) fun e he ↦ h e ?_
    rw [step]
    rcases hf : (s.handleEp0Ctrl env).finishReply env with ⟨fatal, t⟩
    rw [hf] at he
    dsimp only
    split
    · rw [ums_loopEnd]
      exact he
    · exact he
  | top s => exact trivial
  | writing x => exact trivial
  | status s => exact trivial
  | exited s => exact trivial

/-- A step keeps what is on record. -/
theorem mem_step {e : Event} (hok : g.WriteOk) (he : e ∈ g.ums.w.trace) :
    e ∈ (g.step env).ums.w.trace := by
  by_cases htop : ∃ s, g = .top s
  · obtain ⟨s, rfl⟩ := htop
    obtain ⟨-, ⟨hdoes, -⟩ | ⟨t, hbefore, -, hafter⟩⟩ := top_does env s
    · exact hdoes.mem he
    · obtain ⟨-, -, -, -, htrace⟩ := Ums.acceptCbw_keeps env t
      refine hafter.mem ?_
      rw [htrace]
      exact hbefore.mem he
  · exact (step_does env (fun s hs ↦ htop ⟨s, hs⟩) hok).1.mem he

/-- A run keeps what is on record. -/
theorem mem_run {e : Event} (h : TableInv volumes secCnt g) (he : e ∈ g.ums.w.trace)
    (envs : List Env) : e ∈ (Machine.run step g envs).ums.w.trace := by
  have hinv : TableInv volumes secCnt (Machine.run step g envs) ∧
      e ∈ (Machine.run step g envs).ums.w.trace :=
    Machine.run_inv (I := fun g ↦ TableInv volumes secCnt g ∧ e ∈ g.ums.w.trace)
      (fun g env hg ↦ ⟨hg.1.step env, mem_step hg.1.writeOk hg.2⟩) ⟨h, he⟩ envs
  exact hinv.2

/-- **A run stays in bounds exactly if all of its steps fit**, from wherever it has stayed there. -/
theorem inBounds_run_iff (h : TableInv volumes secCnt g) (hbuf : g.ums.Buffers)
    (hin : ∀ e ∈ g.ums.w.trace, e.InBounds) (envs : List Env) :
    (∀ e ∈ (Machine.run step g envs).ums.w.trace, e.InBounds) ↔
      Machine.Along step (fun g env ↦ Fits env g) g envs := by
  induction envs generalizing g with
  | nil => exact ⟨fun _ ↦ trivial, fun _ ↦ hin⟩
  | cons env envs ih =>
    have hnext := h.step env
    have hbuf' := buffers_step env hbuf h.writeOk
    rw [Machine.run_cons]
    constructor
    · intro hrun
      have hstep : ∀ e ∈ (g.step env).ums.w.trace, e.InBounds :=
        fun e he ↦ hrun e (mem_run hnext he envs)
      exact ⟨fits_of_inBounds hbuf hstep, (ih hnext hbuf' hstep).mp hrun⟩
    · rintro ⟨hfits, halong⟩
      have hstep := inBounds_step hbuf h.writeOk hfits hin
      exact (ih hnext hbuf' hstep).mpr halong

end Gadget

/-- **The bounds of the bulk buffers.**  A session fills, and hands to hardware, nothing but what
lies between the start of the bulk-IN buffer and the XUSB rings, exactly if each of its steps finds
room for what it does. -/
theorem bounds_iff (hg : Starts volumes secCnt g) (envs : List Env) :
    (∀ e ∈ (Machine.run Gadget.step g envs).ums.w.trace, e.InBounds) ↔
      Machine.Along Gadget.step (fun g env ↦ Gadget.Fits env g) g envs := by
  have hstart := Gadget.TableInv.start hg
  obtain ⟨-, w, hw, rfl⟩ := hg
  have htrace : (Gadget.top (.start volumes secCnt w)).ums.w.trace = [] := hw.trace
  refine Gadget.inBounds_run_iff hstart ⟨rfl, .inl rfl⟩ (fun e he ↦ ?_) envs
  rw [htrace] at he
  exact absurd he List.not_mem_nil

/-- A write of 100 sectors is the first command there is; it hears of the reset, and its data is
thrown away. -/
def refusedWrite : List Env :=
  [hears (wrapper 51200 0 0 [0x2A, 0, 0, 0, 0, 0, 0, 0, 100, 0]), calmly, calmly]

theorem bounds_iff_refusedWrite :
    (∀ e ∈ (Machine.run Gadget.step (firstGadget [sdVolume]) refusedWrite).ums.w.trace,
        e.InBounds) ↔
      Machine.Along Gadget.step (fun g env ↦ Gadget.Fits env g) (firstGadget [sdVolume])
        refusedWrite :=
  bounds_iff (starts_firstGadget (by decide)) refusedWrite

theorem bounds_counterexample :
    ¬ ∀ volumes secCnt g, Starts volumes secCnt g → ∀ envs : List Env,
      ∀ e ∈ (Machine.run Gadget.step g envs).ums.w.trace, e.InBounds := by
  intro h
  have hin := h [sdVolume] _ _ (starts_firstGadget (by decide)) refusedWrite
    (.bulkOut usbEpBulkOutBufAddr 51200 51200) (List.Mem.head _)
  exact absurd hin.2 (by decide)

end Usb
end SdLoader
