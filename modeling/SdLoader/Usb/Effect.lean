import SdLoader.Usb.Session

/-!
# The mass storage gadget: what its operations do

`Does env A B s s'` is what there is to say, for the statements about sessions, of an operation that
takes the gadget from `s` to `s'` on behalf of the active unit:

* the table of units keeps its entries, apart from what a unit has to say about its last command;
* the partition selected on the eMMC, and the one its driver believes in, change together, and only
  where the card is initialised again;
* what is put on record are transfers for the active unit, of the directions `A` allows and inside
  its window, and, provided `B`, ranges of memory inside the two bulk buffers.

There is one lemma for each operation, and `Does.trans` puts them together.
-/

set_option autoImplicit false

namespace SdLoader
namespace Usb

/-! ## What is recorded -/

/-- The range of memory an event is about: its address and its length. -/
def Event.region : Event → ℕ × ℕ
  | .access a => (a.buf, lbaSize * a.count)
  | .fill addr len => (addr, len)
  | .bulkOut addr len _ => (addr, len)
  | .bulkIn addr len => (addr, len)

/-- That range lies between the start of the bulk-IN buffer and the XUSB rings. -/
def Event.InBounds (e : Event) : Prop :=
  usbEpBulkInBufAddr ≤ e.region.1 ∧ e.region.1 + e.region.2 ≤ xusbRingAddr

/-- The fields of a unit that nothing changes. -/
def LogicalUnit.static (l : LogicalUnit) : ℕ × ℕ × ℕ × MmcType × ℕ :=
  (l.numSectors, l.offset, l.ro, l.type, l.partition)

namespace LogicalUnit

variable {l l' : LogicalUnit}

theorem static_numSectors (h : l.static = l'.static) : l.numSectors = l'.numSectors :=
  congrArg (·.1) h

theorem static_offset (h : l.static = l'.static) : l.offset = l'.offset := congrArg (·.2.1) h

theorem static_ro (h : l.static = l'.static) : l.ro = l'.ro := congrArg (·.2.2.1) h

theorem static_type (h : l.static = l'.static) : l.type = l'.type := congrArg (·.2.2.2.1) h

theorem static_partition (h : l.static = l'.static) : l.partition = l'.partition :=
  congrArg (·.2.2.2.2) h

end LogicalUnit

namespace Ums

variable {env : Env} {A A' : Bool → Prop} {B B' : Prop} {s s' s'' : Ums}

/-- The partitions that can be selected on the eMMC once an operation that makes transfers `A` has
been done for the active unit. -/
def Selectable (env : Env) (A : Bool → Prop) (s : Ums) (p : ℕ) : Prop :=
  p = s.w.selected ∨ (∃ b, A b) ∧ s.lun.type = .emmc ∧ (∃ t, (env t).reinit = true) ∧ p = 0

/-- The transfer `a` is one for the active unit, and inside its window. -/
structure Made (env : Env) (A : Bool → Prop) (s : Ums) (a : Access) : Prop where
  allowed : A a.isWrite
  lun : a.lun = s.lunIdx
  static : a.unit.static = s.lun.static
  unmounted : a.unit.unmounted = s.lun.unmounted
  part : Selectable env A s a.part
  part' : Selectable env A s a.part'
  range : ∃ k, a.sector = add32 s.lun.offset k ∧ 0 < a.count ∧ k + a.count ≤ s.lun.numSectors

/-- The event is one that `Does` allows. -/
structure Fine (env : Env) (A : Bool → Prop) (B : Prop) (s : Ums) (e : Event) : Prop where
  access : ∀ a, e = .access a → Made env A s a
  bounds : B → e.InBounds

/-- The bulk pointers point to the bulk buffers. -/
structure Buffers (s : Ums) : Prop where
  out : s.bulk.outBuf = usbEpBulkOutBufAddr
  into : s.bulk.inBuf = usbEpBulkInBufAddr ∨ s.bulk.inBuf = usbEpBulkOutBufAddr

/-- What an operation on behalf of the active unit does. -/
structure Does (env : Env) (A : Bool → Prop) (B : Prop) (s s' : Ums) : Prop where
  lunIdx : s'.lunIdx = s.lunIdx
  lunCnt : s'.lunCnt = s.lunCnt
  tag : s'.tag = s.tag
  static : ∀ i, (s'.luns i).static = (s.luns i).static
  unmounted : (∃ b, A b) → ∀ i, (s'.luns i).unmounted = (s.luns i).unmounted
  buffers : Buffers s → Buffers s'
  selected : Selectable env A s s'.w.selected
  partition : s.w.partition = s.w.selected → s'.w.partition = s'.w.selected
  log : ∃ es, s'.w.trace = es ++ s.w.trace ∧ ∀ e ∈ es, Fine env A B s e

/-! ## Operations one after the other -/

theorem Selectable.mono {p : ℕ} (h : Selectable env A s p) (hA : ∀ b, A b → A' b) :
    Selectable env A' s p :=
  h.imp_right (And.imp_left fun ⟨b, hb⟩ ↦ ⟨b, hA b hb⟩)

theorem Made.mono {a : Access} (h : Made env A s a) (hA : ∀ b, A b → A' b) : Made env A' s a :=
  { h with allowed := hA _ h.allowed, part := h.part.mono hA, part' := h.part'.mono hA }

theorem Fine.mono {e : Event} (h : Fine env A B s e) (hA : ∀ b, A b → A' b) (hB : B' → B) :
    Fine env A' B' s e :=
  ⟨fun a ha ↦ (h.access a ha).mono hA, fun b ↦ h.bounds (hB b)⟩

theorem Does.refl (s : Ums) : Does env A B s s where
  lunIdx := rfl
  lunCnt := rfl
  tag := rfl
  static _ := rfl
  unmounted _ _ := rfl
  buffers h := h
  selected := .inl rfl
  partition h := h
  log := ⟨[], rfl, fun _ h ↦ absurd h List.not_mem_nil⟩

theorem Does.lun_static (h : Does env A B s s') : s'.lun.static = s.lun.static := by
  rw [lun, lun, h.lunIdx]
  exact h.static _

theorem Does.lun_unmounted (h : Does env A B s s') (hA : ∃ b, A b) :
    s'.lun.unmounted = s.lun.unmounted := by
  rw [lun, lun, h.lunIdx]
  exact h.unmounted hA _

theorem Does.selectable (h : Does env A B s s') {p : ℕ} (hp : Selectable env A s' p) :
    Selectable env A s p := by
  rcases hp with rfl | ⟨hA, htype, hre, rfl⟩
  · exact h.selected
  · exact .inr ⟨hA, LogicalUnit.static_type h.lun_static ▸ htype, hre, rfl⟩

theorem Does.fine (h : Does env A B s s') {e : Event} (he : Fine env A B s' e) :
    Fine env A B s e := by
  refine ⟨fun a ha ↦ ?_, he.bounds⟩
  have hm := he.access a ha
  obtain ⟨k, hk, hpos, hle⟩ := hm.range
  exact
    { allowed := hm.allowed
      lun := hm.lun.trans h.lunIdx
      static := hm.static.trans h.lun_static
      unmounted := hm.unmounted.trans (h.lun_unmounted ⟨_, hm.allowed⟩)
      part := h.selectable hm.part
      part' := h.selectable hm.part'
      range := ⟨k, by rw [hk, LogicalUnit.static_offset h.lun_static], hpos,
        (LogicalUnit.static_numSectors h.lun_static) ▸ hle⟩ }

theorem Does.trans (h : Does env A B s s') (h' : Does env A B s' s'') : Does env A B s s'' where
  lunIdx := h'.lunIdx.trans h.lunIdx
  lunCnt := h'.lunCnt.trans h.lunCnt
  tag := h'.tag.trans h.tag
  static i := (h'.static i).trans (h.static i)
  unmounted hA i := (h'.unmounted hA i).trans (h.unmounted hA i)
  buffers hb := h'.buffers (h.buffers hb)
  selected := h.selectable h'.selected
  partition hp := h'.partition (h.partition hp)
  log := by
    obtain ⟨es, he, hfine⟩ := h.log
    obtain ⟨es', he', hfine'⟩ := h'.log
    refine ⟨es' ++ es, by rw [he', he, List.append_assoc], fun e hmem ↦ ?_⟩
    rcases List.mem_append.mp hmem with hmem | hmem
    · exact h.fine (hfine' e hmem)
    · exact hfine e hmem

theorem Does.mono (h : Does env A B s s') (hA : ∀ b, A b → A' b) (hne : (∃ b, A' b) → ∃ b, A b)
    (hB : B' → B) : Does env A' B' s s' where
  lunIdx := h.lunIdx
  lunCnt := h.lunCnt
  tag := h.tag
  static := h.static
  unmounted hb := h.unmounted (hne hb)
  buffers := h.buffers
  selected := h.selected.mono hA
  partition := h.partition
  log := by
    obtain ⟨es, he, hfine⟩ := h.log
    exact ⟨es, he, fun e hmem ↦ (hfine e hmem).mono hA hB⟩

/-! ## Operations that put nothing on record -/

/-- The part of the gadget `Does` looks at is the same, apart from which of the two buffers the
bulk-IN pointer points to. -/
structure Same (s s' : Ums) : Prop where
  lunIdx : s'.lunIdx = s.lunIdx
  lunCnt : s'.lunCnt = s.lunCnt
  tag : s'.tag = s.tag
  luns : s'.luns = s.luns
  outBuf : s'.bulk.outBuf = s.bulk.outBuf
  inBuf : s'.bulk.inBuf = s.bulk.inBuf ∨
    s'.bulk.inBuf = usbEpBulkInBufAddr ∨ s'.bulk.inBuf = usbEpBulkOutBufAddr
  selected : s'.w.selected = s.w.selected
  partition : s'.w.partition = s.w.partition

theorem Same.does (h : Same s s') (es : List Event) (hlog : s'.w.trace = es ++ s.w.trace)
    (hes : ∀ e ∈ es, Fine env A B s e) : Does env A B s s' where
  lunIdx := h.lunIdx
  lunCnt := h.lunCnt
  tag := h.tag
  static i := by rw [h.luns]
  unmounted _ i := by rw [h.luns]
  buffers hb := ⟨h.outBuf.trans hb.out, h.inBuf.elim (fun he ↦ he ▸ hb.into) id⟩
  selected := .inl h.selected
  partition hp := by rw [h.partition, h.selected, hp]
  log := ⟨es, hlog, hes⟩

theorem Same.does_quiet (h : Same s s') (hlog : s'.w.trace = s.w.trace) : Does env A B s s' :=
  h.does [] hlog fun _ h ↦ absurd h List.not_mem_nil

/-- The part of the gadget `Does` looks at. -/
def watched (s : Ums) : (ℕ × ℕ × ℕ × (ℕ → LogicalUnit)) × (ℕ × ℕ) × ℕ × ℕ × List Event :=
  ((s.lunIdx, s.lunCnt, s.tag, s.luns), (s.bulk.outBuf, s.bulk.inBuf), s.w.selected, s.w.partition,
    s.w.trace)

/-- An operation on other fields. -/
theorem quiet_does (h : s'.watched = s.watched) : Does env A B s s' := by
  rw [watched, watched] at h
  simp only [Prod.mk.injEq] at h
  obtain ⟨⟨hidx, hcnt, htag, hluns⟩, ⟨hout, hin⟩, hsel, hpart, htrace⟩ := h
  exact Same.does_quiet ⟨hidx, hcnt, htag, hluns, hout, .inl hin, hsel, hpart⟩ htrace

/-- One event that is not a transfer of sectors. -/
theorem Fine.of_region {e : Event} (hacc : ∀ a, e ≠ .access a) (hB : B → e.InBounds) :
    Fine env A B s e :=
  ⟨fun a ha ↦ absurd ha (hacc a), hB⟩

theorem Same.does_one (h : Same s s') {e : Event} (hlog : s'.w.trace = e :: s.w.trace)
    (hacc : ∀ a, e ≠ .access a) (hB : B → e.InBounds) : Does env A B s s' :=
  h.does [e] hlog fun e' h' ↦ by
    rw [List.mem_singleton] at h'
    subst h'
    exact .of_region hacc hB

/-- A change of the active unit that keeps its window, its mode and its medium. -/
theorem setLun_does {f : LogicalUnit → LogicalUnit} (hstatic : (f s.lun).static = s.lun.static)
    (hmount : (f s.lun).unmounted = s.lun.unmounted) : Does env A B s (s.setLun f) where
  lunIdx := rfl
  lunCnt := rfl
  tag := rfl
  static i := by
    rcases eq_or_ne i s.lunIdx with rfl | hne
    · rw [setLun]
      dsimp only
      rw [Function.update_self]
      exact hstatic
    · rw [setLun]
      dsimp only
      rw [Function.update_of_ne hne]
  unmounted _ i := by
    rcases eq_or_ne i s.lunIdx with rfl | hne
    · rw [setLun]
      dsimp only
      rw [Function.update_self]
      exact hmount
    · rw [setLun]
      dsimp only
      rw [Function.update_of_ne hne]
  buffers h := ⟨h.out, h.into⟩
  selected := .inl rfl
  partition h := h
  log := ⟨[], rfl, fun _ h ↦ absurd h List.not_mem_nil⟩

theorem sense_does (code : ℕ) (s : Ums) : Does env A B s (s.sense code) := setLun_does rfl rfl

theorem senseAt_does (code info : ℕ) (s : Ums) : Does env A B s (s.senseAt code info) :=
  setLun_does rfl rfl

theorem poll_does (env' : Env) (s : Ums) : Does env A B s (s.poll env').2 :=
  quiet_does rfl

theorem raiseException_does (st : UmsState) (s : Ums) : Does env A B s (s.raiseException st) := by
  rw [raiseException]
  split
  · exact quiet_does rfl
  · exact .refl s

theorem handleEp0Ctrl_does (env' : Env) (s : Ums) : Does env A B s (s.handleEp0Ctrl env') := by
  have hpoll : Does env A B s (s.poll env').2 := poll_does env' s
  rw [handleEp0Ctrl]
  rcases hp : s.poll env' with ⟨_ | _, s₁⟩ <;> rw [hp] at hpoll
  · exact hpoll
  · exact hpoll.trans (raiseException_does _ s₁)

theorem fillMem_does {addr len : ℕ} {src : ℕ → UInt8}
    (hB : B → (Event.fill addr len).InBounds) : Does env A B s (s.fillMem addr len src) :=
  Same.does_one ⟨rfl, rfl, rfl, rfl, rfl, .inl rfl, rfl, rfl⟩ rfl (fun _ ↦ Event.noConfusion) hB

/-- What is written to the start of either buffer is within bounds if it is within the buffer. -/
theorem Buffers.inBounds (h : Buffers s) {len : ℕ} (hlen : len ≤ 0x8000) :
    (Event.fill s.bulk.inBuf len).InBounds := by
  rw [Event.InBounds, Event.region, usbEpBulkInBufAddr_eq, xusbRingAddr_eq]
  rcases h.into with hin | hin <;> rw [hin] <;>
    simp only [usbEpBulkInBufAddr_eq, usbEpBulkOutBufAddr_eq] <;> omega

theorem put_does {l : List UInt8} (hlen : l.length ≤ 0x8000) :
    Does env A (Buffers s) s (s.put l) :=
  fillMem_does fun hb ↦ hb.inBounds hlen

end Ums

/-! ## Endpoints -/

/-- The world is the same but for memory and endpoints. -/
structure World.Same (w w' : World) : Prop where
  selected : w'.selected = w.selected
  partition : w'.partition = w.partition
  trace : w'.trace = w.trace

theorem World.waitIn_same (env : Env) (w : World) : w.Same (w.waitIn env).2 := by
  rw [World.waitIn]
  dsimp only
  split
  · exact ⟨rfl, rfl, rfl⟩
  · split
    · exact ⟨rfl, rfl, rfl⟩
    · exact ⟨rfl, rfl, rfl⟩

theorem World.waitOut_same (env : Env) (w : World) : w.Same (w.waitOut env).2 := by
  rw [World.waitOut]
  dsimp only
  split
  · exact ⟨rfl, rfl, rfl⟩
  · exact ⟨rfl, rfl, rfl⟩

/-- What a bulk-IN request puts on record: itself, and the empty one that may follow it. -/
theorem xusbDeviceEp1InWrite_log (env : Env) (buf len : ℕ) (sync : Bool) (w : World) :
    (xusbDeviceEp1InWrite env buf len sync w).2.selected = w.selected ∧
      (xusbDeviceEp1InWrite env buf len sync w).2.partition = w.partition ∧
      ∃ es, (xusbDeviceEp1InWrite env buf len sync w).2.trace = es ++ w.trace ∧
        ∀ e ∈ es, ∃ len' ≤ min len usbEpBufferMaxSize, e = .bulkIn buf len' := by
  set len₁ := min len usbEpBufferMaxSize with hlen
  rw [xusbDeviceEp1InWrite]
  cases sync with
  | true =>
    have h := World.waitIn_same env ({ w with txCountIn := 0 }.pushIn buf len₁)
    refine ⟨h.selected, h.partition, [.bulkIn buf len₁], h.trace, fun e he ↦ ?_⟩
    rw [List.mem_singleton] at he
    exact ⟨len₁, Nat.le_refl _, he⟩
  | false =>
    simp only [Bool.false_eq_true, ↓reduceIte]
    split
    · refine ⟨rfl, rfl, [.bulkIn buf 0, .bulkIn buf len₁], rfl, fun e he ↦ ?_⟩
      rcases List.mem_cons.mp he with rfl | he
      · exact ⟨0, Nat.zero_le _, rfl⟩
      · exact ⟨len₁, Nat.le_refl _, List.mem_singleton.mp he⟩
    · refine ⟨rfl, rfl, [.bulkIn buf len₁], rfl, fun e he ↦ ?_⟩
      exact ⟨len₁, Nat.le_refl _, List.mem_singleton.mp he⟩

theorem xusbDeviceEp1OutReadingFinish_same (env : Env) (w : World) :
    w.Same (xusbDeviceEp1OutReadingFinish env w).2.2 :=
  World.waitOut_same env w

theorem xusbDeviceEp1OutRead_log (env : Env) (buf len : ℕ) (w : World) :
    (xusbDeviceEp1OutRead env buf len w).2.2.selected = w.selected ∧
      (xusbDeviceEp1OutRead env buf len w).2.2.partition = w.partition ∧
      (xusbDeviceEp1OutRead env buf len w).2.2.trace =
        .bulkOut buf (min len usbEpBufferMaxSize) (xusbDeviceEp1OutRead env buf len w).2.1 ::
          w.trace := by
  have h := xusbDeviceEp1OutReadingFinish_same env
    { w with txCountOut := 1, txBytesOut := min len usbEpBufferMaxSize }
  refine ⟨h.selected, h.partition, ?_⟩
  exact congrArg (_ :: ·) h.trace

/-- **A big read is one request**: what is asked for fits into the bulk-OUT buffer, and that is
shorter than the longest request there is. -/
theorem xusbDeviceEp1OutReadBig_eq (env : Env) (buf : ℕ) {len : ℕ} (w : World) (hpos : 0 < len)
    (hlen : len ≤ usbEpBulkOutMaxXfer) :
    xusbDeviceEp1OutReadBig env buf len w =
      match xusbDeviceEp1OutRead env buf len w with
      | (res, bytes, w) => (res, if res ≠ 0 then 0 else bytes % 2 ^ 32, w) := by
  have hmin : min len usbEpBulkOutMaxXfer = len := Nat.min_eq_left hlen
  have hep : min len usbEpBufferMaxSize = len := by
    rw [usbEpBulkOutMaxXfer_eq] at hlen
    rw [usbEpBufferMaxSize_eq]
    omega
  rw [xusbDeviceEp1OutReadBig]
  simp only [hmin]
  rcases hr : xusbDeviceEp1OutRead env buf len w with ⟨res, bytes, w₁⟩
  have hfirst : bigReadPass env ⟨len, buf, 0, w⟩ =
      if res ≠ 0 then .leave (res, 0, w₁) else .again ⟨0, buf + len, add32 0 bytes, w₁⟩ := by
    rw [bigReadPass]
    simp only [Nat.ne_of_gt hpos, ↓reduceIte, hep, hr, Nat.sub_self]
  by_cases hres : res ≠ 0
  · rw [if_pos hres] at hfirst
    rw [Loop.run_succ_leave hfirst]
    simp only [hres, ne_eq, not_false_eq_true, ↓reduceIte]
  · rw [if_neg hres] at hfirst
    obtain ⟨n, rfl⟩ : ∃ n, len = n + 1 := ⟨len - 1, by omega⟩
    have hsecond : bigReadPass env ⟨0, buf + (n + 1), add32 0 bytes, w₁⟩ =
        .leave (0, add32 0 bytes, w₁) := rfl
    rw [Loop.run_succ_again hfirst, Loop.run_succ_leave hsecond]
    have hzero : res = 0 := not_not.mp hres
    simp only [hzero, ne_eq, not_true_eq_false, ↓reduceIte, add32, Nat.zero_add]

namespace Ums

variable {env : Env} {A A' : Bool → Prop} {B B' : Prop} {s s' s'' : Ums}

/-- A request of `bulk_in_length` bytes from the bulk-IN pointer. -/
theorem transferStartIn_does (env' : Env) (sync : Bool)
    (hB : B → (Event.bulkIn s.bulk.inBuf (min s.bulk.inLength usbEpBufferMaxSize)).InBounds) :
    Does env A B s (s.transferStartIn env' sync) := by
  obtain ⟨hsel, hpart, es, hes, hmem⟩ :=
    xusbDeviceEp1InWrite_log env' s.bulk.inBuf s.bulk.inLength sync s.w
  refine Same.does ⟨rfl, rfl, rfl, rfl, rfl, .inl rfl, hsel, hpart⟩ es hes fun e he ↦ ?_
  obtain ⟨len, hlen, rfl⟩ := hmem e he
  refine .of_region (fun _ ↦ Event.noConfusion) fun hb ↦ ?_
  exact ⟨(hB hb).1, Nat.le_trans (Nat.add_le_add_left hlen _) (hB hb).2⟩

theorem transferFinishIn_does (env' : Env) : Does env A B s (s.transferFinishIn env') := by
  have h := World.waitIn_same env' s.w
  exact Same.does_quiet ⟨rfl, rfl, rfl, rfl, rfl, .inl rfl, h.selected, h.partition⟩ h.trace

theorem transferFinishOut_does (env' : Env) : Does env A B s (s.transferFinishOut env') := by
  have h := xusbDeviceEp1OutReadingFinish_same env' s.w
  exact Same.does_quiet ⟨rfl, rfl, rfl, rfl, rfl, .inl rfl, h.selected, h.partition⟩ h.trace

/-- A request of `bulk_out_length` bytes to the bulk-OUT buffer. -/
theorem transferStartOut_does (env' : Env)
    (hB : B → s.Buffers ∧ min s.bulk.outLength usbEpBufferMaxSize ≤ 0x8000) :
    Does env A B s (s.transferStartOut env') := by
  obtain ⟨hsel, hpart, hlog⟩ := xusbDeviceEp1OutRead_log env' s.bulk.outBuf s.bulk.outLength s.w
  refine Same.does_one ⟨rfl, rfl, rfl, rfl, rfl, .inl rfl, hsel, hpart⟩ hlog
    (fun _ ↦ Event.noConfusion) fun hb ↦ ?_
  obtain ⟨hbuf, hlen⟩ := hB hb
  rw [Event.InBounds, Event.region, hbuf.out, usbEpBulkOutBufAddr_eq, usbEpBulkInBufAddr_eq,
    xusbRingAddr_eq]
  dsimp only
  omega

theorem transferOutBigRead_does (env' : Env) (hpos : 0 < s.bulk.outLength)
    (hlen : s.bulk.outLength ≤ usbEpBulkOutMaxXfer) :
    Does env A (Buffers s) s (s.transferOutBigRead env') := by
  obtain ⟨hsel, hpart, hlog⟩ := xusbDeviceEp1OutRead_log env' s.bulk.outBuf s.bulk.outLength s.w
  have hw : (s.transferOutBigRead env').w =
      (xusbDeviceEp1OutRead env' s.bulk.outBuf s.bulk.outLength s.w).2.2 :=
    congrArg (·.2.2) (xusbDeviceEp1OutReadBig_eq env' s.bulk.outBuf s.w hpos hlen)
  rw [← hw] at hsel hpart hlog
  refine Same.does_one ⟨rfl, rfl, rfl, rfl, rfl, .inl rfl, hsel, hpart⟩ hlog
    (fun _ ↦ Event.noConfusion) fun hb ↦ ?_
  rw [usbEpBulkOutMaxXfer_eq] at hlen
  rw [Event.InBounds, Event.region, hb.out, usbEpBulkOutBufAddr_eq, usbEpBulkInBufAddr_eq,
    xusbRingAddr_eq]
  dsimp only
  omega

/-! ## Transfers of sectors -/

/-- A transfer of sectors inside the window of the active unit. -/
theorem sdmmcStorageAccess_does {isWrite : Bool} {k count buf : ℕ} (hA : A isWrite)
    (hpos : 0 < count) (hle : k + count ≤ s.lun.numSectors)
    (hB : B → (Event.fill buf (lbaSize * count)).InBounds) :
    Does env A B s
      (s.sdmmcStorageAccess env isWrite (add32 s.lun.offset k) count buf).2 := by
  have hafter : ∀ p, p = s.w.selected →
      Selectable env A s (partAfter (env s.w.tick) s.lun.type p) := by
    rintro p rfl
    rw [partAfter]
    split
    · next h => exact .inr ⟨⟨_, hA⟩, h.1, ⟨_, h.2⟩, rfl⟩
    · exact .inl rfl
  exact
    { lunIdx := rfl
      lunCnt := rfl
      tag := rfl
      static := fun _ ↦ rfl
      unmounted := fun _ _ ↦ rfl
      buffers := fun h ↦ ⟨h.out, h.into⟩
      selected := hafter _ rfl
      partition := fun hp ↦ by
        simp only [sdmmcStorageAccess]
        rw [hp]
      log := by
        refine ⟨[_], rfl, fun e he ↦ ?_⟩
        rw [List.mem_singleton] at he
        subst he
        refine ⟨fun a ha ↦ ?_, hB⟩
        cases ha
        exact ⟨hA, rfl, rfl, rfl, .inl rfl, hafter _ rfl, k, rfl, hpos, hle⟩ }

end Ums

end Usb
end SdLoader
