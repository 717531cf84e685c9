import SdLoader.Usb.Account

/-!
# The mass storage gadget: what the host is sent at the end of a command

* `Sends` — what is put on record last is one request on bulk-IN, for a range of memory that holds
  just these bytes; and if nothing was outstanding and the bus does not fail, they are sent.
* `IsCsw` — the host reads these bytes as a status wrapper.
* `Gadget.status_reports` — the step that ends a command sends the wrapper with the residue and the
  status byte of the gadget; `Gadget.Due.sends` — and so does the exception that gives up data from
  the host.
* `sendReply_sends` — a short reply is sent whole, and followed by zeros.
-/

set_option autoImplicit false

namespace SdLoader
namespace Usb

variable {env : Env} {s t u : Ums} {g : Gadget} {l l' : List UInt8}

namespace Ums

/-- On the way from `s` to `t` a request for the bytes `l` is made on the bulk-IN endpoint, and it
is the last. -/
structure Sends (env : Env) (s t : Ums) (l : List UInt8) : Prop where
  /-- It is on record, and its range of memory holds these bytes. -/
  request : ∃ a new, t.w.trace = .bulkIn a l.length :: (new ++ s.w.trace) ∧
    Store.slice t.w.mem a l.length = l
  /-- If nothing was outstanding, and the bus does not fail, it is all that has been sent. -/
  sent : s.w.inQueue = [] → Clean env → t.w.inQueue = [] ∧ t.w.sent = s.w.sent ++ l

/-- They are the only such bytes. -/
theorem Sends.unique (h : Sends env s t l) (h' : Sends env s t l') : l = l' := by
  obtain ⟨a, new, htrace, hslice⟩ := h.request
  obtain ⟨a', new', htrace', hslice'⟩ := h'.request
  rw [htrace] at htrace'
  obtain ⟨ha, hlength⟩ := Event.bulkIn.inj (List.cons.inj htrace').1
  rw [← hslice, ← hslice', ha, hlength]

/-- What is done before makes no difference, if it makes no request. -/
theorem Sends.after (h : Sends env t u l) (htrace : ∃ new, t.w.trace = new ++ s.w.trace)
    (hqueue : t.w.inQueue = s.w.inQueue) (hsent : t.w.sent = s.w.sent) : Sends env s u l := by
  obtain ⟨before, hbefore⟩ := htrace
  obtain ⟨a, new, hrequest, hslice⟩ := h.request
  refine ⟨⟨a, new ++ before, ?_, hslice⟩, fun hnone hclean ↦ ?_⟩
  · rw [hrequest, hbefore, List.append_assoc]
  · rw [← hsent]
    exact h.sent (hqueue.trans hnone) hclean

/-- Nor does what is done after it. -/
theorem Sends.before (h : Sends env s t l) (hw : u.w = t.w) : Sends env s u l := by
  obtain ⟨hrequest, hsent⟩ := h
  rw [← hw] at hrequest hsent
  exact ⟨hrequest, hsent⟩

theorem waitIn_record (env : Env) (w : World) :
    (w.waitIn env).2.trace = w.trace ∧ (w.waitIn env).2.mem = w.mem := by
  rw [World.waitIn]
  dsimp only
  split
  · exact ⟨rfl, rfl⟩
  split <;> exact ⟨rfl, rfl⟩

/-- **A request that is waited for** is for what is behind the pointer. -/
theorem transferStartIn_sends (hfits : s.bulk.inLength ≤ usbEpBufferMaxSize) :
    Sends env s (s.transferStartIn env true)
      (Store.slice s.w.mem s.bulk.inBuf s.bulk.inLength) := by
  have hmin : min s.bulk.inLength usbEpBufferMaxSize = s.bulk.inLength := Nat.min_eq_left hfits
  obtain ⟨w, hw⟩ : ∃ w, w = { s.w with txCountIn := 0 }.pushIn s.bulk.inBuf
    (min s.bulk.inLength usbEpBufferMaxSize) := ⟨_, rfl⟩
  have hwait : (s.transferStartIn env true).w = (w.waitIn env).2 := by
    rw [hw]
    rfl
  obtain ⟨htrace, hmem⟩ := waitIn_record env w
  have hpushed : w.trace = .bulkIn s.bulk.inBuf s.bulk.inLength :: s.w.trace := by
    rw [hw, hmin]
    rfl
  have hsame : w.mem = s.w.mem := by
    rw [hw]
    rfl
  refine ⟨⟨s.bulk.inBuf, [], ?_, ?_⟩, fun hnone hclean ↦ ?_⟩
  · rw [hwait, htrace, hpushed, Store.length_slice]
    rfl
  · rw [hwait, hmem, hsame, Store.length_slice]
  · obtain ⟨hqueue, hsent, -, -⟩ := transferStartIn_clean hclean hnone
    rw [hmin] at hsent
    exact ⟨hqueue, hsent⟩

/-- A request for bytes that have been put behind the pointer just before. -/
theorem put_sends (hfits : l.length ≤ usbEpBufferMaxSize) :
    Sends env s ({ s.put l with bulk.inLength := l.length }.transferStartIn env true) l := by
  obtain ⟨t, ht⟩ : ∃ t : Ums, t = { s.put l with bulk.inLength := l.length } := ⟨_, rfl⟩
  have hlength : t.bulk.inLength = l.length := ht ▸ rfl
  have hslice : Store.slice t.w.mem t.bulk.inBuf t.bulk.inLength = l := by
    have hmem : Store.slice (Store.blit s.w.mem s.bulk.inBuf l.length fun k ↦ l.getD k 0)
        s.bulk.inBuf l.length = l.take l.length := slice_blit_getD _ _ (Nat.le_refl _)
    rw [List.take_length] at hmem
    rw [ht]
    exact hmem
  have hsends : Sends env t (t.transferStartIn env true) _ :=
    transferStartIn_sends (hlength ▸ hfits)
  rw [hslice] at hsends
  rw [← ht]
  exact hsends.after ⟨[.fill s.bulk.inBuf l.length], ht ▸ rfl⟩ (ht ▸ rfl) (ht ▸ rfl)

/-! ## The status wrapper -/

/-- The host reads the bytes as a status wrapper. -/
structure IsCsw (l : List UInt8) (tag residue : ℕ) (status : UInt8) : Prop where
  length : l.length = usbBulkCsWrapLen
  signature : Store.word (fun k ↦ l.getD k 0) 0 = usbBulkCsSig
  tag : Store.word (fun k ↦ l.getD k 0) 4 = tag % 2 ^ 32
  residue : Store.word (fun k ↦ l.getD k 0) 8 = residue % 2 ^ 32
  status : l[12]? = some status

/-- What the gadget puts together is such a wrapper. -/
theorem csw_isCsw (s : Ums) : IsCsw s.csw s.tag s.residue s.status := by
  have hword : ∀ (m : ℕ → UInt8) (a v : ℕ), (∀ k < 4, m (a + k) = Store.wordByte v k) →
      Store.word m a = v % 2 ^ 32 := by
    intro m a v h
    have hzero := h 0 (by omega)
    rw [Nat.add_zero] at hzero
    rw [Store.word, hzero, h 1 (by omega), h 2 (by omega), h 3 (by omega)]
    simp only [Store.wordByte, UInt8.toNat_ofNat']
    omega
  have hbytes : s.csw = [Store.wordByte usbBulkCsSig 0, Store.wordByte usbBulkCsSig 1,
      Store.wordByte usbBulkCsSig 2, Store.wordByte usbBulkCsSig 3, Store.wordByte s.tag 0,
      Store.wordByte s.tag 1, Store.wordByte s.tag 2, Store.wordByte s.tag 3,
      Store.wordByte s.residue 0, Store.wordByte s.residue 1, Store.wordByte s.residue 2,
      Store.wordByte s.residue 3, s.status] := rfl
  have hall : ∀ {P : ℕ → Prop}, P 0 → P 1 → P 2 → P 3 → ∀ k < 4, P k := by
    intro P h0 h1 h2 h3 k hk
    obtain rfl | rfl | rfl | rfl : k = 0 ∨ k = 1 ∨ k = 2 ∨ k = 3 := by omega
    · exact h0
    · exact h1
    · exact h2
    · exact h3
  rw [hbytes]
  refine ⟨rfl, ?_, ?_, ?_, rfl⟩
  · exact hword _ 0 usbBulkCsSig (hall rfl rfl rfl rfl)
  · exact hword _ 4 s.tag (hall rfl rfl rfl rfl)
  · exact hword _ 8 s.residue (hall rfl rfl rfl rfl)

theorem sendStatus_sends (env : Env) (s : Ums) : Sends env s (s.sendStatus env) s.csw := by
  have hlength : s.csw.length = usbBulkCsWrapLen := (csw_isCsw s).length
  have hsends : Sends env s ({ s.put s.csw with bulk.inLength := s.csw.length }.transferStartIn
      env true) s.csw := put_sends (by rw [hlength]; decide)
  rw [hlength] at hsends
  exact hsends

/-! ## A short reply -/

/-- Padding of a reply that fits into one request. -/
theorem padWithZeros_sends (hpos : 0 < s.bulk.inLength)
    (hfits : s.bulk.inLength + s.residue ≤ usbEpBufferMaxSize) :
    Sends env s (s.padWithZeros env)
      (Store.slice s.w.mem s.bulk.inBuf s.bulk.inLength ++ List.replicate s.residue 0) := by
  have hsum : add32 s.bulk.inLength s.residue = s.bulk.inLength + s.residue := by
    rw [usbEpBufferMaxSize_eq] at hfits
    exact add32_of_lt (by omega)
  obtain ⟨n, hn⟩ : ∃ n, n = s.bulk.inLength + s.residue := ⟨_, rfl⟩
  rw [hn.symm] at hsum hfits
  obtain ⟨t, ht⟩ : ∃ t : Ums, t = { s with bulk.inBufState := .empty, usbAmountLeft := n } :=
    ⟨_, rfl⟩
  -- There is one pass.
  obtain ⟨u, hu⟩ : ∃ u : Ums, u = { t.fillMem (t.bulk.inBuf + s.bulk.inLength)
    (sub32 n s.bulk.inLength) (fun _ ↦ 0) with bulk.inLength := n } := ⟨_, rfl⟩
  obtain ⟨v, hv⟩ : ∃ v, v = u.transferStartIn env true := ⟨_, rfl⟩
  have hleft : t.usbAmountLeft = n := ht ▸ rfl
  have hpass : padPass env ⟨s.bulk.inLength, t⟩ =
      .again ⟨0, { v with usbAmountLeft := v.usbAmountLeft - n }⟩ := by
    rw [padPass]
    dsimp only
    rw [hleft, if_neg (by omega), Nat.min_eq_left hfits, ← hu, ← hv]
  have hvleft : v.usbAmountLeft = n := by
    rw [hv, hu, ht]
    rfl
  have hend : padPass env ⟨0, { v with usbAmountLeft := v.usbAmountLeft - n }⟩ =
      .leave { v with usbAmountLeft := v.usbAmountLeft - n } := by
    rw [padPass]
    exact if_pos (by show v.usbAmountLeft - n = 0; omega)
  have hresult : s.padWithZeros env = { v with usbAmountLeft := v.usbAmountLeft - n } := by
    rw [padWithZeros, hsum]
    dsimp only
    rw [← ht]
    obtain ⟨m, hm⟩ : ∃ m, n + 1 = m + 1 + 1 := ⟨n - 1, by omega⟩
    rw [hm, Loop.run_succ_again hpass, Loop.run_succ_leave hend]
  -- The range holds the reply, and zeros behind it.
  have hzeros : sub32 n s.bulk.inLength = s.residue := by
    rw [sub32_of_le (by omega)]
    omega
  have hslice : Store.slice u.w.mem u.bulk.inBuf u.bulk.inLength =
      Store.slice s.w.mem s.bulk.inBuf s.bulk.inLength ++ List.replicate s.residue 0 := by
    have hmem : u.w.mem = Store.fill s.w.mem (s.bulk.inBuf + s.bulk.inLength) s.residue 0 := by
      rw [hu, hzeros, ht]
      rfl
    have hbuf : u.bulk.inBuf = s.bulk.inBuf := by
      rw [hu, ht]
      rfl
    have hlen : u.bulk.inLength = s.bulk.inLength + s.residue := by
      rw [hu, ← hn]
    rw [hmem, hbuf, hlen, Store.slice_fill_end]
  have hsends : Sends env u v _ := hv ▸ transferStartIn_sends (by rw [hu]; exact hfits)
  rw [hslice] at hsends
  rw [hresult]
  refine (hsends.after ⟨[.fill (t.bulk.inBuf + s.bulk.inLength) (sub32 n s.bulk.inLength)], ?_⟩
    ?_ ?_).before rfl <;> rw [hu, ht] <;> rfl

/-- **A short reply** is sent whole, and followed by zeros at most. -/
theorem sendReply_sends (env : Env) (hsize : s.dataSize ≠ 0) (hpos : 0 < s.bulk.inLength)
    (hfits : s.bulk.inLength + s.residue ≤ usbEpBufferMaxSize) :
    ∃ k, Sends env s (s.sendReply env)
      (Store.slice s.w.mem s.bulk.inBuf s.bulk.inLength ++ List.replicate k 0) := by
  rw [sendReply, if_neg hsize]
  split
  · refine ⟨0, ?_⟩
    rw [List.replicate_zero, List.append_nil]
    exact transferStartIn_sends (Nat.le_of_add_right_le hfits)
  · exact ⟨s.residue, padWithZeros_sends hpos hfits⟩

end Ums

/-! ## The steps -/

namespace Gadget

/-- The last thing the step does on the bulk-IN endpoint is to request that these bytes be sent. -/
def Sends (g : Gadget) (env : Env) (l : List UInt8) : Prop := Ums.Sends env g.ums (g.step env).ums l

/-- What the step sends last is a status wrapper. -/
def Reports (g : Gadget) (env : Env) (tag residue : ℕ) (status : UInt8) : Prop :=
  ∃ l, g.Sends env l ∧ Ums.IsCsw l tag residue status

/-- The status wrapper of a command is due: the next step sends it, or handles the exception that
sends it. -/
def Due (s : Ums) (g : Gadget) : Prop :=
  g = .status s ∨ g = .top s ∧ s.state = .abortBulkOut

theorem status_sends (env : Env) (s : Ums) : (Gadget.status s).Sends env s.csw := by
  rw [Sends, step, ums_loopEnd]
  exact s.sendStatus_sends env

/-- **The status wrapper.**  The step that ends a command sends a status wrapper with the residue
and the status byte of the gadget, whatever else is the case. -/
theorem status_reports (env : Env) (s : Ums) :
    (Gadget.status s).Reports env s.tag s.residue s.status :=
  ⟨s.csw, status_sends env s, s.csw_isCsw⟩

/-- The exception sends the same, unless the session is ended. -/
theorem abort_sends (habort : s.state = .abortBulkOut) (hstay : ¬s.Leaves env) :
    (Gadget.top s).Sends env s.csw := by
  have hraised : s.state ≠ .normal := by
    rw [habort]
    decide
  have hpolled : (s.poll env).2.state = .abortBulkOut := habort
  have hexception : (s.poll env).2.handleException env =
      (s.poll env).2.takeException.sendStatus env := by
    rw [Ums.handleException, hpolled]
  obtain ⟨t, ht⟩ : ∃ t : Ums, t = { (s.poll env).2 with
    bulk.inBufState := .empty, bulk.outBufState := .empty, state := .normal } := ⟨_, rfl⟩
  have htake : (s.poll env).2.takeException = t := by
    rw [ht, Ums.takeException]
    exact if_neg (not_not_intro hpolled)
  have hcsw : t.csw = s.csw := by
    rw [ht]
    rfl
  rw [Sends, step_top_exception hraised hstay, ums_loopEnd, hexception, htake, ← hcsw]
  exact (t.sendStatus_sends env).after ⟨[], ht ▸ rfl⟩ (ht ▸ rfl) (ht ▸ rfl)

/-- The button combination ends the session in the step. -/
def Quits (g : Gadget) (env : Env) : Prop := ∃ s, g = .top s ∧ s.Leaves env

/-- A session that is ended sends nothing. -/
theorem Sends.stays (h : g.Sends env l) : ¬g.Quits env := by
  rintro ⟨s, rfl, hleaves⟩
  obtain ⟨a, new, htrace, -⟩ := h.request
  rw [step_leaves hleaves] at htrace
  have hlength := congrArg List.length htrace
  have hsame : (Gadget.exited (s.poll env).2).ums.w.trace = s.w.trace := rfl
  have hums : (Gadget.top s).ums = s := rfl
  rw [hsame, hums, List.length_cons, List.length_append] at hlength
  omega

/-- **What is sent when a wrapper is due** is this wrapper. -/
theorem Due.sends (h : g.Due s) (hsends : g.Sends env l) : l = s.csw := by
  rcases h with rfl | ⟨rfl, habort⟩
  · exact Ums.Sends.unique hsends (status_sends env s)
  · exact Ums.Sends.unique hsends (abort_sends habort fun hleaves ↦ hsends.stays ⟨s, rfl, hleaves⟩)

theorem Due.status (h : g.Due s) {tag residue : ℕ} {status : UInt8}
    (hreports : g.Reports env tag residue status) : status = s.status := by
  obtain ⟨l, hsends, hcsw⟩ := hreports
  have hstatus := hcsw.status
  rw [h.sends hsends, s.csw_isCsw.status] at hstatus
  exact (Option.some.inj hstatus).symm

/-- It is sent, unless the session is ended. -/
theorem Due.reported (env : Env) (h : g.Due s) (hstay : ¬g.Quits env) :
    g.Reports env s.tag s.residue s.status := by
  rcases h with rfl | ⟨rfl, habort⟩
  · exact status_reports env s
  · exact ⟨s.csw, abort_sends habort fun hleaves ↦ hstay ⟨s, rfl, hleaves⟩, s.csw_isCsw⟩

end Gadget

end Usb
end SdLoader
