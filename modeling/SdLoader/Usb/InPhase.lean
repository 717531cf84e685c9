import SdLoader.Usb.Chunks

/-!
# The mass storage gadget: data to the host

What the host gets to see of a command that it expects data from.

The endpoints cannot be halted, so a reply that is shorter than the host expects is filled up with
zeros, behind what there is of it in the buffer.  How much that is, `_pad_with_zeros` takes from
`bulk_in_length`.

* Not every command sets it: those of `Silent`, and a write of nothing, leave what was sent last,
  and that is the status of the command before.
* A read of more than one chunk has a chunk on its way while it reads the next one, or while the
  buffer is cleared because there is none.  What is in the buffer then is what the host gets.

The rest is in order:

* `InLaw` — the data phase comes to an end, by then exactly what the host expects has been sent, and
  it starts with the reply.
* `Loaded`, `until_of_loaded` — the reply of a command is in the buffer, and will be sent.
* `nothing_of_delivered` and `not_delivered_of_spoiled` — what is not delivered.
* `inPhase_iff` — the law holds of a command exactly if `InFits`, in a session without USB errors in
  which no read before it has run past the end of its unit.
-/

set_option autoImplicit false

namespace SdLoader
namespace Usb
namespace Ums

variable {env : Env} {envs : ℕ → Env} {s t u : Ums}

/-! ## The law -/

/-- As much has been sent for the command as the host expects, and but for the residue it is the
reply. -/
def Delivered (s u : Ums) : Prop :=
  ∃ data, u.w.sent = s.w.sent ++ data ∧ data.length = s.dataSize ∧
    data.take (s.dataSize - u.residue) = u.w.reply

/-- **The law.**  The data phase of the command comes to an end, and by then its data has been
delivered. -/
def InLaw (s : Ums) (envs : ℕ → Env) : Prop :=
  Machine.Until Gadget.step Gadget.Over (fun g ↦ Delivered s g.ums) (.parse s) envs

/-- **The condition.**  A read is made in one chunk, and a command that has no reply finds nothing
in the buffer. -/
structure InFits (s : Ums) : Prop where
  read : s.OneChunk
  silent : (Silent s ∨ ∃ x, Admits s x) → s.bulk.inLength = 0

/-- The command has been carried out, and nothing has been sent for it. -/
structure Waiting (s u : Ums) : Prop where
  dataDir : u.dataDir = .toHost
  state : u.state = .normal
  dataSize : u.dataSize = s.dataSize
  stall : u.canStall = 0
  queue : u.w.inQueue = []
  sent : u.w.sent = s.w.sent

/-- The reply of the command is in the buffer, and the rest of what the host expects is residue. -/
structure Loaded (s u : Ums) : Prop extends Waiting s u where
  length : u.bulk.inLength + u.residue = s.dataSize
  small : u.bulk.inLength ≤ usbEpBulkInMaxXfer
  reply : u.w.reply = Store.slice u.w.mem u.bulk.inBuf u.bulk.inLength

/-! ## Padding -/

/-- What holds each time the loop of the padding begins a pass: what has been sent, and what is kept
in the buffer, is the reply and zeros. -/
structure Padding (s : Ums) (total : ℕ) (y : PadLoop) : Prop where
  queue : y.s.w.inQueue = []
  state : y.s.state = s.state
  residue : y.s.residue = s.residue
  reply : y.s.w.reply = s.w.reply
  keep : y.currentLenToKeep ≤ min y.s.usbAmountLeft usbEpBufferMaxSize
  sent : ∃ z, y.s.w.sent ++ Store.slice y.s.w.mem y.s.bulk.inBuf y.currentLenToKeep =
      s.w.sent ++ (s.w.reply ++ List.replicate z 0) ∧
    s.bulk.inLength + z + (y.s.usbAmountLeft - y.currentLenToKeep) = total

/-- What the padding has sent in the end. -/
structure Padded (s : Ums) (total : ℕ) (u : Ums) : Prop where
  queue : u.w.inQueue = []
  state : u.state = s.state
  residue : u.residue = s.residue
  reply : u.w.reply = s.w.reply
  sent : ∃ z, u.w.sent = s.w.sent ++ (s.w.reply ++ List.replicate z 0) ∧
    s.bulk.inLength + z = total

theorem padPass_padding {total : ℕ} {y : PadLoop} (hclean : Clean env) (h : Padding s total y) :
    (padPass env y).All (Padding s total) (Padded s total) := by
  obtain ⟨z, hsent, htotal⟩ := h.sent
  have hkeep := h.keep
  rw [padPass]
  dsimp only
  by_cases hleft : y.s.usbAmountLeft = 0
  · rw [if_pos hleft]
    rw [hleft, Nat.zero_min, Nat.le_zero] at hkeep
    rw [hkeep, hleft] at htotal
    rw [hkeep] at hsent
    refine ⟨h.queue, h.state, h.residue, h.reply, z, ?_, htotal⟩
    exact (List.append_nil _).symm.trans hsent
  rw [if_neg hleft]
  set nsend := min y.s.usbAmountLeft usbEpBufferMaxSize with hnsend
  set v : Ums := { y.s.fillMem (y.s.bulk.inBuf + y.currentLenToKeep)
    (sub32 nsend y.currentLenToKeep) fun _ ↦ 0 with bulk.inLength := nsend } with hv
  obtain ⟨hqueue, hv_sent, -, hreply⟩ := transferStartIn_clean hclean (s := v) h.queue
  have hmin : min v.bulk.inLength usbEpBufferMaxSize = nsend :=
    Nat.min_eq_left (Nat.min_le_right _ _)
  -- The buffer is what was kept, and zeros up to the end of what is sent.
  have hbuffer : Store.slice v.w.mem v.bulk.inBuf nsend =
      Store.slice y.s.w.mem y.s.bulk.inBuf y.currentLenToKeep ++
        List.replicate (nsend - y.currentLenToKeep) 0 := by
    have hfill : v.w.mem = Store.fill y.s.w.mem (y.s.bulk.inBuf + y.currentLenToKeep)
        (nsend - y.currentLenToKeep) 0 := by
      rw [hv, sub32_of_le hkeep]
      rfl
    have hsum : y.currentLenToKeep + (nsend - y.currentLenToKeep) = nsend :=
      Nat.add_sub_cancel' hkeep
    rw [hfill, ← Store.slice_fill_end, hsum]
    rfl
  rw [hmin, hbuffer, ← List.append_assoc] at hv_sent
  have hbefore : v.w.sent = y.s.w.sent := rfl
  rw [hbefore, hsent] at hv_sent
  refine ⟨hqueue, h.state, h.residue, hreply.trans h.reply, Nat.zero_le _,
    z + (nsend - y.currentLenToKeep), ?_, ?_⟩
  · refine (List.append_nil _).trans (hv_sent.trans ?_)
    rw [List.append_assoc, List.append_assoc, List.replicate_append_replicate]
  · show s.bulk.inLength + (z + (nsend - y.currentLenToKeep)) +
      (y.s.usbAmountLeft - nsend - 0) = total
    omega

theorem padWithZeros_padded (hclean : Clean env) (hqueue : s.w.inQueue = [])
    (hreply : s.w.reply = Store.slice s.w.mem s.bulk.inBuf s.bulk.inLength)
    (hkeep : s.bulk.inLength ≤ min (add32 s.bulk.inLength s.residue) usbEpBufferMaxSize) :
    Padded s (add32 s.bulk.inLength s.residue) (s.padWithZeros env) := by
  have hle := Nat.le_trans hkeep (Nat.min_le_left _ _)
  refine padWithZeros_rule (fun y hy ↦ padPass_padding hclean hy)
    ⟨hqueue, rfl, rfl, rfl, hkeep, 0, ?_, ?_⟩
  · rw [List.replicate_zero, List.append_nil, hreply]
  · show s.bulk.inLength + 0 + (add32 s.bulk.inLength s.residue - s.bulk.inLength) = _
    omega

/-- However much is kept, the padding sends so many bytes. -/
theorem length_padWithZeros (hclean : Clean env) (hqueue : s.w.inQueue = []) :
    (s.padWithZeros env).w.sent.length =
      s.w.sent.length + add32 s.bulk.inLength s.residue := by
  have hpass : ∀ y : PadLoop, (y.s.w.inQueue = [] ∧ y.s.w.sent.length + y.s.usbAmountLeft =
      s.w.sent.length + add32 s.bulk.inLength s.residue) →
      (padPass env y).All (fun y ↦ y.s.w.inQueue = [] ∧ y.s.w.sent.length + y.s.usbAmountLeft =
        s.w.sent.length + add32 s.bulk.inLength s.residue)
        (fun u ↦ u.w.sent.length = s.w.sent.length + add32 s.bulk.inLength s.residue) := by
    rintro y ⟨hy, hlength⟩
    rw [padPass]
    dsimp only
    by_cases hleft : y.s.usbAmountLeft = 0
    · rw [if_pos hleft]
      rw [hleft] at hlength
      exact hlength
    rw [if_neg hleft]
    set nsend := min y.s.usbAmountLeft usbEpBufferMaxSize with hnsend
    set v : Ums := { y.s.fillMem (y.s.bulk.inBuf + y.currentLenToKeep)
      (sub32 nsend y.currentLenToKeep) fun _ ↦ 0 with bulk.inLength := nsend } with hv
    obtain ⟨hqueue', hsent, -, -⟩ := transferStartIn_clean hclean (s := v) hy
    have hmin : min v.bulk.inLength usbEpBufferMaxSize = nsend :=
      Nat.min_eq_left (Nat.min_le_right _ _)
    refine ⟨hqueue', ?_⟩
    show (v.transferStartIn env true).w.sent.length + (y.s.usbAmountLeft - nsend) = _
    rw [hsent, hmin, List.length_append, Store.length_slice]
    show y.s.w.sent.length + nsend + (y.s.usbAmountLeft - nsend) = _
    omega
  exact padWithZeros_rule hpass ⟨hqueue, rfl⟩

/-! ## The end of the data phase -/

/-- The step that ends the data phase. -/
theorem step_reply (hclean : Clean env) (u : Ums) :
    (Gadget.step (.reply u) env).Over ∧
      (Gadget.step (.reply u) env).ums = (u.polled.finishReply env).2 := by
  rw [Gadget.step, handleEp0Ctrl_quiet hclean.quiet]
  rcases hf : u.polled.finishReply env with ⟨fatal, t⟩
  dsimp only
  split
  · refine ⟨?_, Gadget.ums_loopEnd t⟩
    rw [Gadget.loopEnd]
    split <;> exact trivial
  · exact ⟨trivial, rfl⟩

theorem until_reply (hclean : ∀ n, Clean (envs n)) (u : Ums) :
    Machine.Until Gadget.step Gadget.Over (fun g ↦ Delivered s g.ums) (.reply u) envs ↔
      Delivered s (u.polled.finishReply (envs 0)).2 := by
  obtain ⟨hover, hums⟩ := step_reply (hclean 0) u
  rw [Machine.until_step (fun hover : Gadget.Over (.reply u) ↦ hover), Machine.until_of_stop hover,
    hums]

theorem Waiting.polled (h : Waiting s u) : Waiting s u.polled :=
  ⟨h.dataDir, h.state, h.dataSize, h.stall, h.queue, h.sent⟩

/-- What `_finish_reply` sends, if something is expected. -/
theorem finishReply_waiting (h : Waiting s u) (hsome : s.dataSize ≠ 0) :
    (u.finishReply env).2 = (if u.residue = 0 then u.transferStartIn env true
      else u.padWithZeros env).resetBufferIn :=
  finishReply_toHost env h.dataDir (by rw [h.dataSize]; exact hsome) h.stall

/-- **A reply that is in the buffer is delivered.** -/
theorem delivered_of_loaded (hclean : Clean env) (h : Loaded s u) (hsome : s.dataSize ≠ 0)
    (hsmall : s.dataSize < 2 ^ 32) : Delivered s (u.finishReply env).2 := by
  have hlength := h.length
  have hfew := h.small
  rw [usbEpBulkInMaxXfer_eq] at hfew
  have hreply : u.w.reply.length = u.bulk.inLength := by rw [h.reply, Store.length_slice]
  rw [finishReply_waiting h.toWaiting hsome]
  by_cases hres : u.residue = 0
  · rw [if_pos hres]
    obtain ⟨-, hsent, -, hkept⟩ := transferStartIn_clean hclean h.queue
    have hmin : min u.bulk.inLength usbEpBufferMaxSize = u.bulk.inLength := by
      rw [usbEpBufferMaxSize_eq]
      omega
    rw [hmin, ← h.reply, h.sent] at hsent
    refine ⟨u.w.reply, hsent, by omega, ?_⟩
    show List.take (s.dataSize - u.residue) u.w.reply = (u.transferStartIn env true).w.reply
    rw [hkept]
    exact List.take_of_length_le (by omega)
  · rw [if_neg hres]
    have htotal : add32 u.bulk.inLength u.residue = s.dataSize := by
      rw [add32, hlength]
      exact Nat.mod_eq_of_lt hsmall
    have hkeep : u.bulk.inLength ≤
        min (add32 u.bulk.inLength u.residue) usbEpBufferMaxSize := by
      rw [htotal, usbEpBufferMaxSize_eq]
      omega
    obtain ⟨-, -, hresidue', hkept, z, hsent, hsum⟩ :=
      padWithZeros_padded hclean h.queue h.reply hkeep
    rw [htotal] at hsum
    rw [h.sent] at hsent
    refine ⟨_, hsent, ?_, ?_⟩
    · rw [List.length_append, List.length_replicate]
      omega
    · show List.take (s.dataSize - (u.padWithZeros env).residue) _ = (u.padWithZeros env).w.reply
      rw [hresidue', hkept]
      exact List.take_left' (by omega)

theorem Loaded.polled (h : Loaded s u) : Loaded s u.polled :=
  ⟨h.toWaiting.polled, h.length, h.small, h.reply⟩

theorem until_of_loaded (hclean : ∀ n, Clean (envs n)) (h : Loaded s u) (hsome : s.dataSize ≠ 0)
    (hsmall : s.dataSize < 2 ^ 32) :
    Machine.Until Gadget.step Gadget.Over (fun g ↦ Delivered s g.ums) (.reply u) envs :=
  (until_reply hclean u).mpr (delivered_of_loaded (hclean 0) h.polled hsome hsmall)

/-! ## The command -/

/-- What the checks leave of the data phase. -/
structure Limited (s t : Ums) : Prop extends Waiting s t where
  residue : t.residue = s.dataSize
  bulk : t.bulk = s.bulk
  limit : t.dataSizeFromCmnd ≤ s.dataSize

theorem limited_of_kept (hready : s.Ready) (hidle : s.Idle) (hdir : s.dataDir = .toHost)
    (h : Kept s.polled.opened.limitData t) : Limited s t where
  dataDir := h.dataDir.trans ((limitData_dataDir _).trans hdir)
  state := h.state.trans ((limitData_state _).trans hready.state)
  dataSize := h.dataSize.trans (limitData_dataSize _)
  stall := h.canStall.trans ((limitData_canStall _).trans hidle.stall)
  queue := by
    rw [h.inQueue, limitData_w]
    exact hidle.queue
  sent := by
    rw [h.sent, limitData_w]
    rfl
  residue := h.residue.trans (limitData_residue _)
  bulk := h.bulk.trans (limitData_bulk _)
  limit := by
    rw [h.dataSizeFromCmnd, limitData_dataSizeFromCmnd]
    exact Nat.min_le_right _ _

/-- The reply buffer set up for a reply. -/
theorem setUpReply_some {r : Reply} (hdir : t.dataDir = .toHost) (hr : r ≠ .ioError) :
    t.setUpReply r = { t with
      bulk.inLength := min r.size t.dataSizeFromCmnd
      bulk.inBufState := .full
      residue := t.residue - min r.size t.dataSizeFromCmnd
      w.reply := t.w.reply.take (min r.size t.dataSizeFromCmnd) } := by
  cases r with
  | ioError => exact absurd rfl hr
  | invalidArg => exact if_pos hdir
  | len n => exact if_pos hdir

theorem loaded_of_answers {s' : Ums} {r : Reply} (hlim : Limited s t) (hanswer : Answers s' r t) :
    Loaded s (t.setUpReply r) := by
  rw [setUpReply_some hlim.dataDir hanswer.some]
  set n := min r.size t.dataSizeFromCmnd with hn
  have hsmall := hanswer.small
  have hlimit := hlim.limit
  refine ⟨⟨hlim.dataDir, hlim.state, hlim.dataSize, hlim.stall, hlim.queue, hlim.sent⟩, ?_, ?_, ?_⟩
  · show n + (t.residue - n) = s.dataSize
    rw [hlim.residue]
    omega
  · show n ≤ usbEpBulkInMaxXfer
    omega
  · show t.w.reply.take n = Store.slice t.w.mem t.bulk.inBuf n
    rw [hanswer.reply]
    exact Store.take_slice _ _ (Nat.min_le_left _ _)

theorem loaded_of_chunk {k : ℕ} (hlim : Limited s t) (hreply : t.w.reply = [])
    (hk : k ≤ t.dataSizeFromCmnd / lbaSize) (hfew : k ≤ 64) (h : Chunk t u k) : Loaded s u := by
  have hlimit := hlim.limit
  rw [lbaSize_eq] at hk
  refine ⟨⟨h.dataDir.trans hlim.dataDir, h.state.trans hlim.state, h.dataSize.trans hlim.dataSize,
    h.stall.trans hlim.stall, h.queue.trans hlim.queue, h.sent.trans hlim.sent⟩, ?_, ?_, ?_⟩
  · rw [h.length, h.residue, hlim.residue, lbaSize_eq]
    omega
  · rw [h.length, lbaSize_eq, usbEpBulkInMaxXfer_eq]
    omega
  · rw [h.reply, hreply, h.buf, h.length]
    rfl

/-- A command without a reply, that finds nothing in the buffer. -/
theorem loaded_of_nothing (hlim : Limited s t) (hreply : t.w.reply = [])
    (hnothing : s.bulk.inLength = 0) : Loaded s t := by
  have hlength : t.bulk.inLength = 0 := by
    rw [hlim.bulk]
    exact hnothing
  refine ⟨hlim.toWaiting, ?_, ?_, ?_⟩
  · rw [hlength, hlim.residue]
    omega
  · rw [hlength]
    exact Nat.zero_le _
  · rw [hreply, hlength]
    rfl

theorem parsed_of_waiting (h : Waiting s u) : Gadget.parsed u = .reply u := by
  rw [Gadget.parsed, if_neg (not_not_intro h.state)]

/-- A write the host expects data from is one of nothing. -/
theorem amount_of_admits {x : WriteLoop} (hlim : Limited s x.s) (h : Admits s.polled x) :
    x.amountLeftToWrite = 0 := by
  obtain ⟨hc, six, hsix, hx⟩ := h
  obtain ⟨-, hsize, -⟩ := entered_of_scsiWrite hx
  rw [hsize]
  by_contra hne
  have hdir := dataDir_of_checked hc hne
  rw [hlim.dataDir] at hdir
  cases hcmd : s.polled.cmd <;> rw [hcmd] at hsix hdir <;> cases hsix <;> cases hdir

/-- **A command that fits meets the law**, whatever the storages do. -/
theorem inLaw_of_inFits (hready : s.Ready) (hidle : s.Idle) (hdir : s.dataDir = .toHost)
    (hfits : s.polled.InFits) (hclean : ∀ n, Clean (envs n)) : InLaw s envs := by
  have hsome : s.dataSize ≠ 0 := hready.some (by rw [hdir]; exact DataDir.noConfusion)
  have hsmall := hready.small
  obtain ⟨hkept, hreply⟩ := checked_kept s.polled
  have hparse := parse_answers (envs 0) s.polled
  rw [InLaw, Machine.until_step (fun hover : Gadget.Over (.parse s) ↦ hover), Gadget.step,
    handleEp0Ctrl_quiet (hclean 0).quiet]
  cases hp : s.polled.parseScsiCmd (envs 0) with
  | writing x =>
    rw [hp] at hparse
    have hadmits : Admits s.polled x := hparse
    rw [hadmits.1] at hkept hreply
    have hlim := limited_of_kept hready hidle hdir hkept
    have hload := loaded_of_nothing hlim hreply (hfits.silent (.inr ⟨x, hadmits⟩))
    dsimp only
    rw [Machine.until_step (fun hover : Gadget.Over (.writing x) ↦ hover), Gadget.step,
      writePass_done (amount_of_admits hlim hadmits)]
    have hsame : Gadget.parsed (x.s.setUpReply .ioError) = .reply x.s :=
      parsed_of_waiting hlim.toWaiting
    dsimp only
    rw [hsame]
    exact until_of_loaded (fun n ↦ hclean (n + 1 + 1)) hload hsome hsmall
  | replied r t =>
    rw [hp] at hparse
    dsimp only
    have hload : Loaded s (t.setUpReply r) := by
      rcases hparse with hanswer | ⟨hsilent, rfl, hc⟩ | ⟨x, hread, rfl, rfl⟩
      · exact loaded_of_answers (limited_of_kept hready hidle hdir hanswer.kept) hanswer
      · rw [hc] at hkept hreply
        exact loaded_of_nothing (limited_of_kept hready hidle hdir hkept) hreply
          (hfits.silent (.inl hsilent))
      · rw [hread.checked] at hkept hreply
        obtain ⟨k, hk, hchunk⟩ := readLoop_chunk (envs 0) hread hfits.read
        have hfew := (hfits.read x hread).1
        have hamount := hread.amount
        exact loaded_of_chunk (limited_of_kept hready hidle hdir hkept) hreply
          (Nat.le_trans hk (Nat.le_of_eq hamount)) (Nat.le_trans hk hfew) hchunk
    rw [parsed_of_waiting hload.toWaiting]
    exact until_of_loaded (fun n ↦ hclean (n + 1)) hload hsome hsmall

/-! ## What is not delivered -/

theorem clean_calmly : Clean calmly := ⟨fun _ ↦ rfl, fun _ ↦ rfl⟩

/-- What a command finds in the buffer is sent on top of what is expected. -/
theorem nothing_of_delivered (hclean : Clean env) (h : Waiting s u) (hsome : s.dataSize ≠ 0)
    (hresidue : u.residue = s.dataSize) (hsmall : u.bulk.inLength < 2 ^ 32)
    (hlaw : Delivered s (u.finishReply env).2) :
    u.bulk.inLength = 0 := by
  have hmore : u.residue ≠ 0 := by
    rw [hresidue]
    exact hsome
  rw [finishReply_waiting h hsome, if_neg hmore] at hlaw
  obtain ⟨data, hsent, hlength, -⟩ := hlaw
  have htotal : (u.padWithZeros env).w.sent.length = s.w.sent.length + s.dataSize := by
    rw [← hlength, ← List.length_append]
    exact congrArg List.length hsent
  rw [length_padWithZeros hclean h.queue, h.sent, hresidue, add32] at htotal
  omega

theorem not_delivered_of_spoiled (hsent : t.w.sent = s.w.sent) (hresidue : t.residue = s.dataSize)
    (h : Spoiled t u) : ¬ Delivered s u := by
  rintro ⟨data, hdata, -, htake⟩
  obtain ⟨c, hc, hfirst⟩ := h.first
  rw [hsent, hdata, List.prefix_append_right_inj] at hfirst
  obtain ⟨rest, rfl⟩ := hfirst
  have hless := h.residue
  rw [hresidue] at hless
  obtain ⟨k, hk⟩ := Nat.exists_eq_succ_of_ne_zero (Nat.sub_ne_zero_of_lt hless)
  obtain ⟨more, hreply⟩ := h.reply
  rw [hk, ← hreply] at htake
  exact hc (List.cons.inj htake).1

theorem Flying.polled (h : Flying s u) : Flying s u.polled :=
  ⟨⟨h.grown.sent, h.grown.reply, h.grown.residue, h.grown.dataDir, h.grown.dataSize, h.grown.state,
    h.grown.stall⟩, h.queue, h.count, h.buf, h.sent, h.reply, h.residue, h.more⟩

theorem Spoiled.polled (h : Spoiled s u) : Spoiled s u.polled :=
  ⟨⟨h.grown.sent, h.grown.reply, h.grown.residue, h.grown.dataDir, h.grown.dataSize, h.grown.state,
    h.grown.stall⟩, h.first, h.reply, h.residue⟩

/-- **A read that is delivered, whatever the storage does, is made in one chunk.** -/
theorem oneChunk_of_inLaw (hready : s.Ready) (hidle : s.Idle) (hdir : s.dataDir = .toHost)
    (hlaw : ∀ envs, (∀ n, Clean (envs n)) → InLaw s envs) : s.polled.OneChunk := by
  intro x hread
  by_contra hseveral
  have hsome : s.dataSize ≠ 0 := hready.some (by rw [hdir]; exact DataDir.noConfusion)
  obtain ⟨hkept, hreply⟩ := checked_kept s.polled
  rw [hread.checked] at hkept hreply
  have hlim := limited_of_kept hready hidle hdir hkept
  have hresidue : x.amountLeft * lbaSize ≤ x.s.residue := by
    have hlimit : x.s.dataSizeFromCmnd ≤ s.dataSize := hlim.limit
    rw [hlim.residue, hread.amount, lbaSize_eq]
    omega
  have hend := readLoop_several hread hreply hlim.queue hresidue hseveral
  set u := readLoop spoiling x with hu
  have hgrown : Grown x.s u := by
    rcases hend with h | ⟨h, -⟩
    · exact h.grown
    · exact h.grown
  have hall := hlaw (fun _ ↦ spoiling) fun _ ↦ clean_spoiling
  have hparsed : Gadget.parsed (u.setUpReply .ioError) = .reply u := by
    rw [setUpReply, Gadget.parsed, if_neg (not_not_intro (hgrown.state.trans hlim.state))]
  rw [InLaw, Machine.until_step (fun hover : Gadget.Over (.parse s) ↦ hover), Gadget.step,
    handleEp0Ctrl_quiet clean_spoiling.quiet, parse_of_readsFrom spoiling hread] at hall
  dsimp only at hall
  rw [hparsed, until_reply (fun _ ↦ clean_spoiling)] at hall
  have hsize : u.dataSize ≠ 0 := by
    rw [hgrown.dataSize, hlim.dataSize]
    exact hsome
  have hsmall : x.s.residue < 2 ^ 32 := by
    rw [hlim.residue]
    exact hready.small
  have hspoiled : Spoiled x.s (u.polled.finishReply spoiling).2 :=
    finishReply_several (hgrown.dataDir.trans hlim.dataDir) hsize (hgrown.stall.trans hlim.stall)
      hsmall (hend.imp Spoiled.polled fun h ↦ ⟨h.1.polled, h.2⟩)
  exact not_delivered_of_spoiled hlim.sent hlim.residue hspoiled hall

/-- **A command without a reply that meets the law finds nothing in the buffer.** -/
theorem silent_of_inLaw (hready : s.Ready) (hidle : s.Idle) (hdir : s.dataDir = .toHost)
    (hlaw : ∀ envs, (∀ n, Clean (envs n)) → InLaw s envs)
    (hsilent : Silent s.polled ∨ ∃ x, Admits s.polled x) : s.bulk.inLength = 0 := by
  have hsome : s.dataSize ≠ 0 := hready.some (by rw [hdir]; exact DataDir.noConfusion)
  have hkept := (checked_kept s.polled).1
  have hlim := limited_of_kept hready hidle hdir hkept
  set t := s.polled.checked.2 with ht
  have hsame : Gadget.parsed (t.setUpReply .ioError) = .reply t := parsed_of_waiting hlim.toWaiting
  have hall := hlaw (fun _ ↦ calmly) fun _ ↦ clean_calmly
  rw [InLaw, Machine.until_step (fun hover : Gadget.Over (.parse s) ↦ hover), Gadget.step,
    handleEp0Ctrl_quiet clean_calmly.quiet] at hall
  have hreply : Machine.Until Gadget.step Gadget.Over (fun g ↦ Delivered s g.ums) (.reply t)
      fun _ ↦ calmly := by
    rcases hsilent with hsilent | ⟨x, hadmits⟩
    · rw [parse_of_silent calmly hsilent] at hall
      dsimp only at hall
      rwa [hsame] at hall
    · have hx : x.s = t := by rw [ht, hadmits.1]
      rw [parse_of_admits calmly hadmits] at hall
      dsimp only at hall
      rw [← hx] at hlim hsame ⊢
      rw [Machine.until_step (fun hover : Gadget.Over (.writing x) ↦ hover), Gadget.step,
        writePass_done (amount_of_admits hlim hadmits)] at hall
      dsimp only at hall
      rwa [hsame] at hall
  rw [until_reply fun _ ↦ clean_calmly] at hreply
  have hlength : t.bulk.inLength = s.bulk.inLength := congrArg (·.inLength) hlim.bulk
  rw [← hlength]
  refine nothing_of_delivered (u := t.polled) clean_calmly hlim.toWaiting.polled hsome
    hlim.residue ?_ hreply
  show t.bulk.inLength < 2 ^ 32
  rw [hlength]
  exact hidle.small

end Ums

/-- **The data phase of a command that sends data to the host.**  In a session without USB errors
in which no read has run past the end of its unit, a command from which the host expects data sends
just as much as it expects, and the reply in front, whatever the storages do, exactly if it fits. -/
theorem inPhase_iff {volumes : List Volume} {secCnt : MmcType → ℕ} {g : Gadget} {past : List Env}
    {s : Ums} (hg : Starts volumes secCnt g)
    (halong : Machine.Along Gadget.step (fun g env ↦ Clean env ∧ g.Inside) g past)
    (hrun : Machine.run Gadget.step g past = .parse s) (hdir : s.dataDir = .toHost) :
    (∀ envs, (∀ n, Clean (envs n)) → s.InLaw envs) ↔ s.polled.InFits := by
  have hready : s.Ready := Gadget.ready_of_reachable ⟨g, past, hg, hrun⟩
  have hidle : s.Idle := by
    have hend := Gadget.idle_run hg halong
    rwa [hrun] at hend
  constructor
  · intro hlaw
    exact ⟨Ums.oneChunk_of_inLaw hready hidle hdir hlaw,
      Ums.silent_of_inLaw hready hidle hdir hlaw⟩
  · intro hfits envs henvs
    exact Ums.inLaw_of_inFits hready hidle hdir hfits henvs

/-- A command is carried out, and then the host announces a read of so many blocks, for which it
expects 512 bytes. -/
def announcesRead (blocks : UInt8) : List Env :=
  firstCommand 0 ++ [hears (wrapper 512 0x80 0 [0x28, 0, 0, 0, 0, 5, 0, 0, blocks, 0])]

/-- A block is read. -/
def shortRead : Ums := (Machine.run Gadget.step (firstGadget [sdVolume]) (announcesRead 1)).ums

/-- No block is read. -/
def emptyRead : Ums := (Machine.run Gadget.step (firstGadget [sdVolume]) (announcesRead 0)).ums

theorem clean_hears (block : List UInt8) : Clean (hears block) := ⟨fun _ ↦ rfl, fun _ ↦ rfl⟩

theorem along_announcesRead (blocks : UInt8) :
    Machine.Along Gadget.step (fun g env ↦ Clean env ∧ g.Inside) (firstGadget [sdVolume])
      (announcesRead blocks) :=
  ⟨⟨clean_hears _, trivial⟩, ⟨Ums.clean_calmly, Ums.inside_of_not_read rfl⟩,
    ⟨Ums.clean_calmly, trivial⟩, ⟨Ums.clean_calmly, trivial⟩, ⟨clean_hears _, trivial⟩, trivial⟩

theorem inPhase_iff_shortRead :
    (∀ envs, (∀ n, Clean (envs n)) → shortRead.InLaw envs) ↔ shortRead.polled.InFits :=
  inPhase_iff (starts_firstGadget (by decide)) (along_announcesRead 1) rfl rfl

theorem inPhase_counterexample :
    ¬ ∀ volumes secCnt g past s, Starts volumes secCnt g →
      Machine.Along Gadget.step (fun _ env ↦ Clean env) g past →
      Machine.run Gadget.step g past = .parse s → s.dataDir = .toHost →
      ∀ envs, (∀ n, Clean (envs n)) → s.InLaw envs := by
  intro h
  have hstart : Starts [sdVolume] (fun _ ↦ 0x1000) (firstGadget [sdVolume]) :=
    starts_firstGadget (by decide)
  have hclean : Machine.Along Gadget.step (fun _ env ↦ Clean env) (firstGadget [sdVolume])
      (announcesRead 0) :=
    ⟨clean_hears _, Ums.clean_calmly, Ums.clean_calmly, Ums.clean_calmly, clean_hears _, trivial⟩
  have hlaw := h _ _ _ _ emptyRead hstart hclean rfl rfl
  have hready : emptyRead.Ready := Gadget.ready_of_reachable ⟨_, announcesRead 0, hstart, rfl⟩
  have hidle : emptyRead.Idle := Gadget.idle_run hstart (along_announcesRead 0)
  -- The status of the command before is still in the buffer.
  have hlength : emptyRead.bulk.inLength = 13 := rfl
  have hsilent : Ums.Silent emptyRead.polled :=
    ⟨emptyRead.polled.checked.2, rfl, .inl ⟨false, 5, rfl, rfl, by decide, rfl⟩⟩
  have hzero := Ums.silent_of_inLaw hready hidle rfl hlaw (.inl hsilent)
  rw [hlength] at hzero
  cases hzero

end Usb
end SdLoader
