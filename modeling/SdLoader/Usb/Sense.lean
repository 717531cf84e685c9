import SdLoader.Usb.Residue

/-!
# The mass storage gadget: sense data

A command that fails leaves a sense code with its unit, and the next command for the unit clears it
or asks for it.  What is done for other units in between has nothing to do with it.

* `Remembers` — a unit has a sense code, and no command for the unit is under way.
  `Remembers.step` keeps it.
* `AsksSense` — the command is REQUEST SENSE as it is to be; `Delivers` — the host is sent a code
  for it, and that it has passed.
* `Ums.withCodes` — the gadget with other sense codes.  A command that fails fails the same with
  these: `concludes_withCodes`.
* `sense_delivery` — the next command for the unit is sent the code of a command that has been
  reported to fail, and the one after it that there is none; and the failure is due to nothing that
  was recorded before the command.
-/

set_option autoImplicit false

namespace SdLoader
namespace Usb

variable {volumes : List Volume} {secCnt : MmcType → ℕ} {env : Env} {s t u : Ums} {g : Gadget}
  {i code : ℕ}

namespace Gadget

/-- No reset is heard of in the step. -/
def Unreset (g : Gadget) (env : Env) : Prop := (g.step env).ums.state ≠ .protocolReset

instance (g : Gadget) (env : Env) : Decidable (g.Unreset env) := inferInstanceAs (Decidable (_ ≠ _))

/-- From `g` on, the next command for the unit `i` is the one in `t`; and no reset is heard of. -/
def NextFor (i : ℕ) (t : Ums) (g : Gadget) (is : List Env) : Prop :=
  Machine.Along Gadget.step (fun g env ↦ g.Unreset env ∧ ∀ s, g = .parse s → s.lunIdx ≠ i) g is ∧
    Machine.run Gadget.step g is = .parse t ∧ t.lunIdx = i

/-! ## A unit that has a sense code -/

/-- A command for a unit is under way, and has been looked at. -/
def Busy : Gadget → Prop
  | .writing _ => True
  | .reply _ => True
  | .status _ => True
  | _ => False

/-- The unit `i` has the sense code `code`, unless the session is over; and what is under way is not
for the unit. -/
structure Remembers (i code : ℕ) (g : Gadget) : Prop where
  writeOk : g.WriteOk
  sense : (∃ s, g = .exited s) ∨ (g.ums.luns i).senseData = code
  other : g.Busy → i ≠ g.ums.lunIdx
  ready : ∀ s, g = .parse s → s.Ready
  state : ∀ s, g = .top s → s.state ≠ .protocolReset ∧ s.state ≠ .terminated

theorem loopEnd_not_busy (s : Ums) : ¬(loopEnd s).Busy := by
  rw [loopEnd]
  split <;> exact fun h ↦ h

/-- No command is under way after an iteration. -/
theorem step_top_not_busy (env : Env) (s : Ums) : ¬(step (.top s) env).Busy := by
  by_cases hleaves : s.Leaves env
  · rw [step_leaves hleaves]
    exact fun h ↦ h
  by_cases hnormal : s.state = .normal
  · rw [step_top hnormal hleaves, afterWait]
    dsimp only
    split
    · exact loopEnd_not_busy _
    · exact fun h ↦ h
  · rw [step_top_exception hnormal hleaves]
    exact loopEnd_not_busy _

/-- What is left of it after a step. -/
theorem Remembers.after (hok : (g.step env).WriteOk) (hgo : g.Unreset env)
    (hsense : (∃ s, g.step env = .exited s) ∨ ((g.step env).ums.luns i).senseData = code)
    (hother : (g.step env).Busy → i ≠ (g.step env).ums.lunIdx) :
    Remembers i code (g.step env) where
  writeOk := hok
  sense := hsense
  other := hother
  ready _ hs := ready_of_step hs
  state s hs := by
    rw [Unreset, hs] at hgo
    exact ⟨hgo, step_top_state hs⟩

/-- An iteration. -/
theorem Remembers.top (h : Remembers i code (.top s)) (hgo : Unreset (.top s) env) :
    Remembers i code (step (.top s) env) := by
  have hsense : (s.luns i).senseData = code := h.sense.resolve_left fun ⟨t, ht⟩ ↦ by cases ht
  obtain ⟨hreset, hterminated⟩ := h.state s rfl
  refine .after (top_does env s).1 hgo ?_ fun hbusy ↦ absurd hbusy (step_top_not_busy env s)
  by_cases hresets : (Gadget.top s).Resets env
  · -- The exception is the end of the session.
    obtain ⟨_, ⟨rfl⟩, hstay, hraised, habort⟩ := hresets
    rw [step_top_exception hraised hstay]
    have hpolled : (s.poll env).2.state = s.state := rfl
    cases hstate : s.state with
    | normal => exact absurd hstate hraised
    | abortBulkOut => exact absurd hstate habort
    | protocolReset => exact absurd hstate hreset
    | terminated => exact absurd hstate hterminated
    | exit =>
      refine .inl ⟨_, if_pos ?_⟩
      rw [Ums.handleException, hpolled, hstate]
  · rw [(top_luns hresets).1]
    exact .inr hsense

/-- **The step lemma.**  A unit keeps its sense code until there is a command for it. -/
theorem Remembers.step (h : Remembers i code g) (hgo : g.Unreset env)
    (hnone : ∀ s, g = .parse s → s.lunIdx ≠ i) : Remembers i code (g.step env) := by
  have hnext : (∀ s, g ≠ .top s) → (∀ s, g ≠ .exited s) → i ≠ g.ums.lunIdx →
      Remembers i code (g.step env) := by
    intro htop hexited hne
    obtain ⟨hdoes, hok⟩ := step_does env htop h.writeOk
    obtain ⟨b, hunit⟩ := step_luns_of_ne env htop h.writeOk hne
    refine .after hok hgo (.inr ?_) fun _ ↦ hdoes.lunIdx.symm ▸ hne
    rw [hunit]
    exact h.sense.resolve_left fun ⟨s, hs⟩ ↦ hexited s hs
  cases g with
  | top s => exact h.top hgo
  | exited s => exact h
  | parse s =>
    exact hnext (fun _ hs ↦ by cases hs) (fun _ hs ↦ by cases hs) (hnone s rfl).symm
  | writing x =>
    exact hnext (fun _ hs ↦ by cases hs) (fun _ hs ↦ by cases hs) (h.other trivial)
  | reply s =>
    exact hnext (fun _ hs ↦ by cases hs) (fun _ hs ↦ by cases hs) (h.other trivial)
  | status s =>
    exact hnext (fun _ hs ↦ by cases hs) (fun _ hs ↦ by cases hs) (h.other trivial)

/-- When the wrapper has been sent, the unit has the code the wrapper is about. -/
theorem remembers_of_due (h : g.Due s) (hgo : g.Unreset env) :
    Remembers s.lunIdx s.lun.senseData (g.step env) := by
  rcases h with rfl | ⟨rfl, habort⟩
  · have haccount := step_account env (g := .status s) trivial
    have hluns : (Gadget.step (.status s) env).ums.luns = s.luns := congrArg Account.luns haccount
    refine .after (loopEnd_writeOk _) hgo (.inr ?_) fun hbusy ↦ absurd hbusy (loopEnd_not_busy _)
    rw [hluns]
    rfl
  · have hnone : ¬(Gadget.top s).Resets env := by
      rintro ⟨_, ⟨rfl⟩, -, -, hother⟩
      exact hother habort
    refine .after (top_does env s).1 hgo (.inr ?_) fun hbusy ↦
      absurd hbusy (step_top_not_busy env s)
    rw [(top_luns hnone).1]
    rfl

/-- **The run lemma.**  The next command for the unit finds the code. -/
theorem sense_of_nextFor (h : g.Due s) {is : List Env} (hnext : NextFor s.lunIdx t g is) :
    t.Ready ∧ t.lun.senseData = s.lun.senseData := by
  obtain ⟨halong, hrun, hidx⟩ := hnext
  cases is with
  | nil =>
    rw [Machine.run_nil] at hrun
    rw [hrun] at h
    rcases h with h | ⟨h, -⟩ <;> cases h
  | cons env is =>
    obtain ⟨⟨hgo, -⟩, hrest⟩ := halong
    have hend : Remembers s.lunIdx s.lun.senseData (Machine.run Gadget.step (g.step env) is) :=
      Machine.run_inv_along (I := Remembers s.lunIdx s.lun.senseData)
        (fun _ _ hr hp ↦ hr.step hp.1 hp.2) (remembers_of_due h hgo) hrest
    have hat : Remembers s.lunIdx s.lun.senseData (.parse t) := hrun ▸ hend
    refine ⟨hat.ready t rfl, ?_⟩
    rw [Ums.lun, hidx]
    refine hat.sense.resolve_left ?_
    rintro ⟨v, hv⟩
    cases hv

end Gadget

/-! ## Asking for it -/

namespace Ums

/-- REQUEST SENSE as it is to be: the reserved bytes are zero, and there is room for all of the
reply, which is as long as the host has announced. -/
structure AsksSense (t : Ums) : Prop where
  code : t.cmnd 0 = scRequestSense
  length : 6 ≤ t.cmndSize
  lun : t.cmnd 1 &&& 0x1F = 0
  reserved : ∀ k, 1 < k → k < t.cmndSize → k ≠ 4 → t.cmnd k = 0
  room : 18 ≤ (t.cmnd 4).toNat
  all : t.dataSize = (t.cmnd 4).toNat
  dir : t.dataDir = .toHost

/-- The answer to it: it has the sense key, the code and the qualifier of a sense code. -/
structure Tells (l : List UInt8) (code : ℕ) : Prop where
  length : 18 ≤ l.length
  key : l[2]? = some (UInt8.ofNat (code / 0x10000))
  asc : l[12]? = some (UInt8.ofNat (code / 0x100))
  ascq : l[13]? = some (UInt8.ofNat code)

/-- What follows the answer does not change it. -/
theorem Tells.append {l : List UInt8} (h : Tells l code) (l' : List UInt8) :
    Tells (l ++ l') code := by
  have hlength := h.length
  have hsame : ∀ k < 18, (l ++ l')[k]? = l[k]? :=
    fun k hk ↦ List.getElem?_append_left (Nat.lt_of_lt_of_le hk hlength)
  refine ⟨?_, ?_, ?_, ?_⟩
  · rw [List.length_append]
    exact Nat.le_add_right_of_le hlength
  · rw [hsame 2 (by decide)]
    exact h.key
  · rw [hsame 12 (by decide)]
    exact h.asc
  · rw [hsame 13 (by decide)]
    exact h.ascq

/-- It passes the checks, and what its unit has recorded is still there. -/
theorem checked_asksSense (h : t.AsksSense) :
    t.checked =
      (true, maskLun { t.opened with residue := t.dataSize, usbAmountLeft := t.dataSize }) := by
  have hcmd : t.cmd = .requestSense := by
    rw [cmd, h.code]
    rfl
  have hsize : t.opened.dataSizeFromCmnd = t.dataSize := by
    rw [opened, hcmd]
    exact h.all.symm
  have hpos : t.dataSize ≠ 0 := by
    have hroom := h.room
    rw [h.all]
    omega
  have hlimit : t.opened.limitData =
      { t.opened with residue := t.dataSize, usbAmountLeft := t.dataSize } := by
    have hfits : ¬t.opened.dataSize < t.opened.dataSizeFromCmnd := by
      rw [hsize]
      exact Nat.lt_irrefl _
    rw [limitData, if_neg hfits]
    rfl
  have hphase : ¬t.Misphased := by
    rw [Misphased, hcmd, directionDiffers, hsize, if_neg hpos]
    rintro (hdir | hlength)
    · have hsame : t.opened.dataDir = (ScsiCmd.requestSense.spec t).dataDir := h.dir
      rw [decide_eq_false (not_not_intro hsame), Bool.false_and] at hdir
      cases hdir
    · exact absurd hlength (Nat.not_lt.mpr h.length)
  rw [checked_of_phased hphase, hlimit]
  obtain ⟨v, hv⟩ : ∃ v : Ums,
      v = { t.opened with residue := t.dataSize, usbAmountLeft := t.dataSize } := ⟨_, rfl⟩
  have hcode : v.cmnd 0 = scRequestSense := hv ▸ h.code
  have hbytes : ¬((List.range' 1 (v.cmndSize - 1)).any fun k ↦
      v.maskLun.cmnd k ≠ 0 && !(ScsiCmd.requestSense.spec t).mask.testBit k) = true := by
    rw [List.any_eq_true]
    rintro ⟨k, hk, hbad⟩
    rw [List.mem_range'_1] at hk
    rw [Bool.and_eq_true, decide_eq_true_eq] at hbad
    have hlength : v.cmndSize = t.cmndSize := hv ▸ rfl
    have hlong := h.length
    obtain ⟨hset, hmask⟩ := hbad
    by_cases hfirst : k = 1
    · refine hset ?_
      have hlun : v.maskLun.cmnd 1 = t.cmnd 1 &&& 0x1F := hv ▸ rfl
      rw [hfirst, hlun, h.lun]
    by_cases hfour : k = 4
    · rw [hfour] at hmask
      have hallowed : (ScsiCmd.requestSense.spec t).mask.testBit 4 = true := by
        change (1 <<< 4).testBit 4 = true
        decide
      rw [hallowed] at hmask
      cases hmask
    · refine hset ?_
      have hsame : v.maskLun.cmnd k = t.cmnd k := hv ▸ Function.update_of_ne hfirst ..
      rw [hsame]
      exact h.reserved k (by omega) (by omega) hfour
  rw [← hv, clearSense, if_neg (not_not_intro hcode), hcmd, checkUnit,
    if_neg fun hall ↦ hall.2.2 hcode, if_neg hbytes]
  refine if_neg ?_
  rw [Bool.and_eq_true]
  exact fun hall ↦ Bool.false_ne_true hall.2

/-- It has been answered: the reply in the buffer tells what the unit of `t` had recorded, and that
is forgotten. -/
structure Told (t u : Ums) : Prop where
  inLength : u.bulk.inLength = 18
  tells : Tells (Store.slice u.w.mem u.bulk.inBuf 18) t.lun.senseData
  size : u.dataSize ≠ 0
  residue : u.residue ≤ 0xFF
  sense : u.lun.senseData = ssNoSense
  phase : u.phaseError = 0
  state : u.state = t.state
  lunIdx : u.lunIdx = t.lunIdx
  tag : u.tag = t.tag
  dataDir : u.dataDir = .toHost

/-- `_scsi_request_sense`, if there is room for all of its reply. -/
theorem told_requestSense (hdir : t.dataDir = .toHost) (hroom : 18 ≤ t.dataSizeFromCmnd)
    (hphase : t.phaseError = 0) (hsize : t.dataSize ≠ 0) (hresidue : t.residue ≤ 0xFF) :
    Told t (t.scsiRequestSense.2.setUpReply (.len 18)) := by
  obtain ⟨v, hv⟩ : ∃ v, v = t.setLun fun l ↦
      { l with senseData := ssNoSense, senseDataInfo := 0, infoValid := 0 } := ⟨_, rfl⟩
  obtain ⟨l, hl⟩ : ∃ l, l = [UInt8.ofNat (t.lun.infoValid * 0x80) ||| 0x70, 0,
      UInt8.ofNat (t.lun.senseData / 0x10000)] ++ toBe32 t.lun.senseDataInfo ++
        [10, 0, 0, 0, 0, UInt8.ofNat (t.lun.senseData / 0x100), UInt8.ofNat t.lun.senseData, 0, 0,
          0, 0] := ⟨_, rfl⟩
  have hlength : l.length = 18 := hl ▸ rfl
  have htake : l.take 18 = l := List.take_of_length_le hlength.le
  have hmin : min 18 v.dataSizeFromCmnd = 18 := Nat.min_eq_left (hv ▸ hroom)
  have hto : v.dataDir = .toHost := hv ▸ hdir
  have hset : t.scsiRequestSense.2.setUpReply (.len 18) = { v.put l with
      bulk.inLength := 18
      bulk.inBufState := .full
      residue := v.residue - 18
      w.reply := l } := by
    have hanswer : t.scsiRequestSense.2 = { v.put l with w.reply := l.take 18 } := by
      rw [hv, hl]
      rfl
    rw [hanswer, setUpReply]
    change (if v.dataDir = .toHost then _ else _) = _
    rw [if_pos hto]
    change { v.put l with
      bulk.inLength := min 18 v.dataSizeFromCmnd
      bulk.inBufState := .full
      residue := v.residue - min 18 v.dataSizeFromCmnd
      w.reply := (l.take 18).take (min 18 v.dataSizeFromCmnd) } = _
    rw [hmin, htake, htake]
  have hslice : Store.slice (Store.blit v.w.mem v.bulk.inBuf l.length fun k ↦ l.getD k 0)
      v.bulk.inBuf 18 = l := by
    rw [slice_blit_getD _ _ hlength.ge, htake]
  have htells : Tells l t.lun.senseData := by
    rw [hl]
    exact ⟨Nat.le_refl 18, rfl, rfl, rfl⟩
  rw [← hslice] at htells
  rw [hset]
  refine ⟨rfl, htells, ?_, ?_, ?_, ?_, ?_, ?_, ?_, ?_⟩
  · exact hv ▸ hsize
  · change v.residue - 18 ≤ 0xFF
    exact Nat.sub_le_of_le_add (Nat.le_add_right_of_le (hv ▸ hresidue))
  · change v.lun.senseData = ssNoSense
    rw [hv, setLun_lun]
  · exact hv ▸ hphase
  · exact hv ▸ rfl
  · exact hv ▸ rfl
  · exact hv ▸ rfl
  · exact hto

/-- `_parse_scsi_cmd`, for such a command. -/
theorem parse_asksSense (env : Env) (h : t.AsksSense) :
    ∃ v, t.parseScsiCmd env = .replied (.len 18) v ∧ Told t (v.setUpReply (.len 18)) := by
  have hcmd : t.cmd = .requestSense := by
    rw [cmd, h.code]
    rfl
  have hroom : 18 ≤ t.opened.dataSizeFromCmnd := by
    rw [opened, hcmd]
    exact h.room
  rw [parseScsiCmd, checked_asksSense h, hcmd]
  obtain ⟨v, hv⟩ : ∃ v, v = maskLun
    { t.opened with residue := t.dataSize, usbAmountLeft := t.dataSize } := ⟨_, rfl⟩
  have hall : t.dataSize = (t.cmnd 4).toNat := h.all
  have hmany : 18 ≤ (t.cmnd 4).toNat := h.room
  have hfew := (t.cmnd 4).toNat_lt
  have hsize : v.dataSize = t.dataSize := hv ▸ rfl
  have hresidue : v.residue = t.dataSize := hv ▸ rfl
  have htold : Told v (v.scsiRequestSense.2.setUpReply (.len 18)) :=
    told_requestSense (hv ▸ h.dir) (hv ▸ hroom) (hv ▸ rfl) (by omega) (by omega)
  rw [← hv]
  refine ⟨_, rfl, ?_⟩
  have hlun : v.lun = t.lun := hv ▸ rfl
  exact ⟨htold.inLength, hlun ▸ htold.tells, htold.size, htold.residue, htold.sense, htold.phase,
    htold.state.trans (hv ▸ rfl), htold.lunIdx.trans (hv ▸ rfl), htold.tag.trans (hv ▸ rfl),
    htold.dataDir⟩

/-- A poll for a reset. -/
theorem handleEp0Ctrl_cases (env : Env) (hstate : s.state = .normal) :
    s.handleEp0Ctrl env = { s with w := s.w.next } ∨
      s.handleEp0Ctrl env = { s with w := s.w.next, state := .protocolReset } := by
  rw [handleEp0Ctrl, poll]
  cases (env s.w.tick).flag with
  | true =>
    refine .inr (if_pos ?_)
    change s.state.rank ≤ _
    rw [hstate]
    decide
  | false => exact .inl rfl

theorem sendReply_state (env : Env) (s : Ums) : (s.sendReply env).state = s.state := by
  rw [sendReply]
  split
  · rfl
  split
  · rfl
  refine padWithZeros_rule (I := fun y ↦ y.s.state = s.state) (Q := fun u ↦ u.state = s.state)
    (fun y hy ↦ ?_) rfl
  rw [padPass]
  dsimp only
  split <;> exact hy

end Ums

namespace Gadget

theorem step_asksSense (h : t.AsksSense) (hstate : t.state = .normal)
    (hgo : Unreset (.parse t) env) : ∃ u, step (.parse t) env = .reply u ∧ t.Told u := by
  have hreply : ∀ v : Ums, v.AsksSense → v.lun = t.lun → v.lunIdx = t.lunIdx → v.tag = t.tag →
      v = t.handleEp0Ctrl env → ∃ u, step (.parse t) env = parsed u ∧ u.state = v.state ∧
        (v.state = t.state → t.Told u) := by
    intro v hasks hlun hidx htag hv
    obtain ⟨w, hparse, htold⟩ := v.parse_asksSense env hasks
    rw [hv] at hparse
    exact ⟨_, step_parse_replied hparse, htold.state, fun hsame ↦ ⟨htold.inLength,
      hlun ▸ htold.tells, htold.size, htold.residue, htold.sense, htold.phase,
      htold.state.trans hsame, htold.lunIdx.trans hidx, htold.tag.trans htag, htold.dataDir⟩⟩
  have hasks : ∀ w st, Ums.AsksSense { t with w := w, state := st } := fun _ _ ↦
    ⟨h.code, h.length, h.lun, h.reserved, h.room, h.all, h.dir⟩
  rcases Ums.handleEp0Ctrl_cases env hstate with hpoll | hpoll
  · obtain ⟨u, hstep, hsame, htold⟩ :=
      hreply { t with w := t.w.next } (hasks _ _) rfl rfl rfl hpoll.symm
    refine ⟨u, ?_, htold rfl⟩
    rw [hstep, parsed, if_neg (not_not_intro (hsame.trans hstate))]
  · obtain ⟨u, hstep, hsame, -⟩ := hreply { t with w := t.w.next, state := .protocolReset }
      (hasks _ _) rfl rfl rfl hpoll.symm
    rw [Unreset, hstep, ums_parsed] at hgo
    exact absurd hsame hgo

/-- The reply is sent, and then the status of a command that has passed is due. -/
theorem step_told (h : t.Told u) (hstate : t.state = .normal) (hgo : Unreset (.reply u) env) :
    (∃ l, (Gadget.reply u).Sends env l ∧ Ums.Tells l t.lun.senseData) ∧
      ∃ v, step (.reply u) env = .status v ∧ v.status = 0 ∧ v.tag = t.tag ∧
        v.lunIdx = t.lunIdx ∧ v.lun.senseData = ssNoSense := by
  have hnormal : u.state = .normal := h.state.trans hstate
  have hfinish : ∀ v : Ums, v.dataDir = .toHost →
      v.finishReply env = (false, (v.sendReply env).resetBufferIn) := by
    intro v hdir
    rw [Ums.finishReply, hdir]
  have hsame : ∀ v : Ums, (v.sendReply env).resetBufferIn.state = v.state := Ums.sendReply_state env
  -- No reset is heard of, or the step would end in it.
  have hpoll : u.handleEp0Ctrl env = u.polled := by
    refine (Ums.handleEp0Ctrl_cases env hnormal).resolve_right fun hreset ↦ hgo ?_
    rw [step, hreset, hfinish { u with w := u.w.next, state := .protocolReset } h.dataDir]
    dsimp only
    split
    · rw [ums_loopEnd, hsame]
    · exact hsame _
  obtain ⟨v, hv⟩ : ∃ v, v = (u.polled.sendReply env).resetBufferIn := ⟨_, rfl⟩
  have hstep : step (.reply u) env = .status v := by
    have hgone : v.state = .normal := by
      rw [hv, hsame]
      exact hnormal
    rw [step, hpoll, hfinish u.polled h.dataDir, ← hv]
    dsimp only
    rw [Bool.false_or, if_neg (by rw [decide_eq_true_eq]; exact not_not_intro hgone)]
  refine ⟨?_, v, hstep, ?_⟩
  · have hlength : u.polled.bulk.inLength = 18 := h.inLength
    have hresidue : u.polled.residue ≤ 0xFF := h.residue
    obtain ⟨k, hsends⟩ := Ums.sendReply_sends (s := u.polled) env h.size
      (by rw [hlength]; decide) (by rw [hlength, usbEpBufferMaxSize_eq]; omega)
    rw [hlength] at hsends
    refine ⟨_, ?_, h.tells.append (List.replicate k 0)⟩
    rw [Sends, hstep]
    exact (hsends.before (hv ▸ rfl)).after ⟨[], rfl⟩ rfl rfl
  · have haccount : v.account = u.account := by
      have hkeep := Ums.sendReply_account env u.polled
      rw [hv]
      exact hkeep
    have hluns : v.luns = u.luns := congrArg Account.luns haccount
    have hidx : v.lunIdx = u.lunIdx := congrArg Account.lunIdx haccount
    have hphase : v.phaseError = 0 := (congrArg Account.phaseError haccount).trans h.phase
    have hsense : v.lun.senseData = ssNoSense := by
      rw [Ums.lun, hluns, hidx]
      exact h.sense
    refine ⟨?_, (congrArg Account.tag haccount).trans h.tag, hidx.trans h.lunIdx, hsense⟩
    rw [Ums.status, if_neg (not_not_intro hphase), if_neg (not_not_intro hsense)]

end Gadget

/-! ## Other sense codes -/

namespace Ums

/-- The gadget with other sense codes. -/
def withCodes (codes : ℕ → ℕ) (s : Ums) : Ums :=
  { s with luns := fun i ↦ { s.luns i with senseData := codes i } }

/-- They are those of the units in another context, and one of the active unit. -/
theorem withCodes_eq (codes : ℕ → ℕ) (s : Ums) :
    s.withCodes codes = (s.sense (codes s.lunIdx)).inContext (s.withCodes codes).context := by
  have hluns : (s.withCodes codes).luns =
      (s.sense (codes s.lunIdx)).unitIn (s.withCodes codes).context := by
    funext i
    rw [unitIn]
    by_cases hi : i = s.lunIdx
    · have hactive : i = (s.sense (codes s.lunIdx)).lunIdx := hi
      rw [if_pos hactive, hi]
      exact (setLun_lun (fun l ↦ { l with senseData := codes s.lunIdx }) s).symm
    · have hother : ¬i = (s.sense (codes s.lunIdx)).lunIdx := hi
      have hsame : (s.sense (codes s.lunIdx)).luns i = s.luns i := Function.update_of_ne hi ..
      rw [if_neg hother, hsame]
      rfl
  rw [inContext, ← hluns]
  rfl

theorem status_inContext (κ : Context) (s : Ums) : (s.inContext κ).status = s.status := by
  rw [status, status, inContext_lun]
  rfl

theorem setUpReply_status (r : Reply) (s : Ums) : (s.setUpReply r).status = s.status := by
  obtain ⟨hluns, hidx, hphase⟩ := setUpReply_luns r s
  rw [status, status, lun, lun, hluns, hidx, hphase]

/-- A unit that has no sense code does not make a command fail. -/
theorem status_ne_one (h : s.lun.senseData = ssNoSense ∨ s.phaseError ≠ 0) : s.status ≠ 1 := by
  rw [status]
  by_cases hphase : s.phaseError ≠ 0
  · rw [if_pos hphase]
    decide
  · rw [if_neg hphase, if_neg (not_not_intro (h.resolve_right hphase))]
    decide

theorem limitData_sense (code : ℕ) (s : Ums) :
    (s.sense code).limitData = s.limitData.sense code := by
  have hsize : (s.sense code).dataSize = s.dataSize ∧
      (s.sense code).dataSizeFromCmnd = s.dataSizeFromCmnd := ⟨rfl, rfl⟩
  rw [limitData, limitData, hsize.1, hsize.2]
  split <;> rfl

/-- A change of the sense code is undone by the next. -/
theorem setLun_sense {f : LogicalUnit → LogicalUnit} (code : ℕ) (s : Ums)
    (hf : ∀ l : LogicalUnit, f { l with senseData := code } = f l) :
    (s.sense code).setLun f = s.setLun f := by
  rw [setLun, sense, setLun_lun, setLun, hf, Function.update_idem]
  rfl

theorem misphased_sense (code : ℕ) (s : Ums) : (s.sense code).Misphased ↔ s.Misphased := by
  have hspec : (s.sense code).cmd.spec (s.sense code) = s.cmd.spec s := rfl
  have hopened : (s.sense code).opened = s.opened.sense code := rfl
  have hdiffers : (s.opened.sense code).directionDiffers (s.cmd.spec s).dataDir =
      s.opened.directionDiffers (s.cmd.spec s).dataDir := by
    rw [directionDiffers, directionDiffers, limitData_sense]
    rfl
  have hsize : (s.sense code).cmndSize = s.cmndSize := rfl
  rw [Misphased, Misphased, hspec, hopened, hdiffers, hsize]

/-- **What a unit has recorded before** makes no difference to a command that fails. -/
theorem parse_sense (env : Env) (code : ℕ) (s : Ums) :
    (s.sense code).parseScsiCmd env = s.parseScsiCmd env ∨
      ∃ r v, s.parseScsiCmd env = .replied r v ∧ v.status ≠ 1 := by
  have hspec : (s.sense code).cmd.spec (s.sense code) = s.cmd.spec s := rfl
  have hopened : (s.sense code).opened = s.opened.sense code := rfl
  have hcmd : (s.sense code).cmd = s.cmd := rfl
  by_cases hphase : s.Misphased
  · right
    rw [parseScsiCmd, checked_of_misphased hphase]
    exact ⟨_, _, rfl, status_ne_one (.inr Nat.one_ne_zero)⟩
  have hphase' : ¬(s.sense code).Misphased := fun h ↦ hphase ((misphased_sense code s).mp h)
  rw [parseScsiCmd, parseScsiCmd, checked_of_phased hphase, checked_of_phased hphase', hspec,
    hopened, hcmd, limitData_sense]
  obtain ⟨x, hx⟩ : ∃ x, x = s.opened.limitData := ⟨_, rfl⟩
  have hcode : x.cmnd = s.cmnd := hx ▸ (limitData_luns s.opened).2.2
  have hcode' : (x.sense code).cmnd = x.cmnd := rfl
  rw [← hx, clearSense, clearSense, hcode']
  by_cases hasks : x.cmnd 0 = scRequestSense
  · have hsense : s.cmd = .requestSense := by
      rw [cmd, ← hcode, hasks]
      rfl
    have hexempt : ∀ v : Ums, v.cmnd 0 = scRequestSense →
        ¬(v.lun.unitAttentionData ≠ ssNoSense ∧ v.cmnd 0 ≠ scInquiry ∧ v.cmnd 0 ≠ scRequestSense) :=
      fun v hv hall ↦ hall.2.2 hv
    have hmedium : ∀ v : Ums, ¬(v.lun.unmounted && (s.cmd.spec s).needsMedium) = true := by
      intro v
      rw [hsense, Bool.and_eq_true]
      exact fun hall ↦ Bool.false_ne_true hall.2
    have hmask : (x.sense code).maskLun.cmnd = x.maskLun.cmnd ∧
        (x.sense code).cmndSize = x.cmndSize := ⟨rfl, rfl⟩
    rw [if_neg (not_not_intro hasks), if_neg (not_not_intro hasks), checkUnit, checkUnit,
      if_neg (hexempt _ hasks), if_neg (hexempt (x.sense code) hasks), if_neg (hmedium _),
      if_neg (hmedium _), hmask.1, hmask.2]
    generalize (List.any _ _) = bad
    cases bad with
    | true =>
      left
      have hover : (x.sense code).maskLun.sense ssInvalidFieldInCdb =
          x.maskLun.sense ssInvalidFieldInCdb :=
        setLun_sense code x.maskLun fun _ ↦ rfl
      rw [hover]
      rfl
    | false =>
      right
      rw [hsense]
      refine ⟨_, _, rfl, status_ne_one (.inl ?_)⟩
      change (x.maskLun.setLun fun l ↦ { l with
        senseData := ssNoSense, senseDataInfo := 0, infoValid := 0 }).lun.senseData = ssNoSense
      rw [setLun_lun]
  · left
    rw [if_pos hasks, if_pos hasks, setLun_sense code x fun _ ↦ rfl]

theorem handleEp0Ctrl_sense (env : Env) (code : ℕ) (s : Ums) :
    (s.sense code).handleEp0Ctrl env = (s.handleEp0Ctrl env).sense code := by
  have htick : (s.sense code).w = s.w := rfl
  rw [handleEp0Ctrl, handleEp0Ctrl, poll, poll, htick]
  cases (env s.w.tick).flag with
  | true =>
    have hstate : (s.sense code).state = s.state := rfl
    dsimp only
    rw [raiseException, raiseException]
    dsimp only
    rw [hstate]
    split <;> rfl
  | false => rfl

end Ums

namespace Gadget

/-- A command that comes to a failure in its first step comes to the same with other sense codes. -/
theorem step_withCodes (env : Env) (codes : ℕ → ℕ) (s : Ums) :
    step (.parse (s.withCodes codes)) env =
        (step (.parse s) env).inContext (s.withCodes codes).context ∨
      ∃ v, step (.parse s) env = parsed v ∧ v.status ≠ 1 := by
  have hparse : step (.parse (s.withCodes codes)) env =
      (step (.parse (s.sense (codes s.lunIdx))) env).inContext (s.withCodes codes).context := by
    rw [← step_inContext env _ (fun _ h ↦ by cases h), inContext, ← Ums.withCodes_eq]
  rcases (s.handleEp0Ctrl env).parse_sense env (codes s.lunIdx) with hsame | ⟨r, v, hv, hstatus⟩
  · left
    rw [hparse, step, step, Ums.handleEp0Ctrl_sense, hsame]
  · right
    refine ⟨v.setUpReply r, step_parse_replied hv, ?_⟩
    rw [Ums.setUpReply_status]
    exact hstatus

theorem over_inContext (κ : Context) (h : ¬g.Over) : ¬(g.inContext κ).Over := by
  cases g <;> exact h

/-- A run of a command is the same in every context. -/
theorem run_inContext (κ : Context) {is : List Env}
    (h : Machine.Along Gadget.step (fun g _ ↦ ¬g.Over) g is) :
    Machine.Along Gadget.step (fun g _ ↦ ¬g.Over) (g.inContext κ) is ∧
      Machine.run Gadget.step (g.inContext κ) is = (Machine.run Gadget.step g is).inContext κ := by
  induction is generalizing g with
  | nil => exact ⟨trivial, rfl⟩
  | cons env is ih =>
    have hstep : step (g.inContext κ) env = (step g env).inContext κ :=
      step_inContext env κ fun s hs ↦ h.1 (hs ▸ trivial)
    obtain ⟨halong, hrun⟩ := ih h.2
    rw [Machine.run_cons, Machine.run_cons, ← hrun, ← hstep]
    exact ⟨⟨over_inContext κ h.1, hstep ▸ halong⟩, rfl⟩

/-- What has been answered keeps its account until the status is due. -/
theorem account_of_parsed {v : Ums} {is : List Env}
    (h : Machine.Along Gadget.step (fun g _ ↦ ¬g.Over) (parsed v) is) :
    (Machine.run Gadget.step (parsed v) is).ums.account = v.account := by
  have hkeep : ∀ g env, (g.ums.account = v.account ∧ (g.Over ∨ g.Closing)) → ¬g.Over →
      (step g env).ums.account = v.account ∧ ((step g env).Over ∨ (step g env).Closing) := by
    rintro g env ⟨haccount, hat⟩ hgo
    have hclosing := hat.resolve_left hgo
    refine ⟨(step_account env hclosing).trans haccount, ?_⟩
    cases g with
    | reply s =>
      rw [step]
      dsimp only
      split
      · rw [loopEnd]
        split <;> exact .inl trivial
      · exact .inl trivial
    | status s => exact absurd trivial hgo
    | top s | parse s | writing x | exited s => exact hclosing.elim
  have hstart : (parsed v).ums.account = v.account ∧ ((parsed v).Over ∨ (parsed v).Closing) := by
    rw [ums_parsed, parsed]
    refine ⟨rfl, ?_⟩
    split
    · rw [loopEnd]
      split <;> exact .inl trivial
    · exact .inr trivial
  exact (Machine.run_inv_along hkeep hstart h).1

end Gadget

namespace Ums

/-- What a command has nothing to do with is not what makes the session end. -/
theorem leaves_inContext {κ : Context} (hself : u.inContext s.context = u)
    (hunits : ∀ i, (κ.units i).preventMediumRemoval = (s.luns i).preventMediumRemoval) (k : Env) :
    (u.inContext κ).Leaves k ↔ u.Leaves k := by
  have hprevent : ∀ i, ((u.inContext κ).luns i).preventMediumRemoval =
      (u.luns i).preventMediumRemoval := by
    intro i
    by_cases hi : i = u.lunIdx
    · exact congrArg LogicalUnit.preventMediumRemoval (if_pos hi)
    · have hother : (u.inContext s.context).luns i =
          { s.luns i with unmounted := (u.luns i).unmounted } := if_neg hi
      have hsame : (u.inContext κ).luns i =
          { κ.units i with unmounted := (u.luns i).unmounted } := if_neg hi
      rw [hself] at hother
      rw [hsame, hother]
      exact hunits i
  have hall : (u.inContext κ).preventMediaRemoval = u.preventMediaRemoval := by
    have hcnt : (u.inContext κ).lunCnt = u.lunCnt := rfl
    rw [preventMediaRemoval, preventMediaRemoval, units, units, hcnt, List.any_map, List.any_map]
    refine List.any_congr rfl fun i ↦ ?_
    rw [Function.comp_apply, Function.comp_apply, hprevent]
  rw [Leaves, Leaves, hall]
  exact Iff.rfl

/-- **A command that fails** fails the same with other sense codes. -/
theorem concludes_withCodes {is : List Env} (h : s.Concludes is u) (hfail : u.status = 1)
    (codes : ℕ → ℕ) :
    ∃ κ, (s.withCodes codes).Concludes is (u.inContext κ) ∧
      Machine.run Gadget.step (.parse (s.withCodes codes)) is =
        (Machine.run Gadget.step (.parse s) is).inContext κ ∧
      ∀ k, (u.inContext κ).Leaves k ↔ u.Leaves k := by
  obtain ⟨halong, hend⟩ := h
  have hself : u.inContext s.context = u := by
    have hrun := congrArg Gadget.ums (Gadget.run_inContext s.context halong).2
    have hparse : (Gadget.parse s).inContext s.context = .parse s :=
      congrArg Gadget.parse (inContext_context s)
    rw [hparse, Gadget.ums_inContext] at hrun
    rcases hend with h | ⟨h, -⟩ <;> rw [h] at hrun <;> exact hrun.symm
  cases is with
  | nil => rcases hend with h | ⟨h, -⟩ <;> cases h
  | cons env is =>
    have hums : (Machine.run Gadget.step (Gadget.step (.parse s) env) is).ums = u := by
      rcases hend with h | ⟨h, -⟩ <;> rw [Machine.run_cons] at h <;> rw [h] <;> rfl
    rcases Gadget.step_withCodes env codes s with hstep | ⟨v, hstep, hstatus⟩
    · obtain ⟨κ, hκ⟩ : ∃ κ, κ = (s.withCodes codes).context := ⟨_, rfl⟩
      rw [← hκ] at hstep
      obtain ⟨halong', hrun⟩ := Gadget.run_inContext κ halong.2
      refine ⟨κ, ⟨⟨fun h ↦ h, hstep ▸ halong'⟩, ?_⟩, ?_, ?_⟩
      · rw [Machine.run_cons, hstep, hrun]
        rcases hend with h | ⟨h, hstate⟩ <;> rw [Machine.run_cons] at h <;> rw [h]
        · exact .inl rfl
        · exact .inr ⟨rfl, hstate⟩
      · rw [Machine.run_cons, hstep, hrun, Machine.run_cons]
      · exact leaves_inContext hself fun i ↦ by
          rw [hκ]
          rfl
    · -- It has not failed at all.
      have hall := halong.2
      rw [hstep] at hall hums
      have haccount := Gadget.account_of_parsed hall
      rw [hums] at haccount
      exact absurd ((status_of_account haccount).symm.trans hfail) hstatus

/-- The command in `t` is answered: the host is sent an answer that tells the sense code, and then,
when the status of `v` is due, the status wrapper of the command, which says that it has passed. -/
def Delivers (t : Ums) (code : ℕ) (i j : Env) (v : Ums) : Prop :=
  ∃ r, Gadget.step (.parse t) i = .reply r ∧
    (∃ l, (Gadget.reply r).Sends j l ∧ Tells l code) ∧
    Gadget.step (.reply r) j = .status v ∧
    ∀ k, (Gadget.status v).Reports k t.tag v.residue 0

/-- What becomes of REQUEST SENSE when it is the next command for a unit. -/
theorem delivers_of_nextFor {i j : Env} {is : List Env} (h : g.Due s)
    (hnext : Gadget.NextFor s.lunIdx t g is) (hasks : t.AsksSense)
    (hgo : Machine.Along Gadget.step Gadget.Unreset (.parse t) [i, j]) :
    ∃ v, t.Delivers s.lun.senseData i j v ∧ v.lunIdx = s.lunIdx ∧ v.lun.senseData = ssNoSense := by
  obtain ⟨hready, hsense⟩ := Gadget.sense_of_nextFor h hnext
  obtain ⟨-, -, hidx⟩ := hnext
  obtain ⟨hfirst, hsecond, -⟩ := hgo
  obtain ⟨r, hstep, htold⟩ := Gadget.step_asksSense hasks hready.state hfirst
  rw [hstep] at hsecond
  obtain ⟨hsends, v, hstep', hstatus, htag, hvidx, hvsense⟩ :=
    Gadget.step_told htold hready.state hsecond
  rw [hsense] at hsends
  refine ⟨v, ⟨r, hstep, hsends, hstep', fun k ↦ ?_⟩, hvidx.trans hidx, hvsense⟩
  rw [← hstatus, ← htag]
  exact Gadget.status_reports k v

end Ums

/-- In the step the host is sent a status wrapper that says that a command has failed. -/
def Gadget.ReportsFail (g : Gadget) (k : Env) : Prop := ∃ tag residue, g.Reports k tag residue 1

/-- **Sense data.**  A command the host is told has failed leaves its sense code to the next command
for its unit, with any commands for other units in between; if that is REQUEST SENSE the host is
sent the code and that it has passed, and for one more that there is none.  And it is told the same
of the command, whatever the units have recorded before. -/
theorem sense_delivery {is : List Env} {k : Env} (h : s.Concludes is u)
    (hfail : (Machine.run Gadget.step (.parse s) is).ReportsFail k) :
    u.lunIdx = s.lunIdx ∧
      (∀ t js, Gadget.NextFor s.lunIdx t (Machine.run Gadget.step (.parse s) is) (k :: js) →
        t.AsksSense → ∀ i j, Machine.Along Gadget.step Gadget.Unreset (.parse t) [i, j] →
        ∃ v, t.Delivers u.lun.senseData i j v ∧
          ∀ t' js', Gadget.NextFor s.lunIdx t' (.status v) js' → t'.AsksSense →
          ∀ i' j', Machine.Along Gadget.step Gadget.Unreset (.parse t') [i', j'] →
          ∃ v', t'.Delivers ssNoSense i' j' v') ∧
      ∀ codes, ∃ v, (s.withCodes codes).Concludes is v ∧
        (Machine.run Gadget.step (.parse (s.withCodes codes)) is).ReportsFail k ∧
        v.lun.senseData = u.lun.senseData := by
  have hidx := h.kept.1
  have hdue : (Machine.run Gadget.step (.parse s) is).Due u := h.2
  have hstatus : u.status = 1 := by
    obtain ⟨_, _, hreports⟩ := hfail
    exact (hdue.status hreports).symm
  refine ⟨hidx, fun t js hnext hasks i j hgo ↦ ?_, fun codes ↦ ?_⟩
  · rw [← hidx] at hnext
    obtain ⟨v, hdelivers, hvidx, hvsense⟩ := Ums.delivers_of_nextFor hdue hnext hasks hgo
    refine ⟨v, hdelivers, fun t' js' hnext' hasks' i' j' hgo' ↦ ?_⟩
    rw [← hidx, ← hvidx] at hnext'
    have hdue' : Gadget.Due v (.status v) := .inl rfl
    obtain ⟨v', hdelivers', -, -⟩ := Ums.delivers_of_nextFor hdue' hnext' hasks' hgo'
    rw [hvsense] at hdelivers'
    exact ⟨v', hdelivers'⟩
  · obtain ⟨κ, hconcludes, hrun, hleaves⟩ := Ums.concludes_withCodes h hstatus codes
    refine ⟨u.inContext κ, hconcludes, ?_, congrArg LogicalUnit.senseData (Ums.inContext_lun κ u)⟩
    have hdue' : (Machine.run Gadget.step (.parse (s.withCodes codes)) is).Due (u.inContext κ) :=
      hconcludes.2
    have hreports := hdue'.reported k ?_
    · rw [Ums.status_inContext, hstatus] at hreports
      exact ⟨_, _, hreports⟩
    · -- The session is ended by what it was ended by before.
      rintro ⟨t, ht, hquits⟩
      obtain ⟨_, _, l, hsends, -⟩ := hfail
      rw [hrun] at ht
      rcases hdue with hat | ⟨hat, -⟩ <;> rw [hat] at ht hsends <;> cases ht
      exact hsends.stays ⟨u, rfl, (hleaves k).mp hquits⟩

/-- The first command of a session, which is told of the reset. -/
def toldFirst : Ums :=
  (Gadget.step (firstGadget [sdVolume]) (hears (wrapper 0 0 0 [0, 0, 0, 0, 0, 0]))).ums

/-- After it, REQUEST SENSE is received. -/
def asked : Ums :=
  (Machine.run Gadget.step (firstGadget [sdVolume]) (announces 18 [3, 0, 0, 0, 18, 0])).ums

theorem sense_delivery_first : ∃ v, asked.Delivers ssResetOccurred calmly calmly v := by
  have hconcludes : toldFirst.Concludes [calmly, calmly] (replies toldFirst) :=
    ⟨⟨fun h ↦ h, fun h ↦ h, trivial⟩, .inl rfl⟩
  have hfirst : Gadget.parse toldFirst =
      Gadget.step (firstGadget [sdVolume]) (hears (wrapper 0 0 0 [0, 0, 0, 0, 0, 0])) := rfl
  have hnext : Gadget.NextFor toldFirst.lunIdx asked
      (Machine.run Gadget.step (.parse toldFirst) [calmly, calmly])
      [calmly, hears (wrapper 18 0x80 0 [3, 0, 0, 0, 18, 0])] := by
    refine ⟨⟨⟨by decide +kernel, fun _ hs ↦ by cases hs⟩, ⟨by decide +kernel, fun _ hs ↦ ?_⟩,
      trivial⟩, ?_, by decide +kernel⟩
    · exact absurd hs (Gadget.loopEnd_ne_parse _)
    · rw [hfirst]
      rfl
  have hbytes : ∀ k < 6, 1 < k → k ≠ 4 → asked.cmnd k = 0 := by decide +kernel
  have hasks : asked.AsksSense :=
    ⟨by decide +kernel, by decide +kernel, by decide +kernel, fun k hk hk' ↦ hbytes k hk' hk,
      by decide +kernel, by decide +kernel, by decide +kernel⟩
  have hcode : (replies toldFirst).lun.senseData = ssResetOccurred := by decide +kernel
  have hstatus : (replies toldFirst).status = 1 := by decide +kernel
  have hfail :
      (Machine.run Gadget.step (.parse toldFirst) [calmly, calmly]).ReportsFail calmly := by
    have hreports := Gadget.status_reports calmly (replies toldFirst)
    rw [hstatus] at hreports
    exact ⟨_, _, hreports⟩
  obtain ⟨-, hall, -⟩ := sense_delivery hconcludes hfail
  rw [hcode] at hall
  obtain ⟨v, hv, -⟩ := hall asked _ hnext hasks calmly calmly
    ⟨by decide +kernel, by decide +kernel, trivial⟩
  exact ⟨v, hv⟩

end Usb
end SdLoader
