import SdLoader.Xusb.System

/-!
# What a request of the host changes on the rings

* `Quiet` — nothing but the bulk rings, and these as far as they can still be added to.
* `Answers` — the same, and then at most one TRB added to the control ring, which was empty.
* `answerSetup_answers` — every request is answered so.
-/

set_option autoImplicit false

namespace SdLoader
namespace Xusb

/-- The request that sets the configuration has been handled. -/
def DevState.Configuring (d : DevState) : Prop := d = .configuredStsWait ∨ d = .configured

/-- `bulkout_epenqueue_ptr` and the like. -/
def Xotg.bulk (x : Xotg) : Dir → RingPtrs
  | .out => x.bulkOut
  | .into => x.bulkIn

/-- The bulk rings are set up when there is a configuration, or once `e` holds. -/
structure Xotg.BulkOk (e : Prop) (x : Xotg) : Prop where
  types : ∀ d, ∀ i < 15, (slot x.trbs (bulkQueue d) i).trbType ≠ trbLink
  ready : e ∨ x.deviceState.Configuring → ∀ d, RingAt (bulkQueue d) x.trbs (x.bulk d).enqueue

/-- The control ring and the event ring are as they were. -/
structure Quiet (x x' : Xotg) : Prop where
  cntrl : x'.cntrl = x.cntrl
  wait : x'.waitForEventTrb = x.waitForEventTrb
  events : x'.eventEnqueue = x.eventEnqueue ∧ x'.eventDequeue = x.eventDequeue ∧
    x'.eventCcs = x.eventCcs
  mem : ∀ a, (∀ d, ¬ InRing (bulkQueue d) a) → x'.trbs a = x.trbs a
  bulk : ∀ e, x.BulkOk e → x'.BulkOk e

/-- At most one TRB is added to the control ring, which was empty; it is one that satisfies `P`. -/
def Answers (P : Xotg → Trb → Prop) (x x' : Xotg) : Prop :=
  ∃ x₁, Quiet x x₁ ∧ (x' = x₁ ∨ x₁.cntrl.enqueue = x₁.cntrl.dequeue ∧
    ∃ t : Trb, t.cycle = x₁.cntrl.producerCycle % 2 ∧ t.trbType ≠ trbLink ∧ P x₁ t ∧
      x' = { x₁.queueCntrl t with waitForEventTrb := t.trbType })

/-- `trb_tx_len` of a data TRB. -/
def Trb.txLen (t : Trb) : ℕ := t.dword2 % 2 ^ 17

/-- The objects that hold as much as their length says. -/
def Objects.sound (o : Objects) : List Descr :=
  [o.dev, o.cfg, o.devBot, o.vendor, o.product, o.serial, o.msCid, o.mxExt, o.hidJc, o.hidTouch,
    o.devStatus, o.interface, o.configuration, o.status] ++ o.devQual.toList ++ o.cfgOther.toList

/-- The sizes of the objects.  `usb_ms_os_descriptor` is not as long as it says. -/
structure Objects.Fits (o : Objects) : Prop where
  sound : ∀ d ∈ o.sound, d.len ≤ d.size ∧ d.len ≤ 0x400
  langId : 4 ≤ o.langId.size
  epStatus : 2 ≤ o.epStatus.size
  maxLun : 1 ≤ o.maxLun.size
  msOs : o.msOs.len = 0x28 ∧ o.msOs.size = 18

theorem umsObjects_fits (addr : ℕ → ℕ) : (umsObjects addr).Fits where
  sound := by simp [Objects.sound, umsObjects]
  langId := Nat.le_refl _
  epStatus := Nat.le_refl _
  maxLun := Nat.le_refl _
  msOs := ⟨rfl, rfl⟩

/-- The data stage of an answer is as long as the host has asked for at most, and is read from one
object, maybe through the control buffer.  There is one request for which each is not so. -/
structure Bounded (o : Objects) (s : Setup) (x : Xotg) (t : Trb) : Prop where
  asked : t.txLen ≤ s.wLength ∨ s.bmRequestType = 0x82 ∧ t.txLen = 2
  inside : (∃ d ∈ o.langId :: o.epStatus :: o.maxLun :: o.msOs :: o.sound,
        t.dword0 = d.addr ∧ t.txLen ≤ d.size) ∨
      (t.dword0 = usbEpControlBufAddr ∧ ∃ d ∈ o.sound, x.controlBuf = (d.addr, d.len) ∧
        t.txLen ≤ d.len ∧ d.len ≤ d.size ∧ d.len ≤ 0x400) ∨
      (s.bmRequestType = 0x80 ∧ s.bRequest = 6 ∧ s.wValue = 0x3EE ∧ 18 < s.wLength ∧
        t.dword0 = o.msOs.addr ∧ t.txLen = min s.wLength 0x28)

/-- What an answer to a request is. -/
def Reply (o : Objects) (s : Setup) (x : Xotg) (t : Trb) : Prop :=
  o.Fits → s.wValue < 2 ^ 16 ∧ s.wLength < 2 ^ 16 → t.trbType = trbData → Bounded o s x t

variable {x x' x₁ : Xotg} {o : Objects} {seen : Seen} {s : Setup} {P : Xotg → Trb → Prop}

/-- A change of variables that have nothing to do with the rings. -/
theorem Quiet.of_eq (htrbs : x'.trbs = x.trbs)
    (hptrs : x'.cntrl = x.cntrl ∧ x'.bulkOut = x.bulkOut ∧ x'.bulkIn = x.bulkIn)
    (hwait : x'.waitForEventTrb = x.waitForEventTrb)
    (hevents : x'.eventEnqueue = x.eventEnqueue ∧ x'.eventDequeue = x.eventDequeue ∧
      x'.eventCcs = x.eventCcs)
    (hstate : x'.deviceState.Configuring → x.deviceState.Configuring) : Quiet x x' where
  cntrl := hptrs.1
  wait := hwait
  events := hevents
  mem := fun a _ ↦ by rw [htrbs]
  bulk := fun e h ↦ by
    have hbulk : ∀ d, x'.bulk d = x.bulk d := fun d ↦ by
      cases d with
      | out => exact hptrs.2.1
      | into => exact hptrs.2.2
    refine ⟨fun d i hi ↦ ?_, fun hready d ↦ ?_⟩
    · rw [htrbs]
      exact h.types d i hi
    · rw [htrbs, hbulk]
      exact h.ready (hready.imp_right hstate) d

theorem Quiet.refl (x : Xotg) : Quiet x x :=
  .of_eq rfl ⟨rfl, rfl, rfl⟩ rfl ⟨rfl, rfl, rfl⟩ id

theorem Quiet.trans (h : Quiet x x₁) (h' : Quiet x₁ x') : Quiet x x' where
  cntrl := h'.cntrl.trans h.cntrl
  wait := h'.wait.trans h.wait
  events := ⟨h'.events.1.trans h.events.1, h'.events.2.1.trans h.events.2.1,
    h'.events.2.2.trans h.events.2.2⟩
  mem := fun a ha ↦ (h'.mem a ha).trans (h.mem a ha)
  bulk := fun e he ↦ h'.bulk e (h.bulk e he)

theorem Bounded.congr {t : Trb} (h : Bounded o s x t) (hbuf : x'.controlBuf = x.controlBuf) :
    Bounded o s x' t where
  asked := h.asked
  inside := by
    rw [hbuf]
    exact h.inside

/-- The bulk rings have been set up, and the state says so. -/
theorem Quiet.configure (h : Quiet x x₁) (state : DevState)
    (hready : (∀ d, ∀ i < 15, (slot x.trbs (bulkQueue d) i).trbType ≠ trbLink) →
      ∀ d, RingAt (bulkQueue d) x₁.trbs (x₁.bulk d).enqueue) :
    Quiet x { x₁ with deviceState := state } where
  cntrl := h.cntrl
  wait := h.wait
  events := h.events
  mem := h.mem
  bulk := fun e he ↦ ⟨(h.bulk e he).types, fun _ d ↦ by
    have hd := hready he.types d
    cases d <;> exact hd⟩

theorem Quiet.answers (h : Quiet x x') : Answers P x x' := ⟨x', h, .inl rfl⟩

/-! ## TRBs for the control ring -/

theorem createStatusTrb_trbType (c : ℕ) (d : Dir) : (createStatusTrb c d).trbType = trbStatus := by
  cases d <;> simp only [Trb.trbType, createStatusTrb, trbStatus, Dir.toNat] <;> omega

theorem createStatusTrb_cycle (c : ℕ) (d : Dir) : (createStatusTrb c d).cycle = c % 2 := by
  cases d <;> simp only [Trb.cycle, createStatusTrb, trbStatus, Dir.toNat] <;> omega

theorem createDataTrb_trbType (c buf len : ℕ) (d : Dir) :
    (createDataTrb c buf len d).trbType = trbData := by
  cases d <;> simp only [Trb.trbType, createDataTrb, trbData, Dir.toNat] <;> omega

theorem createDataTrb_cycle (c buf len : ℕ) (d : Dir) :
    (createDataTrb c buf len d).cycle = c % 2 := by
  cases d <;> simp only [Trb.cycle, createDataTrb, trbData, Dir.toNat] <;> omega

theorem createNormalTrb_trbType (c buf len : ℕ) :
    (createNormalTrb c buf len).trbType = trbNormal := by
  simp only [Trb.trbType, createNormalTrb, trbNormal]
  omega

theorem createDataTrb_txLen (c buf len : ℕ) (d : Dir) :
    (createDataTrb c buf len d).txLen = len % 2 ^ 17 := by
  simp only [Trb.txLen, createDataTrb]
  omega

theorem Answers.ite {p : Prop} [Decidable p] {a b : Xotg} (ha : p → Answers P x a)
    (hb : ¬ p → Answers P x b) : Answers P x (if p then a else b) := by
  split
  case isTrue h => exact ha h
  case isFalse h => exact hb h

theorem Answers.status (h : Quiet x x₁) : Answers (Reply o s) x (x₁.issueStatusTrb .into) := by
  have htype := createStatusTrb_trbType x₁.cntrl.producerCycle .into
  rw [Xotg.issueStatusTrb]
  by_cases hempty : x₁.cntrl.enqueue = x₁.cntrl.dequeue
  · rw [if_pos (.inl hempty)]
    refine ⟨x₁, h, .inr ⟨hempty, _, createStatusTrb_cycle _ .into, ?_, fun _ _ hdata ↦ ?_, ?_⟩⟩
    · rw [htype]
      decide
    · rw [htype] at hdata
      exact absurd hdata (by decide)
    · rw [htype]
  · rw [if_neg (not_or.mpr ⟨hempty, by decide⟩)]
    exact h.answers

theorem Answers.data (h : Quiet x x₁) {buf len : ℕ}
    (hlen : o.Fits → s.wValue < 2 ^ 16 ∧ s.wLength < 2 ^ 16 →
      ∀ c, Bounded o s x₁ (createDataTrb c buf len .into)) :
    Answers (Reply o s) x (x₁.issueDataTrb buf len .into) := by
  rw [Xotg.issueDataTrb]
  split
  case isTrue hempty =>
    refine ⟨x₁, h, .inr ⟨hempty, _, createDataTrb_cycle _ buf len .into, ?_,
      fun hfits hs _ ↦ hlen hfits hs _, ?_⟩⟩
    · rw [createDataTrb_trbType]
      decide
    · rw [createDataTrb_trbType]
  case isFalse => exact h.answers

theorem issueStatusTrb_deviceState (x : Xotg) (d : Dir) (state : DevState) :
    { x.issueStatusTrb d with deviceState := state } =
      { x with deviceState := state }.issueStatusTrb d := by
  rw [Xotg.issueStatusTrb, Xotg.issueStatusTrb]
  split <;> rfl

/-! ## Requests -/

theorem quiet_setEpStall (x : Xotg) (ep : ℕ) (stall : Bool) : Quiet x (x.setEpStall ep stall) :=
  .of_eq rfl ⟨rfl, rfl, rfl⟩ rfl ⟨rfl, rfl, rfl⟩ id

theorem quiet_ep1Disable (x : Xotg) (ep : ℕ) : Quiet x (x.ep1Disable ep) := by
  rw [Xotg.ep1Disable]
  split
  · exact .of_eq rfl ⟨rfl, rfl, rfl⟩ rfl ⟨rfl, rfl, rfl⟩ id
  · exact .refl x

theorem quiet_disableEp1 (x : Xotg) : Quiet x x.disableEp1 := by
  refine ((quiet_ep1Disable x epBulkOut).trans (quiet_ep1Disable _ epBulkIn)).trans
    (.of_eq rfl ⟨rfl, rfl, rfl⟩ rfl ⟨rfl, rfl, rfl⟩ fun h ↦ ?_)
  rcases h with h | h <;> cases h

theorem bulkQueue_ne {d d' : Dir} (h : d ≠ d') {i j : ℕ} (hi : i < 16) (hj : j < 16) :
    bulkQueue d + 16 * i ≠ bulkQueue d' + 16 * j := by
  cases d <;> cases d' <;> first | exact absurd rfl h | skip
  all_goals
    rw [bulkQueue, bulkQueue, bulkOutQueue_eq, bulkInQueue_eq]
    omega

/-- Setting up a bulk endpoint writes the link of its ring. -/
theorem epInitialize_spec (x : Xotg) (seen : Seen) (d : Dir) :
    (x.epInitialize seen d).cntrl = x.cntrl ∧
      (x.epInitialize seen d).trbs = (epInitContext x.trbs (bulkQueue d)).1 ∧
      ((x.epInitialize seen d).bulk d).enqueue = bulkQueue d ∧
      (∀ d', d' ≠ d → (x.epInitialize seen d).bulk d' = x.bulk d') := by
  cases d with
  | out => exact ⟨rfl, rfl, rfl, fun d' h ↦ by cases d' <;> first | exact absurd rfl h | rfl⟩
  | into => exact ⟨rfl, rfl, rfl, fun d' h ↦ by cases d' <;> first | exact absurd rfl h | rfl⟩

theorem epInitContext_frame (m : Trbs) (base : ℕ) {a : ℕ} (ha : a ≠ base + 16 * 15) :
    (epInitContext m base).1 a = m a := Function.update_of_ne ha ..

theorem dvd_bulkQueue (d : Dir) : 16 ∣ bulkQueue d := by
  cases d <;> decide

/-- A ring is one to which TRBs can be added once its endpoint has been set up. -/
theorem epInitContext_ringAt {m : Trbs} {d : Dir}
    (htypes : ∀ i < 15, (slot m (bulkQueue d) i).trbType ≠ trbLink) :
    RingAt (bulkQueue d) (epInitContext m (bulkQueue d)).1 (bulkQueue d) where
  enqueue := ⟨0, by omega, rfl⟩
  types := fun i hi ↦ by
    rw [epInitContext_slot m _ hi]
    exact htypes i hi
  link := epInitContext_link m (dvd_bulkQueue d)

theorem epInitialize_slot (x : Xotg) (seen : Seen) {d d' : Dir} (hd : d' ≠ d) {i : ℕ}
    (hi : i < 16) :
    slot (x.epInitialize seen d).trbs (bulkQueue d') i = slot x.trbs (bulkQueue d') i := by
  obtain ⟨-, htrbs, -, -⟩ := epInitialize_spec x seen d
  rw [htrbs]
  exact epInitContext_frame _ _ (bulkQueue_ne hd hi (by omega))

theorem epInitialize_ringAt (x : Xotg) (seen : Seen) {d : Dir}
    (htypes : ∀ i < 15, (slot x.trbs (bulkQueue d) i).trbType ≠ trbLink) :
    RingAt (bulkQueue d) (x.epInitialize seen d).trbs
      ((x.epInitialize seen d).bulk d).enqueue := by
  obtain ⟨-, htrbs, henq, -⟩ := epInitialize_spec x seen d
  rw [htrbs, henq]
  exact epInitContext_ringAt htypes

theorem quiet_epInitialize (x : Xotg) (seen : Seen) (d : Dir) :
    Quiet x (x.epInitialize seen d) := by
  obtain ⟨hcntrl, htrbs, -, hother⟩ := epInitialize_spec x seen d
  refine ⟨hcntrl, ?_, ?_, fun a ha ↦ ?_, fun e h ↦ ⟨fun d' i hi ↦ ?_, fun hready d' ↦ ?_⟩⟩
  · cases d <;> rfl
  · cases d <;> exact ⟨rfl, rfl, rfl⟩
  · rw [htrbs]
    exact epInitContext_frame _ _ fun heq ↦ ha d ⟨15, by omega, heq⟩
  · by_cases hd : d' = d
    · subst hd
      exact (epInitialize_ringAt x seen (h.types d')).types i hi
    · rw [epInitialize_slot x seen hd (by omega)]
      exact h.types d' i hi
  · by_cases hd : d' = d
    · subst hd
      exact epInitialize_ringAt x seen (h.types d')
    · rw [hother d' hd]
      refine (h.ready ?_ d').congr fun i hi ↦ epInitialize_slot x seen hd hi
      cases d <;> exact hready

/-- When both endpoints have been set up there is a configuration. -/
theorem quiet_configure (x : Xotg) (seen : Seen) :
    Quiet x { ((x.epInitialize seen .out).epInitialize seen .into) with
      deviceState := .configuredStsWait } := by
  have hout := quiet_epInitialize x seen .out
  refine (hout.trans (quiet_epInitialize _ seen .into)).configure _ fun htypes d ↦ ?_
  cases d with
  | out =>
    have hring := epInitialize_ringAt x seen (htypes .out)
    have hother := (epInitialize_spec (x.epInitialize seen .out) seen .into).2.2.2
    rw [hother .out (by decide)]
    exact hring.congr fun i hi ↦ epInitialize_slot _ seen (by decide) hi
  | into =>
    refine epInitialize_ringAt _ seen fun i hi ↦ ?_
    rw [epInitialize_slot x seen (by decide) (by omega)]
    exact htypes .into i hi

theorem answers_setRequestDevAddress (x : Xotg) (o : Objects) (s : Setup) :
    Answers (Reply o s) x (x.handleSetRequestDevAddress s) := by
  rw [Xotg.handleSetRequestDevAddress, issueStatusTrb_deviceState]
  refine .status ?_
  refine .of_eq rfl ⟨rfl, rfl, rfl⟩ rfl ⟨rfl, rfl, rfl⟩ fun h ↦ ?_
  rcases h with h | h <;> cases h

theorem answers_setRequestConfiguration (x : Xotg) (o : Objects) (seen : Seen) (s : Setup) :
    Answers (Reply o s) x (x.handleSetRequestConfiguration seen s) := by
  have hnum : Quiet x { x with configNum := s.wValue } :=
    .of_eq rfl ⟨rfl, rfl, rfl⟩ rfl ⟨rfl, rfl, rfl⟩ id
  rw [Xotg.handleSetRequestConfiguration]
  split
  · exact .status (hnum.trans (quiet_disableEp1 _))
  · rw [issueStatusTrb_deviceState]
    exact .status (hnum.trans (quiet_configure _ seen))

theorem answers_getClassRequest (x : Xotg) (o : Objects) (s : Setup) :
    Answers (Reply o s) x (x.handleGetClassRequest o s) := by
  have hstall : Answers (Reply o s) x (x.setEpStall epCtrlIn true) :=
    (quiet_setEpStall x epCtrlIn true).answers
  rw [Xotg.handleGetClassRequest]
  refine .ite (fun _ ↦ hstall) fun hvalid ↦ .ite (fun _ ↦ .status ?_) fun _ ↦
    .ite (fun hmax ↦ .ite (fun _ ↦ .data ?_ fun hfits _ c ↦ ?_) fun _ ↦ hstall) fun _ ↦ hstall
  · exact .of_eq rfl ⟨rfl, rfl, rfl⟩ rfl ⟨rfl, rfl, rfl⟩ id
  · refine .of_eq rfl ⟨rfl, rfl, rfl⟩ rfl ⟨rfl, rfl, rfl⟩ fun h ↦ ?_
    rcases h with h | h <;> cases h
  · rw [if_pos hmax] at hvalid
    refine ⟨.inl ?_, .inl ⟨o.maxLun, by simp, rfl, ?_⟩⟩ <;> rw [createDataTrb_txLen]
    · omega
    · exact hfits.maxLun

theorem quiet_fitCfg (x : Xotg) : Quiet x x.fitCfg := by
  rw [Xotg.fitCfg]
  split
  · exact .of_eq rfl ⟨rfl, rfl, rfl⟩ rfl ⟨rfl, rfl, rfl⟩ id
  all_goals split <;> exact .of_eq rfl ⟨rfl, rfl, rfl⟩ rfl ⟨rfl, rfl, rfl⟩ id

theorem quiet_getDescriptor (x : Xotg) (o : Objects) (s : Setup) :
    Quiet x (x.getDescriptor o s).1 := by
  rw [Xotg.getDescriptor]
  split
  case h_2 => exact quiet_fitCfg x
  case h_8 => split <;> exact .of_eq rfl ⟨rfl, rfl, rfl⟩ rfl ⟨rfl, rfl, rfl⟩ id
  case h_9 => split <;> exact .of_eq rfl ⟨rfl, rfl, rfl⟩ rfl ⟨rfl, rfl, rfl⟩ id
  all_goals exact .refl x

/-- What can be asked for. -/
theorem getDescriptor_cases (x : Xotg) (o : Objects) (s : Setup) {d : Descr}
    (hd : (x.getDescriptor o s).2 = some d) :
    (∃ d' ∈ o.langId :: o.sound, d.addr = d'.addr ∧ (o.Fits → d.len ≤ d'.size)) ∨
      (d = o.msOs ∧ s.wValue / 2 ^ 8 % 2 ^ 8 = 3 ∧ s.wValue % 2 ^ 8 = 0xEE) := by
  have hsound : ∀ d' ∈ o.sound, d' = d → ∃ d'' ∈ o.langId :: o.sound,
      d.addr = d''.addr ∧ (o.Fits → d.len ≤ d''.size) := fun d' hd' heq ↦
    ⟨d', List.mem_cons_of_mem _ hd', heq ▸ rfl, fun hfits ↦ heq ▸ (hfits.sound d' hd').1⟩
  rw [Xotg.getDescriptor] at hd
  split at hd
  case h_6 htype hsub =>
    cases hd
    exact .inr ⟨rfl, htype, hsub⟩
  case h_7 =>
    cases hd
    exact .inl ⟨o.langId, List.mem_cons_self, rfl, fun hfits ↦ hfits.langId⟩
  case h_8 =>
    split at hd
    case h_1 d' heq =>
      refine .inl (hsound d' ?_ (Option.some.inj hd))
      simp [Objects.sound, heq]
    case h_2 => cases hd
  case h_9 =>
    split at hd
    case h_1 d' heq =>
      refine .inl (hsound d' ?_ (Option.some.inj hd))
      simp [Objects.sound, heq]
    case h_2 => cases hd
  case h_11 => cases hd
  all_goals
    refine .inl (hsound _ ?_ (Option.some.inj hd))
    simp [Objects.sound]

theorem answers_getDescriptor (x : Xotg) (o : Objects) (s : Setup)
    (hget : s.bmRequestType = 0x80 ∧ s.bRequest = 6) :
    Answers (Reply o s) x (x.handleGetDescriptor o s) := by
  have hquiet := quiet_getDescriptor x o s
  have hcases := fun d hd ↦ getDescriptor_cases x o s (d := d) hd
  rw [Xotg.handleGetDescriptor]
  split
  case h_1 x₁ d heq =>
    rw [heq] at hquiet hcases
    refine .data hquiet fun hfits hs c ↦ ?_
    have hlen := createDataTrb_txLen c d.addr (if s.wLength < d.len then s.wLength else d.len) .into
    refine ⟨.inl ?_, ?_⟩
    · rw [hlen]
      split <;> omega
    rcases hcases d rfl with ⟨d', hd', haddr, hfit⟩ | ⟨rfl, htype, hsub⟩
    · have hsize := hfit hfits
      refine .inl ⟨d', ?_, haddr, ?_⟩
      · simp only [List.mem_cons] at hd' ⊢
        exact hd'.imp_right fun h ↦ .inr (.inr (.inr h))
      · rw [hlen]
        split <;> omega
    · obtain ⟨hobj, hsize⟩ := hfits.msOs
      rw [hobj] at hlen
      by_cases hlong : 18 < s.wLength
      · refine .inr (.inr ⟨hget.1, hget.2, by omega, hlong, rfl, ?_⟩)
        rw [hobj, hlen]
        split <;> omega
      · refine .inl ⟨o.msOs, by simp, rfl, ?_⟩
        rw [hobj, hlen]
        split <;> omega
  case h_2 x₁ heq =>
    rw [heq] at hquiet
    exact (hquiet.trans (quiet_setEpStall x₁ epCtrlIn true)).answers

theorem answers_transmitData (h : Quiet x x₁) {d : Descr} (hd : d ∈ o.sound) :
    Answers (Reply o s) x (x₁.transmitData s d) := by
  rw [Xotg.transmitData]
  refine .data (h.trans ?_) fun hfits hs c ↦ ?_
  · exact .of_eq rfl ⟨rfl, rfl, rfl⟩ rfl ⟨rfl, rfl, rfl⟩ id
  · obtain ⟨hsize, hbuf⟩ := hfits.sound d hd
    refine ⟨.inl ?_, .inr (.inl ⟨rfl, d, hd, rfl, ?_, hsize, hbuf⟩)⟩ <;>
      rw [createDataTrb_txLen] <;> split <;> omega

/-- **Every request of the host is answered with at most one TRB.** -/
theorem answerSetup_answers (x : Xotg) (o : Objects) (seen : Seen) (s : Setup) :
    Answers (Reply o s) x (x.answerSetup o seen s) := by
  have hstall : Answers (Reply o s) x (x.setEpStall epCtrlIn true) :=
    (quiet_setEpStall x epCtrlIn true).answers
  have htransmit : ∀ {d}, d ∈ o.sound → Answers (Reply o s) x (x.transmitData s d) :=
    fun hd ↦ answers_transmitData (.refl x) hd
  rw [Xotg.answerSetup]
  split
  · -- the device is given an address or a configuration
    split
    · exact answers_setRequestDevAddress x o s
    split
    · exact answers_setRequestConfiguration x o seen s
    · exact (Quiet.refl x).answers
  · refine .status ?_
    exact .of_eq rfl ⟨rfl, rfl, rfl⟩ rfl ⟨rfl, rfl, rfl⟩ id
  · -- an endpoint is halted, or not any more
    split
    · split
      · exact .status (quiet_setEpStall x _ _)
      · exact hstall
    · exact hstall
  · exact answers_getClassRequest x o s
  case h_5 hread =>
    -- a read from the device
    split
    · exact htransmit (by simp [Objects.sound])
    case h_2 hget => exact answers_getDescriptor x o s ⟨hread, hget⟩
    · refine answers_transmitData ?_ (by simp [Objects.sound])
      exact .of_eq rfl ⟨rfl, rfl, rfl⟩ rfl ⟨rfl, rfl, rfl⟩ id
    · exact hstall
  · -- a read from the interface
    split
    · refine answers_transmitData ?_ (by simp [Objects.sound])
      exact .of_eq rfl ⟨rfl, rfl, rfl⟩ rfl ⟨rfl, rfl, rfl⟩ id
    split
    · exact htransmit (by simp [Objects.sound])
    split
    · refine answers_transmitData ?_ (by split <;> simp [Objects.sound])
      refine .of_eq rfl ⟨rfl, rfl, rfl⟩ rfl ⟨rfl, rfl, rfl⟩ fun h ↦ ?_
      rcases h with h | h <;> cases h
    · exact hstall
  case h_7 hstatus =>
    -- a read from an endpoint, which is two bytes long
    split
    · split
      · rw [Xotg.handleGetEpStatus]
        refine .data ?_ fun hfits _ c ↦ ?_
        · exact .of_eq rfl ⟨rfl, rfl, rfl⟩ rfl ⟨rfl, rfl, rfl⟩ id
        · refine ⟨.inr ⟨hstatus, ?_⟩, .inl ⟨o.epStatus, by simp, rfl, ?_⟩⟩ <;>
            rw [createDataTrb_txLen]
          · rfl
          · exact hfits.epStatus
      · exact hstall
    · exact hstall
  · exact answers_getClassRequest x o s
  all_goals first | exact hstall | skip
  all_goals
    split
    · split
      · exact htransmit (by simp [Objects.sound])
      · exact htransmit (by simp [Objects.sound])
      · exact hstall
    · exact hstall

end Xusb
end SdLoader
