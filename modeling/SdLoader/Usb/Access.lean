import SdLoader.Usb.Steps

/-!
# The mass storage gadget: access to the storages

Which transfers of sectors a session can make, for any table of volumes whose windows do not wrap.

* `Access.Allowed` — a write goes to a unit that may be written, no transfer goes to an ejected one,
  and none leaves the window of its unit.
* `Access.Targets` — the unit is one of the volumes.
* `TableInv` — what holds of the units at every place of the main loop: the table is that of the
  volumes, and a write under way has been admitted.
* `record_step` — the rule by which everything on record keeps a property.
* `access_allowed` — so every transfer of every session is.

The invariant needs nothing of `Env`: no outcome of an operation gets a transfer outside.
-/

set_option autoImplicit false

namespace SdLoader
namespace Usb

variable {volumes : List Volume} {secCnt : MmcType → ℕ}

/-- The units of a table of volumes. -/
def table (volumes : List Volume) (secCnt : MmcType → ℕ) (i : ℕ) : LogicalUnit :=
  ((volumes[i]?).map (Volume.unit secCnt)).getD .zero

/-- The windows have sectors, and do not wrap. -/
def Windows (volumes : List Volume) (secCnt : MmcType → ℕ) : Prop :=
  ∀ v ∈ volumes, 1 ≤ (v.unit secCnt).numSectors ∧
    (v.unit secCnt).offset + (v.unit secCnt).numSectors ≤ 2 ^ 32

/-- A transfer that its unit admits, inside the window of that unit. -/
structure Access.Allowed (a : Access) : Prop where
  writable : a.isWrite = true → a.unit.ro = 0
  mounted : a.unit.unmounted = false
  start : a.unit.offset ≤ a.sector
  stop : a.sector + a.count ≤ a.unit.offset + a.unit.numSectors

/-- The unit of the transfer is that of one of the volumes. -/
def Access.Targets (volumes : List Volume) (secCnt : MmcType → ℕ) (a : Access) : Prop :=
  ∃ v, volumes[a.lun]? = some v ∧ a.unit.static = (v.unit secCnt).static

theorem table_of_lt (secCnt : MmcType → ℕ) {i : ℕ} (hi : i < volumes.length) :
    ∃ v ∈ volumes, volumes[i]? = some v ∧ table volumes secCnt i = v.unit secCnt := by
  have hget : volumes[i]? = some volumes[i] := List.getElem?_eq_getElem hi
  exact ⟨volumes[i], List.getElem_mem hi, hget, by rw [table, hget]; rfl⟩

/-- A transfer made for a unit inside its window is allowed if the unit admits it. -/
theorem Ums.Made.allowed_of {env : Env} {A : Bool → Prop} {s : Ums} {a : Access}
    (h : Ums.Made env A s a) (hwin : s.lun.offset + s.lun.numSectors ≤ 2 ^ 32)
    (hwrite : a.isWrite = true → s.lun.ro = 0) (hmount : s.lun.unmounted = false) : a.Allowed := by
  obtain ⟨k, hsector, hpos, hle⟩ := h.range
  have hoffset := LogicalUnit.static_offset h.static
  have hnum := LogicalUnit.static_numSectors h.static
  -- A window that does not wrap has no sector whose number does.
  have hplain : a.sector = s.lun.offset + k := by
    rw [hsector, add32_of_lt (by omega)]
  refine ⟨fun hw ↦ ?_, h.unmounted.trans hmount, ?_, ?_⟩
  · rw [LogicalUnit.static_ro h.static]
    exact hwrite hw
  · omega
  · omega

namespace Gadget

variable {env : Env} {g : Gadget}

/-- What holds of the units at every place of the main loop. -/
structure TableInv (volumes : List Volume) (secCnt : MmcType → ℕ) (g : Gadget) : Prop where
  lunCnt : g.ums.lunCnt = volumes.length
  static : ∀ i, (g.ums.luns i).static = (table volumes secCnt i).static
  active : g.Active → g.ums.lunIdx < volumes.length
  writeOk : g.WriteOk

theorem TableInv.start (hg : Starts volumes secCnt g) : TableInv volumes secCnt g := by
  obtain ⟨-, w, -, rfl⟩ := hg
  exact ⟨rfl, fun _ ↦ rfl, fun hactive ↦ hactive.elim, trivial⟩

/-- The active unit, while a command is being carried out, is that of a volume. -/
theorem TableInv.volume (h : TableInv volumes secCnt g) (hactive : g.Active) :
    ∃ v ∈ volumes, volumes[g.ums.lunIdx]? = some v ∧
      g.ums.lun.static = (v.unit secCnt).static := by
  obtain ⟨v, hv, hget, htable⟩ := table_of_lt secCnt (h.active hactive)
  exact ⟨v, hv, hget, (h.static g.ums.lunIdx).trans (by rw [htable])⟩

/-- The step lemma. -/
theorem TableInv.step (h : TableInv volumes secCnt g) (env : Env) :
    TableInv volumes secCnt (g.step env) := by
  by_cases htop : ∃ s, g = .top s
  · obtain ⟨s, rfl⟩ := htop
    obtain ⟨hok, ⟨hdoes, hidle⟩ | ⟨t, hbefore, hlun, hafter⟩⟩ := top_does env s
    · exact ⟨hdoes.lunCnt.trans h.lunCnt, fun i ↦ (hdoes.static i).trans (h.static i),
        fun hactive ↦ absurd hactive hidle, hok⟩
    · obtain ⟨hidx, hcnt, hluns, -, -⟩ := Ums.acceptCbw_keeps env t
      have hlen : t.lunCnt = volumes.length := hbefore.lunCnt.trans h.lunCnt
      refine ⟨hafter.lunCnt.trans (hcnt.trans hlen), fun i ↦ ?_, fun _ ↦ ?_, hok⟩
      · rw [hafter.static i, hluns, hbefore.static i]
        exact h.static i
      · rw [hafter.lunIdx, hidx, ← hlen]
        exact hlun
  · have htop' : ∀ s, g ≠ .top s := fun s hs ↦ htop ⟨s, hs⟩
    obtain ⟨hdoes, hok⟩ := step_does env htop' h.writeOk
    refine ⟨hdoes.lunCnt.trans h.lunCnt, fun i ↦ (hdoes.static i).trans (h.static i),
      fun hactive ↦ ?_, hok⟩
    rw [hdoes.lunIdx]
    exact h.active (active_of_step htop' hactive)

/-- **The record lemma**: what holds of everything on record, and of whatever a step adds to it,
holds of everything on record after the step. -/
theorem record_step {P : Event → Prop} (h : ∀ e ∈ g.ums.w.trace, P e) (hok : g.WriteOk)
    (hact : (∀ s, g ≠ .top s) → ∀ e,
      Ums.Fine env (Acts env g) (g.ums.Buffers ∧ Fits env g) g.ums e → P e)
    (htop : ∀ s t e, g = .top s → Ums.Fine env Ums.never s.Buffers t e → P e) :
    ∀ e ∈ (g.step env).ums.w.trace, P e := by
  have hlog : ∀ {A : Bool → Prop} {B : Prop} {s s' : Ums}, (∀ e ∈ s.w.trace, P e) →
      Ums.Does env A B s s' → (∀ e, Ums.Fine env A B s e → P e) → ∀ e ∈ s'.w.trace, P e := by
    intro A B s s' hs hdoes hnew e he
    obtain ⟨es, hes, hfine⟩ := hdoes.log
    rw [hes] at he
    rcases List.mem_append.mp he with he | he
    · exact hnew e (hfine e he)
    · exact hs e he
  by_cases hg : ∃ s, g = .top s
  · obtain ⟨s, rfl⟩ := hg
    obtain ⟨-, ⟨hdoes, -⟩ | ⟨t, hbefore, -, hafter⟩⟩ := top_does env s
    · exact hlog h hdoes fun e ↦ htop s s e rfl
    · obtain ⟨-, -, -, -, htrace⟩ := Ums.acceptCbw_keeps env t
      refine hlog (fun e he ↦ ?_) hafter fun e ↦ htop s _ e rfl
      rw [htrace] at he
      exact hlog h hbefore (fun e ↦ htop s s e rfl) e he
  · have hg' : ∀ s, g ≠ .top s := fun s hs ↦ hg ⟨s, hs⟩
    exact hlog h (step_does env hg' hok).1 (hact hg')

/-- A transfer of a command that is being carried out. -/
theorem TableInv.made (h : TableInv volumes secCnt g) (hwin : Windows volumes secCnt)
    {a : Access} (ha : Ums.Made env (Acts env g) g.ums a) :
    a.Allowed ∧ a.Targets volumes secCnt := by
  have hpermit : g.Active ∧ (a.isWrite = true → g.ums.lun.ro = 0) ∧
      g.ums.lun.unmounted = false := by
    have hacts := ha.allowed
    cases g with
    | parse s =>
      obtain ⟨hread, hmount, -⟩ := hacts
      have hep : Ums.Does env Ums.reads True s (s.handleEp0Ctrl env) :=
        Ums.handleEp0Ctrl_does env s
      rw [hep.lun_unmounted ⟨false, rfl⟩] at hmount
      exact ⟨trivial, fun hw ↦ absurd (hw.symm.trans hread) Bool.noConfusion, hmount⟩
    | writing x => exact ⟨trivial, fun _ ↦ h.writeOk.1.1, h.writeOk.1.2⟩
    | top s => exact hacts.elim
    | reply s => exact hacts.elim
    | status s => exact hacts.elim
    | exited s => exact hacts.elim
  obtain ⟨hactive, hwrite, hmount⟩ := hpermit
  obtain ⟨v, hv, hget, hstatic⟩ := h.volume hactive
  refine ⟨ha.allowed_of ?_ hwrite hmount, v, ?_, ha.static.trans hstatic⟩
  · rw [LogicalUnit.static_offset hstatic, LogicalUnit.static_numSectors hstatic]
    exact (hwin v hv).2
  · rw [ha.lun]
    exact hget

/-- What holds at every place of the main loop. -/
structure AccessInv (volumes : List Volume) (secCnt : MmcType → ℕ) (g : Gadget) : Prop where
  units : TableInv volumes secCnt g
  trace : ∀ e ∈ g.ums.w.trace, ∀ a, e = .access a → a.Allowed ∧ a.Targets volumes secCnt

theorem AccessInv.start (hg : Starts volumes secCnt g) : AccessInv volumes secCnt g := by
  refine ⟨.start hg, fun e he ↦ ?_⟩
  obtain ⟨-, w, hw, rfl⟩ := hg
  have htrace : (Gadget.top (.start volumes secCnt w)).ums.w.trace = [] := hw.trace
  rw [htrace] at he
  exact absurd he List.not_mem_nil

theorem AccessInv.step (h : AccessInv volumes secCnt g) (hwin : Windows volumes secCnt)
    (env : Env) : AccessInv volumes secCnt (g.step env) := by
  refine ⟨h.units.step env, record_step h.trace h.units.writeOk (fun _ e he a ha ↦ ?_)
    fun s t e _ he a ha ↦ ?_⟩
  · exact h.units.made hwin (he.access a ha)
  · exact (he.access a ha).allowed.elim

end Gadget

/-- **Access safety.**  In every session, whatever the host asks for and however the operations turn
out, a write goes only to a unit that is mounted and not read-only, a read only to a unit that is
mounted, and both stay inside the window of the unit, which is that of one of the volumes. -/
theorem access_allowed (hwin : Windows volumes secCnt) {g : Gadget}
    (h : Reachable volumes secCnt g) {a : Access} (ha : .access a ∈ g.ums.w.trace) :
    a.Allowed ∧ a.Targets volumes secCnt := by
  have hinv : Gadget.AccessInv volumes secCnt g :=
    h.inv (fun _ hg ↦ .start hg) fun g env hg ↦ hg.step hwin env
  exact hinv.trace _ ha a rfl

/-! ## A session -/

/-- Everything succeeds. -/
def calm : Outcome where
  usb := 0
  done := true
  residual := 0
  more := 0
  early := fun _ ↦ true
  ok := true
  reinit := false
  took := true
  hit := fun _ ↦ true
  bytes := fun _ ↦ 0
  scratch := fun _ ↦ 0
  flag := false

/-- A step in which everything succeeds. -/
def calmly : Env := fun _ ↦ calm

/-- A step in which everything succeeds and the host sends `block`. -/
def hears (block : List UInt8) : Env :=
  fun _ ↦ { calm with bytes := fun x ↦ block.getD (x - usbEpBulkOutBufAddr) 0 }

/-- A command block wrapper. -/
def wrapper (dataSize : ℕ) (flags lun : UInt8) (cdb : List UInt8) : List UInt8 :=
  (List.range 4).map (Store.wordByte usbBulkCbSig) ++ [0, 0, 0, 0] ++
    (List.range 4).map (Store.wordByte dataSize) ++ [flags, lun, UInt8.ofNat cdb.length] ++
    padTo 16 0 cdb

/-- TEST UNIT READY, which is the first to hear of the reset, up to its status. -/
def firstCommand (lun : UInt8) : List Env :=
  [hears (wrapper 0 0 lun [0, 0, 0, 0, 0, 0]), calmly, calmly, calmly]

/-- The world at the start of a session. -/
def firstWorld : World where
  mem := fun _ ↦ 0
  tick := 0
  inQueue := []
  txCountIn := 0
  txCountOut := 0
  txBytesOut := 0
  portSpeed := 3
  sent := []
  partition := 0
  selected := 0
  serial := fun _ ↦ 0
  reply := []
  trace := []
  received := []
  moved := []

/-- The main loop as a session with these volumes begins. -/
def firstGadget (volumes : List Volume) : Gadget :=
  .top (.start volumes (fun _ ↦ 0x1000) firstWorld)

theorem starts_firstGadget (hlen : volumes.length ≤ 16) :
    Starts volumes (fun _ ↦ 0x1000) (firstGadget volumes) :=
  ⟨hlen, firstWorld, ⟨rfl, rfl, rfl, rfl⟩, rfl⟩

/-- A volume of 0x40 sectors on the SD card, read-only. -/
def sdVolume : Volume := ⟨.sd, 0, 0x100, 0x40, 1⟩

/-- Sector 5 of that volume is read. -/
def sdRead : Access where
  lun := 0
  unit := { sdVolume.unit (fun _ ↦ 0x1000) with unitAttentionData := 0 }
  isWrite := false
  sector := 0x105
  count := 1
  buf := usbEpBulkInBufAddr
  part := 0
  part' := 0

theorem access_allowed_read :
    sdRead.Allowed ∧ sdRead.Targets [sdVolume] (fun _ ↦ 0x1000) := by
  have hreach : Reachable [sdVolume] (fun _ ↦ 0x1000) (Machine.run Gadget.step
      (firstGadget [sdVolume]) (firstCommand 0 ++
        [hears (wrapper 512 0x80 0 [0x28, 0, 0, 0, 0, 5, 0, 0, 1, 0]), calmly])) :=
    ⟨_, _, starts_firstGadget (by decide), rfl⟩
  refine access_allowed (fun v hv ↦ ?_) hreach (List.Mem.head _)
  rw [List.mem_singleton] at hv
  subst hv
  decide

end Usb
end SdLoader
