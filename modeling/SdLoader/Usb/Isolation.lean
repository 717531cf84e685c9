import SdLoader.Usb.Access

/-!
# The mass storage gadget: the partitions of the eMMC

Which hardware partition of the eMMC is selected when a unit is accessed.

The partition is switched when another unit becomes the active one, if the one the storage driver
believes in is not the new unit's.  Two things get it out of step.  The result of the switch is not
looked at, and the unit becomes the active one in any case.  And a transfer during which the card is
initialised again goes on in the user area, which is then selected for the commands that follow.

* `Access.InPartition` — a transfer for an eMMC unit runs in the partition of the unit, from its
  start to its end.
* `Gadget.Settled` — a step that meets neither of the two.
* `isolation_of_settled` — in a session of such steps every transfer is in its partition.
-/

set_option autoImplicit false

namespace SdLoader
namespace Usb

variable {volumes : List Volume} {secCnt : MmcType → ℕ}

/-- The partition of the unit is selected when the transfer is begun, and when it ends. -/
def Access.InPartition (a : Access) : Prop :=
  a.unit.type = .emmc →
    a.part = Ums.hwPartition a.unit ∧ a.part' = Ums.hwPartition a.unit

/-- Every volume on the eMMC is one of its user area or its two boot partitions. -/
def EmmcVolumes (volumes : List Volume) : Prop :=
  ∀ v ∈ volumes, v.type = .emmc → v.partition = 1 ∨ v.partition = 2 ∨ v.partition = 3

/-- The partition of the active unit is selected, and the driver knows which one that is. -/
structure Aligned (s : Ums) : Prop where
  sync : s.w.partition = s.w.selected
  unit : s.lunIdx < s.lunCnt → s.lun.type = .emmc → s.w.selected = Ums.hwPartition s.lun

namespace Ums

variable {env : Env} {A : Bool → Prop} {B : Prop} {s s' : Ums}

/-- During an operation the card is not initialised again, unless that selects the partition of the
active unit. -/
def Stays (env : Env) (A : Bool → Prop) (s : Ums) : Prop :=
  (∃ b, A b) → s.lun.type = .emmc → hwPartition s.lun ≠ 0 → ∀ t, (env t).reinit = false

theorem selectable_unit (hal : Aligned s) (hstay : Stays env A s) (hidx : s.lunIdx < s.lunCnt)
    (htype : s.lun.type = .emmc) {p : ℕ} (hp : Selectable env A s p) : p = hwPartition s.lun := by
  rcases hp with rfl | ⟨hA, -, ⟨t, ht⟩, rfl⟩
  · exact hal.unit hidx htype
  · by_contra hne
    have hcalm := hstay hA htype (fun h ↦ hne h.symm) t
    exact absurd (ht.symm.trans hcalm) Bool.noConfusion

theorem hwPartition_static {l l' : LogicalUnit} (h : l.static = l'.static) :
    hwPartition l = hwPartition l' := by
  rw [hwPartition, hwPartition, LogicalUnit.static_partition h]

theorem Does.aligned (h : Does env A B s s') (hal : Aligned s) (hstay : Stays env A s) :
    Aligned s' := by
  refine ⟨h.partition hal.sync, fun hidx htype ↦ ?_⟩
  rw [h.lunIdx, h.lunCnt] at hidx
  rw [LogicalUnit.static_type h.lun_static] at htype
  rw [hwPartition_static h.lun_static]
  exact selectable_unit hal hstay hidx htype h.selected

theorem stays_never : Stays env never s := fun ⟨_, hb⟩ ↦ hb.elim

theorem Made.inPartition {a : Access} (h : Made env A s a) (hal : Aligned s)
    (hstay : Stays env A s) (hidx : s.lunIdx < s.lunCnt) : a.InPartition := by
  intro htype
  rw [LogicalUnit.static_type h.static] at htype
  rw [hwPartition_static h.static]
  exact ⟨selectable_unit hal hstay hidx htype h.part, selectable_unit hal hstay hidx htype h.part'⟩

/-- **A switch that succeeds**: the partition of the new active unit is selected. -/
theorem acceptCbw_aligned (hal : Aligned s) (hok : ∀ t, (env t).ok = true) :
    Aligned (s.acceptCbw env) := by
  rw [acceptCbw]
  by_cases hsame : (s.cbw 13).toNat = s.lunIdx
  · rw [if_pos hsame]
    exact ⟨hal.sync, hal.unit⟩
  rw [if_neg hsame]
  set lun := (s.cbw 13).toNat
  rw [changeLun]
  by_cases hswitch : (s.saveCommand.luns lun).type = .emmc ∧
      hwPartition (s.saveCommand.luns lun) ≠ s.saveCommand.w.partition
  · rw [if_pos hswitch, sdmmcStorageSetMmcPartition]
    simp only [hok, ↓reduceIte, true_or]
    exact ⟨rfl, fun _ _ ↦ rfl⟩
  · rw [if_neg hswitch]
    refine ⟨hal.sync, fun _ htype ↦ ?_⟩
    have hpart : hwPartition (s.luns lun) = s.w.partition :=
      by_contra fun hne ↦ hswitch ⟨htype, hne⟩
    exact hal.sync.symm.trans hpart.symm

end Ums

namespace Gadget

variable {env : Env} {g : Gadget}

/-- **The condition.**  A switch of partitions made in the step succeeds, and while a unit of a boot
partition is accessed the card is not initialised again. -/
def Settled : Gadget → Env → Prop
  | top _, env => ∀ t, (env t).ok = true
  | parse s, env => Ums.Stays env Ums.reads s
  | writing x, env => Ums.Stays env Ums.writes x.s
  | _, _ => True

/-- What holds at every place of the main loop of a settled session. -/
structure PartInv (volumes : List Volume) (secCnt : MmcType → ℕ) (g : Gadget) : Prop where
  units : TableInv volumes secCnt g
  aligned : Aligned g.ums
  trace : ∀ e ∈ g.ums.w.trace, ∀ a, e = .access a →
    a.InPartition ∧ a.Targets volumes secCnt

theorem PartInv.start (hg : Starts volumes secCnt g) : PartInv volumes secCnt g := by
  have hunits : TableInv volumes secCnt g := .start hg
  obtain ⟨hlen, w, hw, rfl⟩ := hg
  refine ⟨hunits, ⟨hw.partition.trans hw.selected.symm, fun hidx ↦ ?_⟩, fun e he ↦ ?_⟩
  · have hfirst : 16 < volumes.length := hidx
    omega
  · have htrace : (Gadget.top (.start volumes secCnt w)).ums.w.trace = [] := hw.trace
    rw [htrace] at he
    exact absurd he List.not_mem_nil

theorem Settled.stays (h : g.Settled env) : Ums.Stays env (Acts env g) g.ums := by
  cases g with
  | parse s =>
    rintro ⟨b, -⟩
    exact h ⟨false, rfl⟩
  | writing x => exact h
  | top s => exact Ums.stays_never
  | reply s => exact Ums.stays_never
  | status s => exact Ums.stays_never
  | exited s => exact Ums.stays_never

/-- A transfer is made while a command is being carried out. -/
theorem active_of_made {a : Access} (h : Ums.Made env (Acts env g) g.ums a) : g.Active := by
  have hacts := h.allowed
  cases g with
  | parse s => exact trivial
  | writing x => exact trivial
  | top s => exact hacts.elim
  | reply s => exact hacts.elim
  | status s => exact hacts.elim
  | exited s => exact hacts.elim

/-- The step lemma. -/
theorem PartInv.step (h : PartInv volumes secCnt g) (hset : g.Settled env) :
    PartInv volumes secCnt (g.step env) := by
  refine ⟨h.units.step env, ?_, record_step h.trace h.units.writeOk (fun _ e he a ha ↦ ?_)
    fun s t e _ he a ha ↦ (he.access a ha).allowed.elim⟩
  · by_cases htop : ∃ s, g = .top s
    · obtain ⟨s, rfl⟩ := htop
      obtain ⟨-, ⟨hdoes, -⟩ | ⟨t, hbefore, hlun, hafter⟩⟩ := top_does env s
      · exact hdoes.aligned h.aligned Ums.stays_never
      · have ht : Aligned t := hbefore.aligned h.aligned Ums.stays_never
        exact hafter.aligned (Ums.acceptCbw_aligned ht hset) Ums.stays_never
    · exact (step_does env (fun s hs ↦ htop ⟨s, hs⟩) h.units.writeOk).1.aligned h.aligned hset.stays
  · have hmade := he.access a ha
    have hactive : g.Active := active_of_made hmade
    obtain ⟨v, -, hget, hstatic⟩ := h.units.volume hactive
    refine ⟨hmade.inPartition h.aligned hset.stays ?_, v, ?_, hmade.static.trans hstatic⟩
    · rw [h.units.lunCnt]
      exact h.units.active hactive
    · rw [hmade.lun]
      exact hget

end Gadget

/-- **Isolation of the partitions**, in every session whose steps are settled: a transfer for an
eMMC unit runs in the hardware partition of that unit. -/
theorem isolation_of_settled (hvol : EmmcVolumes volumes) {g : Gadget}
    (hg : Starts volumes secCnt g) {envs : List Env}
    (hset : Machine.Along Gadget.step Gadget.Settled g envs) {a : Access}
    (ha : .access a ∈ (Machine.run Gadget.step g envs).ums.w.trace) :
    a.unit.type = .emmc → a.part = a.unit.partition - 1 ∧ a.part' = a.unit.partition - 1 := by
  have hinv : Gadget.PartInv volumes secCnt (Machine.run Gadget.step g envs) :=
    Machine.run_inv_along (fun _ _ h hs ↦ h.step hs) (.start hg) hset
  obtain ⟨hpart, v, hget, hstatic⟩ := hinv.trace _ ha a rfl
  intro htype
  have hmmc : v.type = .emmc := (LogicalUnit.static_type hstatic).symm.trans htype
  have hpos : 1 ≤ a.unit.partition := by
    rw [LogicalUnit.static_partition hstatic]
    show 1 ≤ v.partition
    rcases hvol v (List.mem_of_getElem? hget) hmmc with h | h | h <;> omega
  rw [Access.InPartition, Ums.hwPartition, sub32_of_le hpos] at hpart
  exact hpart htype

/-- A volume of 0x40 sectors in BOOT0. -/
def boot0Volume : Volume := ⟨.emmc, 2, 0, 0x40, 0⟩

/-- The session in which sector 5 of its only unit is read, after the first command; `first` is what
happens while that is waited for. -/
def readFive (first : Env) : List Env :=
  [first, calmly, calmly, calmly, hears (wrapper 512 0x80 0 [0x28, 0, 0, 0, 0, 5, 0, 0, 1, 0]),
    calmly]

/-- The first command is received, and the switch of partitions it calls for fails. -/
def badSwitch : Env := fun n ↦
  { hears (wrapper 0 0 0 [0, 0, 0, 0, 0, 0]) n with ok := false, took := false }

/-- Sector 5 of that volume is read, in the partition `part`. -/
def boot0Read (part : ℕ) : Access where
  lun := 0
  unit := { boot0Volume.unit (fun _ ↦ 0x1000) with unitAttentionData := 0 }
  isWrite := false
  sector := 5
  count := 1
  buf := usbEpBulkInBufAddr
  part := part
  part' := part

theorem isolation_of_settled_read : (boot0Read 1).part = (boot0Read 1).unit.partition - 1 ∧
    (boot0Read 1).part' = (boot0Read 1).unit.partition - 1 := by
  have hset : Machine.Along Gadget.step Gadget.Settled (firstGadget [boot0Volume])
      (readFive (hears (wrapper 0 0 0 [0, 0, 0, 0, 0, 0]))) :=
    ⟨fun _ ↦ rfl, fun _ _ _ _ ↦ rfl, trivial, trivial, fun _ ↦ rfl, fun _ _ _ _ ↦ rfl, trivial⟩
  refine isolation_of_settled (fun v hv ↦ ?_) (starts_firstGadget (by decide)) hset
    (List.Mem.head _) rfl
  rw [List.mem_singleton] at hv
  subst hv
  exact fun _ ↦ .inr (.inl rfl)

/-- After a switch that failed, what is read from the volume of BOOT0 comes from the user area. -/
theorem isolation_counterexample : ¬ ∀ (volumes : List Volume) (secCnt : MmcType → ℕ) (g : Gadget),
    EmmcVolumes volumes → Reachable volumes secCnt g → ∀ a, .access a ∈ g.ums.w.trace →
      a.unit.type = .emmc → a.part = a.unit.partition - 1 ∧ a.part' = a.unit.partition - 1 := by
  intro h
  have hvol : EmmcVolumes [boot0Volume] := by
    intro v hv
    rw [List.mem_singleton] at hv
    subst hv
    exact fun _ ↦ .inr (.inl rfl)
  have hreach : Reachable [boot0Volume] (fun _ ↦ 0x1000)
      (Machine.run Gadget.step (firstGadget [boot0Volume]) (readFive badSwitch)) :=
    ⟨_, _, starts_firstGadget (by decide), rfl⟩
  obtain ⟨hpart, -⟩ := h _ _ _ hvol hreach (boot0Read 0) (List.Mem.head _) rfl
  exact absurd hpart (by decide)

end Usb
end SdLoader
