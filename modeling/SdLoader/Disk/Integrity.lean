import SdLoader.Disk.Isolation

/-!
# What a write that reports success has written

Every image, command and configuration sector the program writes is put together at
`SDMMC_UPPER_BUFFER`, and written from there.  That is also where the driver reads the extended CSD
when it initialises the card, which it does in the middle of a write whose commands keep failing.
What it then goes on to write is what has become of the buffer, and where it writes is the user
area.

* `Delivers` — what a caller relies on: if `disk_write` returns `RES_OK`, the sectors hold what the
  buffer held when it was called.  There are two readings of it: the sectors of BOOT0, or those of
  whatever partition the transfer has ended up on;
* `delivers_of_clear` — the second holds if no byte of the buffer can be lost to the extended CSD;
* `diskWrite_relapse` — what five failures in a row, and no other, make of a write that gets as far
  as its first command;
* `delivers_iff` — exactly where the two hold.
-/

set_option autoImplicit false

namespace SdLoader
namespace Disk

open Storage

variable {env : Env} {d : Disks} {drive : Drive} {buf sector count : ℕ}

/-! ## The law -/

/-- The sectors from `sector` on of the partition `p` of `d'` are what was in the memory of `d`. -/
def Delivered (p sector count buf : ℕ) (d d' : Disks) : Prop :=
  ∀ k < blockSize * count, d'.emmc.media p (blockSize * sector + k) = d.emmc.mem (buf + k)

/-- Success means that the sectors of the partition `part` hold the buffer, whichever commands fail;
`part` may depend on the state after the call. -/
def Delivers (part : Disks → ℕ) (drive : Drive) (buf sector count : ℕ) (d : Disks) : Prop :=
  ∀ env, (diskWrite env (.full env) drive buf sector count d).1 = .ok →
    Delivered (part (diskWrite env (.full env) drive buf sector count d).2) sector count buf d
      (diskWrite env (.full env) drive buf sector count d).2

/-- The call gets as far as a transfer command. -/
def Attempted (drive : Drive) (buf count : ℕ) (s : State) : Prop :=
  drive = .boot0 ∧ s.dev.initialized = true ∧ count ≠ 0 ∧ buf ≠ 0 ∧ buf % 8 = 0

/-- No byte of the buffer can be lost to the extended CSD: none is in the scratch sector, or the
card has no such register, or the byte is the one that is there. -/
def Clear (buf count : ℕ) (s : State) : Prop :=
  ∀ k < blockSize * count, ∀ b, extCsdSpill s.card (buf + k) b → b = s.mem (buf + k)

/-- The driver is wrong about what is selected, and BOOT0 holds the buffer as it is. -/
def HeldUnseen (buf sector count : ℕ) (d : Disks) : Prop :=
  d.emmc.dev.partition = emmcBoot0 ∧ d.emmc.selected ≠ emmcBoot0 ∧
    Delivered emmcBoot0 sector count buf d d

/-! ## A switch that succeeds -/

/-- How many commands `ensure_partition` takes, if they succeed. -/
def switchTime (drive : Drive) (d : Disks) : ℕ :=
  match drive.part with
  | none => 0
  | some part => if d.emmc.dev.partition ≠ part then 2 else 0

/-- What `ensure_partition` leaves alone. -/
theorem ensurePartition_keeps (env : Env) (drive : Drive) (d : Disks) :
    (ensurePartition env drive d).2.emmc.mem = d.emmc.mem ∧
      (ensurePartition env drive d).2.emmc.dev.hasSectorAccess = d.emmc.dev.hasSectorAccess := by
  rw [ensurePartition]
  split
  · exact ⟨rfl, rfl⟩
  · split
    · next part _ _ =>
      refine ⟨?_, (setMmcPartition_spec env part d.emmc).2.2.2.1⟩
      change (sdmmcStorageSetMmcPartition env part d.emmc).2.mem = d.emmc.mem
      rw [sdmmcStorageSetMmcPartition]
      cases h0 : (env d.emmc.tick).ok <;> cases h1 : (env (d.emmc.tick + 1)).ok <;>
        simp [command, h1]
    · exact ⟨rfl, rfl⟩

/-- The commands from `t` on and before `t'` succeed. -/
def OkBetween (env : Env) (t t' : ℕ) : Prop := ∀ n, t ≤ n → n < t' → (env n).ok = true

/-- **A switch whose commands succeed.** -/
theorem ensurePartition_of_ok (h : OkBetween env d.emmc.tick (d.emmc.tick + switchTime drive d)) :
    (ensurePartition env drive d).2.emmc.tick = d.emmc.tick + switchTime drive d ∧
      ∀ part, drive.part = some part →
        (ensurePartition env drive d).2.emmc.dev.partition = part ∧
        (ensurePartition env drive d).2.emmc.selected =
          if d.emmc.dev.partition = part then d.emmc.selected else part := by
  rw [OkBetween, switchTime] at h
  rw [switchTime, ensurePartition]
  cases hpart : drive.part with
  | none => exact ⟨rfl, fun _ h ↦ by cases h⟩
  | some part =>
    rw [hpart] at h
    dsimp only at h ⊢
    by_cases heq : d.emmc.dev.partition = part
    · rw [if_neg (not_not_intro heq), if_neg (not_not_intro heq)]
      refine ⟨rfl, fun p hp ↦ ?_⟩
      obtain rfl := Option.some.inj hp
      exact ⟨heq, (if_pos heq).symm⟩
    · rw [if_pos heq] at h
      rw [if_pos heq, if_pos heq]
      have hok : SwitchOk env d.emmc := ⟨h _ (by omega) (by omega), h _ (by omega) (by omega)⟩
      obtain ⟨hpart', hsel⟩ := (setMmcPartition_spec env part d.emmc).2.2.2.2.1 hok
      refine ⟨?_, fun p hp ↦ ?_⟩
      · change (sdmmcStorageSetMmcPartition env part d.emmc).2.tick = d.emmc.tick + 2
        simp [sdmmcStorageSetMmcPartition, command, hok.1, hok.2]
      · obtain rfl := Option.some.inj hp
        exact ⟨hpart', hsel.trans (if_neg heq).symm⟩

/-! ## The driver is right about how the eMMC is addressed -/

theorem ensurePartition_addressed (env : Env) (drive : Drive) (h : Addressed d.emmc) :
    Addressed (ensurePartition env drive d).2.emmc := by
  obtain ⟨-, -, hcard, hinit⟩ := ensurePartition_spec env drive d
  rw [Addressed, hinit, hcard, (ensurePartition_keeps env drive d).2]
  exact h

theorem transfer_addressed (env : Env) (drive : Drive) (isWrite : Bool) (buf sector count : ℕ)
    (h : Addressed d.emmc) :
    Addressed (transfer env (.full env) drive isWrite buf sector count d).2.emmc := by
  rw [transfer]
  split
  · exact h
  · dsimp only [Disks.onEmmc]
    rw [sdmmcStorageTransfer]
    split
    · exact readwrite_addressed (fun first s ↦ emmcReinit_addressed env first) _ _ _ _ h
    · exact h

/-- **Every call of the disk layer leaves the driver right about the addressing.** -/
theorem addressed_kept (env : Env) (drive : Drive) (buf sector count : ℕ) (h : Addressed d.emmc) :
    Addressed (diskInitialize env drive d).2.emmc ∧
      Addressed (diskRead env (.full env) drive buf sector count d).2.emmc ∧
      Addressed (diskWrite env (.full env) drive buf sector count d).2.emmc := by
  have hensure := ensurePartition_addressed env drive h
  refine ⟨?_, transfer_addressed env drive false buf sector count hensure, ?_⟩
  · rw [diskInitialize]
    split
    · exact h
    · next part _ =>
      obtain ⟨-, hcard, hinit, haccess, -⟩ :=
        setMmcPartition_spec env part (emmcInitialize env false d.emmc).2
      dsimp only [Disks.onEmmc]
      rw [Addressed, hinit, haccess, hcard]
      exact emmcInitialize_addressed env false d.emmc
  · rw [diskWrite]
    split
    · exact transfer_addressed env drive true buf sector count hensure
    · exact hensure

/-! ## Where the law holds -/

/-- A write that is refused, or of nothing, or to nowhere, delivers what it is asked to. -/
theorem delivers_of_not_attempted (h : ¬ Attempted drive buf count d.emmc) (part : Disks → ℕ) :
    Delivers part drive buf sector count d := by
  intro env hres
  have hinit := (ensurePartition_spec env drive d).2.2.2
  rw [diskWrite] at hres
  by_cases hdrive : drive = .boot0
  swap
  · rw [if_neg hdrive] at hres
    cases hres
  by_cases hcount : count = 0
  · intro k hk
    rw [hcount] at hk
    exact absurd hk (Nat.not_lt_zero k)
  rw [if_pos hdrive, transfer, if_neg (by rw [hdrive]; decide)] at hres
  have htransfer : (sdmmcStorageTransfer env (Recovery.full env).emmc
      (drive.actualSector sector) count buf true (ensurePartition env drive d).2.emmc).1 =
        false := by
    rw [sdmmcStorageTransfer]
    split
    · next hbuf =>
      have hoff : d.emmc.dev.initialized = false :=
        Bool.eq_false_iff.mpr fun hon ↦ h ⟨hdrive, hon, hcount, hbuf⟩
      rw [sdmmcStorageReadwrite, hinit, hoff]
      rfl
    · rfl
  dsimp only [Disks.onEmmc] at hres
  rw [htransfer] at hres
  cases hres

/-- A write that gets as far as its first command. -/
theorem diskWrite_boot0 (env : Env) (d : Disks) (count : ℕ) (hbuf : buf ≠ 0 ∧ buf % 8 = 0)
    (hsector : sector < 2 ^ 32) :
    (diskWrite env (.full env) .boot0 buf sector count d).1 =
        dresult (sdmmcStorageReadwrite env (emmcReinit env) sector count buf true
          (ensurePartition env .boot0 d).2.emmc).1 ∧
      (diskWrite env (.full env) .boot0 buf sector count d).2.emmc =
        (sdmmcStorageReadwrite env (emmcReinit env) sector count buf true
          (ensurePartition env .boot0 d).2.emmc).2 := by
  have hactual : Drive.actualSector .boot0 sector = sector := Nat.mod_eq_of_lt hsector
  have hrec : (Recovery.full env).emmc = emmcReinit env := rfl
  rw [diskWrite, if_pos rfl, transfer, if_neg (by decide), hactual, hrec, Disks.onEmmc,
    sdmmcStorageTransfer, if_pos hbuf]
  exact ⟨rfl, rfl⟩

theorem dresult_eq_ok {res : Bool} : dresult res = .ok ↔ res = true := by
  cases res <;> simp [dresult]

/-- The addressing of the card, and the sectors that can be addressed, after the switch. -/
theorem switched_reach (env : Env)
    (haccess : Addressed d.emmc)
    (hreach : sector + count ≤ reach d.emmc.card) :
    Addressed (ensurePartition env .boot0 d).2.emmc ∧
      sector + count ≤ reach (ensurePartition env .boot0 d).2.emmc.card := by
  rw [(ensurePartition_spec env .boot0 d).2.2.1]
  exact ⟨ensurePartition_addressed env .boot0 haccess, hreach⟩

theorem lt_of_attempted (hatt : Attempted drive buf count d.emmc)
    (hreach : sector + count ≤ reach d.emmc.card) : sector < 2 ^ 32 := by
  have hle := Nat.le_trans hreach (reach_le d.emmc.card)
  have hcount := Nat.pos_of_ne_zero hatt.2.2.1
  omega

section
variable (haccess : Addressed d.emmc)
variable (hreach : sector + count ≤ reach d.emmc.card)
include haccess hreach

/-- What the transfer of a write ends with. -/
theorem diskWrite_ended (env : Env) (buf : ℕ) :
    Ended (fun p ↦ p = (ensurePartition env .boot0 d).2.emmc.selected ∨ p = 0) extCsdSpill true
      sector count buf (ensurePartition env .boot0 d).2.emmc
      (sdmmcStorageReadwrite env (emmcReinit env) sector count buf true
        (ensurePartition env .boot0 d).2.emmc) := by
  obtain ⟨haccess', hreach'⟩ := switched_reach env haccess hreach
  exact readwrite_ended env buf true (emmcReinit_restores env (.inr rfl)) haccess' (.inl rfl)
    hreach'

/-- **If no byte of the buffer can be lost, the transfer delivers it** to wherever it ends up. -/
theorem delivers_of_clear (hclear : Clear buf count d.emmc) :
    Delivers (fun d' ↦ d'.emmc.selected) drive buf sector count d := by
  by_cases hatt : Attempted drive buf count d.emmc
  swap
  · exact delivers_of_not_attempted hatt _
  intro env hres k hk
  have hsector := lt_of_attempted hatt hreach
  have hended := diskWrite_ended haccess hreach env buf
  obtain ⟨rfl, -, -, hbuf⟩ := hatt
  obtain ⟨hfst, hsnd⟩ := diskWrite_boot0 env d count hbuf hsector
  rw [hfst, dresult_eq_ok] at hres
  dsimp only
  rw [hsnd, ← hended.copied hres k hk]
  have hmem := (ensurePartition_keeps env .boot0 d).1
  have hcard := (ensurePartition_spec env .boot0 d).2.2.1
  rcases (hended.kept hres).mem (buf + k) (fun h ↦ by cases h) with heq | hspill
  · rw [heq, hmem]
  · exact hclear k hk _ (hcard ▸ hspill)

/-- A partition that is neither selected nor the user area is not written. -/
theorem diskWrite_unseen (env : Env) (hatt : Attempted drive buf count d.emmc)
    (hrecord : d.emmc.dev.partition = emmcBoot0) (hsel : d.emmc.selected ≠ emmcBoot0) (y : ℕ) :
    (diskWrite env (.full env) drive buf sector count d).2.emmc.media emmcBoot0 y =
      d.emmc.media emmcBoot0 y := by
  have hsector := lt_of_attempted hatt hreach
  have hended := diskWrite_ended haccess hreach env buf
  obtain ⟨rfl, -, -, hbuf⟩ := hatt
  rw [(diskWrite_boot0 env d count hbuf hsector).2]
  have hnone : (ensurePartition env .boot0 d).2 = d := by
    change (if d.emmc.dev.partition ≠ emmcBoot0 then _ else (true, d)).2 = d
    rw [if_neg (not_not_intro hrecord)]
  rw [hnone] at hended ⊢
  refine hended.media emmcBoot0 y fun _ hp ↦ ?_
  rcases hp with hp | hp
  · exact absurd hp.symm hsel
  · exact absurd hp (by decide)

end

/-! ## A write that is taken up again -/

/-- A device on which the five commands from `t` on fail, and no other.  What a failed transfer does
to its cells is up to `hit` and `junk`. -/
def relapse (t : ℕ) (hit : ℕ → Bool) (junk : ℕ → UInt8) : Env :=
  fun n ↦ ⟨decide (n < t ∨ t + 5 ≤ n), false, hit, junk⟩

section
variable {t : ℕ} {hit : ℕ → Bool} {junk : ℕ → UInt8}

theorem relapse_between (hit : ℕ → Bool) (junk : ℕ → UInt8) {t₀ : ℕ} :
    OkBetween (relapse t hit junk) t₀ t :=
  fun _ _ h ↦ decide_eq_true (.inl h)

theorem relapse_during {i : ℕ} (h : i < 5) : (relapse t hit junk (t + i)).ok = false :=
  decide_eq_false (by omega)

theorem relapse_after : OkFrom (relapse t hit junk) (t + 5) := fun _ h ↦ decide_eq_true (.inr h)

end

/-- The state in which the five failures leave the card. -/
def relapsed (env : Env) (buf sector count : ℕ) (d : Disks) : State :=
  attempts env sector count buf true (ensurePartition env .boot0 d).2.emmc 5

section
variable {hit : ℕ → Bool} {junk : ℕ → UInt8}

/-- **A write whose first five commands fail, and no other**: it succeeds, in the user area, with
what the initialisation has made of the buffer. -/
theorem diskWrite_relapse (hatt : Attempted .boot0 buf count d.emmc)
    (haccess : Addressed d.emmc)
    (hreach : sector + count ≤ reach d.emmc.card) (henv : env =
      relapse (d.emmc.tick + switchTime .boot0 d) hit junk) :
    (diskWrite env (.full env) .boot0 buf sector count d).1 = .ok ∧
      (emmcReinit env true (relapsed env buf sector count d)).1 = true ∧
      Ended (· = 0) (fun _ _ _ ↦ False) true sector count buf
        (emmcReinit env true (relapsed env buf sector count d)).2
        (true, (diskWrite env (.full env) .boot0 buf sector count d).2.emmc) := by
  obtain ⟨htick, -⟩ := ensurePartition_of_ok (henv ▸ relapse_between _ _)
  obtain ⟨-, hreach'⟩ := switched_reach env haccess hreach
  obtain ⟨-, -, -, hinit⟩ := ensurePartition_spec env .boot0 d
  have hok : OkFrom env (relapsed env buf sector count d).tick := by
    rw [relapsed, attempts_tick, htick]
    exact henv ▸ relapse_after
  have hreinit : (emmcReinit env true (relapsed env buf sector count d)).1 = true :=
    emmcInitialize_of_ok true hok
  obtain ⟨s', hrun, hended⟩ := readwrite_restarts (emmcReinit_restores env (P := (· = 0)) rfl)
    (hinit.trans hatt.2.1) hatt.2.2.1 (htick ▸ henv ▸ fun i hi ↦ relapse_during hi)
    (htick ▸ henv ▸ relapse_after) hreinit hreach'
  obtain ⟨hfst, hsnd⟩ := diskWrite_boot0 env d count hatt.2.2.2
    (lt_of_attempted hatt hreach)
  rw [hfst, hsnd, hrun]
  exact ⟨rfl, hreinit, hended⟩

/-- What the failures have left in the card and in memory. -/
theorem relapsed_keeps (env : Env) (buf sector count : ℕ) (d : Disks) :
    (relapsed env buf sector count d).card = d.emmc.card ∧
      (∀ a, (relapsed env buf sector count d).mem a = d.emmc.mem a) := by
  obtain ⟨-, hcard, -, hmem, -⟩ :=
    attempts_keeps env sector count buf true (ensurePartition env .boot0 d).2.emmc 5
  refine ⟨hcard.trans (ensurePartition_spec env .boot0 d).2.2.1, fun a ↦ ?_⟩
  exact (hmem a (fun h ↦ by cases h)).trans (congrFun (ensurePartition_keeps env .boot0 d).1 a)

/-- The last failure leaves in the first cell of the transfer what it is told to. -/
theorem relapsed_media (buf : ℕ) {y : ℕ} (hcount : count ≠ 0)
    (hinit : d.emmc.dev.initialized = true)
    (haccess : Addressed d.emmc)
    (hreach : sector + count ≤ reach d.emmc.card) (hy : y = blockSize * sector)
    (hhit : hit y = true) (henv : env = relapse (d.emmc.tick + switchTime .boot0 d) hit junk) :
    (relapsed env buf sector count d).media (ensurePartition env .boot0 d).2.emmc.selected y =
      junk y := by
  obtain ⟨htick, -⟩ := ensurePartition_of_ok (henv ▸ relapse_between _ _)
  obtain ⟨haccess', hreach'⟩ := switched_reach env haccess hreach
  obtain ⟨-, -, -, hinit'⟩ := ensurePartition_spec env .boot0 d
  obtain ⟨hdev, hcard, hsel, -⟩ :=
    attempts_keeps env sector count buf true (ensurePartition env .boot0 d).2.emmc 4
  have hfour : (attempts env sector count buf true (ensurePartition env .boot0 d).2.emmc 4).tick =
      d.emmc.tick + switchTime .boot0 d + 4 := by
    rw [attempts_tick, htick]
  rw [relapsed, attempts]
  generalize attempts env sector count buf true (ensurePartition env .boot0 d).2.emmc 4 = t at *
  have hblock : cardBlock t sector = sector := by
    refine cardBlock_of_lt ?_ ?_
    · rw [hdev, hcard]
      exact haccess' (hinit'.trans hinit)
    · rw [hcard]
      omega
  have hout : env t.tick = ⟨false, false, hit, junk⟩ := by
    rw [henv, hfour, relapse]
    simp
  have hfail : (env t.tick).ok = false := by rw [hout]
  rw [← hsel, readwriteEx_smeared buf hfail (by omega) (hblock.symm ▸ hy)
    (by rw [hout]; exact hhit), hout]

end

/-! ## Exactly where the law holds -/

theorem add_one_ne (b : UInt8) : b + 1 ≠ b := by
  intro h
  have h' := congrArg UInt8.toNat h
  rw [UInt8.toNat_add] at h'
  have := b.toNat_lt
  simp only [UInt8.reduceToNat] at h'
  omega

/-- **Where success means what it says.**  The sectors of BOOT0 hold the buffer after every success
if and only if no transfer command is given at all, or BOOT0 holds the buffer already and is not
where the transfer goes.  The sectors of the partition the transfer ends up on do if and only if,
besides, no byte of the buffer can be lost to the extended CSD. -/
theorem delivers_iff
    (haccess : Addressed d.emmc)
    (drive : Drive) (buf : ℕ) (hreach : sector + count ≤ reach d.emmc.card) :
    (Delivers (fun _ ↦ emmcBoot0) drive buf sector count d ↔
        ¬ Attempted drive buf count d.emmc ∨ HeldUnseen buf sector count d) ∧
      (Delivers (fun d' ↦ d'.emmc.selected) drive buf sector count d ↔
        ¬ Attempted drive buf count d.emmc ∨ Clear buf count d.emmc) := by
  constructor
  · constructor
    · intro h
      by_contra hcon
      rw [not_or, not_not] at hcon
      obtain ⟨hatt, hheld⟩ := hcon
      obtain rfl : drive = .boot0 := hatt.1
      have hpos := Nat.pos_of_ne_zero hatt.2.2.1
      obtain ⟨env, henv⟩ : ∃ env, env = relapse (d.emmc.tick + switchTime .boot0 d) (fun _ ↦ true)
        fun _ ↦ d.emmc.mem buf + 1 := ⟨_, rfl⟩
      obtain ⟨hok, hre, hended⟩ := diskWrite_relapse hatt haccess hreach henv
      have hdelivered := h env hok
      by_cases hunseen : d.emmc.dev.partition = emmcBoot0 ∧ d.emmc.selected ≠ emmcBoot0
      · refine hheld ⟨hunseen.1, hunseen.2, fun k hk ↦ ?_⟩
        rw [← diskWrite_unseen haccess hreach env hatt hunseen.1 hunseen.2]
        exact hdelivered k hk
      · -- The last failure has left something else in BOOT0, and nothing is written there after it.
        have hsel : (ensurePartition env .boot0 d).2.emmc.selected = emmcBoot0 := by
          rw [((ensurePartition_of_ok (henv ▸ relapse_between _ _)).2 emmcBoot0 rfl).2]
          split
          · next hrecord => exact not_not.mp fun hne ↦ hunseen ⟨hrecord, hne⟩
          · rfl
        have hjunk := relapsed_media buf hatt.2.2.1 hatt.2.1 haccess hreach rfl rfl henv
        have hkept := hended.media emmcBoot0 (blockSize * sector) fun _ hp ↦ absurd hp (by decide)
        have hidle := (emmcReinit_idle env true (relapsed env buf sector count d)).media
        have hfirst := hdelivered 0 (by rw [blockSize_eq]; omega)
        rw [hsel] at hjunk
        rw [Nat.add_zero, Nat.add_zero, hkept, hidle, hjunk] at hfirst
        exact add_one_ne _ hfirst
    · rintro (hnone | ⟨hrecord, hsel, hheld⟩)
      · exact delivers_of_not_attempted hnone _
      · by_cases hatt : Attempted drive buf count d.emmc
        · intro env _ k hk
          rw [diskWrite_unseen haccess hreach env hatt hrecord hsel]
          exact hheld k hk
        · exact delivers_of_not_attempted hatt _
  · constructor
    · intro h
      by_contra hcon
      rw [not_or, not_not] at hcon
      obtain ⟨hatt, hlost⟩ := hcon
      obtain rfl : drive = .boot0 := hatt.1
      obtain ⟨env, henv⟩ : ∃ env, env = relapse (d.emmc.tick + switchTime .boot0 d) (fun _ ↦ false)
        fun _ ↦ 0 := ⟨_, rfl⟩
      obtain ⟨hok, hre, hended⟩ := diskWrite_relapse hatt haccess hreach henv
      refine hlost fun k hk b hspill ↦ ?_
      obtain ⟨hvsn, j, hj, haddr, rfl⟩ := hspill
      -- What is written is what the initialisation has left in memory.
      have hcopied := hended.copied rfl k hk
      have hmem := ((hended.kept rfl).mem (buf + k) (fun h ↦ by cases h)).resolve_right id
      have hcard := (emmcReinit_initialised env true (relapsed env buf sector count d)).1.card.trans
        (relapsed_keeps env buf sector count d).1
      have hcsd := emmcReinit_hasExtCsd hre (hcard.symm ▸ hvsn) j hj
      have hdelivered := h env hok k hk
      rw [← haddr, hcard] at hcsd
      exact hcsd.symm.trans (hmem.symm.trans (hcopied.trans hdelivered))
    · rintro (hnone | hclear)
      · exact delivers_of_not_attempted hnone _
      · exact delivers_of_clear haccess hreach hclear

theorem delivers_iff_started :
    (Delivers (fun _ ↦ emmcBoot0) .boot0 sdmmcUpperBuffer 1 1 started ↔
        ¬ Attempted .boot0 sdmmcUpperBuffer 1 started.emmc ∨
          HeldUnseen sdmmcUpperBuffer 1 1 started) ∧
      (Delivers (fun d' ↦ d'.emmc.selected) .boot0 sdmmcUpperBuffer 1 1 started ↔
        ¬ Attempted .boot0 sdmmcUpperBuffer 1 started.emmc ∨
          Clear sdmmcUpperBuffer 1 started.emmc) :=
  delivers_iff (fun _ ↦ rfl) .boot0 sdmmcUpperBuffer (by decide)

/-- A command sector of `0xAA` written on a device whose first five transfer commands fail.  The
call succeeds: BOOT0 is as it was, and the user area has a sector of the extended CSD. -/
theorem delivers_counterexample :
    ¬ Delivers (fun _ ↦ emmcBoot0) .boot0 sdmmcUpperBuffer 1 1 started ∧
      ¬ Delivers (fun d' ↦ d'.emmc.selected) .boot0 sdmmcUpperBuffer 1 1 started := by
  obtain ⟨env, henv⟩ : ∃ env, env = relapse 2 (fun _ ↦ false) fun _ ↦ 0 := ⟨_, rfl⟩
  have hok : (diskWrite env (.full env) .boot0 sdmmcUpperBuffer 1 1 started).1 = .ok := by
    rw [henv]
    decide +kernel
  refine ⟨fun h ↦ absurd (h env hok 0 (by decide)) ?_,
    fun h ↦ absurd (h env hok 0 (by decide)) ?_⟩ <;>
    rw [henv] <;> decide +kernel

end Disk
end SdLoader
