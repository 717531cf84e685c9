import SdLoader.Storage.Partition
import SdLoader.Storage.Sd

/-!
# A transfer that recovers

A transfer that has failed five times initialises its card and starts over.  When it succeeds in the
end, the sectors and the memory it was given are the same; but the sectors are those of the
partition selected then, and memory is what it is then, which is not what it was if the
initialisation has read a register of the card over it.

The rules here are for either card, and for any part of the code that takes the place of the
re-initialisation:

* `Restores` — what the transfer loop relies on: a card fresh from its initialisation, and memory as
  it was but for what `spill` allows;
* `readwrite_ended` — what a transfer ends with: it has kept to its sectors on the partitions it may
  have been on, and on success the sectors are the memory;
* `readwrite_restarts` — what it ends with when five commands fail and no other does;
* `emmcReinit_restores`, `sdReinit_restores` — the two cards: what spills into memory is the
  extended CSD of an eMMC of version 4 or later, and anything at all from an SD card.
-/

set_option autoImplicit false

namespace SdLoader
namespace Storage

variable {env : Env} {s s₀ : State}

/-! ## Addresses -/

/-- The number of sectors the driver can address on a card. -/
def reach (card : Card) : ℕ := if card.ccs then 2 ^ 32 else 2 ^ 23

theorem reach_le (card : Card) : reach card ≤ 2 ^ 32 := by
  rw [reach]
  split <;> decide

/-- Where the driver can address the card, it addresses the sector it means. -/
theorem cardBlock_of_lt {sector : ℕ} (haccess : s.dev.hasSectorAccess = s.card.ccs)
    (h : sector < reach s.card) : cardBlock s sector = sector := by
  rw [cardBlock, haccess]
  rw [reach] at h
  cases hccs : s.card.ccs with
  | true => rfl
  | false =>
    have hlt : sector < 2 ^ 23 := by simpa only [hccs, Bool.false_eq_true, ↓reduceIte] using h
    simp only [Bool.false_eq_true, ↓reduceIte]
    omega

/-- A card the driver has initialised is addressed as it wants to be. -/
def Addressed (s : State) : Prop := s.dev.initialized = true → s.dev.hasSectorAccess = s.card.ccs

/-! ## One command -/

section
variable {sector num buf : ℕ} {isWrite : Bool}

/-- The sectors from `sector` on of the partition selected are what is in memory at `buf`. -/
def Copied (s : State) (sector num buf : ℕ) : Prop :=
  ∀ k < blockSize * num, s.mem (buf + k) = s.media s.selected (blockSize * sector + k)

/-- What one command leaves alone, whether it succeeds or not. -/
theorem readwriteEx_keeps (env : Env) (sector num buf : ℕ) (isWrite : Bool) (s : State) :
    (readwriteEx env sector num buf isWrite s).2.2.dev = s.dev ∧
      (readwriteEx env sector num buf isWrite s).2.2.card = s.card ∧
      (∀ a, (isWrite = false → a < buf ∨ buf + blockSize * min num 0xFFFF ≤ a) →
        (readwriteEx env sector num buf isWrite s).2.2.mem a = s.mem a) ∧
      ∀ p y, (isWrite = true → p = s.selected → y < blockSize * cardBlock s sector ∨
        blockSize * cardBlock s sector + blockSize * min num 0xFFFF ≤ y) →
        (readwriteEx env sector num buf isWrite s).2.2.media p y = s.media p y := by
  rw [readwriteEx]
  cases isWrite with
  | false =>
    cases (env s.tick).ok with
    | true =>
      refine ⟨rfl, rfl, fun a hout ↦ ?_, fun _ _ _ ↦ rfl⟩
      simp only [↓reduceIte, moveData, Bool.false_eq_true]
      exact Store.blit_of_not_mem (hout rfl)
    | false =>
      refine ⟨rfl, rfl, fun a hout ↦ ?_, fun _ _ _ ↦ rfl⟩
      simp only [↓reduceIte, smearData, Bool.false_eq_true]
      exact Store.smear_of_not_mem (hout rfl)
  | true =>
    cases (env s.tick).ok with
    | true =>
      refine ⟨rfl, rfl, fun _ _ ↦ rfl, fun p y hout ↦ ?_⟩
      simp only [↓reduceIte, moveData]
      split
      · next hp => exact Store.blit_of_not_mem (hout rfl hp)
      · rfl
    | false =>
      refine ⟨rfl, rfl, fun _ _ ↦ rfl, fun p y hout ↦ ?_⟩
      simp only [Bool.false_eq_true, ↓reduceIte, smearData]
      split
      · next hp => exact Store.smear_of_not_mem (hout rfl hp)
      · rfl

theorem readwriteEx_mode (env : Env) (sector num buf : ℕ) (isWrite : Bool) (s : State) :
    (readwriteEx env sector num buf isWrite s).2.2.mode = s.mode := by
  rw [readwriteEx]
  cases isWrite <;> cases (env s.tick).ok <;> rfl

/-- A command that succeeds has copied its sectors, in one direction or the other. -/
theorem readwriteEx_copied (sector num buf : ℕ) (isWrite : Bool) (h : (env s.tick).ok = true) :
    Copied (readwriteEx env sector num buf isWrite s).2.2 (cardBlock s sector) (min num 0xFFFF)
      buf := by
  intro k hk
  rw [readwriteEx]
  cases isWrite with
  | false =>
    simp only [h, ↓reduceIte, moveData, Bool.false_eq_true]
    exact Store.blit_add hk
  | true =>
    simp only [h, ↓reduceIte, moveData]
    symm
    exact Store.blit_add hk

/-- A write that fails may have changed the first cell of its sectors. -/
theorem readwriteEx_smeared (buf : ℕ) (h : (env s.tick).ok = false) (hnum : num ≠ 0) {y : ℕ}
    (hy : y = blockSize * cardBlock s sector) (hhit : (env s.tick).hit y = true) :
    (readwriteEx env sector num buf true s).2.2.media s.selected y = (env s.tick).junk y := by
  rw [readwriteEx]
  simp only [h, Bool.false_eq_true, ↓reduceIte, smearData]
  refine Store.smear_of_hit (Nat.le_of_eq hy.symm) ?_ hhit
  rw [hy, blockSize_eq]
  omega

/-! ## The loop -/

/-- What a re-initialisation may have left at an address of memory. -/
abbrev Spill := Card → ℕ → UInt8 → Prop

/-- What the transfer loop relies on in a re-initialisation, if `P` holds of the partitions the
transfer may be on. -/
structure Restores (P : ℕ → Prop) (spill : Spill) (reinit : Bool → State → Bool × State) :
    Prop where
  /-- It is idle. -/
  idle : ∀ first s, Idle s (reinit first s).2
  /-- If it succeeds, the card is fresh. -/
  fresh : ∀ {first s}, (reinit first s).1 = true → Fresh (reinit first s).2
  /-- The transfer may go on in the user area. -/
  part : ∀ {first s}, (reinit first s).1 = true → P 0
  /-- Memory is as it was, or as the card has left it. -/
  mem : ∀ {first s}, (reinit first s).1 = true → ∀ a,
    (reinit first s).2.mem a = s.mem a ∨ spill s.card a ((reinit first s).2.mem a)

/-- The media have changed only in the sectors a write was given, on the partitions it may have been
on. -/
def Confined (P : ℕ → Prop) (isWrite : Bool) (sector num : ℕ) (s₀ s : State) : Prop :=
  ∀ p y, (isWrite = true → P p →
    y < blockSize * sector ∨ blockSize * (sector + num) ≤ y) → s.media p y = s₀.media p y

/-- What a transfer that goes well keeps: `s₀` is where it started. -/
structure Kept (P : ℕ → Prop) (spill : Spill) (isWrite : Bool) (sector num buf : ℕ)
    (s₀ s : State) : Prop where
  /-- The card. -/
  card : s.card = s₀.card
  /-- It is initialised. -/
  initialized : s.dev.initialized = true
  /-- It is addressed as it wants to be. -/
  access : s.dev.hasSectorAccess = s.card.ccs
  /-- The partition is one of those allowed. -/
  part : P s.selected
  /-- Memory, but for the buffer of a read. -/
  mem : ∀ a, (isWrite = false → a < buf ∨ buf + blockSize * num ≤ a) →
    s.mem a = s₀.mem a ∨ spill s₀.card a (s.mem a)
  /-- The media. -/
  media : Confined P isWrite sector num s₀ s
  /-- Time has not run backwards. -/
  tick : s₀.tick ≤ s.tick

/-- The label `reinit_try`. -/
structure Carried (P : ℕ → Prop) (spill : Spill) (isWrite : Bool) (sector num buf : ℕ)
    (s₀ : State) (x : Xfer) : Prop where
  kept : Kept P spill isWrite sector num buf s₀ x.s
  /-- The next sector and the sectors left. -/
  off : x.sctOff + x.sctTotal = sector + num
  /-- There is something left, but no more than there was. -/
  left : 0 < x.sctTotal ∧ x.sctTotal ≤ num
  /-- The place of the next sector in memory. -/
  bbuf : x.bbuf = buf + blockSize * (num - x.sctTotal)
  /-- The sectors before it. -/
  copied : Copied x.s sector (num - x.sctTotal) buf

/-- What a transfer ends with. -/
structure Ended (P : ℕ → Prop) (spill : Spill) (isWrite : Bool) (sector num buf : ℕ)
    (s₀ : State) (r : Bool × State) : Prop where
  media : Confined P isWrite sector num s₀ r.2
  kept : r.1 = true → Kept P spill isWrite sector num buf s₀ r.2
  copied : r.1 = true → Copied r.2 sector num buf

variable {P : ℕ → Prop} {spill : Spill} {reinit : Bool → State → Bool × State} {x : Xfer}

/-- The block of the next command is its sector. -/
theorem Carried.block (h : Carried P spill isWrite sector num buf s₀ x)
    (hreach : sector + num ≤ reach s₀.card) : cardBlock x.s x.sctOff = x.sctOff := by
  have hoff := h.off
  have hleft := h.left
  refine cardBlock_of_lt h.kept.access ?_
  rw [h.kept.card]
  omega

/-- A command keeps what there is to keep. -/
theorem Carried.next (env : Env) (h : Carried P spill isWrite sector num buf s₀ x)
    (hreach : sector + num ≤ reach s₀.card) :
    Kept P spill isWrite sector num buf s₀
      (readwriteEx env x.sctOff (min x.sctTotal 0xFFFF) x.bbuf isWrite x.s).2.2 := by
  obtain ⟨hdev, hcard, hmem, hmedia⟩ :=
    readwriteEx_keeps env x.sctOff (min x.sctTotal 0xFFFF) x.bbuf isWrite x.s
  obtain ⟨-, -, hsel, -, htick⟩ :=
    readwriteEx_spec env x.sctOff (min x.sctTotal 0xFFFF) x.bbuf isWrite x.s
  have hoff := h.off
  have hleft := h.left
  have hbuf := h.bbuf
  have hdone : blockSize * (num - x.sctTotal) + blockSize * min (min x.sctTotal 0xFFFF) 0xFFFF ≤
      blockSize * num := by
    rw [← Nat.mul_add]
    exact Nat.mul_le_mul_left _ (by omega)
  rw [h.block hreach] at hmedia
  refine ⟨hcard.trans h.kept.card, hdev.symm ▸ h.kept.initialized,
    by rw [hdev, hcard]; exact h.kept.access, hsel ▸ h.kept.part,
    fun a hout ↦ ?_, fun p y hout ↦ ?_, htick ▸ Nat.le_succ_of_le h.kept.tick⟩
  · rw [hmem a fun hr ↦ (hout hr).imp (fun hlt ↦ by omega) fun hge ↦ by omega]
    exact h.kept.mem a hout
  · refine (hmedia p y fun hw hp ↦ ?_).trans (h.kept.media p y hout)
    have hstart : blockSize * sector ≤ blockSize * x.sctOff := Nat.mul_le_mul_left _ (by omega)
    have hend : blockSize * x.sctOff + blockSize * min (min x.sctTotal 0xFFFF) 0xFFFF ≤
        blockSize * (sector + num) := by
      rw [← Nat.mul_add]
      exact Nat.mul_le_mul_left _ (by omega)
    exact (hout hw (hp ▸ h.kept.part)).imp (fun hlt ↦ by omega) fun hge ↦ by omega

/-- The sectors copied so far stay copied. -/
theorem Carried.copied_next (env : Env) (h : Carried P spill isWrite sector num buf s₀ x)
    (hreach : sector + num ≤ reach s₀.card) :
    Copied (readwriteEx env x.sctOff (min x.sctTotal 0xFFFF) x.bbuf isWrite x.s).2.2 sector
      (num - x.sctTotal) buf := by
  obtain ⟨-, -, hmem, hmedia⟩ :=
    readwriteEx_keeps env x.sctOff (min x.sctTotal 0xFFFF) x.bbuf isWrite x.s
  have hsel := (readwriteEx_spec env x.sctOff (min x.sctTotal 0xFFFF) x.bbuf isWrite x.s).2.2.1
  have hoff : x.sctOff = sector + (num - x.sctTotal) := by
    have := h.off
    have := h.left
    omega
  have hbuf := h.bbuf
  rw [h.block hreach, hoff] at hmedia
  intro k hk
  rw [hsel, hmem _ fun _ ↦ .inl (by omega), hoff,
    hmedia _ _ fun _ _ ↦ .inl (by rw [Nat.mul_add]; omega)]
  exact h.copied k hk

/-- A command that succeeds has copied the next sectors. -/
theorem Carried.copied_more (env : Env) (h : Carried P spill isWrite sector num buf s₀ x)
    (hreach : sector + num ≤ reach s₀.card) (hok : (env x.s.tick).ok = true) :
    Copied (readwriteEx env x.sctOff (min x.sctTotal 0xFFFF) x.bbuf isWrite x.s).2.2 sector
      (num - x.sctTotal + min x.sctTotal 0xFFFF) buf := by
  have hold := h.copied_next env hreach
  have hnew := readwriteEx_copied x.sctOff (min x.sctTotal 0xFFFF) x.bbuf isWrite hok
  have hoff : x.sctOff = sector + (num - x.sctTotal) := by
    have := h.off
    have := h.left
    omega
  rw [h.block hreach, Nat.min_assoc, Nat.min_self] at hnew
  intro k hk
  by_cases hlt : k < blockSize * (num - x.sctTotal)
  · exact hold k hlt
  · obtain ⟨j, rfl⟩ := Nat.exists_eq_add_of_le (Nat.le_of_not_lt hlt)
    rw [Nat.mul_add] at hk
    have hmem : buf + (blockSize * (num - x.sctTotal) + j) = x.bbuf + j := by
      rw [h.bbuf, Nat.add_assoc]
    have hmedia : blockSize * sector + (blockSize * (num - x.sctTotal) + j) =
        blockSize * x.sctOff + j := by
      rw [hoff, Nat.mul_add, Nat.add_assoc]
    rw [hmem, hmedia]
    exact hnew j (by omega)

/-- **One pass of the transfer loop.** -/
theorem Carried.pass (env : Env) (hre : Restores P spill reinit)
    (hreach : sector + num ≤ reach s₀.card) (h : Carried P spill isWrite sector num buf s₀ x) :
    (readwritePass env reinit sector num buf isWrite x).All
      (Carried P spill isWrite sector num buf s₀) (Ended P spill isWrite sector num buf s₀) := by
  have hnext := h.next env hreach
  have hold := h.copied_next env hreach
  have hmore := fun hok ↦ h.copied_more env hreach hok
  obtain ⟨hres, hcnt, -⟩ :=
    readwriteEx_spec env x.sctOff (min x.sctTotal 0xFFFF) x.bbuf isWrite x.s
  have hoff := h.off
  have hleft := h.left
  rw [readwritePass]
  rcases hr : readwriteEx env x.sctOff (min x.sctTotal 0xFFFF) x.bbuf isWrite x.s with
    ⟨_ | _, cnt, s₁⟩ <;> rw [hr] at hnext hold hmore hres hcnt <;> dsimp only at *
  · split
    · exact ⟨hnext, hoff, hleft, h.bbuf, hold⟩
    · have hidle := hre.idle x.firstReinit s₁
      have hfresh : (reinit x.firstReinit s₁).1 = true → _ := hre.fresh
      have hpart : (reinit x.firstReinit s₁).1 = true → _ := hre.part
      have hmem : (reinit x.firstReinit s₁).1 = true → _ := hre.mem
      rcases hi : reinit x.firstReinit s₁ with ⟨_ | _, s₂⟩ <;>
        rw [hi] at hidle hfresh hpart hmem <;> dsimp only at *
      · exact ⟨fun p y hout ↦ (congrFun (congrFun hidle.media p) y).trans (hnext.media p y hout),
          (fun h ↦ by cases h), fun h ↦ by cases h⟩
      · -- The transfer starts over, in the user area.
        have hkept : Kept P spill isWrite sector num buf s₀ s₂ := by
          refine ⟨hidle.card.trans hnext.card, (hfresh rfl).initialized, (hfresh rfl).access, ?_,
            fun a hout ↦ ?_,
            fun p y hout ↦ (congrFun (congrFun hidle.media p) y).trans (hnext.media p y hout),
            Nat.le_trans hnext.tick hidle.tick⟩
          · rw [(hfresh rfl).selected]
            exact hpart rfl
          · rcases hmem rfl a with heq | hspill
            · rw [heq]
              exact hnext.mem a hout
            · exact .inr (hnext.card ▸ hspill)
        refine ⟨hkept, rfl, ⟨Nat.lt_of_lt_of_le hleft.1 hleft.2, Nat.le_refl _⟩, ?_, fun k hk ↦ ?_⟩
        · change buf = buf + blockSize * (num - num)
          rw [Nat.sub_self, Nat.mul_zero, Nat.add_zero]
        · change k < blockSize * (num - num) at hk
          rw [Nat.sub_self, Nat.mul_zero] at hk
          exact absurd hk (Nat.not_lt_zero k)
  · have hcnt' : cnt = min x.sctTotal 0xFFFF :=
      (hcnt hres.symm).trans (by rw [Nat.min_assoc, Nat.min_self])
    have hcopied := hmore hres.symm
    rw [← hcnt'] at hcopied
    split
    · next hzero =>
      have hall : num - x.sctTotal + cnt = num := by omega
      rw [hall] at hcopied
      exact ⟨hnext.media, fun _ ↦ hnext, fun _ ↦ hcopied⟩
    · next hne =>
      have hle := Nat.le_trans hreach (reach_le s₀.card)
      have hdone : num - (x.sctTotal - cnt) = num - x.sctTotal + cnt := by omega
      refine ⟨hnext, ?_, ⟨Nat.pos_of_ne_zero hne, Nat.le_trans (Nat.sub_le _ _) hleft.2⟩, ?_, ?_⟩
      · dsimp only
        rw [Nat.mod_eq_of_lt (by omega)]
        omega
      · dsimp only
        rw [hdone, h.bbuf, Nat.mul_add, Nat.add_assoc]
      · dsimp only
        rw [hdone]
        exact hcopied

theorem Carried.start (hinit : s₀.dev.initialized = true)
    (haccess : s₀.dev.hasSectorAccess = s₀.card.ccs) (hsel : P s₀.selected)
    (hnum : num ≠ 0) (retries : ℕ) (first : Bool) :
    Carried P spill isWrite sector num buf s₀ (.start sector num buf retries first s₀) := by
  refine ⟨⟨rfl, hinit, haccess, hsel, fun _ _ ↦ .inl rfl, fun _ _ _ ↦ rfl, Nat.le_refl _⟩, rfl,
    ⟨Nat.pos_of_ne_zero hnum, Nat.le_refl _⟩, ?_, fun k hk ↦ ?_⟩
  · change buf = buf + blockSize * (num - num)
    rw [Nat.sub_self, Nat.mul_zero, Nat.add_zero]
  · change k < blockSize * (num - num) at hk
    rw [Nat.sub_self, Nat.mul_zero] at hk
    exact absurd hk (Nat.not_lt_zero k)

/-- **What a transfer ends with**, whichever of its commands fail. -/
theorem readwrite_ended (env : Env) (buf : ℕ) (isWrite : Bool) (hre : Restores P spill reinit)
    (haccess : Addressed s₀) (hsel : P s₀.selected) (hreach : sector + num ≤ reach s₀.card) :
    Ended P spill isWrite sector num buf s₀
      (sdmmcStorageReadwrite env reinit sector num buf isWrite s₀) := by
  rw [sdmmcStorageReadwrite]
  by_cases hinit : s₀.dev.initialized = true
  swap
  · simp only [hinit, Bool.not_false, ↓reduceIte]
    exact ⟨fun _ _ _ ↦ rfl, (fun h ↦ by cases h), fun h ↦ by cases h⟩
  by_cases hnum : num = 0
  · simp only [hinit, hnum, Bool.not_true, Bool.false_eq_true, ↓reduceIte]
    exact ⟨fun _ _ _ ↦ rfl, fun _ ↦ ⟨rfl, hinit, haccess hinit, hsel, fun _ _ ↦ .inl rfl,
      fun _ _ _ ↦ rfl, Nat.le_refl _⟩, fun _ k hk ↦ absurd hk (Nat.not_lt_zero k)⟩
  simp only [hinit, hnum, Bool.not_true, Bool.false_eq_true, ↓reduceIte]
  have hstart : Carried P spill isWrite sector num buf s₀ (.start sector num buf 5 true s₀) :=
    .start hinit (haccess hinit) hsel hnum 5 true
  have hloop := Loop.run_all (fun x hx ↦ Carried.pass env hre hreach hx) hstart (30 * num + 36)
  refine hloop.elim ?_ ?_
  · intro x hx
    exact ⟨hx.kept.media, (fun h ↦ by cases h), fun h ↦ by cases h⟩
  · intro r hr
    exact hr

/-! ## A transfer whose commands succeed -/

theorem readwriteEx_true {n a : ℕ} (h : (env s.tick).ok = true) :
    readwriteEx env sector n a isWrite s =
      (true, min n 0xFFFF, (readwriteEx env sector n a isWrite s).2.2) := by
  simp [readwriteEx, h]

/-- **Where no five commands in a row fail**, no re-initialisation takes place, and the transfer
succeeds.  There are `k` failures before the next command that succeeds. -/
theorem readwriteLoop_of_persists (reinit reinit' : Bool → State → Bool × State)
    (sector num buf : ℕ) (isWrite : Bool) {n k : ℕ} (hp : Persists env x.s.tick)
    (hk : (env (x.s.tick + k)).ok = true) (hlt : k ≤ x.retries - 1) (hpos : 0 < x.sctTotal)
    (hn : 5 * x.sctTotal + k ≤ n + 4) :
    ∃ s', Loop.run (readwritePass env reinit sector num buf isWrite) n x = .leave (true, s') ∧
      Loop.run (readwritePass env reinit' sector num buf isWrite) n x = .leave (true, s') := by
  induction n generalizing x k with
  | zero => omega
  | succ n ih =>
    have htick := (readwriteEx_spec env x.sctOff (min x.sctTotal 0xFFFF) x.bbuf isWrite x.s).2.2.2.2
    generalize hr : (readwriteEx env x.sctOff (min x.sctTotal 0xFFFF) x.bbuf isWrite x.s).2.2 = s₁
      at htick
    have hp' : Persists env s₁.tick := hp.mono (htick ▸ Nat.le_succ _)
    cases hnow : (env x.s.tick).ok with
    | false =>
      -- There is a try left for every failure that is still to come.
      have hkpos : k ≠ 0 := by
        rintro rfl
        exact absurd (hnow.symm.trans hk) Bool.false_ne_true
      have hagain : ∀ f, readwritePass env f sector num buf isWrite x =
          .again { x with retries := x.retries - 1, s := s₁ } :=
        fun f ↦ hr ▸ readwritePass_retry hnow (by omega)
      rw [Loop.run_succ_again (hagain _), Loop.run_succ_again (hagain _)]
      refine ih (x := { x with retries := x.retries - 1, s := s₁ }) (k := k - 1) hp' ?_ ?_ hpos ?_
      · rw [htick, show x.s.tick + 1 + (k - 1) = x.s.tick + k by omega]
        exact hk
      · dsimp only
        omega
      · dsimp only
        omega
    | true =>
      have hpass : ∀ f, readwritePass env f sector num buf isWrite x =
          if x.sctTotal - min (min x.sctTotal 0xFFFF) 0xFFFF = 0 then .leave (true, s₁)
          else .again ⟨(x.sctOff + min (min x.sctTotal 0xFFFF) 0xFFFF) % 2 ^ 32,
            x.sctTotal - min (min x.sctTotal 0xFFFF) 0xFFFF,
            x.bbuf + blockSize * min (min x.sctTotal 0xFFFF) 0xFFFF, 5, x.firstReinit, s₁⟩ := by
        intro f
        rw [readwritePass, readwriteEx_true hnow, hr]
      by_cases hzero : x.sctTotal - min (min x.sctTotal 0xFFFF) 0xFFFF = 0
      · have hleave : ∀ f, readwritePass env f sector num buf isWrite x = .leave (true, s₁) :=
          fun f ↦ (hpass f).trans (if_pos hzero)
        exact ⟨s₁, Loop.run_succ_leave (hleave _), Loop.run_succ_leave (hleave _)⟩
      · have hagain := fun f ↦ (hpass f).trans (if_neg hzero)
        obtain ⟨j, hj, hok⟩ := hp' s₁.tick (Nat.le_refl _)
        rw [Loop.run_succ_again (hagain _), Loop.run_succ_again (hagain _)]
        refine ih (k := j) hp' hok ?_ (Nat.pos_of_ne_zero hzero) ?_
        · dsimp only
          omega
        · dsimp only
          omega

/-- Then the transfer is the one that gives up where the card would be initialised again, and it
succeeds if the storage is initialised. -/
theorem readwrite_of_persists (reinit : Bool → State → Bool × State) (sector num buf : ℕ)
    (isWrite : Bool) (hp : Persists env s.tick) :
    sdmmcStorageReadwrite env reinit sector num buf isWrite s =
        sdmmcStorageReadwrite env (fun _ s ↦ (false, s)) sector num buf isWrite s ∧
      (s.dev.initialized = true →
        (sdmmcStorageReadwrite env reinit sector num buf isWrite s).1 = true) := by
  rw [sdmmcStorageReadwrite, sdmmcStorageReadwrite]
  by_cases hinit : s.dev.initialized = true
  swap
  · rw [Bool.not_eq_true] at hinit
    simp only [hinit, Bool.not_false, ↓reduceIte]
    exact ⟨trivial, fun h ↦ absurd h Bool.false_ne_true⟩
  by_cases hnum : num = 0
  · simp only [hinit, hnum, Bool.not_true, Bool.false_eq_true, ↓reduceIte, implies_true, and_self]
  obtain ⟨k, hlt, hk⟩ := hp s.tick (Nat.le_refl _)
  obtain ⟨s', hrun, hrun'⟩ := readwriteLoop_of_persists (x := .start sector num buf 5 true s) reinit
    (fun _ s ↦ (false, s)) sector num buf isWrite hp hk (Nat.le_of_lt_succ hlt)
    (Nat.pos_of_ne_zero hnum) (show 5 * num + k ≤ 30 * num + 36 + 4 by omega)
  simp only [hinit, hnum, Bool.not_true, Bool.false_eq_true, ↓reduceIte]
  rw [hrun, hrun']
  exact ⟨rfl, fun _ ↦ rfl⟩

/-- A transfer of one command. -/
theorem readwrite_one (reinit : Bool → State → Bool × State) (sector buf : ℕ) (isWrite : Bool)
    (hinit : s.dev.initialized = true) (hnum : num ≠ 0) (hle : num ≤ 0xFFFF)
    (hok : (env s.tick).ok = true) :
    sdmmcStorageReadwrite env reinit sector num buf isWrite s =
      (true, (readwriteEx env sector num buf isWrite s).2.2) := by
  have hpass : readwritePass env reinit sector num buf isWrite (.start sector num buf 5 true s) =
      .leave (true, (readwriteEx env sector num buf isWrite s).2.2) := by
    rw [readwritePass]
    dsimp only [Xfer.start]
    rw [Nat.min_eq_left hle, readwriteEx_true hok]
    exact if_pos (show num - min num 0xFFFF = 0 by omega)
  have hfuel : 30 * num + 36 = 30 * num + 35 + 1 := rfl
  rw [sdmmcStorageReadwrite]
  simp only [hinit, hnum, Bool.not_true, Bool.false_eq_true, ↓reduceIte]
  rw [hfuel, Loop.run_succ_leave hpass]

/-- Where no re-initialisation succeeds, a transfer that succeeds has gone without one. -/
theorem readwrite_unrecovered {I : State → Prop}
    (hcmd : ∀ sector n buf s, I s → I (readwriteEx env sector n buf isWrite s).2.2)
    (hfail : ∀ s, I s → (reinit true s).1 = false) (h : I s₀)
    (hres : (sdmmcStorageReadwrite env reinit sector num buf isWrite s₀).1 = true) :
    sdmmcStorageReadwrite env reinit sector num buf isWrite s₀ =
      sdmmcStorageReadwrite env (fun _ s ↦ (false, s)) sector num buf isWrite s₀ := by
  have hloop : ∀ n (x : Xfer) s', x.firstReinit = true → I x.s →
      Loop.run (readwritePass env reinit sector num buf isWrite) n x = .leave (true, s') →
      Loop.run (readwritePass env (fun _ s ↦ (false, s)) sector num buf isWrite) n x =
        .leave (true, s') := by
    intro n
    induction n with
    | zero => exact fun x s' _ _ hrun ↦ by cases hrun
    | succ n ih =>
      intro x s' hfirst hx hrun
      have hnext := hcmd x.sctOff (min x.sctTotal 0xFFFF) x.bbuf x.s hx
      rcases hr : readwriteEx env x.sctOff (min x.sctTotal 0xFFFF) x.bbuf isWrite x.s with
        ⟨_ | _, cnt, s₁⟩ <;> rw [hr] at hnext
      · by_cases hret : x.retries - 1 ≠ 0
        · have hagain : ∀ f, readwritePass env f sector num buf isWrite x =
              .again { x with retries := x.retries - 1, s := s₁ } := by
            intro f
            rw [readwritePass, hr]
            exact if_pos hret
          rw [Loop.run_succ_again (hagain _)] at hrun ⊢
          exact ih { x with retries := x.retries - 1, s := s₁ } s' hfirst hnext hrun
        · -- This is where the transfer gives up, with either.
          have hleave : readwritePass env reinit sector num buf isWrite x =
              .leave (false, (reinit true s₁).2) := by
            rw [readwritePass, hr]
            dsimp only
            rw [if_neg hret, hfirst]
            have hno := hfail s₁ hnext
            rcases hi : reinit true s₁ with ⟨_ | _, s₂⟩
            · rfl
            · rw [hi] at hno
              exact absurd hno.symm Bool.false_ne_true
          rw [Loop.run_succ_leave hleave] at hrun
          cases hrun
      · by_cases hleft : x.sctTotal - cnt = 0
        · have hleave : ∀ f, readwritePass env f sector num buf isWrite x = .leave (true, s₁) := by
            intro f
            rw [readwritePass, hr]
            exact if_pos hleft
          rw [Loop.run_succ_leave (hleave _)] at hrun ⊢
          exact hrun
        · have hagain : ∀ f, readwritePass env f sector num buf isWrite x = .again
              ⟨(x.sctOff + cnt) % 2 ^ 32, x.sctTotal - cnt, x.bbuf + blockSize * cnt, 5,
                x.firstReinit, s₁⟩ := by
            intro f
            rw [readwritePass, hr]
            exact if_neg hleft
          rw [Loop.run_succ_again (hagain _)] at hrun ⊢
          exact ih ⟨(x.sctOff + cnt) % 2 ^ 32, x.sctTotal - cnt, x.bbuf + blockSize * cnt, 5,
            x.firstReinit, s₁⟩ s' hfirst hnext hrun
  rw [sdmmcStorageReadwrite] at hres ⊢
  rw [sdmmcStorageReadwrite]
  split at hres
  · exact absurd hres Bool.false_ne_true
  · next hinit =>
    rw [if_neg hinit, if_neg hinit]
    split at hres
    · next hnum => rw [if_pos hnum, if_pos hnum]
    · next hnum =>
      rw [if_neg hnum, if_neg hnum]
      split at hres
      · next r heq =>
        obtain ⟨res, s'⟩ := r
        obtain rfl : res = true := hres
        have hstart : Xfer.firstReinit (.start sector num buf 5 true s₀) = true := rfl
        rw [hloop _ _ s' hstart h heq]
      · exact absurd hres Bool.false_ne_true

/-- A transfer that gives up when a command has failed five times restores nothing. -/
theorem restores_none (P : ℕ → Prop) :
    Restores P (fun _ _ _ ↦ False) fun _ s ↦ (false, s) :=
  ⟨fun _ ↦ .refl, (fun h ↦ by cases h), (fun h ↦ by cases h), fun h ↦ by cases h⟩

/-- **What a transfer ends with when all its commands succeed.** -/
theorem readwriteLoop_ended_of_ok (reinit : Bool → State → Bool × State) (buf : ℕ)
    (isWrite : Bool) (retries : ℕ) (first : Bool) (hok : OkFrom env s₀.tick)
    (hinit : s₀.dev.initialized = true) (hnum : num ≠ 0)
    (haccess : s₀.dev.hasSectorAccess = s₀.card.ccs) (hreach : sector + num ≤ reach s₀.card)
    {n : ℕ} (hn : 5 * num ≤ n) :
    ∃ s', Loop.run (readwritePass env reinit sector num buf isWrite) n
        (.start sector num buf retries first s₀) = .leave (true, s') ∧
      Ended (· = s₀.selected) (fun _ _ _ ↦ False) isWrite sector num buf s₀ (true, s') := by
  set x : Xfer := .start sector num buf retries first s₀
  obtain ⟨s', hrun, hrun'⟩ : ∃ s', Loop.run (readwritePass env reinit sector num buf isWrite) n x =
      .leave (true, s') ∧ Loop.run (readwritePass env (fun _ s ↦ (false, s)) sector num buf isWrite)
        n
      x = .leave (true, s') := readwriteLoop_of_persists (k := 0) _ _ _ _ _ _ hok.persists
        (hok _ (Nat.le_refl _)) (Nat.zero_le _) (Nat.pos_of_ne_zero hnum)
        (show 5 * num + 0 ≤ n + 4 by omega)
  have hstart : Carried (· = s₀.selected) (fun _ _ _ ↦ False) isWrite sector num buf s₀ x :=
    .start (P := (· = s₀.selected)) hinit haccess rfl hnum retries first
  have hloop := Loop.run_all (fun x hx ↦ Carried.pass env (restores_none (· = s₀.selected))
    hreach hx) hstart n
  rw [hrun'] at hloop
  exact ⟨s', hrun, hloop⟩

/-- What five commands in a row leave alone, whether they succeed or not. -/
theorem attempts_keeps (env : Env) (sector num buf : ℕ) (isWrite : Bool) (s : State) (i : ℕ) :
    (attempts env sector num buf isWrite s i).dev = s.dev ∧
      (attempts env sector num buf isWrite s i).card = s.card ∧
      (attempts env sector num buf isWrite s i).selected = s.selected ∧
      (∀ a, (isWrite = false → a < buf ∨ buf + blockSize * num ≤ a) →
        (attempts env sector num buf isWrite s i).mem a = s.mem a) ∧
      (isWrite = false → (attempts env sector num buf isWrite s i).media = s.media) := by
  induction i with
  | zero => exact ⟨rfl, rfl, rfl, fun _ _ ↦ rfl, fun _ ↦ rfl⟩
  | succ i ih =>
    obtain ⟨hdev, hcard, hsel, hmem, hmedia⟩ := ih
    rw [attempts]
    generalize attempts env sector num buf isWrite s i = t at *
    obtain ⟨hdev', hcard', hmem', hmedia'⟩ :=
      readwriteEx_keeps env sector (min num 0xFFFF) buf isWrite t
    have hsel' := (readwriteEx_spec env sector (min num 0xFFFF) buf isWrite t).2.2.1
    refine ⟨hdev'.trans hdev, hcard'.trans hcard, hsel'.trans hsel, fun a hout ↦ ?_, fun hr ↦ ?_⟩
    · refine (hmem' a fun hr ↦ (hout hr).imp id fun hge ↦ ?_).trans (hmem a hout)
      have hle : blockSize * min (min num 0xFFFF) 0xFFFF ≤ blockSize * num :=
        Nat.mul_le_mul_left _ (by omega)
      omega
    · refine Eq.trans (funext fun p ↦ funext fun y ↦ hmedia' p y fun hw ↦ ?_) (hmedia hr)
      exact absurd (hr.symm.trans hw) Bool.false_ne_true

theorem attempts_mode (env : Env) (sector num buf : ℕ) (isWrite : Bool) (s : State) (i : ℕ) :
    (attempts env sector num buf isWrite s i).mode = s.mode := by
  induction i with
  | zero => rfl
  | succ i ih => exact (readwriteEx_mode env sector (min num 0xFFFF) buf isWrite _).trans ih

/-- **What a transfer ends with when it is taken up again after five failures**, and nothing fails
any more. -/
theorem readwrite_restarts {P : ℕ → Prop} (hre : Restores P spill reinit)
    (hinit : s₀.dev.initialized = true) (hnum : num ≠ 0)
    (hfail : ∀ i < 5, (env (s₀.tick + i)).ok = false) (hok : OkFrom env (s₀.tick + 5))
    (hreinit : (reinit true (attempts env sector num buf isWrite s₀ 5)).1 = true)
    (hreach : sector + num ≤ reach s₀.card) :
    ∃ s', sdmmcStorageReadwrite env reinit sector num buf isWrite s₀ = (true, s') ∧
      Ended (· = 0) (fun _ _ _ ↦ False) isWrite sector num buf
        (reinit true (attempts env sector num buf isWrite s₀ 5)).2 (true, s') := by
  have hidle := hre.idle true (attempts env sector num buf isWrite s₀ 5)
  have hfresh := hre.fresh hreinit
  have htick : (attempts env sector num buf isWrite s₀ 5).tick = s₀.tick + 5 := attempts_tick 5
  have hcard := (attempts_keeps env sector num buf isWrite s₀ 5).2.1
  generalize hs₁ : reinit true (attempts env sector num buf isWrite s₀ 5) = r at *
  obtain ⟨_ | _, s₁⟩ := r
  · exact absurd hreinit Bool.false_ne_true
  have hok' : OkFrom env s₁.tick := fun n hn ↦ hok n (htick ▸ Nat.le_trans hidle.tick hn)
  have hfuel : 30 * num + 36 = 4 + (30 * num + 30 + 1 + 1) := by omega
  obtain ⟨s', hrun, hended⟩ := readwriteLoop_ended_of_ok reinit buf isWrite 3 false hok'
    hfresh.initialized hnum hfresh.access (hidle.card.trans hcard ▸ hreach)
    (show 5 * num ≤ 30 * num + 30 + 1 by omega)
  refine ⟨s', ?_, hfresh.selected ▸ hended⟩
  rw [sdmmcStorageReadwrite]
  simp only [hinit, hnum, Bool.not_true, Bool.false_eq_true, ↓reduceIte]
  rw [hfuel, readwriteLoop_restarts hfail hs₁, hrun]

end

/-! ## What an initialisation leaves in the scratch sector -/

variable {s' s₁ s₂ : State} {first : Bool}

/-- `s'` is left of `s` by something that changes memory only where the extended CSD goes, and only
if the card has one to give. -/
structure Reads (s s' : State) : Prop where
  /-- The card is the same. -/
  card : s'.card = s.card
  /-- Memory is the same elsewhere. -/
  mem : ∀ a, OutsideScratch a ∨ s.card.mmcaVsn < 4 → s'.mem a = s.mem a

theorem Reads.refl (s : State) : Reads s s := ⟨rfl, fun _ _ ↦ rfl⟩

theorem Reads.trans (h : Reads s s₁) (h' : Reads s₁ s₂) : Reads s s₂ :=
  ⟨h'.card.trans h.card, fun a ha ↦ (h'.mem a (h.card.symm ▸ ha)).trans (h.mem a ha)⟩

/-- What is idle, on a card with an extended CSD. -/
theorem Reads.of_idle (h : Idle s s') (hvsn : ¬ s.card.mmcaVsn < 4) : Reads s s' :=
  ⟨h.card, fun a ha ↦ h.mem a (ha.resolve_right hvsn)⟩

theorem initMmcV4_reads (env : Env) (oneBit : Bool) (s : State) :
    Reads s (initMmcV4 env oneBit s).2 := by
  by_cases hvsn : s.card.mmcaVsn < 4
  · rw [initMmcV4, if_pos hvsn]
    exact .refl s
  · exact .of_idle (initMmcV4_idleStep env oneBit s).1 hvsn

theorem sdmmcStorageInitMmc_reads (env : Env) (oneBit : Bool) (s : State) :
    Reads s (sdmmcStorageInitMmc env oneBit s).2 := by
  have hzero : Reads s { s with dev := .zero } := ⟨rfl, fun _ _ ↦ rfl⟩
  refine hzero.trans (inOrder_rel Reads.refl (fun _ _ _ ↦ Reads.trans) (fun f hf s ↦ ?_) _)
  simp only [List.mem_cons, List.not_mem_nil, or_false] at hf
  rcases hf with rfl | rfl | rfl | rfl | rfl | rfl | rfl | rfl | rfl | rfl | rfl | rfl
  case inr.inr.inr.inr.inr.inr.inr.inr.inr.inr.inl => exact initMmcV4_reads env oneBit s
  all_goals exact ⟨rfl, fun _ _ ↦ rfl⟩

theorem storageEnd_reads (env : Env) (s : State) : Reads s (storageEnd env s) := by
  rw [storageEnd, goIdleState]
  cases (env s.tick).ok <;> exact ⟨rfl, fun _ _ ↦ rfl⟩

/-- The scratch sector holds the extended CSD, if the card has one. -/
def HasExtCsd (s : State) : Prop :=
  4 ≤ s.card.mmcaVsn → ∀ k < blockSize, s.mem (sdmmcUpperBuffer + k) = s.card.extCsd k

theorem initMmcV4_hasExtCsd {oneBit : Bool} (h : (initMmcV4 env oneBit s).1 = true) :
    HasExtCsd (initMmcV4 env oneBit s).2 := by
  intro hvsn k hk
  have hcard := (initMmcV4_reads env oneBit s).card
  rw [hcard] at hvsn ⊢
  rw [initMmcV4, if_neg (Nat.not_lt.mpr hvsn)] at h ⊢
  obtain ⟨-, heq⟩ := inOrder_cons_true h
  rw [heq] at h ⊢
  have hwidth : (switchBuswidth env oneBit s).2.card = s.card := by
    rw [switchBuswidth]
    split <;> rfl
  generalize (switchBuswidth env oneBit s).2 = s₁ at h hwidth ⊢
  obtain ⟨hcsd, heq⟩ := inOrder_cons_true h
  rw [heq] at h ⊢
  have hmem : (getExtCsd env s₁).2.mem (sdmmcUpperBuffer + k) = s.card.extCsd k := by
    rw [getExtCsd] at hcsd ⊢
    cases hok : (env s₁.tick).ok with
    | true =>
      simp only [↓reduceIte, hwidth]
      exact Store.blit_add hk
    | false => simp [hok] at hcsd
  generalize (getExtCsd env s₁).2 = s₂ at h hmem ⊢
  obtain ⟨-, heq⟩ := inOrder_cons_true h
  rw [heq]
  exact hmem

/-- **An initialisation that succeeds leaves the extended CSD in the scratch sector.** -/
theorem sdmmcStorageInitMmc_hasExtCsd {oneBit : Bool}
    (h : (sdmmcStorageInitMmc env oneBit s).1 = true) :
    HasExtCsd (sdmmcStorageInitMmc env oneBit s).2 := by
  obtain ⟨s₁, hs₁⟩ : ∃ s₁, s₁ = (inOrder [command env, goIdleState env, getOpCond env, command env,
    command env, command env, parseCsd, command env, command env, command env]
    { s with dev := .zero }).2 := ⟨_, rfl⟩
  have heq : sdmmcStorageInitMmc env oneBit s = inOrder [initMmcV4 env oneBit, initDone] s₁ :=
    hs₁ ▸ inOrder_append_true (l := [command env, goIdleState env, getOpCond env, command env,
      command env, command env, parseCsd, command env, command env, command env]) h
  rw [heq] at h ⊢
  obtain ⟨hv4, heq⟩ := inOrder_cons_true h
  rw [heq]
  exact initMmcV4_hasExtCsd hv4

/-- A success is that of an initialisation of the card. -/
def Initialised (env : Env) (s : State) (p : Bool × State) : Prop :=
  Reads s p.2 ∧ (p.1 = true → ∃ oneBit s₁, Reads s s₁ ∧ sdmmcStorageInitMmc env oneBit s₁ = p)

theorem Initialised.of_reads (h : Reads s s₁) (oneBit : Bool) :
    Initialised env s (sdmmcStorageInitMmc env oneBit s₁) :=
  ⟨h.trans (sdmmcStorageInitMmc_reads env oneBit s₁), fun _ ↦ ⟨oneBit, s₁, h, rfl⟩⟩

theorem emmcInitRetry_initialised (h : Reads s₀ s) (powerCycle : Bool) :
    Initialised env s₀ (emmcInitRetry env powerCycle s) := by
  obtain ⟨s₁, hs₁, hreads⟩ : ∃ s₁, s₁ = (if powerCycle then
      storageEnd env { s with mode := modeDec s.mode } else s) ∧ Reads s₀ s₁ := by
    refine ⟨_, rfl, h.trans ?_⟩
    cases powerCycle with
    | false => exact .refl s
    | true =>
      have hmode : Reads s { s with mode := modeDec s.mode } := ⟨rfl, fun _ _ ↦ rfl⟩
      exact hmode.trans (storageEnd_reads env _)
  rw [emmcInitRetry, ← hs₁]
  split
  · exact ⟨hreads, fun h ↦ absurd h Bool.false_ne_true⟩
  case h_6 =>
    have hmode : Reads s₁ { s₁ with mode := emmcMmcHs400 } := ⟨rfl, fun _ _ ↦ rfl⟩
    exact .of_reads (hreads.trans hmode) false
  all_goals exact .of_reads hreads _

theorem emmcInitialize_initialised (env : Env) (powerCycle : Bool) (s : State) :
    Initialised env s (emmcInitialize env powerCycle s) := by
  rw [emmcInitialize]
  set s₁ := if s.mode = 0 then { s with mode := emmcMmcHs400 } else s with hs₁
  have h₁ : Reads s s₁ := by
    rw [hs₁]
    split <;> exact ⟨rfl, fun _ _ ↦ rfl⟩
  set s₂ := if powerCycle then storageEnd env s₁ else s₁ with hs₂
  have h₂ : Reads s s₂ := by
    rw [hs₂]
    split
    · exact h₁.trans (storageEnd_reads env s₁)
    · exact h₁
  have hpass : ∀ p, Initialised env s p →
      (emmcInitializePass env p).All (Initialised env s) (Initialised env s) := by
    intro p hp
    cases hb : emmcInitializePass env p with
    | leave r => exact emmcInitializePass_leave hb ▸ hp
    | again p' => exact emmcInitializePass_again hb ▸ emmcInitRetry_initialised hp.1 true
  have hloop := Loop.run_all hpass (emmcInitRetry_initialised h₂ false) 6
  split
  · next t heq =>
    rw [heq] at hloop
    exact hloop
  · next t heq =>
    rw [heq] at hloop
    exact ⟨hloop.1.trans (storageEnd_reads env t), fun h ↦ absurd h Bool.false_ne_true⟩
  · next t heq =>
    rw [heq] at hloop
    exact ⟨hloop.1, fun h ↦ absurd h Bool.false_ne_true⟩

theorem emmcReinit_initialised (env : Env) (first : Bool) (s : State) :
    Initialised env s (emmcReinit env first s) := by
  rw [emmcReinit]
  split
  · exact emmcInitialize_initialised env true s
  · exact emmcInitRetry_initialised (.refl s) true

/-- **A re-initialisation that succeeds leaves the extended CSD in the scratch sector.** -/
theorem emmcReinit_hasExtCsd (h : (emmcReinit env first s).1 = true) :
    HasExtCsd (emmcReinit env first s).2 := by
  obtain ⟨oneBit, s₁, -, heq⟩ := (emmcReinit_initialised env first s).2 h
  rw [← heq] at h ⊢
  exact sdmmcStorageInitMmc_hasExtCsd h

/-! ## Both cards -/

/-- An eMMC of version 4 or later leaves its extended CSD in the scratch sector. -/
def extCsdSpill : Spill := fun card a b ↦
  4 ≤ card.mmcaVsn ∧ ∃ k < blockSize, a = sdmmcUpperBuffer + k ∧ b = card.extCsd k

/-- An SD card leaves anything there. -/
def registerSpill : Spill := fun _ a _ ↦ ∃ k < blockSize, a = sdmmcUpperBuffer + k

theorem emmcReinit_restores (env : Env) {P : ℕ → Prop} (h0 : P 0) :
    Restores P extCsdSpill (emmcReinit env) := by
  refine ⟨emmcReinit_idle env, emmcReinit_fresh, fun _ ↦ h0, fun {first s} h a ↦ ?_⟩
  have hreads := (emmcReinit_initialised env first s).1
  by_cases hsame : OutsideScratch a ∨ s.card.mmcaVsn < 4
  · exact .inl (hreads.mem a hsame)
  · simp only [OutsideScratch, not_or, Nat.not_lt, Nat.not_le] at hsame
    obtain ⟨k, rfl⟩ := Nat.exists_eq_add_of_le hsame.1.1
    have hk : k < blockSize := by omega
    have hcsd := emmcReinit_hasExtCsd h (hreads.card.symm ▸ hsame.2) k hk
    exact .inr ⟨hsame.2, k, hk, rfl, hcsd.trans (congrFun (congrArg Card.extCsd hreads.card) k)⟩

theorem sdReinit_restores (env : Env) {P : ℕ → Prop} (h0 : P 0) :
    Restores P registerSpill (sdReinit env) := by
  refine ⟨sdReinit_idle env, sdReinit_fresh, fun _ ↦ h0, fun {first s} _ a ↦ ?_⟩
  by_cases hout : OutsideScratch a
  · exact .inl ((sdReinit_idle env first s).mem a hout)
  · simp only [OutsideScratch, not_or, Nat.not_lt, Nat.not_le] at hout
    obtain ⟨k, rfl⟩ := Nat.exists_eq_add_of_le hout.1
    exact .inr ⟨k, by omega, rfl⟩

/-! ## The driver is right about how the card is addressed -/

theorem Fresh.addressed (h : Fresh s) : Addressed s := fun _ ↦ h.access

theorem Blank.addressed (h : Blank s) : Addressed s := by
  intro hinit
  rw [h.initialized] at hinit
  exact absurd hinit Bool.false_ne_true

theorem Addressed.storageEnd (h : Addressed s) : Addressed (storageEnd env s) := by
  rw [Storage.storageEnd, goIdleState]
  cases (env s.tick).ok
  · exact h
  · exact fun h ↦ by cases h

theorem emmcInitialize_addressed (env : Env) (powerCycle : Bool) (s : State) :
    Addressed (emmcInitialize env powerCycle s).2 := by
  cases hres : (emmcInitialize env powerCycle s).1 with
  | true => exact ((emmcInitialize_spec env powerCycle s).2 hres).1.addressed
  | false => exact (emmcInitialize_blank hres).addressed

/-- An attempt that does not get as far as the card leaves things as they are. -/
theorem emmcInitRetry_addressed (env : Env) (h : Addressed s) :
    Addressed (emmcInitRetry env true s).2 := by
  cases hres : (emmcInitRetry env true s).1 with
  | true => exact ((emmcInitRetry_spec env true s).2.2 hres).1.addressed
  | false =>
    by_cases hmode : retryMode true s.mode = 0
    · have hzero : (Storage.storageEnd env { s with mode := modeDec s.mode }).mode = 0 := by
        rw [storageEnd_mode]
        rw [retryMode, if_pos rfl] at hmode
        change modeDec s.mode = 0
        omega
      have hstop : emmcInitRetry env true s =
          (false, Storage.storageEnd env { s with mode := modeDec s.mode }) := by
        rw [emmcInitRetry]
        simp only [↓reduceIte, hzero]
      rw [hstop]
      exact Addressed.storageEnd h
    · exact (emmcInitRetry_blank hres (.inl hmode)).addressed

theorem emmcReinit_addressed (env : Env) (first : Bool) (h : Addressed s) :
    Addressed (emmcReinit env first s).2 := by
  rw [emmcReinit]
  split
  · exact emmcInitialize_addressed env true s
  · exact emmcInitRetry_addressed env h

theorem sdmmcStorageInitSd_blank {oneBit : Bool} (h : (sdmmcStorageInitSd env oneBit s).1 = false) :
    Blank (sdmmcStorageInitSd env oneBit s).2 := by
  have hzero : Blank { s with dev := .zero } := ⟨rfl, rfl⟩
  refine hzero.inOrder_done (l := [command env, goIdleState env, command env, getOpCond env,
    command env, command env, command env, parseCsd, command env, command env, command env,
    command env, readRegister env 8, switchBuswidth env oneBit, readRegister env cmdBlockSize,
    sdGetSsr env]) (fun f hf s hs ↦ ?_) h
  simp only [List.mem_cons, List.not_mem_nil, or_false] at hf
  rcases hf with rfl | rfl | rfl | rfl | rfl | rfl | rfl | rfl | rfl | rfl | rfl | rfl | rfl | rfl |
    rfl | rfl
  case inr.inr.inr.inr.inr.inr.inr.inr.inr.inr.inr.inr.inr.inl =>
    rw [switchBuswidth]
    split <;> exact ⟨hs.initialized, hs.partition⟩
  all_goals exact ⟨hs.initialized, hs.partition⟩

theorem sdInitRetry_addressed (env : Env) (powerCycle : Bool) (h : Addressed s) :
    Addressed (sdInitRetry env powerCycle s).2 := by
  have hinit : ∀ oneBit s, Addressed (sdmmcStorageInitSd env oneBit s).2 := by
    intro oneBit s
    cases hres : (sdmmcStorageInitSd env oneBit s).1 with
    | true => exact (sdmmcStorageInitSd_fresh hres).addressed
    | false => exact (sdmmcStorageInitSd_blank hres).addressed
  have hend : Addressed (if powerCycle then Storage.storageEnd env { s with mode := modeDec s.mode }
      else s) := by
    split
    · exact Addressed.storageEnd h
    · exact h
  rw [sdInitRetry]
  generalize (if powerCycle then Storage.storageEnd env { s with mode := modeDec s.mode } else s) =
    s₁ at hend ⊢
  split
  · exact hend
  all_goals exact hinit _ _

theorem sdInitialize_addressed (env : Env) (powerCycle : Bool) (h : Addressed s) :
    Addressed (sdInitialize env powerCycle s).2 := by
  have hpass : ∀ p : Bool × State, Addressed p.2 →
      (sdInitializePass env p).All (fun p ↦ Addressed p.2) fun r ↦ Addressed r.2 := by
    rintro ⟨_ | _, t⟩ ht
    · have hpoll : Addressed (command env t).2 := ht
      rw [sdInitializePass]
      rcases hc : command env t with ⟨_ | _, t'⟩ <;> rw [hc] at hpoll <;> dsimp only
      · exact hpoll
      · split
        · exact hpoll
        · exact sdInitRetry_addressed env true hpoll
    · exact ht
  have hend : Addressed (if powerCycle then Storage.storageEnd env s else s) := by
    split
    · exact Addressed.storageEnd h
    · exact h
  have hloop := Loop.run_all hpass (sdInitRetry_addressed env false hend) 6
  rw [sdInitialize]
  split
  · next t heq =>
    rw [heq] at hloop
    exact hloop
  · next t heq =>
    rw [heq] at hloop
    exact Addressed.storageEnd hloop
  · next t heq =>
    rw [heq] at hloop
    exact hloop

theorem sdReinit_addressed (env : Env) (first : Bool) (h : Addressed s) :
    Addressed (sdReinit env first s).2 := by
  rw [sdReinit]
  split
  · exact sdInitialize_addressed env true h
  · exact sdInitRetry_addressed env true h

/-- **A transfer leaves the driver right about the addressing**, whatever happens in it. -/
theorem readwrite_addressed {reinit : Bool → State → Bool × State}
    (hre : ∀ first s, Addressed s → Addressed (reinit first s).2) (sector num buf : ℕ)
    (isWrite : Bool) (h : Addressed s) :
    Addressed (sdmmcStorageReadwrite env reinit sector num buf isWrite s).2 := by
  refine (readwrite_rule (I := Addressed) (fun sector n buf s hs ↦ ?_)
    (fun first s hs _ ↦ hre first s hs)
    (fun first s hs _ ↦ hre first s hs) (fun _ ↦ id) sector num buf h).2
  obtain ⟨hdev, hcard, -⟩ := readwriteEx_keeps env sector n buf isWrite s
  rwa [Addressed, hdev, hcard]

end Storage
end SdLoader
