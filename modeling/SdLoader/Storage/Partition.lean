import SdLoader.Storage.Effect

/-!
# Which partition a transfer moves

A caller selects a hardware partition and then transfers.  Between the two, as far as the caller can
see, nothing happens; but a transfer that has failed five times takes the card through its
initialisation, which selects the user area, and goes on from the start without selecting anything
again.  What is left of a write to a boot partition is written over the user area.

`PartitionStable` is what a caller relies on: every transfer command is given while the caller's
partition is selected, and success means that every sector asked for has been moved.  It holds of
every run that leaves the partition selected (`readwrite_stable`), so of every run in the user area,
and `partitionStable_iff` says that nothing more can be promised: any other transfer has a run that
strays.
-/

set_option autoImplicit false

namespace SdLoader
namespace Storage

variable {env : Env} {s : State}

/-! ## One command -/

theorem moveData_keeps (isWrite : Bool) (block count buf : ℕ) (s : State) :
    (moveData isWrite block count buf s).selected = s.selected ∧
      (moveData isWrite block count buf s).moves = s.moves ∧
      (moveData isWrite block count buf s).tick = s.tick := by
  rw [moveData]
  split <;> exact ⟨rfl, rfl, rfl⟩

theorem smearData_keeps (o : Outcome) (isWrite : Bool) (block count buf : ℕ) (s : State) :
    (smearData o isWrite block count buf s).selected = s.selected ∧
      (smearData o isWrite block count buf s).moves = s.moves ∧
      (smearData o isWrite block count buf s).tick = s.tick := by
  rw [smearData]
  split <;> exact ⟨rfl, rfl, rfl⟩

/-- The record of the command about to be given. -/
def nextMove (env : Env) (sector numSectors buf : ℕ) (isWrite : Bool) (s : State) : Move :=
  ⟨s.selected, isWrite, sector, min numSectors 0xFFFF, buf, (env s.tick).ok⟩

/-- **One transfer command**: it is recorded with the partition selected, which it leaves
selected. -/
theorem readwriteEx_spec (env : Env) (sector numSectors buf : ℕ) (isWrite : Bool) (s : State) :
    (readwriteEx env sector numSectors buf isWrite s).1 = (env s.tick).ok ∧
      ((env s.tick).ok = true →
        (readwriteEx env sector numSectors buf isWrite s).2.1 = min numSectors 0xFFFF) ∧
      (readwriteEx env sector numSectors buf isWrite s).2.2.selected = s.selected ∧
      (readwriteEx env sector numSectors buf isWrite s).2.2.moves =
        nextMove env sector numSectors buf isWrite s :: s.moves ∧
      (readwriteEx env sector numSectors buf isWrite s).2.2.tick = s.tick + 1 := by
  rw [readwriteEx, nextMove]
  cases hok : (env s.tick).ok with
  | true =>
    obtain ⟨hsel, hmoves, htick⟩ := moveData_keeps isWrite (cardBlock s sector)
      (min numSectors 0xFFFF) buf { s with
        tick := s.tick + 1
        moves := ⟨s.selected, isWrite, sector, min numSectors 0xFFFF, buf, true⟩ :: s.moves }
    exact ⟨rfl, fun _ ↦ rfl, hsel, hmoves, htick⟩
  | false =>
    obtain ⟨hsel, hmoves, htick⟩ := smearData_keeps (env s.tick) isWrite (cardBlock s sector)
      (min numSectors 0xFFFF) buf { s with
        tick := s.tick + 1
        moves := ⟨s.selected, isWrite, sector, min numSectors 0xFFFF, buf, false⟩ :: s.moves }
    exact ⟨rfl, fun h ↦ absurd h Bool.false_ne_true, hsel, hmoves, htick⟩

/-! ## The transfer loop -/

/-- **The invariant rule for transfers.**  What every command keeps, and every re-initialisation
that succeeds, holds after a transfer that succeeds; and if a re-initialisation that fails leaves no
less than `Q`, then `Q` holds after any transfer. -/
theorem readwrite_rule {reinit : Bool → State → Bool × State} {I Q : State → Prop} {isWrite : Bool}
    (hcmd : ∀ sector n buf s, I s → I (readwriteEx env sector n buf isWrite s).2.2)
    (htrue : ∀ first s, I s → (reinit first s).1 = true → I (reinit first s).2)
    (hfalse : ∀ first s, I s → (reinit first s).1 = false → Q (reinit first s).2)
    (hkept : ∀ s, I s → Q s) (sector num buf : ℕ) (h : I s) :
    ((sdmmcStorageReadwrite env reinit sector num buf isWrite s).1 = true →
        I (sdmmcStorageReadwrite env reinit sector num buf isWrite s).2) ∧
      Q (sdmmcStorageReadwrite env reinit sector num buf isWrite s).2 := by
  have hpass : ∀ x : Xfer, I x.s → (readwritePass env reinit sector num buf isWrite x).All
      (fun x ↦ I x.s) fun r ↦ (r.1 = true → I r.2) ∧ Q r.2 := by
    intro x hx
    have hnext := hcmd x.sctOff (min x.sctTotal 0xFFFF) x.bbuf x.s hx
    rw [readwritePass]
    rcases hr : readwriteEx env x.sctOff (min x.sctTotal 0xFFFF) x.bbuf isWrite x.s with
      ⟨_ | _, cnt, s₁⟩ <;> rw [hr] at hnext <;> dsimp only at hnext ⊢
    · split
      · exact hnext
      · have hok := htrue x.firstReinit s₁ hnext
        have hfail := hfalse x.firstReinit s₁ hnext
        rcases hi : reinit x.firstReinit s₁ with ⟨_ | _, s₂⟩ <;> rw [hi] at hok hfail
        · exact ⟨fun h ↦ absurd h Bool.false_ne_true, hfail rfl⟩
        · exact hok rfl
    · split
      · exact ⟨fun _ ↦ hnext, hkept s₁ hnext⟩
      · exact hnext
  have hloop := Loop.run_all hpass (s := .start sector num buf 5 true s) h (30 * num + 36)
  rw [sdmmcStorageReadwrite]
  split
  · exact ⟨fun h ↦ absurd h Bool.false_ne_true, hkept s h⟩
  · split
    · exact ⟨fun _ ↦ h, hkept s h⟩
    · refine hloop.elim ?_ ?_
      · intro x hx
        exact ⟨fun h ↦ absurd h Bool.false_ne_true, hkept x.s hx⟩
      · intro r hr
        exact hr

/-! ## The law -/

/-- A transfer of the sector `sector` to or from the address `a` has succeeded on partition `p`. -/
def Moved (p : ℕ) (isWrite : Bool) (sector a : ℕ) (moves : List Move) : Prop :=
  ∃ mv ∈ moves, mv.ok = true ∧ mv.part = p ∧ mv.isWrite = isWrite ∧
    ∃ j < mv.count, (mv.sector + j) % 2 ^ 32 = sector % 2 ^ 32 ∧ mv.buf + blockSize * j = a

/-- The state with nothing on record, so that what is on record later is due to the call. -/
def State.cleared (s : State) : State := { s with moves := [] }

/-- Partition stability of one call, from what it ends with: every transfer command on record
belongs to `p`, and success means that every sector asked for was moved there. -/
structure PartitionStable (p sector numSectors buf : ℕ) (isWrite : Bool) (r : Bool × State) :
    Prop where
  /-- No other partition is touched. -/
  moves : ∀ mv ∈ r.2.moves, mv.part = p
  /-- Success means what it says. -/
  moved : r.1 = true → ∀ i < numSectors,
    Moved p isWrite (sector + i) (buf + blockSize * i) r.2.moves

theorem Moved.mono {p sector a : ℕ} {isWrite : Bool} {l l' : List Move}
    (h : Moved p isWrite sector a l) (hl : ∀ mv ∈ l, mv ∈ l') : Moved p isWrite sector a l' := by
  obtain ⟨mv, hmv, hrest⟩ := h
  exact ⟨mv, hl mv hmv, hrest⟩

section
variable {p sector numSectors buf : ℕ} {isWrite : Bool} {s₀ : State}

/-- What holds at the label `reinit_try` while the partition `p` is selected: `numSectors -
sctTotal` sectors have been moved, and the variables say where the next one goes. -/
structure OnTrack (p sector numSectors buf : ℕ) (isWrite : Bool) (x : Xfer) : Prop where
  /-- Every transfer so far was on `p`. -/
  moves : ∀ mv ∈ x.s.moves, mv.part = p
  /-- There is something left to move. -/
  pos : 0 < x.sctTotal
  /-- But no more than there was. -/
  le : x.sctTotal ≤ numSectors
  /-- The next sector. -/
  sctOff : x.sctOff % 2 ^ 32 = (sector + (numSectors - x.sctTotal)) % 2 ^ 32
  /-- Its place in memory. -/
  bbuf : x.bbuf = buf + blockSize * (numSectors - x.sctTotal)
  /-- The sectors before it have been moved. -/
  moved : ∀ i < numSectors - x.sctTotal,
    Moved p isWrite (sector + i) (buf + blockSize * i) x.s.moves

/-- A transfer that starts, or starts over, is on track. -/
theorem OnTrack.start {s : State} (hmoves : ∀ mv ∈ s.moves, mv.part = p) (hpos : 0 < numSectors)
    (retries : ℕ) (first : Bool) :
    OnTrack p sector numSectors buf isWrite (.start sector numSectors buf retries first s) := by
  refine ⟨hmoves, hpos, Nat.le_refl _, ?_, ?_, fun i hi ↦ ?_⟩
  · change sector % 2 ^ 32 = (sector + (numSectors - numSectors)) % 2 ^ 32
    rw [Nat.sub_self, Nat.add_zero]
  · change buf = buf + blockSize * (numSectors - numSectors)
    rw [Nat.sub_self, Nat.mul_zero, Nat.add_zero]
  · change i < numSectors - numSectors at hi
    omega

/-- The transfers on record after a command given on partition `p`. -/
theorem OnTrack.moves_next {x : Xfer} (env : Env) (h : OnTrack p sector numSectors buf isWrite x)
    (hsel : x.s.selected = p) {n : ℕ} :
    ∀ mv ∈ (readwriteEx env x.sctOff n x.bbuf isWrite x.s).2.2.moves, mv.part = p := by
  intro mv hmv
  rw [(readwriteEx_spec env _ _ _ _ _).2.2.2.1] at hmv
  rcases List.mem_cons.mp hmv with rfl | hmv
  · exact hsel
  · exact h.moves mv hmv

/-- A command that succeeds moves the next sectors. -/
theorem OnTrack.moved_next {x : Xfer} (env : Env) (h : OnTrack p sector numSectors buf isWrite x)
    (hsel : x.s.selected = p) (hok : (env x.s.tick).ok = true) {i : ℕ}
    (hi : i < numSectors - x.sctTotal + min x.sctTotal 0xFFFF) :
    Moved p isWrite (sector + i) (buf + blockSize * i)
      (readwriteEx env x.sctOff (min x.sctTotal 0xFFFF) x.bbuf isWrite x.s).2.2.moves := by
  have hmoves := (readwriteEx_spec env x.sctOff (min x.sctTotal 0xFFFF) x.bbuf isWrite x.s).2.2.2.1
  rw [hmoves]
  by_cases hold : i < numSectors - x.sctTotal
  · exact (h.moved i hold).mono fun mv hmv ↦ List.mem_cons_of_mem _ hmv
  · -- Sector `i` is one of those just moved, `j` sectors into the command.
    obtain ⟨j, rfl⟩ : ∃ j, i = numSectors - x.sctTotal + j :=
      ⟨i - (numSectors - x.sctTotal), by omega⟩
    refine ⟨_, List.mem_cons_self, hok, hsel, rfl, j, ?_, ?_, ?_⟩
    · change j < min (min x.sctTotal 0xFFFF) 0xFFFF
      omega
    · change (x.sctOff + j) % 2 ^ 32 = _
      rw [← Nat.add_assoc, Nat.add_mod, h.sctOff, ← Nat.add_mod]
    · change x.bbuf + blockSize * j = _
      rw [h.bbuf, Nat.mul_add, Nat.add_assoc]

/-- The label `reinit_try`, whatever has happened so far: the card has `p` selected or has been
reset, and in the first case the transfer is on track. -/
structure XferInv (p sector numSectors buf : ℕ) (isWrite : Bool) (x : Xfer) : Prop where
  selected : x.s.selected = p ∨ x.s.selected = 0
  onTrack : x.s.selected = p → OnTrack p sector numSectors buf isWrite x

/-- The selected partition, after anything idle, is `p` only if it was. -/
theorem selected_of_idle {s₁ s₂ : State} (h : Idle s₁ s₂) (hsel : s₁.selected = p ∨ s₁.selected = 0)
    (hp : s₂.selected = p) : s₁.selected = p := by
  rcases hsel with hsel | hsel
  · exact hsel
  · rcases h.selected with hs | hs
    · rw [← hs, hp]
    · rw [hsel, ← hs, hp]

/-- One pass of the transfer loop keeps the invariant. -/
theorem XferInv.step {x x' : Xfer} (h : XferInv p sector numSectors buf isWrite x)
    (hx : readwritePass env (emmcReinit env) sector numSectors buf isWrite x = .again x') :
    XferInv p sector numSectors buf isWrite x' := by
  obtain ⟨hres, hcnt, hsel, hmoves, -⟩ :=
    readwriteEx_spec env x.sctOff (min x.sctTotal 0xFFFF) x.bbuf isWrite x.s
  have hnext := fun hp ↦ (h.onTrack hp).moves_next env (n := min x.sctTotal 0xFFFF) hp
  have hmoved := fun hp hok i hi ↦ (h.onTrack hp).moved_next env (i := i) hp hok hi
  rw [readwritePass] at hx
  rcases hr : readwriteEx env x.sctOff (min x.sctTotal 0xFFFF) x.bbuf isWrite x.s with
    ⟨_ | _, cnt, s₁⟩ <;> rw [hr] at hx hres hcnt hsel hmoves hnext hmoved <;> dsimp only at *
  · split at hx
    · -- Another try.
      rw [← Loop.Pass.again.inj hx]
      refine ⟨hsel ▸ h.selected, fun hp ↦ ?_⟩
      have hp' : x.s.selected = p := hsel ▸ hp
      have hon := h.onTrack hp'
      exact ⟨hnext hp', hon.pos, hon.le, hon.sctOff, hon.bbuf, fun i hi ↦
        (hon.moved i hi).mono fun mv hmv ↦ by rw [hmoves]; exact List.mem_cons_of_mem _ hmv⟩
    · -- A re-initialisation, and the transfer starts over.
      have hidle := emmcReinit_idle env x.firstReinit s₁
      have hfresh : (emmcReinit env x.firstReinit s₁).1 = true → _ := emmcReinit_fresh
      rcases hi : emmcReinit env x.firstReinit s₁ with ⟨_ | _, s₂⟩ <;> rw [hi] at hx hidle hfresh
      · cases hx
      · rw [← Loop.Pass.again.inj hx]
        refine ⟨.inr (hfresh rfl).selected, fun hp ↦ ?_⟩
        have hp' : x.s.selected = p := hsel ▸ selected_of_idle hidle (hsel ▸ h.selected) hp
        have hon := h.onTrack hp'
        have hmoves₂ : ∀ mv ∈ s₂.moves, mv.part = p := fun mv hmv ↦
          hnext hp' mv (hidle.moves ▸ hmv)
        exact .start hmoves₂ (Nat.lt_of_lt_of_le hon.pos hon.le) 3 false
  · -- The next sectors have been moved.
    have hcnt' : cnt = min x.sctTotal 0xFFFF := by
      rw [hcnt hres.symm, Nat.min_assoc, Nat.min_self]
    split at hx
    · cases hx
    · next hleft =>
      rw [← Loop.Pass.again.inj hx]
      refine ⟨hsel ▸ h.selected, fun hp ↦ ?_⟩
      have hp' : x.s.selected = p := hsel ▸ hp
      have hon := h.onTrack hp'
      have hpos := hon.pos
      have hle := hon.le
      have hdone : numSectors - (x.sctTotal - cnt) = numSectors - x.sctTotal + cnt := by omega
      refine ⟨hnext hp', Nat.pos_of_ne_zero hleft, Nat.le_trans (Nat.sub_le _ _) hle, ?_, ?_,
        fun i hi ↦ ?_⟩
      · dsimp only
        rw [hdone, Nat.mod_mod, Nat.add_mod, hon.sctOff, ← Nat.add_mod, Nat.add_assoc]
      · dsimp only
        rw [hdone, hon.bbuf, Nat.mul_add, Nat.add_assoc]
      · dsimp only at hi
        exact hmoved hp' hres.symm i (by rw [← hcnt', ← hdone]; exact hi)

/-- What the transfer loop leaves with. -/
theorem XferInv.leave {x : Xfer} {r : Bool × State}
    (h : XferInv p sector numSectors buf isWrite x)
    (hx : readwritePass env (emmcReinit env) sector numSectors buf isWrite x = .leave r)
    (hp : r.2.selected = p) : PartitionStable p sector numSectors buf isWrite r := by
  obtain ⟨hres, hcnt, hsel, hmoves, -⟩ :=
    readwriteEx_spec env x.sctOff (min x.sctTotal 0xFFFF) x.bbuf isWrite x.s
  have hnext := fun hp ↦ (h.onTrack hp).moves_next env (n := min x.sctTotal 0xFFFF) hp
  have hmoved := fun hp hok i hi ↦ (h.onTrack hp).moved_next env (i := i) hp hok hi
  rw [readwritePass] at hx
  rcases hr : readwriteEx env x.sctOff (min x.sctTotal 0xFFFF) x.bbuf isWrite x.s with
    ⟨_ | _, cnt, s₁⟩ <;> rw [hr] at hx hres hcnt hsel hmoves hnext hmoved <;> dsimp only at *
  · split at hx
    · cases hx
    · have hidle := emmcReinit_idle env x.firstReinit s₁
      rcases hi : emmcReinit env x.firstReinit s₁ with ⟨_ | _, s₂⟩ <;> rw [hi] at hx hidle
      · rw [← Loop.Pass.leave.inj hx] at hp ⊢
        have hp' : x.s.selected = p := hsel ▸ selected_of_idle hidle (hsel ▸ h.selected) hp
        exact ⟨fun mv hmv ↦ hnext hp' mv (hidle.moves ▸ hmv), fun h ↦ absurd h Bool.false_ne_true⟩
      · cases hx
  · have hcnt' : cnt = min x.sctTotal 0xFFFF := by
      rw [hcnt hres.symm, Nat.min_assoc, Nat.min_self]
    split at hx
    · next hleft =>
      rw [← Loop.Pass.leave.inj hx] at hp ⊢
      have hp' : x.s.selected = p := hsel ▸ hp
      have hle := (h.onTrack hp').le
      exact ⟨hnext hp', fun _ i hi ↦ hmoved hp' hres.symm i (by omega)⟩
    · cases hx

/-- **A call that leaves the partition selected has moved the sectors of that partition.** -/
theorem readwrite_stable (hclear : s₀.moves = []) (hsel : s₀.selected = p)
    (hp : (sdmmcStorageReadwrite env (emmcReinit env) sector numSectors buf isWrite s₀).2.selected =
      p) : PartitionStable p sector numSectors buf isWrite
      (sdmmcStorageReadwrite env (emmcReinit env) sector numSectors buf isWrite s₀) := by
  rw [sdmmcStorageReadwrite] at hp ⊢
  have hnone : ∀ mv ∈ s₀.moves, mv.part = p := by
    intro mv hmv
    rw [hclear] at hmv
    exact absurd hmv List.not_mem_nil
  by_cases hinit : s₀.dev.initialized = true
  swap
  · simp only [hinit, Bool.not_false, ↓reduceIte]
    exact ⟨hnone, fun h ↦ absurd h Bool.false_ne_true⟩
  by_cases hnum : numSectors = 0
  · simp only [hinit, hnum, Bool.not_true, Bool.false_eq_true, ↓reduceIte]
    exact ⟨hnone, fun _ i hi ↦ absurd hi (Nat.not_lt_zero i)⟩
  simp only [hinit, hnum, Bool.not_true, Bool.false_eq_true, ↓reduceIte] at hp ⊢
  have hstart : XferInv p sector numSectors buf isWrite (.start sector numSectors buf 5 true s₀) :=
    ⟨.inl hsel, fun _ ↦ .start hnone (Nat.pos_of_ne_zero hnum) 5 true⟩
  set pass := readwritePass env (emmcReinit env) sector numSectors buf isWrite
  obtain ⟨hagain, hleave⟩ := Loop.run_inv (I := XferInv p sector numSectors buf isWrite)
    (Q := fun r ↦ r.2.selected = p → PartitionStable p sector numSectors buf isWrite r)
    (fun x x' hx (h : pass x = .again x') ↦ hx.step h)
    (fun x r hx (h : pass x = .leave r) hp ↦ hx.leave h hp) hstart (30 * numSectors + 36)
  split at hp
  · next r heq => exact hleave r heq hp
  · next x heq =>
    exact ⟨((hagain x heq).onTrack hp).moves, fun h ↦ absurd h Bool.false_ne_true⟩

/-! ## What a call does to the state -/

/-- The state a pass ends in, whichever way it ends. -/
def passState : Loop.Pass Xfer (Bool × State) → State
  | .again x => x.s
  | .leave r => r.2

/-- **A pass is one command, and after it nothing that is not idle.** -/
theorem readwritePass_idle (env : Env) (x : Xfer) :
    Idle (readwriteEx env x.sctOff (min x.sctTotal 0xFFFF) x.bbuf isWrite x.s).2.2
      (passState (readwritePass env (emmcReinit env) sector numSectors buf isWrite x)) := by
  rw [readwritePass]
  rcases readwriteEx env x.sctOff (min x.sctTotal 0xFFFF) x.bbuf isWrite x.s
    with ⟨_ | _, cnt, s₁⟩ <;>
    dsimp only
  · by_cases hret : x.retries - 1 ≠ 0
    · rw [if_pos hret]
      exact .refl s₁
    · have hidle := emmcReinit_idle env x.firstReinit s₁
      rw [if_neg hret]
      rcases hi : emmcReinit env x.firstReinit s₁ with ⟨_ | _, s₂⟩ <;> rw [hi] at hidle <;>
        exact hidle
  · by_cases hleft : x.sctTotal - cnt = 0
    · rw [if_pos hleft]
      exact .refl s₁
    · rw [if_neg hleft]
      exact .refl s₁

/-- What every pass keeps, the loop keeps. -/
theorem readwriteLoop_state {I : State → Prop} (hI : ∀ x : Xfer, I x.s →
      I (passState (readwritePass env (emmcReinit env) sector numSectors buf isWrite x)))
    {x : Xfer} (hx : I x.s) (n : ℕ) : I (passState (Loop.run
      (readwritePass env (emmcReinit env) sector numSectors buf isWrite) n x)) := by
  set pass := readwritePass env (emmcReinit env) sector numSectors buf isWrite
  obtain ⟨hagain, hleave⟩ := Loop.run_inv (I := fun x : Xfer ↦ I x.s) (Q := fun r ↦ I r.2)
    (fun x x' hx (h : pass x = .again x') ↦ by have := hI x hx; rwa [h] at this)
    (fun x r hx (h : pass x = .leave r) ↦ by have := hI x hx; rwa [h] at this) hx n
  cases hr : Loop.run pass n x with
  | again x' => exact hagain x' hr
  | leave r => exact hleave r hr

/-- The state a call ends in is the one its loop ends in. -/
theorem readwrite_state (hinit : s₀.dev.initialized = true) (hnum : numSectors ≠ 0) :
    (sdmmcStorageReadwrite env (emmcReinit env) sector numSectors buf isWrite s₀).2 =
      passState (Loop.run (readwritePass env (emmcReinit env) sector numSectors buf isWrite)
        (30 * numSectors + 36) (.start sector numSectors buf 5 true s₀)) := by
  rw [sdmmcStorageReadwrite]
  simp only [hinit, hnum, Bool.not_true, Bool.false_eq_true, ↓reduceIte]
  split <;> next heq => rw [heq]; rfl

/-- In the user area nothing ever selects another partition. -/
theorem readwrite_selected_zero (h : s₀.selected = 0) :
    (sdmmcStorageReadwrite env (emmcReinit env) sector numSectors buf isWrite s₀).2.selected =
      0 := by
  have hreinit : ∀ first s, s.selected = 0 → (emmcReinit env first s).2.selected = 0 := by
    intro first s hs
    rcases (emmcReinit_idle env first s).selected with hsel | hsel
    · exact hsel.trans hs
    · exact hsel
  refine (readwrite_rule (I := fun s ↦ s.selected = 0) (Q := fun s ↦ s.selected = 0)
    (fun sector n buf s hs ↦ ?_) (fun first s hs _ ↦ hreinit first s hs)
    (fun first s hs _ ↦ hreinit first s hs) (fun _ ↦ id) sector numSectors buf h).2
  rw [(readwriteEx_spec env sector n buf isWrite s).2.2.1]
  exact hs

/-! ## The transfer that strays -/

/-- A device on which the five commands from `t` on fail and all later ones succeed. -/
def fiveFailures (t : ℕ) : Env := fun n ↦ ⟨decide (t + 5 ≤ n), false, fun _ ↦ false, fun _ ↦ 0⟩

/-- The state after `i` transfer commands in a row. -/
def attempts (env : Env) (sector numSectors buf : ℕ) (isWrite : Bool) (s : State) : ℕ → State
  | 0 => s
  | i + 1 =>
    (readwriteEx env sector (min numSectors 0xFFFF) buf isWrite
      (attempts env sector numSectors buf isWrite s i)).2.2

theorem attempts_tick (i : ℕ) :
    (attempts env sector numSectors buf isWrite s i).tick = s.tick + i := by
  induction i with
  | zero => rfl
  | succ i ih => rw [attempts, (readwriteEx_spec env _ _ _ _ _).2.2.2.2, ih, Nat.add_assoc]

/-- A transfer on record stays on record, and the command a pass begins with is put on it. -/
theorem readwritePass_moves (env : Env) (x : Xfer) :
    (passState (readwritePass env (emmcReinit env) sector numSectors buf isWrite x)).moves =
      nextMove env x.sctOff (min x.sctTotal 0xFFFF) x.bbuf isWrite x.s :: x.s.moves :=
  (readwritePass_idle env x).moves.trans
    (readwriteEx_spec env x.sctOff (min x.sctTotal 0xFFFF) x.bbuf isWrite x.s).2.2.2.1

/-- The command the loop begins with is on record when it ends. -/
theorem readwriteLoop_mem (x : Xfer) (n : ℕ) :
    nextMove env x.sctOff (min x.sctTotal 0xFFFF) x.bbuf isWrite x.s ∈ (passState (Loop.run
      (readwritePass env (emmcReinit env) sector numSectors buf isWrite) (n + 1) x)).moves := by
  set mv := nextMove env x.sctOff (min x.sctTotal 0xFFFF) x.bbuf isWrite x.s
  set pass := readwritePass env (emmcReinit env) sector numSectors buf isWrite
  have hfirst : mv ∈ (passState (pass x)).moves := by
    rw [readwritePass_moves]
    exact List.mem_cons_self
  cases hp : pass x with
  | leave r =>
    rw [Loop.run_succ_leave hp]
    rwa [hp] at hfirst
  | again x' =>
    rw [Loop.run_succ_again hp]
    rw [hp] at hfirst
    refine readwriteLoop_state (I := fun s ↦ mv ∈ s.moves) (fun x hx ↦ ?_) hfirst n
    rw [readwritePass_moves]
    exact List.mem_cons_of_mem _ hx

theorem readwriteEx_false {n a : ℕ} (h : (env s.tick).ok = false) :
    readwriteEx env sector n a isWrite s =
      (false, 0, (readwriteEx env sector n a isWrite s).2.2) := by
  simp [readwriteEx, h]

/-- A command that fails is tried again. -/
theorem readwritePass_retry {reinit : Bool → State → Bool × State} {x : Xfer}
    (hfail : (env x.s.tick).ok = false) (hret : x.retries - 1 ≠ 0) :
    readwritePass env reinit sector numSectors buf isWrite x = .again { x with
      retries := x.retries - 1
      s := (readwriteEx env x.sctOff (min x.sctTotal 0xFFFF) x.bbuf isWrite x.s).2.2 } := by
  rw [readwritePass, readwriteEx_false hfail]
  dsimp only
  rw [if_pos hret]

/-- The last try, and a re-initialisation that succeeds. -/
theorem readwritePass_reinit {reinit : Bool → State → Bool × State} {x : Xfer} {s' : State}
    (hfail : (env x.s.tick).ok = false) (hret : ¬ x.retries - 1 ≠ 0)
    (hre : reinit x.firstReinit
      (readwriteEx env x.sctOff (min x.sctTotal 0xFFFF) x.bbuf isWrite x.s).2.2 = (true, s')) :
    readwritePass env reinit sector numSectors buf isWrite x =
      .again (.start sector numSectors buf 3 false s') := by
  rw [readwritePass, readwriteEx_false hfail]
  dsimp only
  rw [if_neg hret, hre]

/-- The loop after `i` failures. -/
def failed (env : Env) (sector numSectors buf : ℕ) (isWrite : Bool) (s : State) (i : ℕ) : Xfer :=
  ⟨sector, numSectors, buf, 5 - i, true, attempts env sector numSectors buf isWrite s i⟩

/-- Five failures in a row, and a re-initialisation that succeeds: the transfer starts over. -/
theorem readwriteLoop_restarts {reinit : Bool → State → Bool × State} {s₁ : State}
    (hfail : ∀ i < 5, (env (s₀.tick + i)).ok = false)
    (hre : reinit true (attempts env sector numSectors buf isWrite s₀ 5) = (true, s₁)) (n : ℕ) :
    Loop.run (readwritePass env reinit sector numSectors buf isWrite) (4 + (n + 1))
        (.start sector numSectors buf 5 true s₀) =
      Loop.run (readwritePass env reinit sector numSectors buf isWrite) n
        (.start sector numSectors buf 3 false s₁) := by
  generalize hf : failed env sector numSectors buf isWrite s₀ = f
  have hfalse : ∀ i < 5, (env (f i).s.tick).ok = false := by
    intro i hi
    have htick : (f i).s.tick = s₀.tick + i := by subst hf; exact attempts_tick i
    rw [htick]
    exact hfail i hi
  have hfour : ∀ i < 4, readwritePass env reinit sector numSectors buf isWrite (f i) =
      .again (f (i + 1)) := by
    intro i hi
    have hret : (f i).retries - 1 ≠ 0 := by
      subst hf
      change 5 - i - 1 ≠ 0
      omega
    rw [readwritePass_retry (hfalse i (by omega)) hret]
    subst hf
    rfl
  have hfive : readwritePass env reinit sector numSectors buf isWrite (f 4) =
      .again (.start sector numSectors buf 3 false s₁) := by
    refine readwritePass_reinit (hfalse 4 (by decide)) ?_ ?_ <;> subst hf
    · exact fun h ↦ h rfl
    · exact hre
  have hstart : Xfer.start sector numSectors buf 5 true s₀ = f 0 := by subst hf; rfl
  rw [hstart]
  exact (Loop.run_follow f hfour _).trans (Loop.run_succ_again hfive)

/-- **After five failures the transfer is in the user area.** -/
theorem readwrite_strays (sector buf : ℕ) (isWrite : Bool) (hinit : s₀.dev.initialized = true)
    (hnum : numSectors ≠ 0) :
    ∃ mv ∈ (sdmmcStorageReadwrite (fiveFailures s₀.tick) (emmcReinit (fiveFailures s₀.tick)) sector
      numSectors buf isWrite s₀).2.moves, mv.part = 0 := by
  have hfail : ∀ i < 5, (fiveFailures s₀.tick (s₀.tick + i)).ok = false :=
    fun i hi ↦ decide_eq_false (by omega)
  generalize hs₅ : attempts (fiveFailures s₀.tick) sector numSectors buf isWrite s₀ 5 = s₅
  -- The fifth failure: the card is initialised again, and every command of that succeeds.
  have hok : OkFrom (fiveFailures s₀.tick) s₅.tick := by
    intro n hn
    have htick : s₅.tick = s₀.tick + 5 := by rw [← hs₅]; exact attempts_tick 5
    exact decide_eq_true (by omega)
  have hre : (emmcReinit (fiveFailures s₀.tick) true s₅).1 = true := emmcInitialize_of_ok true hok
  have hfresh := emmcReinit_fresh hre
  rcases hs₁ : emmcReinit (fiveFailures s₀.tick) true s₅ with ⟨_ | _, s₁⟩ <;> rw [hs₁] at hre hfresh
  · exact absurd hre Bool.false_ne_true
  have hfuel : 30 * numSectors + 36 = 4 + (30 * numSectors + 30 + 1 + 1) := by omega
  rw [readwrite_state hinit hnum, hfuel, readwriteLoop_restarts hfail (hs₅ ▸ hs₁)]
  exact ⟨_, readwriteLoop_mem _ _, hfresh.selected⟩

end

/-- **Partition stability, exactly where it holds**: in the user area, or where nothing is moved. -/
theorem partitionStable_iff {p : ℕ} (hsel : s.selected = p) (sector numSectors buf : ℕ)
    (isWrite : Bool) :
    (∀ env, PartitionStable p sector numSectors buf isWrite
      (sdmmcStorageReadwrite env (emmcReinit env) sector numSectors buf isWrite s.cleared)) ↔
      p = 0 ∨ numSectors = 0 ∨ s.dev.initialized = false := by
  constructor
  · intro h
    by_contra hcon
    obtain ⟨hp, hnum, hinit⟩ : p ≠ 0 ∧ numSectors ≠ 0 ∧ s.dev.initialized ≠ false := by
      simpa only [not_or] using hcon
    have hinit' : s.cleared.dev.initialized = true := by
      rwa [ne_eq, Bool.not_eq_false] at hinit
    obtain ⟨mv, hmv, hpart⟩ := readwrite_strays sector buf isWrite hinit' hnum
    exact hp ((h _).moves mv hmv ▸ hpart)
  · rintro (rfl | rfl | hinit) env
    · exact readwrite_stable rfl hsel (readwrite_selected_zero hsel)
    · refine readwrite_stable rfl hsel ?_
      rw [sdmmcStorageReadwrite]
      split
      · exact hsel
      · rw [if_pos rfl]
        exact hsel
    · refine readwrite_stable rfl hsel ?_
      have hinit' : s.cleared.dev.initialized = false := hinit
      rw [sdmmcStorageReadwrite, hinit', Bool.not_false, if_pos rfl]
      exact hsel

/-- A driver and a card on which the partition `p` is selected. -/
def selectedOn (p : ℕ) : State where
  dev := ⟨true, p, true, 0⟩
  mode := emmcMmcHs400
  card := ⟨true, 4, 0, fun _ ↦ 0⟩
  selected := p
  media := fun _ _ ↦ 0
  mem := fun _ ↦ 0
  tick := 0
  moves := []

theorem partitionStable_iff_gpp :
    (∀ env, PartitionStable 0 0x1000 0x10 usbEpBulkInBufAddr true
      (sdmmcStorageReadwrite env (emmcReinit env) 0x1000 0x10 usbEpBulkInBufAddr true
        (selectedOn 0).cleared)) ↔ 0 = 0 ∨ 0x10 = 0 ∨ (selectedOn 0).dev.initialized = false :=
  partitionStable_iff (s := selectedOn 0) rfl _ _ _ _

/-- The command sector of BOOT0, written on a device whose first five commands fail: the call
succeeds and the sector is written to the user area. -/
theorem partitionStable_counterexample : ¬ PartitionStable 1 1 1 usbEpBulkInBufAddr true
    (sdmmcStorageReadwrite (fiveFailures 0) (emmcReinit (fiveFailures 0)) 1 1
      usbEpBulkInBufAddr true (selectedOn 1).cleared) := by
  intro h
  have hinit : (selectedOn 1).cleared.dev.initialized = true := rfl
  obtain ⟨mv, hmv, hpart⟩ := readwrite_strays 1 usbEpBulkInBufAddr true hinit Nat.one_ne_zero
  rw [h.moves mv hmv] at hpart
  exact Nat.one_ne_zero hpart

end Storage
end SdLoader
