import SdLoader.Storage.Defs

/-!
# What the driver's operations leave behind

* `Idle` — the relation between the states before and after anything that is not a transfer: media,
  card and the transfers on record are as they were, memory has changed in the scratch sector at
  most, and the selected partition is the one it was or the user area.  Every step of an
  initialisation is `Idle`, and so is every composition of them (`Idle.trans`).
* `Fresh` — what an initialisation that succeeds has established: the user area is selected on the
  card, the driver knows it, and it addresses the card the way the card wants to be.
* `Blank` — what an initialisation that fails leaves known: nothing.
* `emmcReinit_idle`, `emmcReinit_fresh` — the two facts about a re-initialisation the transfer loop
  needs; `emmcInitialize_of_ok` — it succeeds if its commands do.
-/

set_option autoImplicit false

namespace SdLoader
namespace Storage

variable {env : Env} {s s' : State}

/-! ## Idle steps -/

/-- Is the address outside the scratch sector of the initialisation? -/
def OutsideScratch (x : ℕ) : Prop := x < sdmmcUpperBuffer ∨ sdmmcUpperBuffer + blockSize ≤ x

/-- `s'` is left of `s` by something that is not a transfer. -/
structure Idle (s s' : State) : Prop where
  /-- The card is the same. -/
  card : s'.card = s.card
  /-- So are its media. -/
  media : s'.media = s.media
  /-- There was no transfer. -/
  moves : s'.moves = s.moves
  /-- Memory is the same outside the scratch sector. -/
  mem : ∀ x, OutsideScratch x → s'.mem x = s.mem x
  /-- The card was reset, or it was not. -/
  selected : s'.selected = s.selected ∨ s'.selected = 0
  /-- Time has not run backwards. -/
  tick : s.tick ≤ s'.tick

theorem Idle.refl (s : State) : Idle s s := ⟨rfl, rfl, rfl, fun _ _ ↦ rfl, .inl rfl, Nat.le_refl _⟩

theorem Idle.trans {s₁ s₂ s₃ : State} (h : Idle s₁ s₂) (h' : Idle s₂ s₃) : Idle s₁ s₃ := by
  refine ⟨h'.card.trans h.card, h'.media.trans h.media, h'.moves.trans h.moves,
    fun x hx ↦ (h'.mem x hx).trans (h.mem x hx), ?_, Nat.le_trans h.tick h'.tick⟩
  rcases h'.selected with hs | hs
  · rw [hs]
    exact h.selected
  · exact .inr hs

/-- Changing what the driver knows, and its mode, is idle. -/
theorem Idle.of_driver (s : State) (dev : Dev) (mode : ℕ) :
    Idle s { s with dev := dev, mode := mode } :=
  ⟨rfl, rfl, rfl, fun _ _ ↦ rfl, .inl rfl, Nat.le_refl _⟩

theorem Idle.of_dev (s : State) (dev : Dev) : Idle s { s with dev := dev } :=
  Idle.of_driver s dev s.mode

theorem command_idle (env : Env) (s : State) : Idle s (command env s).2 :=
  ⟨rfl, rfl, rfl, fun _ _ ↦ rfl, .inl rfl, Nat.le_succ _⟩

/-- What every operation of a list does, the list does: the rule for a reflexive and transitive
relation. -/
theorem inOrder_rel {R : State → State → Prop} (hrefl : ∀ s, R s s)
    (htrans : ∀ s₁ s₂ s₃, R s₁ s₂ → R s₂ s₃ → R s₁ s₃) {l : List (State → Bool × State)}
    (hl : ∀ f ∈ l, ∀ s, R s (f s).2) (s : State) : R s (inOrder l s).2 := by
  induction l generalizing s with
  | nil => exact hrefl s
  | cons f l ih =>
    have hf := hl f List.mem_cons_self s
    rw [inOrder]
    rcases hc : f s with ⟨_ | _, s₁⟩ <;> rw [hc] at hf
    · exact hf
    · exact htrans _ _ _ hf (ih (fun g hg ↦ hl g (List.mem_cons_of_mem _ hg)) s₁)

/-- A list that succeeds has got past its first operation. -/
theorem inOrder_cons_true {f : State → Bool × State} {l : List (State → Bool × State)}
    (h : (inOrder (f :: l) s).1 = true) :
    (f s).1 = true ∧ inOrder (f :: l) s = inOrder l (f s).2 := by
  rw [inOrder] at h ⊢
  rcases hc : f s with ⟨_ | _, s₁⟩ <;> rw [hc] at h
  · exact absurd h Bool.false_ne_true
  · exact ⟨rfl, rfl⟩

/-- A list that succeeds has got past its first part. -/
theorem inOrder_append_true {l l' : List (State → Bool × State)}
    (h : (inOrder (l ++ l') s).1 = true) : inOrder (l ++ l') s = inOrder l' (inOrder l s).2 := by
  induction l generalizing s with
  | nil => rfl
  | cons f l ih =>
    obtain ⟨hf, heq⟩ := inOrder_cons_true (l := l ++ l') h
    have heq' : inOrder (f :: l) s = inOrder l (f s).2 := by
      rw [inOrder]
      rcases hc : f s with ⟨_ | _, s₁⟩ <;> rw [hc] at hf
      exact absurd hf Bool.false_ne_true
    rw [List.cons_append] at h ⊢
    rw [heq] at h ⊢
    rw [heq']
    exact ih h

theorem goIdleState_idle (env : Env) (s : State) : Idle s (goIdleState env s).2 := by
  refine ⟨rfl, rfl, rfl, fun _ _ ↦ rfl, ?_, Nat.le_succ _⟩
  rw [goIdleState]
  dsimp only
  split
  · exact .inr rfl
  · exact .inl rfl

theorem storageEnd_idle (env : Env) (s : State) : Idle s (storageEnd env s) := by
  have hidle := goIdleState_idle env s
  rw [storageEnd]
  rcases hc : goIdleState env s with ⟨_ | _, s₁⟩ <;> rw [hc] at hidle
  · exact hidle
  · exact hidle.trans (.of_dev _ _)

theorem getExtCsd_idle (env : Env) (s : State) : Idle s (getExtCsd env s).2 := by
  rw [getExtCsd]
  dsimp only
  split
  · exact ⟨rfl, rfl, rfl, fun x hx ↦ Store.blit_of_not_mem hx, .inl rfl, Nat.le_succ _⟩
  · exact ⟨rfl, rfl, rfl, fun x hx ↦ Store.smear_of_not_mem hx, .inl rfl, Nat.le_succ _⟩

theorem getOpCond_idle (env : Env) (s : State) : Idle s (getOpCond env s).2 :=
  ⟨rfl, rfl, rfl, fun _ _ ↦ rfl, .inl rfl, Nat.le_succ _⟩

/-- Idle, and the mode is left alone. -/
def IdleStep (s s' : State) : Prop := Idle s s' ∧ s'.mode = s.mode

theorem inOrder_idleStep {l : List (State → Bool × State)} (hl : ∀ f ∈ l, ∀ s, IdleStep s (f s).2)
    (s : State) : IdleStep s (inOrder l s).2 :=
  inOrder_rel (fun s ↦ ⟨.refl s, rfl⟩) (fun _ _ _ h h' ↦ ⟨h.1.trans h'.1, h'.2.trans h.2⟩) hl s

theorem command_idleStep (env : Env) (s : State) : IdleStep s (command env s).2 :=
  ⟨command_idle env s, rfl⟩

theorem getExtCsd_idleStep (env : Env) (s : State) : IdleStep s (getExtCsd env s).2 := by
  refine ⟨getExtCsd_idle env s, ?_⟩
  rw [getExtCsd]
  dsimp only
  split <;> rfl

theorem initMmcV4_idleStep (env : Env) (oneBit : Bool) (s : State) :
    IdleStep s (initMmcV4 env oneBit s).2 := by
  rw [initMmcV4]
  split
  · exact ⟨.refl s, rfl⟩
  · refine inOrder_idleStep (fun f hf s ↦ ?_) s
    simp only [List.mem_cons, List.not_mem_nil, or_false] at hf
    rcases hf with rfl | rfl | rfl
    · rw [switchBuswidth]
      split
      · exact ⟨.refl s, rfl⟩
      · exact command_idleStep env s
    · exact getExtCsd_idleStep env s
    · exact command_idleStep env s

/-- The initialisation of the card is idle, however it turns out. -/
theorem sdmmcStorageInitMmc_idleStep (env : Env) (oneBit : Bool) (s : State) :
    IdleStep s (sdmmcStorageInitMmc env oneBit s).2 := by
  have hzero : IdleStep s { s with dev := .zero } := ⟨.of_dev s _, rfl⟩
  have hsteps := inOrder_idleStep (l := [command env, goIdleState env, getOpCond env, command env,
    command env, command env, parseCsd, command env, command env, command env,
    initMmcV4 env oneBit, initDone]) (fun f hf s ↦ ?_) { s with dev := .zero }
  · exact ⟨hzero.1.trans hsteps.1, hsteps.2.trans hzero.2⟩
  · simp only [List.mem_cons, List.not_mem_nil, or_false] at hf
    rcases hf with rfl | rfl | rfl | rfl | rfl | rfl | rfl | rfl | rfl | rfl | rfl | rfl
    case inr.inl => exact ⟨goIdleState_idle env s, rfl⟩
    case inr.inr.inl => exact ⟨getOpCond_idle env s, rfl⟩
    case inr.inr.inr.inr.inr.inr.inl => exact ⟨.of_dev s _, rfl⟩
    case inr.inr.inr.inr.inr.inr.inr.inr.inr.inr.inl => exact initMmcV4_idleStep env oneBit s
    case inr.inr.inr.inr.inr.inr.inr.inr.inr.inr.inr => exact ⟨.of_dev s _, rfl⟩
    all_goals exact command_idleStep env s

/-! ## A card fresh from its initialisation -/

/-- The user area is selected and the driver is right about the card. -/
structure Fresh (s : State) : Prop where
  /-- The initialisation is complete. -/
  initialized : s.dev.initialized = true
  /-- The driver believes the user area to be selected. -/
  partition : s.dev.partition = 0
  /-- It is. -/
  selected : s.selected = 0
  /-- The driver addresses the card as the card expects. -/
  access : s.dev.hasSectorAccess = s.card.ccs

/-- What `sdmmc_storage_init_mmc` has established once it is past `_mmc_storage_get_op_cond`. -/
structure Halfway (s : State) : Prop where
  partition : s.dev.partition = 0
  selected : s.selected = 0
  access : s.dev.hasSectorAccess = s.card.ccs

/-- The operations after `_mmc_storage_get_op_cond` keep what it has established. -/
theorem Halfway.inOrder {l : List (State → Bool × State)}
    (hl : ∀ f ∈ l, ∀ s, Halfway s → Halfway (f s).2) (h : Halfway s) :
    Halfway (inOrder l s).2 :=
  inOrder_rel (R := fun s s' ↦ Halfway s → Halfway s') (fun _ ↦ id) (fun _ _ _ h h' ↦ h' ∘ h) hl s h

theorem Halfway.command (h : Halfway s) : Halfway (command env s).2 :=
  ⟨h.partition, h.selected, h.access⟩

theorem Halfway.initMmcV4 {oneBit : Bool} (h : Halfway s) : Halfway (initMmcV4 env oneBit s).2 := by
  rw [Storage.initMmcV4]
  split
  · exact h
  · refine Halfway.inOrder (fun f hf s hs ↦ ?_) h
    simp only [List.mem_cons, List.not_mem_nil, or_false] at hf
    rcases hf with rfl | rfl | rfl
    · rw [switchBuswidth]
      split <;> exact ⟨hs.partition, hs.selected, hs.access⟩
    · rw [getExtCsd]
      dsimp only
      split <;> exact ⟨hs.partition, hs.selected, hs.access⟩
    · exact hs.command

theorem Halfway.inOrder_done {l : List (State → Bool × State)} (h : Halfway s)
    (hl : ∀ f ∈ l, ∀ s, Halfway s → Halfway (f s).2)
    (htrue : (Storage.inOrder (l ++ [initDone]) s).1 = true) :
    Fresh (Storage.inOrder (l ++ [initDone]) s).2 := by
  induction l generalizing s with
  | nil => exact ⟨rfl, h.partition, h.selected, h.access⟩
  | cons f l ih =>
    rw [List.cons_append] at htrue ⊢
    obtain ⟨-, heq⟩ := inOrder_cons_true htrue
    rw [heq] at htrue ⊢
    exact ih (hl f List.mem_cons_self s h) (fun g hg ↦ hl g (List.mem_cons_of_mem _ hg)) htrue

/-- **An initialisation that succeeds leaves the card fresh.** -/
theorem sdmmcStorageInitMmc_fresh {oneBit : Bool}
    (h : (sdmmcStorageInitMmc env oneBit s).1 = true) :
    Fresh (sdmmcStorageInitMmc env oneBit s).2 := by
  rw [sdmmcStorageInitMmc] at h ⊢
  obtain ⟨-, heq⟩ := inOrder_cons_true h
  rw [heq] at h ⊢
  obtain ⟨hidle, heq⟩ := inOrder_cons_true h
  rw [heq] at h ⊢
  obtain ⟨hcond, heq⟩ := inOrder_cons_true h
  rw [heq] at h ⊢
  -- From here on every operation keeps what the last two have established.
  set s₀ : State := (command env { s with dev := .zero }).2
  have hhalf : Halfway (getOpCond env (goIdleState env s₀).2).2 := by
    refine ⟨rfl, ?_, ?_⟩
    · have hok : (env s₀.tick).ok = true := hidle
      simp [getOpCond, goIdleState, hok]
    · have hok : (env (s.tick + 1 + 1)).ok = true := hcond
      simp [getOpCond, goIdleState, hok, s₀, command, Dev.zero]
  refine hhalf.inOrder_done (l := [command env, command env, command env, parseCsd, command env,
    command env, command env, initMmcV4 env oneBit]) (fun f hf s hs ↦ ?_) h
  simp only [List.mem_cons, List.not_mem_nil, or_false] at hf
  rcases hf with rfl | rfl | rfl | rfl | rfl | rfl | rfl | rfl
  case inr.inr.inr.inl => exact ⟨hs.partition, hs.selected, hs.access⟩
  case inr.inr.inr.inr.inr.inr.inr => exact hs.initMmcV4
  all_goals exact hs.command

/-! ## Re-initialisation -/

theorem storageEnd_mode (env : Env) (s : State) : (storageEnd env s).mode = s.mode := by
  rw [storageEnd, goIdleState]
  cases (env s.tick).ok <;> rfl

/-- The mode `emmc_init_retry` goes by: a step down first, and never above the fastest. -/
def retryMode (powerCycle : Bool) (mode : ℕ) : ℕ :=
  min (if powerCycle then modeDec mode else mode) 4

/-- **One attempt at an initialisation**: idle, in the mode it should be, and fresh if it
succeeds. -/
theorem emmcInitRetry_spec (env : Env) (powerCycle : Bool) (s : State) :
    Idle s (emmcInitRetry env powerCycle s).2 ∧
      (emmcInitRetry env powerCycle s).2.mode = retryMode powerCycle s.mode ∧
      ((emmcInitRetry env powerCycle s).1 = true →
        Fresh (emmcInitRetry env powerCycle s).2 ∧ retryMode powerCycle s.mode ≠ 0) := by
  obtain ⟨s₁, hs₁, hidle, hmode⟩ : ∃ s₁, s₁ = (if powerCycle then
      storageEnd env { s with mode := modeDec s.mode } else s) ∧ Idle s s₁ ∧
      s₁.mode = if powerCycle then modeDec s.mode else s.mode := by
    refine ⟨_, rfl, ?_⟩
    cases powerCycle with
    | false => exact ⟨.refl s, rfl⟩
    | true =>
      exact ⟨(Idle.of_driver s s.dev _).trans (storageEnd_idle env _), storageEnd_mode env _⟩
  have hret : retryMode powerCycle s.mode = min s₁.mode 4 := by
    rw [retryMode, hmode]
  rw [emmcInitRetry, ← hs₁, hret]
  split
  · next h0 => rw [h0]; exact ⟨hidle, rfl, fun h ↦ absurd h Bool.false_ne_true⟩
  case h_6 h1 h2 h3 h4 h5 =>
    have hgt : ¬ s₁.mode ≤ 4 := by
      intro hle
      rcases hm : s₁.mode with _ | _ | _ | _ | _ | m
      · exact h1 hm
      · exact h2 hm
      · exact h3 hm
      · exact h4 hm
      · exact h5 hm
      · omega
    obtain ⟨hstep, hm⟩ := sdmmcStorageInitMmc_idleStep env false { s₁ with mode := emmcMmcHs400 }
    rw [Nat.min_eq_right (by omega), hm]
    exact ⟨(hidle.trans (.of_driver s₁ s₁.dev _)).trans hstep, rfl,
      fun h ↦ ⟨sdmmcStorageInitMmc_fresh h, by decide⟩⟩
  all_goals
    next hm' =>
    obtain ⟨hstep, hm⟩ := sdmmcStorageInitMmc_idleStep env _ s₁
    rw [hm, hm']
    exact ⟨hidle.trans hstep, rfl, fun h ↦ ⟨sdmmcStorageInitMmc_fresh h, by decide⟩⟩

theorem retryMode_le (powerCycle : Bool) (mode : ℕ) : retryMode powerCycle mode ≤ 4 :=
  Nat.min_le_right _ _

theorem retryMode_true {mode : ℕ} (h : 0 < mode) (h' : mode ≤ 4) :
    retryMode true mode = mode - 1 := by
  have hdec : modeDec mode = mode - 1 := if_neg (by omega)
  rw [retryMode, if_pos rfl, hdec]
  omega

theorem emmcInitializePass_again {p p' : Bool × State} (h : emmcInitializePass env p = .again p') :
    p' = emmcInitRetry env true p.2 := by
  obtain ⟨_ | _, t⟩ := p
  · simp only [emmcInitializePass] at h
    split at h
    · cases h
    · exact (Loop.Pass.again.inj h).symm
  · cases h

theorem emmcInitializePass_leave {p r : Bool × State} (h : emmcInitializePass env p = .leave r) :
    r = p := by
  obtain ⟨_ | _, t⟩ := p
  · simp only [emmcInitializePass] at h
    split at h
    · exact (Loop.Pass.leave.inj h).symm
    · cases h
  · exact (Loop.Pass.leave.inj h).symm

/-- What the loop of `emmc_initialize` keeps: `s₀` is where it started. -/
structure InitInv (s₀ : State) (p : Bool × State) : Prop where
  idle : Idle s₀ p.2
  mode : p.2.mode ≤ 4
  fresh : p.1 = true → Fresh p.2 ∧ p.2.mode ≠ 0

theorem emmcInitRetry_initInv {s₀ : State} (h : Idle s₀ s) (powerCycle : Bool) :
    InitInv s₀ (emmcInitRetry env powerCycle s) := by
  obtain ⟨hidle, hmode, hfresh⟩ := emmcInitRetry_spec env powerCycle s
  exact ⟨h.trans hidle, hmode ▸ retryMode_le _ _, fun ht ↦ ⟨(hfresh ht).1, hmode ▸ (hfresh ht).2⟩⟩

/-- **The initialisation with its retries.** -/
theorem emmcInitialize_spec (env : Env) (powerCycle : Bool) (s : State) :
    Idle s (emmcInitialize env powerCycle s).2 ∧
      ((emmcInitialize env powerCycle s).1 = true →
        Fresh (emmcInitialize env powerCycle s).2 ∧
          0 < (emmcInitialize env powerCycle s).2.mode ∧
          (emmcInitialize env powerCycle s).2.mode ≤ 4) := by
  rw [emmcInitialize]
  set s₁ := if s.mode = 0 then { s with mode := emmcMmcHs400 } else s with hs₁
  have h₁ : Idle s s₁ := by
    rw [hs₁]
    split
    · exact .of_driver s s.dev _
    · exact .refl s
  set s₂ := if powerCycle then storageEnd env s₁ else s₁ with hs₂
  have h₂ : Idle s s₂ := by
    rw [hs₂]
    split
    · exact h₁.trans (storageEnd_idle env s₁)
    · exact h₁
  obtain ⟨hagain, hleave⟩ : (∀ p', Loop.run (emmcInitializePass env) 6
      (emmcInitRetry env false s₂) = .again p' → InitInv s p') ∧ ∀ r, Loop.run
      (emmcInitializePass env) 6 (emmcInitRetry env false s₂) = .leave r → InitInv s r := by
    refine Loop.run_inv (fun p p' hp h ↦ ?_) (fun p r hp h ↦ ?_) (emmcInitRetry_initInv h₂ false) 6
    · rw [emmcInitializePass_again h]
      exact emmcInitRetry_initInv hp.idle true
    · rw [emmcInitializePass_leave h]
      exact hp
  split
  · next t heq =>
    obtain ⟨hidle, hmode, hfresh⟩ := hleave _ heq
    have hpos := (hfresh rfl).2
    exact ⟨hidle, fun _ ↦ ⟨(hfresh rfl).1, Nat.pos_of_ne_zero hpos, hmode⟩⟩
  · next t heq =>
    exact ⟨(hleave _ heq).idle.trans (storageEnd_idle env t), fun h ↦ absurd h Bool.false_ne_true⟩
  · next t heq => exact ⟨(hagain _ heq).idle, fun h ↦ absurd h Bool.false_ne_true⟩

/-! ## An initialisation that fails -/

/-- The driver knows nothing about the card. -/
structure Blank (s : State) : Prop where
  /-- It is not initialised. -/
  initialized : s.dev.initialized = false
  /-- And the user area is taken to be selected. -/
  partition : s.dev.partition = 0

theorem Blank.inOrder {l : List (State → Bool × State)} (hl : ∀ f ∈ l, ∀ s, Blank s → Blank (f s).2)
    (h : Blank s) : Blank (inOrder l s).2 :=
  inOrder_rel (R := fun s s' ↦ Blank s → Blank s') (fun _ ↦ id) (fun _ _ _ h h' ↦ h' ∘ h) hl s h

/-- A list that ends by setting `initialized` and does not get there. -/
theorem Blank.inOrder_done {l : List (State → Bool × State)}
    (hl : ∀ f ∈ l, ∀ s, Blank s → Blank (f s).2) (h : Blank s)
    (hfail : (Storage.inOrder (l ++ [initDone]) s).1 = false) :
    Blank (Storage.inOrder (l ++ [initDone]) s).2 := by
  induction l generalizing s with
  | nil => exact absurd hfail.symm Bool.false_ne_true
  | cons f l ih =>
    have hf := hl f List.mem_cons_self s h
    rw [List.cons_append, Storage.inOrder] at hfail ⊢
    rcases hc : f s with ⟨_ | _, s₁⟩ <;> rw [hc] at hf hfail
    · exact hf
    · exact ih (fun g hg ↦ hl g (List.mem_cons_of_mem _ hg)) hf hfail

theorem Blank.initMmcV4 {oneBit : Bool} (h : Blank s) : Blank (initMmcV4 env oneBit s).2 := by
  rw [Storage.initMmcV4]
  split
  · exact h
  · refine Blank.inOrder (fun f hf s hs ↦ ?_) h
    simp only [List.mem_cons, List.not_mem_nil, or_false] at hf
    rcases hf with rfl | rfl | rfl
    · rw [switchBuswidth]
      split <;> exact ⟨hs.initialized, hs.partition⟩
    · rw [getExtCsd]
      dsimp only
      split <;> exact ⟨hs.initialized, hs.partition⟩
    · exact ⟨hs.initialized, hs.partition⟩

theorem sdmmcStorageInitMmc_blank {oneBit : Bool}
    (h : (sdmmcStorageInitMmc env oneBit s).1 = false) :
    Blank (sdmmcStorageInitMmc env oneBit s).2 := by
  have hzero : Blank { s with dev := .zero } := ⟨rfl, rfl⟩
  refine hzero.inOrder_done (l := [command env, goIdleState env, getOpCond env, command env,
    command env, command env, parseCsd, command env, command env, command env,
    initMmcV4 env oneBit]) (fun f hf s hs ↦ ?_) h
  simp only [List.mem_cons, List.not_mem_nil, or_false] at hf
  rcases hf with rfl | rfl | rfl | rfl | rfl | rfl | rfl | rfl | rfl | rfl | rfl
  case inr.inr.inr.inr.inr.inr.inr.inr.inr.inr => exact hs.initMmcV4
  all_goals exact ⟨hs.initialized, hs.partition⟩

theorem storageEnd_blank (h : Blank s) : Blank (storageEnd env s) := by
  rw [storageEnd, goIdleState]
  cases (env s.tick).ok
  · exact ⟨h.initialized, h.partition⟩
  · exact ⟨rfl, h.partition⟩

/-- An attempt that fails leaves nothing known, if it gets as far as the card or if nothing was
known before. -/
theorem emmcInitRetry_blank {powerCycle : Bool} (hfail : (emmcInitRetry env powerCycle s).1 = false)
    (h : retryMode powerCycle s.mode ≠ 0 ∨ Blank s) :
    Blank (emmcInitRetry env powerCycle s).2 := by
  obtain ⟨s₁, hs₁, hmode, hblank⟩ : ∃ s₁ : State, s₁ = (if powerCycle then
      storageEnd env { s with mode := modeDec s.mode } else s) ∧
      s₁.mode = (if powerCycle then modeDec s.mode else s.mode) ∧ (Blank s → Blank s₁) := by
    refine ⟨_, rfl, ?_⟩
    cases powerCycle with
    | false => exact ⟨rfl, id⟩
    | true => exact ⟨storageEnd_mode env _, fun h ↦ storageEnd_blank ⟨h.initialized, h.partition⟩⟩
  rw [emmcInitRetry, ← hs₁] at hfail ⊢
  split at hfail
  · next h0 =>
    refine hblank (h.resolve_left fun hne ↦ hne ?_)
    rw [retryMode, ← hmode, h0]
    rfl
  all_goals exact sdmmcStorageInitMmc_blank hfail

/-- The loop of `emmc_initialize` is left: every pass that goes round again takes the mode down. -/
theorem emmcInitialize_leaves {p : Bool × State} (hp : p.2.mode ≤ 4) :
    ∃ r, Loop.run (emmcInitializePass env) 6 p = .leave r := by
  refine Loop.run_leave_of_measure (fun p ↦ p.2.mode ≤ 4) (fun p ↦ p.2.mode)
    (fun p p' hle h ↦ ?_) hp (Nat.lt_of_le_of_lt hp (by decide))
  obtain ⟨_ | _, t⟩ := p
  · have hpos : t.mode ≠ 0 := by
      intro h0
      simp [emmcInitializePass, h0] at h
    have hmode := (emmcInitRetry_spec env true t).2.1
    rw [retryMode_true (Nat.pos_of_ne_zero hpos) hle] at hmode
    rw [emmcInitializePass_again h, hmode]
    dsimp only at hle ⊢
    omega
  · cases h

/-- **An initialisation that fails leaves nothing known.** -/
theorem emmcInitialize_blank {powerCycle : Bool}
    (hfail : (emmcInitialize env powerCycle s).1 = false) :
    Blank (emmcInitialize env powerCycle s).2 := by
  obtain ⟨s₁, hs₁, hmode⟩ : ∃ s₁ : State, s₁ = (if s.mode = 0 then
      { s with mode := emmcMmcHs400 } else s) ∧ s₁.mode ≠ 0 := by
    refine ⟨_, rfl, ?_⟩
    split
    · exact Nat.succ_ne_zero 3
    · assumption
  obtain ⟨s₂, hs₂, hmode₂⟩ : ∃ s₂ : State, s₂ = (if powerCycle then storageEnd env s₁ else s₁) ∧
      s₂.mode ≠ 0 := by
    refine ⟨_, rfl, ?_⟩
    split
    · rw [storageEnd_mode]
      exact hmode
    · exact hmode
  have hfirst : (emmcInitRetry env false s₂).1 = false → Blank (emmcInitRetry env false s₂).2 := by
    refine fun h ↦ emmcInitRetry_blank h (.inl ?_)
    rw [retryMode, if_neg Bool.false_ne_true]
    omega
  have hpass : ∀ p : Bool × State, (p.1 = false → Blank p.2) →
      (emmcInitializePass env p).All (fun p ↦ p.1 = false → Blank p.2) fun r ↦
        r.1 = false → Blank r.2 := by
    intro p hp
    cases hb : emmcInitializePass env p with
    | leave r => exact emmcInitializePass_leave hb ▸ hp
    | again p' =>
      obtain ⟨_ | _, t⟩ := p
      · exact fun h ↦ emmcInitializePass_again hb ▸
          emmcInitRetry_blank (emmcInitializePass_again hb ▸ h) (.inr (hp rfl))
      · cases hb
  have hloop := Loop.run_all hpass hfirst 6
  rw [emmcInitialize, ← hs₁, ← hs₂] at hfail ⊢
  split at hfail
  · exact absurd hfail.symm Bool.false_ne_true
  · next t heq =>
    rw [heq] at hloop
    exact storageEnd_blank (hloop rfl)
  · next b t heq =>
    have hle : (emmcInitRetry env false s₂).2.mode ≤ 4 := by
      rw [(emmcInitRetry_spec env false s₂).2.1]
      exact retryMode_le _ _
    obtain ⟨r, hr⟩ := @emmcInitialize_leaves env _ hle
    rw [hr] at heq
    cases heq

theorem emmcReinit_idle (env : Env) (first : Bool) (s : State) :
    Idle s (emmcReinit env first s).2 := by
  rw [emmcReinit]
  split
  · exact (emmcInitialize_spec env true s).1
  · exact (emmcInitRetry_spec env true s).1

/-- **A re-initialisation that succeeds leaves the card fresh.** -/
theorem emmcReinit_fresh {first : Bool} (h : (emmcReinit env first s).1 = true) :
    Fresh (emmcReinit env first s).2 := by
  rw [emmcReinit] at h ⊢
  cases first with
  | true => exact ((emmcInitialize_spec env true s).2 h).1
  | false => exact ((emmcInitRetry_spec env true s).2.2 h).1

/-! ## When every command succeeds -/

/-- From `t` on every command succeeds. -/
def OkFrom (env : Env) (t : ℕ) : Prop := ∀ n, t ≤ n → (env n).ok = true

/-- From `t` on no five commands in a row fail. -/
def Persists (env : Env) (t : ℕ) : Prop := ∀ n, t ≤ n → ∃ k < 5, (env (n + k)).ok = true

theorem OkFrom.persists {t : ℕ} (h : OkFrom env t) : Persists env t :=
  fun n hn ↦ ⟨0, Nat.zero_lt_succ 4, h n hn⟩

theorem Persists.mono {t t' : ℕ} (h : Persists env t) (ht : t ≤ t') : Persists env t' :=
  fun n hn ↦ h n (Nat.le_trans ht hn)

/-- The operation succeeds if every command from `t` on does. -/
def OkStep (t : ℕ) (f : State → Bool × State) : Prop :=
  ∀ s, t ≤ s.tick → (f s).1 = true ∧ t ≤ (f s).2.tick

theorem OkStep.inOrder {t : ℕ} {l : List (State → Bool × State)} (hl : ∀ f ∈ l, OkStep t f) :
    OkStep t (inOrder l) := by
  intro s hs
  induction l generalizing s with
  | nil => exact ⟨rfl, hs⟩
  | cons f l ih =>
    obtain ⟨hf, ht⟩ := hl f List.mem_cons_self s hs
    rw [Storage.inOrder]
    rcases hc : f s with ⟨_ | _, s₁⟩ <;> rw [hc] at hf ht
    · exact absurd hf Bool.false_ne_true
    · exact ih (fun g hg ↦ hl g (List.mem_cons_of_mem _ hg)) s₁ ht

theorem command_okStep {t : ℕ} (h : OkFrom env t) : OkStep t (command env) :=
  fun _ hs ↦ ⟨h _ hs, Nat.le_succ_of_le hs⟩

theorem initMmcV4_okStep {t : ℕ} (h : OkFrom env t) (oneBit : Bool) :
    OkStep t (initMmcV4 env oneBit) := by
  intro s hs
  rw [initMmcV4]
  split
  · exact ⟨rfl, hs⟩
  · refine OkStep.inOrder (fun f hf ↦ ?_) s hs
    simp only [List.mem_cons, List.not_mem_nil, or_false] at hf
    rcases hf with rfl | rfl | rfl
    · intro s hs
      rw [switchBuswidth]
      split
      · exact ⟨rfl, hs⟩
      · exact command_okStep h s hs
    · intro s hs
      simp only [getExtCsd, h _ hs, ↓reduceIte]
      exact ⟨trivial, Nat.le_succ_of_le hs⟩
    · exact command_okStep h

theorem sdmmcStorageInitMmc_okStep {t : ℕ} (h : OkFrom env t) (oneBit : Bool) :
    OkStep t (sdmmcStorageInitMmc env oneBit) := by
  intro s hs
  refine OkStep.inOrder (fun f hf ↦ ?_) _ hs
  simp only [List.mem_cons, List.not_mem_nil, or_false] at hf
  rcases hf with rfl | rfl | rfl | rfl | rfl | rfl | rfl | rfl | rfl | rfl | rfl | rfl
  case inr.inl => exact fun s hs ↦ ⟨h _ hs, Nat.le_succ_of_le hs⟩
  case inr.inr.inl => exact fun s hs ↦ ⟨h _ hs, Nat.le_succ_of_le hs⟩
  case inr.inr.inr.inr.inr.inr.inl => exact fun s hs ↦ ⟨rfl, hs⟩
  case inr.inr.inr.inr.inr.inr.inr.inr.inr.inr.inl => exact initMmcV4_okStep h oneBit
  case inr.inr.inr.inr.inr.inr.inr.inr.inr.inr.inr => exact fun s hs ↦ ⟨rfl, hs⟩
  all_goals exact command_okStep h

/-- An initialisation whose commands all succeed succeeds at the first attempt. -/
theorem emmcInitialize_of_ok (powerCycle : Bool) (h : OkFrom env s.tick) :
    (emmcInitialize env powerCycle s).1 = true := by
  obtain ⟨s₁, hs₁, hmode, htick⟩ : ∃ s₁ : State, s₁ = (if s.mode = 0 then
      { s with mode := emmcMmcHs400 } else s) ∧ s₁.mode ≠ 0 ∧ s₁.tick = s.tick := by
    refine ⟨_, rfl, ?_⟩
    split
    · exact ⟨Nat.succ_ne_zero 3, rfl⟩
    · exact ⟨by assumption, rfl⟩
  obtain ⟨s₂, hs₂, hmode₂, hle⟩ : ∃ s₂ : State,
      s₂ = (if powerCycle then storageEnd env s₁ else s₁) ∧ s₂.mode ≠ 0 ∧ s.tick ≤ s₂.tick := by
    refine ⟨_, rfl, ?_⟩
    cases powerCycle with
    | true =>
      exact ⟨fun h0 ↦ hmode ((storageEnd_mode env s₁).symm.trans h0),
        htick ▸ (storageEnd_idle env s₁).tick⟩
    | false => exact ⟨hmode, Nat.le_of_eq htick.symm⟩
  have hretry : (emmcInitRetry env false s₂).1 = true := by
    rw [emmcInitRetry]
    simp only [Bool.false_eq_true, ↓reduceIte]
    split
    · contradiction
    all_goals exact (sdmmcStorageInitMmc_okStep h _ _ (by exact hle)).1
  rw [emmcInitialize, ← hs₁, ← hs₂]
  rcases hc : emmcInitRetry env false s₂ with ⟨_ | _, s₃⟩ <;> rw [hc] at hretry
  · exact absurd hretry Bool.false_ne_true
  · rfl

end Storage
end SdLoader
