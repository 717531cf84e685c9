import SdLoader.Storage.Recovery

/-!
# The transfer loop ends

`_sdmmc_storage_readwrite` counts its tries inside a loop over the parts of a transfer, and starts
all over after every re-initialisation that succeeds.  It ends because the first re-initialisation
leaves the card in one of four modes, and every further one in a slower mode than before.

* `SlowsDown` — what the loop relies on in a re-initialisation; `SdmmcId.slowsDown` says it of each
  device.
* `Xfer.measure` — modes, sectors and tries left in one number, which is less than the passes the
  model allows.
* `LastMoved` — a sector, its place in memory, and the last command that touched it.
* `GaveUp` — tries and re-initialisation are used up.
* `transfer_law` — the loop ends; success means that every sector was moved, and failure that the
  storage was not initialised or the loop gave up.
-/

set_option autoImplicit false

namespace SdLoader
namespace Storage

variable {env : Env} {s : State}

/-! ## Re-initialisations -/

/-- `storage->sdmmc->id` -/
inductive SdmmcId
  | sdmmc1
  | sdmmc2
  | sdmmc3
  | sdmmc4
  deriving DecidableEq

/-- The re-initialisation of `_sdmmc_storage_readwrite`: the SD card is at the first controller and
the eMMC at the last, and for what is at another there is none. -/
def SdmmcId.reinit (env : Env) : SdmmcId → Bool → State → Bool × State
  | .sdmmc1 => sdReinit env
  | .sdmmc4 => emmcReinit env
  | _ => fun _ s ↦ (false, s)

/-- A mode in which a card can be in use. -/
def InMode (s : State) : Prop := 0 < s.mode ∧ s.mode ≤ 4

/-- A re-initialisation that succeeds leaves the card in a mode, and a slower one than before unless
it is the first. -/
structure SlowsDown (reinit : Bool → State → Bool × State) : Prop where
  first : ∀ {s}, (reinit true s).1 = true → InMode (reinit true s).2
  again : ∀ {s}, InMode s → (reinit false s).1 = true →
    InMode (reinit false s).2 ∧ (reinit false s).2.mode < s.mode

/-- A step down from a mode, to one that is not zero. -/
theorem InMode.slower {s' : State} (hs : InMode s) (hmode : s'.mode = retryMode true s.mode)
    (hne : s'.mode ≠ 0) : InMode s' ∧ s'.mode < s.mode := by
  obtain ⟨hlow, hhigh⟩ := hs
  rw [retryMode_true hlow hhigh] at hmode
  rw [InMode]
  omega

theorem emmcReinit_slowsDown (env : Env) : SlowsDown (emmcReinit env) := by
  refine ⟨fun h ↦ ((emmcInitialize_spec env true _).2 h).2, fun {s} hs h ↦ ?_⟩
  obtain ⟨-, hmode, hfresh⟩ := emmcInitRetry_spec env true s
  exact hs.slower hmode (hmode ▸ (hfresh h).2)

/-- The mode `sd_init_retry` goes by. -/
theorem sdInitRetry_retryMode (env : Env) (powerCycle : Bool) (s : State) :
    (sdInitRetry env powerCycle s).2.mode = retryMode powerCycle s.mode := by
  have hcycle : (if powerCycle then storageEnd env { s with mode := modeDec s.mode } else s).mode =
      if powerCycle then modeDec s.mode else s.mode := by
    split
    · exact storageEnd_mode env _
    · rfl
  have hinit : ∀ oneBit s, (sdmmcStorageInitSd env oneBit s).2.mode = s.mode :=
    fun oneBit s ↦ (sdmmcStorageInitSd_idleStep env oneBit s).2
  rw [sdInitRetry, retryMode, ← hcycle]
  generalize (if powerCycle then storageEnd env { s with mode := modeDec s.mode } else s) = s₁
  split
  · next h0 => rw [h0]; rfl
  case h_6 h0 h1 h2 h3 h4 =>
    have hgt : 4 < s₁.mode := by
      by_contra hle
      rcases hm : s₁.mode with _ | _ | _ | _ | _ | m
      · exact h0 hm
      · exact h1 hm
      · exact h2 hm
      · exact h3 hm
      · exact h4 hm
      · omega
    rw [hinit, Nat.min_eq_right (Nat.le_of_lt hgt)]
    rfl
  all_goals
    next hm =>
    rw [hinit, hm]
    rfl

/-- The loop of `sd_initialize` is left: every pass that goes round again takes the mode down. -/
theorem sdInitialize_leaves {p : Bool × State} (hp : p.2.mode ≤ 4) :
    ∃ r, Loop.run (sdInitializePass env) 6 p = .leave r := by
  refine Loop.run_leave_of_measure (fun p ↦ p.2.mode ≤ 4) (fun p ↦ p.2.mode)
    (fun p p' hle h ↦ ?_) hp (Nat.lt_of_le_of_lt hp (by decide))
  obtain ⟨_ | _, t⟩ := p
  · rw [sdInitializePass] at h
    have hpoll : (command env t).2.mode = t.mode := rfl
    rcases hc : command env t with ⟨_ | _, t'⟩ <;> rw [hc] at h hpoll <;> dsimp only at h hpoll
    · cases h
    · split at h
      · cases h
      · next hne =>
        have hmode := sdInitRetry_retryMode env true t'
        dsimp only at hle
        rw [retryMode_true (Nat.pos_of_ne_zero hne) (hpoll ▸ hle)] at hmode
        rw [← Loop.Pass.again.inj h, hmode]
        dsimp only
        omega
  · cases h

/-- The loop of `sd_initialize` gives up below the slowest mode, or without a card. -/
theorem sdInitializePass_mode (p : Bool × State) (h : p.2.mode ≤ 4) :
    (sdInitializePass env p).All (fun p ↦ p.2.mode ≤ 4) fun r ↦
      r.2.mode ≤ 4 ∧ (r.1 = false → r.2.mode = 0 ∨ r.2.mode = sdDefaultSpeed) := by
  obtain ⟨_ | _, t⟩ := p
  · have hpoll : (command env t).2.mode ≤ 4 := h
    rw [sdInitializePass]
    rcases hc : command env t with ⟨_ | _, t'⟩ <;> rw [hc] at hpoll <;> dsimp only
    · exact ⟨Nat.le_refl 4, fun _ ↦ .inr rfl⟩
    · split
      · next h0 => exact ⟨hpoll, fun _ ↦ .inl h0⟩
      · change (sdInitRetry env true t').2.mode ≤ 4
        rw [sdInitRetry_retryMode]
        exact retryMode_le true t'.mode
  · exact ⟨h, fun hfail ↦ absurd hfail.symm Bool.false_ne_true⟩

/-- **The modes `sd_initialize` ends in.** -/
theorem sdInitialize_mode (env : Env) (powerCycle : Bool) (s : State) :
    (sdInitialize env powerCycle s).2.mode ≤ 4 ∧
      ((sdInitialize env powerCycle s).1 = false → (sdInitialize env powerCycle s).2.mode = 0 ∨
        (sdInitialize env powerCycle s).2.mode = sdDefaultSpeed) := by
  rw [sdInitialize]
  generalize (if powerCycle then storageEnd env s else s) = s₁
  have hretry : (sdInitRetry env false s₁).2.mode ≤ 4 :=
    sdInitRetry_retryMode env false s₁ ▸ retryMode_le false s₁.mode
  have hloop := Loop.run_all (@sdInitializePass_mode env) hretry 6
  obtain ⟨⟨b, t⟩, hleave⟩ := @sdInitialize_leaves env _ hretry
  rw [hleave] at hloop ⊢
  cases b with
  | false =>
    dsimp only
    rw [storageEnd_mode]
    exact hloop
  | true => exact hloop

theorem sdReinit_slowsDown (env : Env) : SlowsDown (sdReinit env) := by
  refine ⟨fun {s} h ↦ ?_, fun {s} hs h ↦ ?_⟩
  · have hne := ((sdInitialize_spec env true s).2 h).2
    exact ⟨Nat.pos_of_ne_zero hne, (sdInitialize_mode env true s).1⟩
  · exact hs.slower (sdInitRetry_retryMode env true s) (sdInitRetry_mode h)

theorem SdmmcId.slowsDown (id : SdmmcId) (env : Env) : SlowsDown (id.reinit env) := by
  cases id with
  | sdmmc1 => exact sdReinit_slowsDown env
  | sdmmc4 => exact emmcReinit_slowsDown env
  | sdmmc2 => exact ⟨fun h ↦ absurd h Bool.false_ne_true, fun _ h ↦ absurd h Bool.false_ne_true⟩
  | sdmmc3 => exact ⟨fun h ↦ absurd h Bool.false_ne_true, fun _ h ↦ absurd h Bool.false_ne_true⟩

theorem SdmmcId.reinit_idle (id : SdmmcId) (env : Env) (first : Bool) (s : State) :
    Idle s (id.reinit env first s).2 := by
  cases id with
  | sdmmc1 => exact sdReinit_idle env first s
  | sdmmc4 => exact emmcReinit_idle env first s
  | sdmmc2 => exact .refl s
  | sdmmc3 => exact .refl s

/-! ## Re-initialisations that fail -/

/-- What a re-initialisation has tried when it fails: the first one every mode, unless it is an SD
card that is not there; a later one the next slower mode only. -/
def Spent (id : SdmmcId) (first : Bool) (s s' : State) : Prop :=
  match id, first with
  | .sdmmc1, true => s'.mode = 0 ∨ s'.mode = sdDefaultSpeed
  | .sdmmc4, true => s'.mode = 0
  | .sdmmc1, false | .sdmmc4, false => s'.mode = s.mode - 1
  | _, _ => s' = s

theorem emmcInitialize_spent {powerCycle : Bool} (h : (emmcInitialize env powerCycle s).1 = false) :
    (emmcInitialize env powerCycle s).2.mode = 0 := by
  rw [emmcInitialize] at h ⊢
  generalize (if powerCycle then storageEnd env (if s.mode = 0 then { s with mode := emmcMmcHs400 }
    else s) else if s.mode = 0 then { s with mode := emmcMmcHs400 } else s) = s₁ at h ⊢
  have hretry : ∀ pc t, (emmcInitRetry env pc t).2.mode ≤ 4 := fun pc t ↦
    (emmcInitRetry_spec env pc t).2.1 ▸ retryMode_le pc t.mode
  have hpass : ∀ p : Bool × State, True →
      (emmcInitializePass env p).All (fun _ ↦ True) fun r ↦ r.1 = false → r.2.mode = 0 := by
    rintro ⟨_ | _, t⟩ -
    · rw [emmcInitializePass]
      split
      · next h0 => exact fun _ ↦ h0
      · exact trivial
    · exact fun hfail ↦ absurd hfail.symm Bool.false_ne_true
  have hloop := Loop.run_all hpass trivial (s := emmcInitRetry env false s₁) 6
  obtain ⟨⟨b, t⟩, hleave⟩ := emmcInitialize_leaves (hretry false s₁)
  rw [hleave] at h hloop ⊢
  cases b with
  | false =>
    dsimp only
    rw [storageEnd_mode]
    exact hloop rfl
  | true => exact absurd h.symm Bool.false_ne_true

theorem SdmmcId.spent (id : SdmmcId) {first : Bool} (hmode : first = false → InMode s)
    (h : (id.reinit env first s).1 = false) : Spent id first s (id.reinit env first s).2 := by
  cases id with
  | sdmmc1 =>
    cases first with
    | true => exact (sdInitialize_mode env true s).2 h
    | false =>
      have hin := hmode rfl
      exact (sdInitRetry_retryMode env true s).trans (retryMode_true hin.1 hin.2)
  | sdmmc4 =>
    cases first with
    | true => exact emmcInitialize_spent h
    | false =>
      have hin := hmode rfl
      exact (emmcInitRetry_spec env true s).2.1.trans (retryMode_true hin.1 hin.2)
  | sdmmc2 => cases first <;> rfl
  | sdmmc3 => cases first <;> rfl

/-! ## Commands -/

/-- The command has been given for the sector, at whatever address. -/
def Move.Touches (mv : Move) (sector : ℕ) : Prop :=
  ∃ j < mv.count, (mv.sector + j) % 2 ^ 32 = sector % 2 ^ 32

/-- The last command that touched the sector moved it, to or from the address `a`. -/
def LastMoved (isWrite : Bool) (sector a : ℕ) (moves : List Move) : Prop :=
  ∃ newer mv older, moves = newer ++ mv :: older ∧ Moved 0 isWrite sector a [mv] ∧
    ∀ m ∈ newer, ¬ m.Touches sector

theorem LastMoved.cons {isWrite : Bool} {sector a : ℕ} {mv : Move} {l : List Move}
    (h : LastMoved isWrite sector a l) (hmv : ¬ mv.Touches sector) :
    LastMoved isWrite sector a (mv :: l) := by
  obtain ⟨newer, last, older, rfl, hlast, hnewer⟩ := h
  exact ⟨mv :: newer, last, older, rfl, hlast, List.forall_mem_cons.mpr ⟨hmv, hnewer⟩⟩

theorem LastMoved.head {isWrite : Bool} {sector a : ℕ} {mv : Move}
    (h : Moved 0 isWrite sector a [mv]) (l : List Move) : LastMoved isWrite sector a (mv :: l) :=
  ⟨[], mv, l, rfl, h, fun _ hm ↦ absurd hm List.not_mem_nil⟩

/-- The command for a transfer that has `left` of its sectors left. -/
def attempt (isWrite : Bool) (sector num buf left : ℕ) (ok : Bool) : Move where
  part := 0
  isWrite := isWrite
  sector := (sector + (num - left)) % 2 ^ 32
  count := min left 0xFFFF
  buf := buf + blockSize * (num - left)
  ok := ok

section
variable {isWrite : Bool} {sector num buf left : ℕ} {ok : Bool} {i : ℕ}

/-- It does not touch the sectors that have been moved. -/
theorem attempt_not_touches (hnum : num < 2 ^ 32) (hleft : left ≤ num) (hi : i < num - left) :
    ¬ (attempt isWrite sector num buf left ok).Touches (sector + i) := by
  rintro ⟨j, hj, heq⟩
  change j < min left 0xFFFF at hj
  change ((sector + (num - left)) % 2 ^ 32 + j) % 2 ^ 32 = _ at heq
  omega

/-- If it succeeds, it has moved the next ones. -/
theorem attempt_moved (hi : num - left ≤ i) (hi' : i < num - left + min left 0xFFFF) :
    Moved 0 isWrite (sector + i) (buf + blockSize * i)
      [attempt isWrite sector num buf left true] := by
  obtain ⟨j, rfl⟩ := Nat.exists_eq_add_of_le hi
  refine ⟨_, List.mem_cons_self, rfl, rfl, rfl, j, ?_, ?_, ?_⟩
  · change j < min left 0xFFFF
    omega
  · change ((sector + (num - left)) % 2 ^ 32 + j) % 2 ^ 32 = _
    rw [Nat.mod_add_mod, Nat.add_assoc]
  · change buf + blockSize * (num - left) + blockSize * j = _
    rw [Nat.add_assoc, ← Nat.mul_add]

end

/-! ## The loop -/

/-- How many times the command at `reinit_try` is tried. -/
def Xfer.tries (num : ℕ) (x : Xfer) : ℕ := if x.firstReinit ∨ x.sctTotal < num then 5 else 3

/-- The label `reinit_try`. -/
structure AtTry (isWrite : Bool) (sector num buf : ℕ) (x : Xfer) : Prop where
  selected : x.s.selected = 0
  /-- There is something left, but no more than there was. -/
  left : 0 < x.sctTotal ∧ x.sctTotal ≤ num
  sctOff : x.sctOff = (sector + (num - x.sctTotal)) % 2 ^ 32
  bbuf : x.bbuf = buf + blockSize * (num - x.sctTotal)
  /-- The sectors before it. -/
  moved : ∀ i < num - x.sctTotal, LastMoved isWrite (sector + i) (buf + blockSize * i) x.s.moves
  retries : 0 < x.retries ∧ x.retries ≤ x.tries num
  /-- The tries that have been used up. -/
  failed : ∃ older, x.s.moves = List.replicate (x.tries num - x.retries)
    (attempt isWrite sector num buf x.sctTotal false) ++ older
  /-- Once the card has been initialised, it is in a mode. -/
  inMode : x.firstReinit = false → InMode x.s

/-- The transfer gave up with the state `s'`: with `left` sectors left the command failed as often
as it is tried, and so did the re-initialisation after that. -/
def GaveUp (env : Env) (id : SdmmcId) (isWrite : Bool) (sector num buf : ℕ) (s' : State) : Prop :=
  ∃ (first : Bool) (left : ℕ) (s : State) (older : List Move), 0 < left ∧ left ≤ num ∧
    s.moves = List.replicate (if first ∨ left < num then 5 else 3)
      (attempt isWrite sector num buf left false) ++ older ∧
    id.reinit env first s = (false, s') ∧ Spent id first s s'

/-- Modes, sectors and tries left. -/
def Xfer.measure (num : ℕ) (x : Xfer) : ℕ :=
  (if x.firstReinit then 5 else x.s.mode) * (5 * num + 6) + 5 * x.sctTotal + x.retries

section
variable {isWrite : Bool} {sector num buf : ℕ} {x : Xfer}

/-- The command given at the label. -/
theorem AtTry.moves (env : Env) (h : AtTry isWrite sector num buf x) :
    (readwriteEx env x.sctOff (min x.sctTotal 0xFFFF) x.bbuf isWrite x.s).2.2.moves =
      attempt isWrite sector num buf x.sctTotal (env x.s.tick).ok :: x.s.moves := by
  rw [(readwriteEx_spec env _ _ _ _ _).2.2.2.1, nextMove, h.selected, Nat.min_assoc, Nat.min_self,
    h.sctOff, h.bbuf]
  rfl

/-- After a command that succeeds the next sectors have been moved. -/
theorem AtTry.moved_next (hnum : num < 2 ^ 32) (h : AtTry isWrite sector num buf x) {i : ℕ}
    (hi : i < num - x.sctTotal + min x.sctTotal 0xFFFF) :
    LastMoved isWrite (sector + i) (buf + blockSize * i)
      (attempt isWrite sector num buf x.sctTotal true :: x.s.moves) := by
  by_cases hold : i < num - x.sctTotal
  · exact (h.moved i hold).cons (attempt_not_touches hnum h.left.2 hold)
  · exact .head (attempt_moved (Nat.le_of_not_lt hold) hi) x.s.moves

/-- One more try has failed. -/
theorem AtTry.failed_next (h : AtTry isWrite sector num buf x) : ∃ older,
    attempt isWrite sector num buf x.sctTotal false :: x.s.moves =
      List.replicate (x.tries num - (x.retries - 1))
        (attempt isWrite sector num buf x.sctTotal false) ++ older := by
  obtain ⟨older, hmoves⟩ := h.failed
  have hretries := h.retries
  have hone : x.tries num - (x.retries - 1) = x.tries num - x.retries + 1 := by omega
  exact ⟨older, by rw [hmoves, hone, List.replicate_succ, List.cons_append]⟩

theorem AtTry.retry (hnum : num < 2 ^ 32) (h : AtTry isWrite sector num buf x)
    (hmore : x.retries - 1 ≠ 0) {s₁ : State} (hsel : s₁.selected = x.s.selected)
    (hmode : s₁.mode = x.s.mode)
    (hmoves : s₁.moves = attempt isWrite sector num buf x.sctTotal false :: x.s.moves) :
    AtTry isWrite sector num buf { x with retries := x.retries - 1, s := s₁ } ∧
      Xfer.measure num { x with retries := x.retries - 1, s := s₁ } < x.measure num := by
  have hretries := h.retries
  refine ⟨⟨hsel.trans h.selected, h.left, h.sctOff, h.bbuf, fun i hi ↦ ?_,
    ⟨Nat.pos_of_ne_zero hmore, Nat.le_trans (Nat.sub_le _ 1) hretries.2⟩, ?_, fun hfirst ↦ ?_⟩, ?_⟩
  · change LastMoved _ _ _ s₁.moves
    rw [hmoves]
    exact (h.moved i hi).cons (attempt_not_touches hnum h.left.2 hi)
  · change ∃ older, s₁.moves = _
    rw [hmoves]
    exact h.failed_next
  · rw [InMode, hmode]
    exact h.inMode hfirst
  · simp only [Xfer.measure, hmode]
    omega

theorem AtTry.next (hnum : num < 2 ^ 32) (h : AtTry isWrite sector num buf x) {cnt : ℕ}
    (hcnt : cnt = min x.sctTotal 0xFFFF) (hmore : x.sctTotal - cnt ≠ 0) {s₁ : State}
    (hsel : s₁.selected = x.s.selected) (hmode : s₁.mode = x.s.mode)
    (hmoves : s₁.moves = attempt isWrite sector num buf x.sctTotal true :: x.s.moves) :
    AtTry isWrite sector num buf ⟨(x.sctOff + cnt) % 2 ^ 32, x.sctTotal - cnt,
        x.bbuf + blockSize * cnt, 5, x.firstReinit, s₁⟩ ∧
      Xfer.measure num ⟨(x.sctOff + cnt) % 2 ^ 32, x.sctTotal - cnt,
        x.bbuf + blockSize * cnt, 5, x.firstReinit, s₁⟩ < x.measure num := by
  have hleft := h.left
  have hretries := h.retries
  have hdone : num - (x.sctTotal - cnt) = num - x.sctTotal + cnt := by omega
  have htries : Xfer.tries num ⟨(x.sctOff + cnt) % 2 ^ 32, x.sctTotal - cnt,
      x.bbuf + blockSize * cnt, 5, x.firstReinit, s₁⟩ = 5 :=
    if_pos (.inr (show x.sctTotal - cnt < num by omega))
  refine ⟨⟨hsel.trans h.selected, ⟨Nat.pos_of_ne_zero hmore, Nat.le_trans (Nat.sub_le _ _) hleft.2⟩,
    ?_, ?_, fun i hi ↦ ?_, ?_, ⟨s₁.moves, ?_⟩, fun hfirst ↦ ?_⟩, ?_⟩
  · dsimp only
    rw [hdone, h.sctOff, Nat.mod_add_mod, Nat.add_assoc]
  · dsimp only
    rw [hdone, h.bbuf, Nat.mul_add, Nat.add_assoc]
  · dsimp only at hi ⊢
    rw [hdone, hcnt] at hi
    rw [hmoves]
    exact h.moved_next hnum hi
  · rw [htries]
    exact ⟨Nat.succ_pos 4, Nat.le_refl 5⟩
  · rw [htries, Nat.sub_self, List.replicate_zero, List.nil_append]
  · rw [InMode, hmode]
    exact h.inMode hfirst
  · simp only [Xfer.measure, hmode]
    omega

theorem AtTry.start (hnum : num ≠ 0) (hsector : sector < 2 ^ 32) (hsel : s.selected = 0)
    {first : Bool} (hmode : first = false → InMode s) :
    AtTry isWrite sector num buf (.start sector num buf (if first then 5 else 3) first s) := by
  have htries : Xfer.tries num (.start sector num buf (if first then 5 else 3) first s) =
      if first then 5 else 3 := by
    simp only [Xfer.tries, Xfer.start, Nat.lt_irrefl, or_false]
  refine ⟨hsel, ⟨Nat.pos_of_ne_zero hnum, Nat.le_refl num⟩, ?_, ?_, fun i hi ↦ ?_, ?_,
    ⟨s.moves, ?_⟩, hmode⟩
  · change sector = (sector + (num - num)) % 2 ^ 32
    rw [Nat.sub_self, Nat.add_zero, Nat.mod_eq_of_lt hsector]
  · change buf = buf + blockSize * (num - num)
    rw [Nat.sub_self, Nat.mul_zero, Nat.add_zero]
  · change i < num - num at hi
    omega
  · rw [htries]
    refine ⟨?_, Nat.le_refl _⟩
    change 0 < if first = true then 5 else 3
    split <;> decide
  · rw [htries]
    simp only [Xfer.start, Nat.sub_self, List.replicate_zero, List.nil_append]

/-- What the loop is left with. -/
structure Resulted (env : Env) (id : SdmmcId) (isWrite : Bool) (sector num buf : ℕ)
    (r : Bool × State) : Prop where
  moved : r.1 = true → ∀ i < num, LastMoved isWrite (sector + i) (buf + blockSize * i) r.2.moves
  gaveUp : r.1 = false → GaveUp env id isWrite sector num buf r.2

/-- After a re-initialisation the card is in a slower mode than before. -/
theorem AtTry.slower (id : SdmmcId) (h : AtTry isWrite sector num buf x) {s₁ s₂ : State}
    (hmode : s₁.mode = x.s.mode) (hr : id.reinit env x.firstReinit s₁ = (true, s₂)) :
    InMode s₂ ∧ s₂.mode < if x.firstReinit then 5 else x.s.mode := by
  have hslows := id.slowsDown env
  cases hfirst : x.firstReinit with
  | true =>
    rw [hfirst] at hr
    have hin := hslows.first (congrArg Prod.fst hr)
    rw [hr] at hin
    exact ⟨hin, Nat.lt_succ_of_le hin.2⟩
  | false =>
    rw [hfirst] at hr
    have hin : InMode s₁ := by
      rw [InMode, hmode]
      exact h.inMode hfirst
    have hagain := hslows.again hin (congrArg Prod.fst hr)
    rw [hr, hmode] at hagain
    exact hagain

/-- The tries of a command are used up. -/
theorem AtTry.restart (id : SdmmcId) (hsector : sector < 2 ^ 32)
    (h : AtTry isWrite sector num buf x) (hlast : x.retries - 1 = 0) {s₁ : State}
    (hsel : s₁.selected = x.s.selected) (hmode : s₁.mode = x.s.mode)
    (hmoves : s₁.moves = attempt isWrite sector num buf x.sctTotal false :: x.s.moves) :
    (match id.reinit env x.firstReinit s₁ with
      | (true, s) => Loop.Pass.again (Xfer.start sector num buf 3 false s)
      | (false, s) => .leave (false, s)).All
      (fun x' ↦ AtTry isWrite sector num buf x' ∧ x'.measure num < x.measure num)
      (Resulted env id isWrite sector num buf) := by
  have hleft := h.left
  have hidle := id.reinit_idle env x.firstReinit s₁
  rcases hr : id.reinit env x.firstReinit s₁ with ⟨_ | _, s₂⟩ <;> rw [hr] at hidle
  · -- The card does not come up.
    obtain ⟨older, hfailed⟩ := h.failed_next
    rw [hlast, Nat.sub_zero, ← hmoves] at hfailed
    have hspent : Spent id x.firstReinit s₁ s₂ := by
      have hin : x.firstReinit = false → InMode s₁ := by
        rw [InMode, hmode]
        exact h.inMode
      have hfail := id.spent hin (congrArg Prod.fst hr)
      rwa [hr] at hfail
    exact ⟨fun hok ↦ absurd hok Bool.false_ne_true,
      fun _ ↦ ⟨x.firstReinit, x.sctTotal, s₁, older, hleft.1, hleft.2, hfailed, hr, hspent⟩⟩
  · have hsel₂ : s₂.selected = 0 := by
      rcases hidle.selected with heq | heq
      · rw [heq, hsel, h.selected]
      · exact heq
    have hslower := h.slower id hmode hr
    have hstart : AtTry isWrite sector num buf
        (.start sector num buf (if false then 5 else 3) false s₂) :=
      .start (by omega) hsector hsel₂ fun _ ↦ hslower.1
    refine ⟨hstart, ?_⟩
    have hlevel := Nat.mul_le_mul_right (5 * num + 6) hslower.2
    rw [Nat.succ_mul] at hlevel
    simp only [Xfer.measure, Xfer.start, Bool.false_eq_true, ↓reduceIte]
    omega

/-- **One pass through `reinit_try`.** -/
theorem AtTry.pass (env : Env) (id : SdmmcId) (hsector : sector < 2 ^ 32) (hnum : num < 2 ^ 32)
    (h : AtTry isWrite sector num buf x) :
    (readwritePass env (id.reinit env) sector num buf isWrite x).All
      (fun x' ↦ AtTry isWrite sector num buf x' ∧ x'.measure num < x.measure num)
      (Resulted env id isWrite sector num buf) := by
  have hmoves := h.moves env
  have hmode := readwriteEx_mode env x.sctOff (min x.sctTotal 0xFFFF) x.bbuf isWrite x.s
  obtain ⟨hres, hcnt, hsel, -⟩ :=
    readwriteEx_spec env x.sctOff (min x.sctTotal 0xFFFF) x.bbuf isWrite x.s
  rw [readwritePass]
  rcases hr : readwriteEx env x.sctOff (min x.sctTotal 0xFFFF) x.bbuf isWrite x.s with
    ⟨_ | _, cnt, s₁⟩ <;> rw [hr] at hmoves hmode hres hcnt hsel <;> dsimp only at * <;>
    rw [← hres] at hmoves
  · split
    · next hmore => exact h.retry hnum hmore hsel hmode hmoves
    · next hlast =>
      exact h.restart id hsector (Decidable.not_not.mp hlast) hsel hmode hmoves
  · have hcnt' : cnt = min x.sctTotal 0xFFFF := by
      rw [hcnt hres.symm, Nat.min_assoc, Nat.min_self]
    split
    · next hdone =>
      refine ⟨fun _ i hi ↦ ?_, fun hfail ↦ absurd hfail.symm Bool.false_ne_true⟩
      have hleft := h.left
      rw [hmoves]
      exact h.moved_next hnum (by omega)
    · next hmore => exact h.next hnum hcnt' hmore hsel hmode hmoves

end

/-! ## The law -/

theorem SdmmcId.restores (id : SdmmcId) (env : Env) : ∃ spill : Spill,
    Restores (· = 0) spill (id.reinit env) ∧ ∀ card a b, spill card a b → ¬ OutsideScratch a := by
  have hscratch : ∀ k < blockSize, ¬ OutsideScratch (sdmmcUpperBuffer + k) := by
    intro k hk hout
    rw [OutsideScratch] at hout
    omega
  cases id with
  | sdmmc1 =>
    refine ⟨registerSpill, sdReinit_restores env rfl, ?_⟩
    rintro card a b ⟨k, hk, rfl⟩
    exact hscratch k hk
  | sdmmc4 =>
    refine ⟨extCsdSpill, emmcReinit_restores env rfl, ?_⟩
    rintro card a b ⟨-, k, hk, rfl, -⟩
    exact hscratch k hk
  | sdmmc2 => exact ⟨_, restores_none _, fun _ _ _ h ↦ h.elim⟩
  | sdmmc3 => exact ⟨_, restores_none _, fun _ _ _ h ↦ h.elim⟩

/-- What `_sdmmc_storage_readwrite` promises of a call from `s₀` that returns `r`. -/
structure TransferLaw (env : Env) (id : SdmmcId) (isWrite : Bool) (sector num buf : ℕ) (s₀ : State)
    (r : Bool × State) : Prop where
  /-- The loop ends. -/
  ends : s₀.dev.initialized = true → num ≠ 0 → ∀ n, 30 * num + 36 ≤ n →
    Loop.run (readwritePass env (id.reinit env) sector num buf isWrite) n
      (.start sector num buf 5 true s₀) = .leave r
  /-- Success means that every sector was moved. -/
  moved : r.1 = true → ∀ i < num, LastMoved isWrite (sector + i) (buf + blockSize * i) r.2.moves
  /-- What was written are the bytes of the buffer. -/
  written : r.1 = true → Addressed s₀ → sector + num ≤ reach s₀.card → isWrite = true →
    ∀ k < blockSize * num, r.2.media 0 (blockSize * sector + k) = s₀.mem (buf + k)
  /-- What was read are the bytes of the medium. -/
  read : r.1 = true → Addressed s₀ → sector + num ≤ reach s₀.card → isWrite = false →
    ∀ k < blockSize * num, r.2.mem (buf + k) = s₀.media 0 (blockSize * sector + k)
  /-- Failure means that there was nothing to be done, or nothing more. -/
  failed : r.1 = false → s₀.dev.initialized = false ∧ r.2 = s₀ ∨
    s₀.dev.initialized = true ∧ GaveUp env id isWrite sector num buf r.2

section
variable {isWrite : Bool} {sector num buf : ℕ} {s₀ : State}

/-- The loop is left within the passes the model allows. -/
theorem readwrite_resulted (env : Env) (id : SdmmcId) (hsector : sector < 2 ^ 32)
    (hlt : num < 2 ^ 32) (hnum : num ≠ 0) (hsel : s₀.selected = 0)
    (hinit : s₀.dev.initialized = true) :
    Resulted env id isWrite sector num buf
        (sdmmcStorageReadwrite env (id.reinit env) sector num buf isWrite s₀) ∧
      Loop.run (readwritePass env (id.reinit env) sector num buf isWrite) (30 * num + 36)
        (.start sector num buf 5 true s₀) =
          .leave (sdmmcStorageReadwrite env (id.reinit env) sector num buf isWrite s₀) := by
  have hstart : AtTry isWrite sector num buf
      (.start sector num buf (if true then 5 else 3) true s₀) :=
    .start hnum hsector hsel fun h ↦ absurd h.symm Bool.false_ne_true
  have hmeasure : Xfer.measure num (.start sector num buf 5 true s₀) < 30 * num + 36 := by
    simp only [Xfer.measure, Xfer.start, ↓reduceIte]
    omega
  obtain ⟨r, hr, hresult⟩ :=
    Loop.run_total (fun x hx ↦ AtTry.pass env id hsector hlt hx) hstart hmeasure
  change Loop.run _ _ (Xfer.start sector num buf 5 true s₀) = _ at hr
  have hleave : sdmmcStorageReadwrite env (id.reinit env) sector num buf isWrite s₀ = r := by
    rw [sdmmcStorageReadwrite]
    simp only [hinit, hnum, Bool.not_true, Bool.false_eq_true, ↓reduceIte]
    rw [hr]
  rw [hleave]
  exact ⟨hresult, hr⟩

/-- **What a transfer that succeeds has carried over**, to the medium or from it. -/
theorem readwrite_carried (env : Env) (id : SdmmcId) (isWrite : Bool) (hsel : s₀.selected = 0)
    (hbuf : ∀ k < blockSize * num, OutsideScratch (buf + k)) {r : Bool × State}
    (hr : sdmmcStorageReadwrite env (id.reinit env) sector num buf isWrite s₀ = r)
    (hok : r.1 = true) (haccess : Addressed s₀) (hreach : sector + num ≤ reach s₀.card) :
    (isWrite = true →
        ∀ k < blockSize * num, r.2.media 0 (blockSize * sector + k) = s₀.mem (buf + k)) ∧
      (isWrite = false →
        ∀ k < blockSize * num, r.2.mem (buf + k) = s₀.media 0 (blockSize * sector + k)) := by
  obtain ⟨spill, hre, hspill⟩ := id.restores env
  have hended :=
    @readwrite_ended s₀ sector num (· = 0) spill _ env buf isWrite hre haccess hsel hreach
  rw [hr] at hended
  have hkept := hended.kept hok
  have hcopied := hended.copied hok
  rw [Copied, hkept.part] at hcopied
  constructor
  · intro hwrite k hk
    rw [← hcopied k hk]
    refine (hkept.mem (buf + k) fun hread ↦ ?_).resolve_right fun h ↦ hspill _ _ _ h (hbuf k hk)
    exact absurd (hwrite.symm.trans hread).symm Bool.false_ne_true
  · intro hread k hk
    rw [hcopied k hk]
    exact hkept.media 0 _ fun hwrite ↦ absurd (hread.symm.trans hwrite) Bool.false_ne_true

/-- There is nothing to be done without a storage. -/
theorem readwrite_uninitialized (reinit : Bool → State → Bool × State)
    (hinit : s₀.dev.initialized = false) :
    sdmmcStorageReadwrite env reinit sector num buf isWrite s₀ = (false, s₀) := by
  rw [sdmmcStorageReadwrite]
  simp only [hinit, Bool.not_false, ↓reduceIte]

/-- Nor without sectors. -/
theorem readwrite_zero (reinit : Bool → State → Bool × State) (hinit : s₀.dev.initialized = true) :
    sdmmcStorageReadwrite env reinit sector 0 buf isWrite s₀ = (true, s₀) := by
  rw [sdmmcStorageReadwrite]
  simp only [hinit, Bool.not_true, Bool.false_eq_true, ↓reduceIte]

theorem readwrite_law (env : Env) (id : SdmmcId) (isWrite : Bool) (hsector : sector < 2 ^ 32)
    (hlt : num < 2 ^ 32) (hsel : s₀.selected = 0)
    (hbuf : ∀ k < blockSize * num, OutsideScratch (buf + k)) :
    TransferLaw env id isWrite sector num buf s₀
      (sdmmcStorageReadwrite env (id.reinit env) sector num buf isWrite s₀) := by
  have hcarried := fun hok haccess hreach ↦ @readwrite_carried sector num buf s₀ env id isWrite hsel
    hbuf _ rfl hok haccess hreach
  have hresult := fun hinit hnum ↦
    @readwrite_resulted isWrite sector num buf s₀ env id hsector hlt hnum hsel hinit
  refine ⟨fun hinit hnum n hn ↦ Loop.run_leave_mono (hresult hinit hnum).2 hn, fun hok i hi ↦ ?_,
    fun hok haccess hreach ↦ (hcarried hok haccess hreach).1,
    fun hok haccess hreach ↦ (hcarried hok haccess hreach).2, fun hfail ↦ ?_⟩
  · cases hinit : s₀.dev.initialized with
    | false =>
      rw [readwrite_uninitialized _ hinit] at hok
      exact absurd hok Bool.false_ne_true
    | true => exact (hresult hinit (Nat.ne_of_gt (Nat.zero_lt_of_lt hi))).1.moved hok i hi
  · cases hinit : s₀.dev.initialized with
    | false => exact .inl ⟨rfl, congrArg Prod.snd (readwrite_uninitialized _ hinit)⟩
    | true =>
      by_cases hnum : num = 0
      · subst hnum
        rw [readwrite_zero _ hinit] at hfail
        exact absurd hfail.symm Bool.false_ne_true
      · exact .inr ⟨rfl, (hresult hinit hnum).1.gaveUp hfail⟩

end

/-- **The transfer loop.**  Re-initialisations end, and so does the transfer, with the result of the
model; every sector of a transfer that succeeds was last moved to or from its place in the buffer;
and a transfer fails only if its storage has not been initialised, or when tries and
re-initialisation are used up. -/
theorem transfer_law (env : Env) (id : SdmmcId) (isWrite : Bool) (sector num : UInt32) {buf : ℕ}
    {s₀ : State} (hsel : s₀.selected = 0)
    (hbuf : ∀ k < blockSize * num.toNat, OutsideScratch (buf + k)) :
    ((∀ s, ∃ r, Loop.run (emmcInitializePass env) 6 (emmcInitRetry env false s) = .leave r) ∧
      ∀ s, ∃ r, Loop.run (sdInitializePass env) 6 (sdInitRetry env false s) = .leave r) ∧
    TransferLaw env id isWrite sector.toNat num.toNat buf s₀.cleared
      (sdmmcStorageReadwrite env (id.reinit env) sector.toNat num.toNat buf isWrite s₀.cleared) :=
  ⟨⟨fun s ↦ emmcInitialize_leaves ((emmcInitRetry_spec env false s).2.1 ▸ retryMode_le _ _),
    fun s ↦ sdInitialize_leaves (sdInitRetry_retryMode env false s ▸ retryMode_le _ _)⟩,
    readwrite_law env id isWrite sector.toNat_lt num.toNat_lt hsel hbuf⟩

/-- A write of more than one command to an SD card that is initialised again on the way. -/
theorem transfer_law_sd :
    ((∀ s, ∃ r, Loop.run (emmcInitializePass (fiveFailures 0)) 6
        (emmcInitRetry (fiveFailures 0) false s) = .leave r) ∧
      ∀ s, ∃ r, Loop.run (sdInitializePass (fiveFailures 0)) 6
        (sdInitRetry (fiveFailures 0) false s) = .leave r) ∧
    TransferLaw (fiveFailures 0) .sdmmc1 true 0x8000 0x12345 0x80000000 (selectedOn 0).cleared
      (sdmmcStorageReadwrite (fiveFailures 0) (SdmmcId.reinit (fiveFailures 0) .sdmmc1) 0x8000
        0x12345 0x80000000 true (selectedOn 0).cleared) := by
  refine transfer_law (fiveFailures 0) .sdmmc1 true 0x8000 0x12345 rfl fun k _ ↦ .inr ?_
  change 0x40013000 + 512 ≤ 0x80000000 + k
  omega

/-- A device on which the first five commands fail, the next thirteen succeed, and all later ones
fail. -/
def failsAgain : Env := fun n ↦ ⟨decide (5 ≤ n ∧ n < 18), false, fun _ ↦ false, fun _ ↦ 0⟩

/-- A write of one sector to the eMMC of that device. -/
def writeFails : State → Bool × State :=
  sdmmcStorageReadwrite failsAgain (SdmmcId.reinit failsAgain .sdmmc4) 1 1 0x80000000 true

/-- A storage that has not been initialised: the call fails without a single command.  And one that
is initialised again, fails again, and gives up with a mode that is not the slowest. -/
theorem transfer_counterexample :
    ((writeFails { selectedOn 0 with dev := .zero }).1 = false ∧
      (writeFails { selectedOn 0 with dev := .zero }).2.tick = 0 ∧
      (writeFails { selectedOn 0 with dev := .zero }).2.moves = []) ∧
    (writeFails (selectedOn 0)).1 = false ∧ (writeFails (selectedOn 0)).2.mode = 3 := by
  decide +kernel

end Storage
end SdLoader
