import SdLoader.Modchip.Update

/-!
# Failed updates

Each of the three updates answers a failed write with a reset command, so that an image that is
only half there is not taken for one.  The answer never arrives: `modchip_write_rst_cmd` takes a
`DRESULT` of zero, which is success, for a failure, and gives up after the first read that works
(`modchipWriteRstCmd_of_ok`).

What the updates do guarantee is therefore `FailureAtomic` only where there is nothing to guarantee,
and `failureAtomic_iff` says where that is: sector 1 starts with the reset command already, or the
file is empty, or it is refused for its size before anything is written.

* `fwChunks_below`, `writeImage_below` — no update touches what lies below its staging sectors,
  sector 1 aside;
* `Update.run_false` — a failed update whose operations on sector 1 all succeed leaves sector 1 as
  it was;
* `Update.run_torn` — one bad staging write is enough to leave another image and no reset.
-/

set_option autoImplicit false

namespace SdLoader
namespace Modchip

/-! ## The property -/

/-- No operation on sector 1 failed. -/
def Sector1Ok (s : State) : Prop := ∀ op ∈ s.diskOps, op.sector = cmdSector → op.ok = true

/-- The staging sectors of an image of `size` bytes are as they were. -/
def Unstaged (u : Update) (size : ℕ) (before after : ℕ → UInt8) : Prop :=
  ∀ x, sectorSize * u.startSector ≤ x → x < sectorSize * (u.startSector + sectors size) →
    after x = before x

/-- Failure atomicity of one run of an update: if it reports failure and sector 1 gave no trouble,
then the staging sectors are as they were or sector 1 starts with the reset command. -/
def FailureAtomic (u : Update) (env : Env) (f : Fil) (s : State) : Prop :=
  (u.run env f s).1 = false → Sector1Ok (u.run env f s).2 →
    Unstaged u f.fSize s.boot0 (u.run env f s).2.boot0 ∨
      Store.word (u.run env f s).2.boot0 (sectorSize * cmdSector) = cmdRst

/-! ## What a failed update leaves alone -/

variable {env : Env} {s : State}

/-- With sector 1 in order, a failed command or reset leaves BOOT0 alone. -/
theorem not_sector1Ok_of_mem {op : DiskOp} (h : op ∈ s.diskOps) (hsec : op.sector = cmdSector)
    (hop : op.ok = false) : ¬ Sector1Ok s := by
  intro hok
  rw [hok op h hsec] at hop
  exact Bool.false_ne_true hop.symm

theorem modchipWriteRstCmd_of_sector1Ok (h : Sector1Ok (modchipWriteRstCmd env s).2) :
    (modchipWriteRstCmd env s).2.boot0 = s.boot0 := by
  rcases modchipWriteRstCmd_boot0_or env s with hsame | ⟨op, hop, hsec, hfail⟩
  · exact hsame
  · exact absurd h (not_sector1Ok_of_mem hop hsec hfail)

/-- The two ways an update goes on after staging: do nothing, or write a command. -/
def Follows (next : ℕ → State → Bool × State) : Prop :=
  ∀ n t, (next n t).1 = false → ¬ Sector1Ok (next n t).2

theorem follows_cmd (env : Env) (c : ℕ → Cmd) : Follows fun n ↦ modchipWriteCmd env (c n) := by
  intro n t h
  obtain ⟨op, hop, hsec, hfail⟩ := modchipWriteCmd_false h
  exact not_sector1Ok_of_mem hop hsec hfail

theorem follows_true : Follows fun _ s ↦ (true, s) :=
  fun _ _ h ↦ absurd h.symm Bool.false_ne_true

/-- A failed staging write, with the reset after it, changes nothing below the staging sectors. -/
theorem writeImage_below {start buf size x : ℕ} {next : ℕ → State → Bool × State}
    (hnext : Follows next) (h : (writeImage env start next buf size s).1 = false)
    (hok : Sector1Ok (writeImage env start next buf size s).2) (hx : x < sectorSize * start) :
    (writeImage env start next buf size s).2.boot0 x = s.boot0 x := by
  cases h1 : (env s.tick).ok with
  | true =>
    rw [writeImage_ok h1] at h hok
    exact absurd hok (hnext _ _ h)
  | false =>
    rw [writeImage_error h1] at hok ⊢
    dsimp only at hok ⊢
    rw [modchipWriteRstCmd_of_sector1Ok hok, diskWrite_error h1]
    exact Store.smear_of_not_mem (.inl hx)

theorem readThenWrite_below {pad : UInt8} {start size x : ℕ} {next : ℕ → State → Bool × State}
    {f : Fil} (hf : f.fptr = 0) (hsize : size ≤ f.size) (hnext : Follows next)
    (h : (readThenWrite env pad (writeImage env start next) size f s).1 = false)
    (hok : Sector1Ok (readThenWrite env pad (writeImage env start next) size f s).2)
    (hx : x < sectorSize * start) :
    (readThenWrite env pad (writeImage env start next) size f s).2.boot0 x = s.boot0 x := by
  cases h0 : (env s.tick).ok with
  | false => rw [readThenWrite_error h0, fRead_error (by exact h0)]; rfl
  | true =>
    rw [readThenWrite_ok h0 hf hsize] at h hok ⊢
    exact writeImage_below hnext h hok hx

/-- One pass of the chunk loop touches nothing below the staging sectors, however it turns out. -/
theorem fwChunk_below {size i x : ℕ} {f : Fil} (hx : x < sectorSize * fwStartSector) :
    (∀ p, fwChunk env size (i, f, s) = .again p → p.2.2.boot0 x = s.boot0 x) ∧
      ∀ r, fwChunk env size (i, f, s) = .leave r → r.2.boot0 x = s.boot0 x := by
  rw [fwChunk]
  by_cases hi : i < size
  swap
  · refine ⟨fun p h ↦ by simp [hi] at h, fun r h ↦ ?_⟩
    simp only [hi, ↓reduceIte, Loop.Pass.leave.injEq] at h
    rw [← h]
  simp only [hi, ↓reduceIte]
  set btr := min (size - i) maxBtr
  set s1 := if btr < maxBtr then memset (sdmmcUpperBuffer + alignDown btr) 0 0x200 s else s with hs1
  have hboot : s1.boot0 = s.boot0 := by rw [hs1]; split <;> rfl
  have hout : x < sectorSize * (fwStartSector + i / 0x200) := by
    rw [sectorSize_eq] at *; omega
  cases h1 : (env s1.tick).ok with
  | false =>
    refine ⟨fun p h ↦ by simp [fRead_error h1] at h, fun r h ↦ ?_⟩
    simp only [fRead_error h1, Loop.Pass.leave.injEq] at h
    rw [← h, ← hboot]
  | true =>
    rw [fRead_ok h1]
    by_cases hbr : min btr (f.size - f.fptr) = btr
    swap
    · refine ⟨fun p h ↦ by simp [hbr] at h, fun r h ↦ ?_⟩
      simp only [ne_eq, hbr, not_false_eq_true, ↓reduceIte, Loop.Pass.leave.injEq] at h
      rw [← h, ← hboot]
    simp only [hbr, ne_eq, not_true_eq_false, ↓reduceIte]
    cases h2 : (env (s1.tick + 1)).ok with
    | true =>
      refine ⟨fun p h ↦ ?_, fun r h ↦ by simp [diskWrite_ok, h2] at h⟩
      simp only [diskWrite_ok, h2, Loop.Pass.again.injEq] at h
      rw [← h, ← hboot]
      dsimp only
      rw [Store.blit_of_not_mem (.inl hout)]
    | false =>
      refine ⟨fun p h ↦ by simp [diskWrite_error, h2] at h, fun r h ↦ ?_⟩
      simp only [diskWrite_error, h2, Loop.Pass.leave.injEq] at h
      rw [← h, ← hboot]
      dsimp only
      rw [Store.smear_of_not_mem (.inl hout)]

theorem fwChunks_below {size x : ℕ} {f : Fil} (hx : x < sectorSize * fwStartSector) :
    (fwChunks env size f s).2.boot0 x = s.boot0 x := by
  refine (Loop.run_inv (I := fun p ↦ p.2.2.boot0 x = s.boot0 x)
    (Q := fun r ↦ r.2.boot0 x = s.boot0 x) (fun p p' hp h ↦ ?_) (fun p r hp h ↦ ?_) rfl _).2 _
    (fwChunks_leave env size f s)
  · exact ((fwChunk_below hx).1 p' h).trans hp
  · exact ((fwChunk_below hx).2 r h).trans hp

/-- **A failed update whose operations on sector 1 all succeed leaves everything below its staging
sectors alone**, sector 1 included. -/
theorem Update.run_false (u : Update) {f : Fil} (hf : f.fptr = 0) (h : (u.run env f s).1 = false)
    (hok : Sector1Ok (u.run env f s).2) {x : ℕ} (hx : x < sectorSize * fwStartSector) :
    (u.run env f s).2.boot0 x = s.boot0 x := by
  have hx' : x < sectorSize * u.startSector := by
    have := Nat.mul_le_mul_left sectorSize u.startSector_ge
    omega
  cases u with
  | fw =>
    rw [Update.run, modchipWriteFwUpdateFromFile] at h hok ⊢
    by_cases hlt : f.fSize < sdmmcUpBufSz
    · simp only [hlt, ↓reduceIte] at h hok ⊢
      exact readThenWrite_below hf f.fSize_le
        (follows_cmd env fun n ↦ ⟨cmdFwUpdate, fwStartSector, n⟩) h hok hx
    · simp only [hlt, ↓reduceIte] at h hok ⊢
      have hbelow : (fwChunks env f.fSize f s).2.boot0 x = s.boot0 x := fwChunks_below hx
      rcases heq : fwChunks env f.fSize f s with ⟨_ | _, s'⟩
      · rw [heq] at hok hbelow
        simp only at hok ⊢
        rw [modchipWriteRstCmd_of_sector1Ok hok]
        exact hbelow
      · rw [heq] at h hok
        exact absurd hok (follows_cmd env (fun n ↦ ⟨cmdFwUpdate, fwStartSector, n⟩) _ _ h)
  | bl =>
    rw [Update.run, modchipWriteBlUpdateFromFile] at h hok ⊢
    by_cases hbig : f.fSize > sdmmcUpBufSz
    · simp only [hbig, ↓reduceIte]
    · simp only [hbig, ↓reduceIte] at h hok ⊢
      exact readThenWrite_below hf f.fSize_le
        (follows_cmd env fun n ↦ ⟨cmdBlUpdate, rpBlStartSector, n⟩) h hok hx'
  | ipl =>
    rw [Update.run, modchipWriteIplUpdateFromFile] at h hok ⊢
    by_cases hbig : f.fSize > sdmmcUpBufSz
    · simp only [hbig, ↓reduceIte]
    · simp only [hbig, ↓reduceIte] at h hok ⊢
      exact readThenWrite_below hf f.fSize_le follows_true h hok hx'

/-! ## The write that tears an image -/

/-- A device whose second operation fails and changes every byte it is given. -/
def tearingEnv (boot0 : ℕ → UInt8) : Env := fun n ↦ ⟨n != 1, 0, fun _ ↦ true, fun x ↦ boot0 x + 1⟩

/-- BOOT0 after a staging write of `n` sectors from `start` on that changed every byte. -/
def torn (start n : ℕ) (boot0 : ℕ → UInt8) : ℕ → UInt8 :=
  Store.smear boot0 (sectorSize * start) (sectorSize * n) (fun _ ↦ true) fun x ↦ boot0 x + 1

/-- What a run looks like whose one failure was such a write. -/
def TornRun (start n : ℕ) (boot0 : ℕ → UInt8) (r : Bool × State) : Prop :=
  r.1 = false ∧ r.2.boot0 = torn start n boot0 ∧
    ∀ op ∈ r.2.diskOps, op.ok = true ∨ op.sector = start

/-- The reset after it is a successful read and nothing more. -/
private theorem tornRun_rst {start n count tick : ℕ} {boot0 mem : ℕ → UInt8}
    {data : ℕ → UInt8} {writes : List (ℕ × ℕ)} (htick : tick ≠ 1) :
    TornRun start n boot0 (false, (modchipWriteRstCmd (tearingEnv boot0)
      ⟨mem, torn start n boot0, tick, [⟨true, start, count, data, false⟩], writes⟩).2) := by
  have hok : (tearingEnv boot0 tick).ok = true := by simp [tearingEnv, htick]
  rw [modchipWriteRstCmd_of_ok hok, diskRead_ok hok]
  refine ⟨rfl, rfl, fun op hop ↦ ?_⟩
  rcases List.mem_cons.mp hop with rfl | hop
  · exact .inl rfl
  · exact .inr (by rw [List.mem_singleton.mp hop])

theorem writeImage_torn {start buf size tick : ℕ} {mem boot0 : ℕ → UInt8}
    {next : ℕ → State → Bool × State} {writes : List (ℕ × ℕ)} (htick : tick = 1) :
    TornRun start (sectors size) boot0
      (writeImage (tearingEnv boot0) start next buf size ⟨mem, boot0, tick, [], writes⟩) := by
  subst htick
  have hfail : (tearingEnv boot0 1).ok = false := rfl
  rw [writeImage_error (by exact hfail), diskWrite_error (by exact hfail)]
  exact tornRun_rst (Nat.succ_ne_self 1)

theorem readThenWrite_torn {pad : UInt8} {start size : ℕ} {next : ℕ → State → Bool × State}
    {f : Fil} {mem boot0 : ℕ → UInt8} (hf : f.fptr = 0) (hsize : size ≤ f.size) :
    TornRun start (sectors size) boot0 (readThenWrite (tearingEnv boot0) pad
      (writeImage (tearingEnv boot0) start next) size f (.start mem boot0)) := by
  rw [readThenWrite_ok (by rfl) hf hsize]
  exact writeImage_torn rfl

/-- In the chunk loop it is the write of the first chunk that tears. -/
theorem fwChunks_torn {f : Fil} {size : ℕ} (hf : f.fptr = 0) (hsize : size ≤ f.size)
    (hbig : sdmmcUpBufSz ≤ size) (mem boot0 : ℕ → UInt8) :
    ∃ (mem' data : ℕ → UInt8) (writes : List (ℕ × ℕ)),
      fwChunks (tearingEnv boot0) size f (.start mem boot0) =
        (false, ⟨mem', torn fwStartSector (sectors maxBtr) boot0, 2,
          [⟨true, fwStartSector, sectors maxBtr, data, false⟩], writes⟩) := by
  have hpos : 0 < size := by rw [sdmmcUpBufSz_eq] at hbig; omega
  have hmax : maxBtr ≤ size := hbig
  have hbtr : min size maxBtr = maxBtr := Nat.min_eq_right hmax
  have hleft : min maxBtr f.size = maxBtr := Nat.min_eq_left (by omega)
  have h0 : (tearingEnv boot0 0).ok = true := rfl
  have h1 : (tearingEnv boot0 1).ok = false := rfl
  have hpass : ∃ (mem' data : ℕ → UInt8) (writes : List (ℕ × ℕ)),
      fwChunk (tearingEnv boot0) size (0, f, .start mem boot0) = .leave
        (false, ⟨mem', torn fwStartSector (sectors maxBtr) boot0, 2,
          [⟨true, fwStartSector, sectors maxBtr, data, false⟩], writes⟩) := by
    simp only [fwChunk, hpos, ↓reduceIte, Nat.sub_zero, hbtr, Nat.lt_irrefl, fRead_ok, h0,
      State.start, hf, hleft, ne_eq, not_true_eq_false, Nat.zero_add, diskWrite_error, h1]
    exact ⟨_, _, _, rfl⟩
  obtain ⟨mem', data, writes, hpass⟩ := hpass
  refine ⟨mem', data, writes, ?_⟩
  rw [fwChunks, Loop.run_succ_leave hpass]

/-- **One bad staging write is enough**: any file that is not refused and not empty has a run that
reports failure and leaves its first staging sector changed and sector 1 as it was. -/
theorem Update.run_torn (u : Update) {f : Fil} (hf : f.fptr = 0) (hpos : 0 < f.fSize)
    (hrefuse : ¬ u.refuses f.fSize) (mem boot0 : ℕ → UInt8) :
    ∃ n, 0 < n ∧ TornRun u.startSector n boot0 (u.run (tearingEnv boot0) f (.start mem boot0)) := by
  have hsec : 0 < sectors f.fSize := by rw [sectors]; omega
  cases u with
  | fw =>
    rw [Update.run, modchipWriteFwUpdateFromFile]
    by_cases hlt : f.fSize < sdmmcUpBufSz
    · simp only [hlt, ↓reduceIte]
      exact ⟨_, hsec, readThenWrite_torn hf f.fSize_le⟩
    · obtain ⟨mem', data, writes, hchunks⟩ :=
        fwChunks_torn hf f.fSize_le (Nat.le_of_not_lt hlt) mem boot0
      simp only [hlt, ↓reduceIte, hchunks]
      exact ⟨sectors maxBtr, by decide, tornRun_rst (by omega)⟩
  | bl =>
    have hbig : ¬ f.fSize > sdmmcUpBufSz := fun h ↦ hrefuse ⟨by decide, h⟩
    rw [Update.run, modchipWriteBlUpdateFromFile]
    simp only [hbig, ↓reduceIte]
    exact ⟨_, hsec, readThenWrite_torn hf f.fSize_le⟩
  | ipl =>
    have hbig : ¬ f.fSize > sdmmcUpBufSz := fun h ↦ hrefuse ⟨by decide, h⟩
    rw [Update.run, modchipWriteIplUpdateFromFile]
    simp only [hbig, ↓reduceIte]
    exact ⟨_, hsec, readThenWrite_torn hf f.fSize_le⟩

/-! ## Where failure atomicity holds -/

theorem TornRun.not_unstaged {u : Update} {n size : ℕ} {boot0 : ℕ → UInt8} {r : Bool × State}
    (h : TornRun u.startSector n boot0 r) (hn : 0 < n) (hsize : 0 < size) :
    ¬ Unstaged u size boot0 r.2.boot0 := by
  intro hun
  have hsec : 0 < sectors size := by rw [sectors]; omega
  have hlt : sectorSize * u.startSector < sectorSize * (u.startSector + sectors size) := by
    rw [sectorSize_eq]; omega
  have hsame := hun (sectorSize * u.startSector) (Nat.le_refl _) hlt
  rw [h.2.1, torn, Store.smear_of_hit (Nat.le_refl _) (by rw [sectorSize_eq]; omega) rfl] at hsame
  have hnat := congrArg UInt8.toNat hsame
  rw [UInt8.toNat_add, UInt8.toNat_one] at hnat
  omega

theorem TornRun.sector1 {u : Update} {n : ℕ} {boot0 : ℕ → UInt8} {r : Bool × State}
    (h : TornRun u.startSector n boot0 r) :
    Sector1Ok r.2 ∧ Store.word r.2.boot0 (sectorSize * cmdSector) =
      Store.word boot0 (sectorSize * cmdSector) := by
  have hstart := u.startSector_ge
  rw [fwStartSector] at hstart
  refine ⟨fun op hop hsec ↦ ?_, Store.word_congr fun k hk ↦ ?_⟩
  · rcases h.2.2 op hop with hok | hop
    · exact hok
    · rw [hop, cmdSector] at hsec
      omega
  · rw [h.2.1]
    refine Store.smear_of_not_mem (.inl ?_)
    rw [sectorSize_eq, cmdSector]
    omega

/-- **Failure atomicity, exactly where it holds**: when sector 1 starts with the reset command
before the update, or there is nothing to stage. -/
theorem failureAtomic_iff (u : Update) (size : ℕ) (content mem boot0 : ℕ → UInt8) :
    (∀ env, FailureAtomic u env (.opened size content) (.start mem boot0)) ↔
      Store.word boot0 (sectorSize * cmdSector) = cmdRst ∨
        (Fil.opened size content).fSize = 0 ∨ u.refuses (Fil.opened size content).fSize := by
  set f := Fil.opened size content
  constructor
  · intro h
    by_contra hcon
    obtain ⟨hword, hsize, hrefuse⟩ :
        Store.word boot0 (sectorSize * cmdSector) ≠ cmdRst ∧ f.fSize ≠ 0 ∧
          ¬ u.refuses f.fSize := by
      simpa only [not_or] using hcon
    have hpos : 0 < f.fSize := by omega
    obtain ⟨n, hn, htorn⟩ := u.run_torn (f := f) rfl hpos hrefuse mem boot0
    obtain ⟨hok, hsame⟩ := htorn.sector1
    rcases h (tearingEnv boot0) htorn.1 hok with hun | hrst
    · exact htorn.not_unstaged hn hpos hun
    · exact hword (hsame.symm.trans hrst)
  · rintro (hword | hzero | ⟨hu, hbig⟩) env hfalse hok
    · right
      rw [← hword]
      refine Store.word_congr fun k hk ↦ u.run_false rfl hfalse hok ?_
      rw [sectorSize_eq, cmdSector, fwStartSector]
      omega
    · left
      intro x hx hx'
      rw [hzero] at hx'
      exact absurd hx' (Nat.not_lt_of_le hx)
    · left
      intro x _ _
      cases u with
      | fw => exact absurd rfl hu
      | bl => simp only [Update.run, modchipWriteBlUpdateFromFile, hbig, ↓reduceIte]
      | ipl => simp only [Update.run, modchipWriteIplUpdateFromFile, hbig, ↓reduceIte]

/-- A firmware update of one byte whose staging write fails: the byte is written, and there is no
reset. -/
theorem failureAtomic_counterexample : ¬ FailureAtomic .fw (tearingEnv fun _ ↦ 0)
    (.opened 1 fun _ ↦ 0xAA) (.start (fun _ ↦ 0) fun _ ↦ 0) := by
  intro h
  obtain ⟨n, hn, htorn⟩ := Update.run_torn .fw (f := .opened 1 fun _ ↦ 0xAA) rfl (by decide)
    (fun h ↦ h.1 rfl) (fun _ ↦ 0) fun _ ↦ 0
  obtain ⟨hok, hsame⟩ := htorn.sector1
  rcases h htorn.1 hok with hun | hrst
  · exact htorn.not_unstaged hn (by decide) hun
  · rw [hsame] at hrst
    exact absurd hrst (by decide)

end Modchip
end SdLoader
