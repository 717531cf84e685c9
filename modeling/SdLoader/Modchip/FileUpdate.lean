import SdLoader.Modchip.Update

/-!
# Bootloader and loader images from a file

The two updates that read their image in one go.  Three numbers meet here: how large a file the menu
admits, how large one the function takes, and the size of the buffer, of which the last sector is
cleared before the file is read over it.  The sector that is cleared begins behind the file if the
size is a multiple of that of a sector, so a file that fills the buffer is too large by one.  What
the menu admits of a bootloader is larger than the buffer altogether; an image of the loader itself
always fits.

* `Inside` — everything written to memory is in the staging buffer.
* `Blames` — if a function returns false, one of the operations it has issued has failed.
* `FileUpdateLaw` — an update whose operations succeed is staged, inside the buffer.
* `fileUpdateLaw_iff` — it is, for the files that are smaller than the buffer.
-/

set_option autoImplicit false

namespace SdLoader
namespace Modchip

variable {env : Env} {s : State}

/-! ## The staging buffer -/

/-- A range of memory, as address and length, that is in the staging buffer. -/
def InBuffer (w : ℕ × ℕ) : Prop :=
  sdmmcUpperBuffer ≤ w.1 ∧ w.1 + w.2 ≤ sdmmcUpperBuffer + sdmmcUpBufSz

/-- Everything written to memory so far is in the staging buffer. -/
def Inside (s : State) : Prop := ∀ w ∈ s.memWrites, InBuffer w

/-- What has been written to memory from one state to another is in the staging buffer. -/
def Adds (s s' : State) : Prop := ∃ l, s'.memWrites = l ++ s.memWrites ∧ ∀ w ∈ l, InBuffer w

namespace Adds

variable {s s' s'' : State}

theorem of_eq (h : s'.memWrites = s.memWrites) : Adds s s' := ⟨[], h, fun _ hw ↦ by cases hw⟩

theorem of_cons {w : ℕ × ℕ} (h : s'.memWrites = w :: s.memWrites) (hw : InBuffer w) :
    Adds s s' := by
  refine ⟨[w], h, fun v hv ↦ ?_⟩
  rwa [List.mem_singleton.mp hv]

theorem trans (h : Adds s s') (h' : Adds s' s'') : Adds s s'' := by
  obtain ⟨l, hl, hin⟩ := h
  obtain ⟨l', hl', hin'⟩ := h'
  refine ⟨l' ++ l, by rw [hl', hl, List.append_assoc], fun w hw ↦ ?_⟩
  rcases List.mem_append.mp hw with hw | hw
  · exact hin' w hw
  · exact hin w hw

theorem mem (h : Adds s s') {w : ℕ × ℕ} (hw : w ∈ s.memWrites) : w ∈ s'.memWrites := by
  obtain ⟨l, hl, -⟩ := h
  rw [hl]
  exact List.mem_append_right l hw

theorem inside (h : Adds s s') (hs : Inside s) : Inside s' := by
  obtain ⟨l, hl, hin⟩ := h
  intro w hw
  rw [hl] at hw
  rcases List.mem_append.mp hw with hw | hw
  · exact hin w hw
  · exact hs w hw

end Adds

/-- The start of the buffer. -/
theorem inBuffer_start {n : ℕ} (hn : n ≤ sdmmcUpBufSz) : InBuffer (sdmmcUpperBuffer, n) :=
  ⟨Nat.le_refl _, Nat.add_le_add_left hn _⟩

theorem diskRead_adds (env : Env) (sector : ℕ) (s : State) :
    Adds s (diskRead env sdmmcUpperBuffer sector 1 s).2 := by
  refine .of_cons (w := (sdmmcUpperBuffer, sectorSize * 1)) ?_ (inBuffer_start (by decide))
  cases h : (env s.tick).ok with
  | true => rw [diskRead_ok h]
  | false => rw [diskRead_error h]

theorem diskWrite_adds (env : Env) (buf sector count : ℕ) (s : State) :
    Adds s (diskWrite env buf sector count s).2 := by
  refine .of_eq ?_
  cases h : (env s.tick).ok with
  | true => rw [diskWrite_ok h]
  | false => rw [diskWrite_error h]

theorem modchipWriteCmd_adds (env : Env) (c : Cmd) (s : State) :
    Adds s (modchipWriteCmd env c s).2 := by
  have hread := diskRead_adds env cmdSector s
  rw [modchipWriteCmd]
  rcases hr : diskRead env sdmmcUpperBuffer cmdSector 1 s with ⟨_ | _, s₁⟩ <;> rw [hr] at hread
  · have hset : Adds s₁ (memset (sdmmcUpperBuffer + cmdOffset) 0 0x10 s₁) :=
      .of_cons rfl (inBuffer_start (by decide))
    have hcpy : Adds s₁ (memcpy (sdmmcUpperBuffer + cmdOffset) c.bytes 12
        (memset (sdmmcUpperBuffer + cmdOffset) 0 0x10 s₁)) :=
      hset.trans (.of_cons rfl (inBuffer_start (by decide)))
    exact hread.trans (hcpy.trans (diskWrite_adds ..))
  · exact hread

theorem modchipWriteRstCmd_adds (env : Env) (s : State) : Adds s (modchipWriteRstCmd env s).2 := by
  have hread := diskRead_adds env 1 s
  rw [modchipWriteRstCmd]
  rcases hr : diskRead env sdmmcUpperBuffer 1 1 s with ⟨_ | _, s₁⟩ <;> rw [hr] at hread
  · exact hread
  · have hset : Adds s₁ (memset sdmmcUpperBuffer 0 256 s₁) :=
      .of_cons rfl (inBuffer_start (by decide))
    have hwrite := hset.trans (diskWrite_adds env sdmmcUpperBuffer 1 1 _)
    simp only [DResult.val, Nat.one_ne_zero, ↓reduceIte]
    rcases hw : diskWrite env sdmmcUpperBuffer 1 1 (memset sdmmcUpperBuffer 0 256 s₁) with
      ⟨_ | _, s₂⟩ <;> rw [hw] at hwrite
    · exact hread.trans hwrite
    · exact hread.trans (hwrite.trans (modchipWriteCmd_adds ..))

/-- The writer of an image writes nothing to memory itself. -/
theorem writeImage_adds {start buf size : ℕ} {next : ℕ → State → Bool × State}
    (hnext : ∀ n s, Adds s (next n s).2) (s : State) :
    Adds s (writeImage env start next buf size s).2 := by
  have hwrite := diskWrite_adds env buf start (sectors size) s
  cases h0 : (env s.tick).ok with
  | true =>
    rw [writeImage_ok h0]
    exact hwrite.trans (hnext _ _)
  | false =>
    rw [writeImage_error h0]
    exact hwrite.trans (modchipWriteRstCmd_adds ..)

/-- After the last sector has been cleared, a file that fits stays in the buffer. -/
theorem readThenWrite_adds {pad : UInt8} {write : ℕ → ℕ → State → Bool × State} {size : ℕ} {f : Fil}
    (hwrite : ∀ buf n s, Adds s (write buf n s).2) (hsize : size ≤ sdmmcUpBufSz) (s : State) :
    Adds (memset (sdmmcUpperBuffer + alignDown size) pad 0x200 s)
      (readThenWrite env pad write size f s).2 := by
  set s₀ := memset (sdmmcUpperBuffer + alignDown size) pad 0x200 s
  have hread : Adds s₀ (fRead env f sdmmcUpperBuffer size s₀).2.2.2 := by
    refine .of_cons (w := (sdmmcUpperBuffer, min size (f.size - f.fptr))) ?_
      (inBuffer_start (Nat.le_trans (Nat.min_le_left _ _) hsize))
    cases h0 : (env s₀.tick).ok with
    | true => rw [fRead_ok h0]
    | false => rw [fRead_error h0]
  rw [readThenWrite]
  rcases hr : fRead env f sdmmcUpperBuffer size s₀ with ⟨_ | _, br, f', s₁⟩ <;> rw [hr] at hread
  · simp only
    split
    · exact hread
    · exact hread.trans (hwrite ..)
  · exact hread

/-! ## Who is to blame -/

/-- If the result is false, one of the operations issued has failed. -/
def Blames (env : Env) (s : State) (r : Bool × State) : Prop :=
  r.1 = false → ∃ n, s.tick ≤ n ∧ n < r.2.tick ∧ (env n).ok = false

theorem modchipWriteCmd_blames (env : Env) (c : Cmd) (s : State) :
    Blames env s (modchipWriteCmd env c s) := by
  intro hfalse
  cases h0 : (env s.tick).ok with
  | false => exact ⟨s.tick, Nat.le_refl _, by simp [modchipWriteCmd, diskRead_error h0], h0⟩
  | true =>
    cases h1 : (env (s.tick + 1)).ok with
    | false =>
      refine ⟨s.tick + 1, Nat.le_succ _, ?_, h1⟩
      simp [modchipWriteCmd, diskRead_ok h0, memset, memcpy, diskWrite_error, h1]
    | true =>
      rw [(modchipWriteCmd_true_iff env c s).mpr ⟨h0, h1⟩] at hfalse
      cases hfalse

theorem modchipWriteCmd_tick (env : Env) (c : Cmd) (s : State) :
    s.tick ≤ (modchipWriteCmd env c s).2.tick := by
  cases h0 : (env s.tick).ok with
  | false => simp [modchipWriteCmd, diskRead_error h0]
  | true =>
    cases h1 : (env (s.tick + 1)).ok <;>
      simp [modchipWriteCmd, diskRead_ok h0, memset, memcpy, diskWrite_error, diskWrite_ok, h1,
        Nat.add_assoc]

theorem modchipWriteRstCmd_tick (env : Env) (s : State) :
    s.tick ≤ (modchipWriteRstCmd env s).2.tick := by
  cases h0 : (env s.tick).ok with
  | true => simp [modchipWriteRstCmd_of_ok h0, diskRead_ok h0]
  | false =>
    rw [modchipWriteRstCmd, diskRead_error h0]
    cases h1 : (env (s.tick + 1)).ok with
    | true => simp [DResult.val, memset, diskWrite_ok, h1, Nat.add_assoc]
    | false =>
      simp only [DResult.val, memset, diskWrite_error, h1, Nat.one_ne_zero, ↓reduceIte]
      refine Nat.le_trans ?_ (modchipWriteCmd_tick env _ _)
      simp [Nat.add_assoc]

theorem writeImage_blames {start buf size : ℕ} {next : ℕ → State → Bool × State}
    (hnext : ∀ n s, Blames env s (next n s)) :
    Blames env s (writeImage env start next buf size s) := by
  intro hfalse
  cases h0 : (env s.tick).ok with
  | true =>
    rw [writeImage_ok h0] at hfalse ⊢
    obtain ⟨n, hn, hlt, hfail⟩ := hnext _ _ hfalse
    rw [diskWrite_ok h0] at hn
    exact ⟨n, Nat.le_of_succ_le hn, hlt, hfail⟩
  | false =>
    rw [writeImage_error h0]
    have htick := modchipWriteRstCmd_tick env (diskWrite env buf start (sectors size) s).2
    rw [diskWrite_error h0] at htick ⊢
    exact ⟨s.tick, Nat.le_refl _, htick, h0⟩

/-- A file that is all there is read whole unless the read fails. -/
theorem readThenWrite_blames {pad : UInt8} {write : ℕ → ℕ → State → Bool × State} {f : Fil}
    {size : ℕ}
    (hwrite : ∀ buf n s, Blames env s (write buf n s)) (hf : f.fptr = 0) (hsize : size ≤ f.size) :
    Blames env s (readThenWrite env pad write size f s) := by
  intro hfalse
  cases h0 : (env s.tick).ok with
  | true =>
    rw [readThenWrite_ok h0 hf hsize] at hfalse ⊢
    obtain ⟨n, hn, hlt, hfail⟩ := hwrite _ _ _ hfalse
    exact ⟨n, Nat.le_of_succ_le hn, hlt, hfail⟩
  | false =>
    refine ⟨s.tick, Nat.le_refl _, ?_, h0⟩
    rw [readThenWrite_error h0, fRead_error (by simpa using h0)]
    exact Nat.lt_succ_self _

/-! ## The law -/

/-- The largest file the menu admits, `MODCHIP_FW_MAX_SIZE` and its siblings. -/
def Update.maxSize : Update → ℕ
  | .fw => fwMaxSize
  | .bl => rpBlMaxSize
  | .ipl => blMaxSize

/-- Every operation an update issues succeeds. -/
def Update.AllOk (u : Update) (env : Env) (f : Fil) (s : State) : Prop :=
  ∀ n, s.tick ≤ n → n < (u.run env f s).2.tick → (env n).ok = true

/-- What an update from a file has to do. -/
structure FileUpdateLaw (u : Update) (env : Env) (f : Fil) (s : State) : Prop where
  /-- It succeeds if its operations do. -/
  succeeds : u.AllOk env f s → (u.run env f s).1 = true
  /-- Then the image is staged. -/
  image : u.AllOk env f s → ∀ k < sectorSize * sectors f.size,
    (u.run env f s).2.boot0 (sectorSize * u.startSector + k) = f.padded u.pad k
  /-- And so is the command that names it, if there is one. -/
  named : u.AllOk env f s → ∀ c, u.cmd f.size = some c →
    Store.word (u.run env f s).2.boot0 (sectorSize * cmdSector) = c.cmd ∧
      Store.word (u.run env f s).2.boot0 (sectorSize * cmdSector + 4) = c.fwSectorStart ∧
      Store.word (u.run env f s).2.boot0 (sectorSize * cmdSector + 8) = c.fwSectorCnt
  /-- Nothing but the staging buffer is written to. -/
  inside : Inside (u.run env f s).2

namespace Update

variable {u : Update} {f : Fil}

theorem run_blames (hu : u ≠ .fw) (hf : f.fptr = 0) (hsize : f.fSize ≤ sdmmcUpBufSz) :
    Blames env s (u.run env f s) := by
  have hfits : ¬f.fSize > sdmmcUpBufSz := Nat.not_lt_of_le hsize
  cases u with
  | fw => exact absurd rfl hu
  | bl =>
    rw [run, modchipWriteBlUpdateFromFile]
    simp only [hfits, if_false]
    exact readThenWrite_blames (fun _ _ _ ↦ writeImage_blames fun _ ↦ modchipWriteCmd_blames env _)
      hf f.fSize_le
  | ipl =>
    rw [run, modchipWriteIplUpdateFromFile]
    simp only [hfits, if_false]
    exact readThenWrite_blames (fun _ _ _ ↦ writeImage_blames fun _ _ h ↦ by cases h) hf f.fSize_le

/-- The first thing an update does is to clear the last sector; everything else is in the buffer. -/
theorem run_adds (hu : u ≠ .fw) (hsize : f.fSize ≤ sdmmcUpBufSz) (env : Env) (s : State) :
    Adds (memset (sdmmcUpperBuffer + alignDown f.fSize) u.pad 0x200 s) (u.run env f s).2 := by
  have hfits : ¬f.fSize > sdmmcUpBufSz := Nat.not_lt_of_le hsize
  cases u with
  | fw => exact absurd rfl hu
  | bl =>
    rw [run, modchipWriteBlUpdateFromFile]
    simp only [hfits, if_false]
    exact readThenWrite_adds (fun _ _ ↦ writeImage_adds fun _ ↦ modchipWriteCmd_adds env _) hsize s
  | ipl =>
    rw [run, modchipWriteIplUpdateFromFile]
    simp only [hfits, if_false]
    exact readThenWrite_adds (fun _ _ ↦ writeImage_adds fun _ _ ↦ .of_eq rfl) hsize s

theorem cmd_lt {size : ℕ} (hsize : size ≤ fwMaxSize) {c : Cmd} (hc : u.cmd size = some c) :
    c.cmd < 2 ^ 32 ∧ c.fwSectorStart < 2 ^ 32 ∧ c.fwSectorCnt < 2 ^ 32 := by
  have hsectors : sectors size < 2 ^ 32 ∧ size < 2 ^ 32 := by
    rw [fwMaxSize] at hsize
    rw [sectors]
    omega
  cases u with
  | fw =>
    obtain rfl := Option.some.inj hc
    refine ⟨(by decide : cmdFwUpdate < 2 ^ 32), (by decide : fwStartSector < 2 ^ 32), ?_⟩
    simp only [fwCmdCount]
    split <;> omega
  | bl =>
    obtain rfl := Option.some.inj hc
    exact ⟨(by decide : cmdBlUpdate < 2 ^ 32), (by decide : rpBlStartSector < 2 ^ 32), hsectors.1⟩
  | ipl => cases hc

/-- **What is on BOOT0 after an update that has succeeded**: the image, and the words of the
command. -/
theorem run_staged (hf : f.fptr = 0) (hsize : f.size ≤ fwMaxSize) (h : (u.run env f s).1 = true) :
    (∀ k < sectorSize * sectors f.size,
      (u.run env f s).2.boot0 (sectorSize * u.startSector + k) = f.padded u.pad k) ∧
    ∀ c, u.cmd f.size = some c →
      Store.word (u.run env f s).2.boot0 (sectorSize * cmdSector) = c.cmd ∧
        Store.word (u.run env f s).2.boot0 (sectorSize * cmdSector + 4) = c.fwSectorStart ∧
        Store.word (u.run env f s).2.boot0 (sectorSize * cmdSector + 8) = c.fwSectorCnt := by
  obtain ⟨m, himage, hboot0⟩ := u.run_true hf hsize h
  rw [hboot0]
  refine ⟨fun k hk ↦ ?_, fun c hc ↦ ?_⟩
  · have hstart := u.startSector_ge
    rw [fwStartSector] at hstart
    rw [commanded_of_not_mem u (by rw [sectorSize_eq]; omega)]
    exact himage k hk
  · obtain ⟨hcmd, hstart, hcnt⟩ := cmd_lt hsize hc
    rw [commanded, hc, cmdSector, Nat.mul_one]
    exact Cmd.words hcmd hstart hcnt fun k hk ↦ cmdWritten_bytes hk

end Update

/-- A file that does not leave the last sector of the buffer to be cleared is refused, or the sector
behind the buffer is cleared for it. -/
theorem FileUpdateLaw.size_lt {u : Update} (hu : u ≠ .fw) {size : ℕ} (hsize : size ≤ u.maxSize)
    {content mem boot0 : ℕ → UInt8}
    (hlaw : FileUpdateLaw u env (.opened size content) (.start mem boot0)) :
    size < sdmmcUpBufSz := by
  set f := Fil.opened size content
  set s := State.start mem boot0
  have hmax : f.size ≤ fwMaxSize := Nat.le_trans hsize (by cases u <;> decide)
  have hfs : f.fSize = size := Fil.fSize_eq (Nat.lt_of_le_of_lt hmax (by decide))
  by_contra hge
  rcases Nat.lt_or_eq_of_le (Nat.le_of_not_lt hge) with hbig | heq
  · -- The file is refused before anything is done.
    have hrun : u.run env f s = (false, s) := by
      cases u with
      | fw => exact absurd rfl hu
      | bl => simp only [Update.run, modchipWriteBlUpdateFromFile, hfs, hbig, if_true]
      | ipl => simp only [Update.run, modchipWriteIplUpdateFromFile, hfs, hbig, if_true]
    have htrue : (u.run env f s).1 = true := by
      refine hlaw.succeeds fun n _ hlt ↦ ?_
      rw [hrun] at hlt
      exact absurd hlt (Nat.not_lt_zero n)
    rw [hrun] at htrue
    cases htrue
  · -- The sector that is cleared is the one behind the buffer.
    have hadds := Update.run_adds hu (f := f) (by rw [hfs, heq]) env s
    rw [hfs] at hadds
    obtain ⟨-, hstop⟩ := hlaw.inside _ (hadds.mem (List.mem_cons_self ..))
    revert hstop
    rw [← heq]
    decide

/-- **The law of an update from a file, exactly where it holds**: for the files that are smaller
than the staging buffer. -/
theorem fileUpdateLaw_iff {u : Update} (hu : u ≠ .fw) {size : ℕ} (hsize : size ≤ u.maxSize)
    (env : Env) (content mem boot0 : ℕ → UInt8) :
    FileUpdateLaw u env (.opened size content) (.start mem boot0) ↔ size < sdmmcUpBufSz := by
  set f := Fil.opened size content
  set s := State.start mem boot0
  have hmax : f.size ≤ fwMaxSize := Nat.le_trans hsize (by cases u <;> decide)
  have hfs : f.fSize = size := Fil.fSize_eq (Nat.lt_of_le_of_lt hmax (by decide))
  constructor
  · intro hlaw
    exact hlaw.size_lt hu hsize
  · intro hlt
    have hstart : Inside (memset (sdmmcUpperBuffer + alignDown f.fSize) u.pad 0x200 s) := by
      intro w hw
      rw [List.mem_singleton.mp hw, InBuffer, hfs, alignDown]
      rw [sdmmcUpBufSz_eq] at *
      omega
    have htrue : u.AllOk env f s → (u.run env f s).1 = true := by
      intro hok
      by_contra hfalse
      obtain ⟨n, hn, hn', hfail⟩ :=
        Update.run_blames hu rfl (hfs ▸ Nat.le_of_lt hlt) (Bool.not_eq_true _ ▸ hfalse)
      rw [hok n hn hn'] at hfail
      cases hfail
    exact ⟨htrue, fun hok ↦ (Update.run_staged rfl hmax (htrue hok)).1,
      fun hok ↦ (Update.run_staged rfl hmax (htrue hok)).2,
      (Update.run_adds hu (hfs ▸ Nat.le_of_lt hlt) env s).inside hstart⟩

theorem fileUpdateLaw_iff_small :
    FileUpdateLaw .bl okEnv (.opened 0x1000 fun _ ↦ 0xAA) (.start (fun _ ↦ 0) fun _ ↦ 0) ↔
      0x1000 < sdmmcUpBufSz :=
  fileUpdateLaw_iff (by decide) (by decide) _ _ _ _

/-- A bootloader that fills the staging buffer: the sector behind the buffer is cleared. -/
theorem fileUpdateLaw_counterexample :
    ¬FileUpdateLaw .bl okEnv (.opened 0x1BC00 fun _ ↦ 0) (.start (fun _ ↦ 0) fun _ ↦ 0) := by
  intro hlaw
  exact absurd (hlaw.size_lt (by decide) (by decide)) (by decide)

end Modchip
end SdLoader
