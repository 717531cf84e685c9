import SdLoader.Modchip.Effect

/-!
# The firmware update

`modchip_write_fw_update_from_file` has two ways to stage an image, one for a file that fits the
staging buffer and one that goes chunk by chunk, and the modchip takes the sector count in the
command at its word.  Both ways stage the same bytes: `fwChunks_image` is the chunk loop's
invariant carried to its end, and `modchipWriteFwUpdateFromFile_true` is what is on BOOT0 after
either.

They do not agree on the count.  The one-shot path divides the rounded-up size by the sector size;
the chunked path writes `size + (0x200 - 1) / 0x200`, which is `size`, so that a chunked update
always names as many sectors as the file has bytes.  And neither path looks at an empty file,
which goes through as a command naming no sectors at all.  `fwUpdateLaw_iff` is the exact account:
the law of a firmware update holds for the files that are not empty and fit the buffer, and for no
others.
-/

set_option autoImplicit false

namespace SdLoader
namespace Modchip

/-! ## The law -/

/-- The last sector of BOOT0. -/
def lastSector : ℕ := 0x1fff

/-- What a firmware update has to leave on BOOT0: the padded file from the start sector on, and in
sector 1 the command naming exactly the sectors it fills. -/
structure FwStaged (f : Fil) (boot0 : ℕ → UInt8) : Prop where
  /-- There is something to update to. -/
  nonempty : 0 < f.size
  /-- The image. -/
  image : ∀ k < sectorSize * sectors f.size,
    boot0 (sectorSize * fwStartSector + k) = f.padded 0 k
  /-- The command word. -/
  cmd : Store.word boot0 (sectorSize * cmdSector) = cmdFwUpdate
  /-- The first sector it names. -/
  start : Store.word boot0 (sectorSize * cmdSector + 4) = fwStartSector
  /-- The number of sectors it names. -/
  count : Store.word boot0 (sectorSize * cmdSector + 8) = sectors f.size

/-- The bytes of an update command. -/
def IsUpdateCmd (b : ℕ → UInt8) : Prop :=
  Store.word b 0 = cmdFwUpdate ∨ Store.word b 0 = cmdBlUpdate

/-- The law of a firmware update: success means the image is staged, and whatever happens no
update command is written that names no sector, or one that is not there. -/
structure FwUpdateLaw (env : Env) (f : Fil) (s : State) : Prop where
  /-- Success means what it says. -/
  staged : (modchipWriteFwUpdateFromFile env f s).1 = true →
    FwStaged f (modchipWriteFwUpdateFromFile env f s).2.boot0
  /-- Every update command written names sectors, and only sectors of BOOT0. -/
  commands : ∀ op ∈ (modchipWriteFwUpdateFromFile env f s).2.diskOps, op.isWrite = true →
    op.sector = cmdSector → IsUpdateCmd op.data →
      0 < Store.word op.data 8 ∧ Store.word op.data 4 + Store.word op.data 8 ≤ lastSector + 1

/-! ## The one-shot path -/

variable {env : Env} {s : State}

theorem writeImage_ok {start buf size : ℕ} {next : ℕ → State → Bool × State}
    (h : (env s.tick).ok = true) :
    writeImage env start next buf size s =
      next (sectors size) (diskWrite env buf start (sectors size) s).2 := by
  rw [writeImage, diskWrite_ok h, sectors, diskWrite_ok h]

theorem writeImage_error {start buf size : ℕ} {next : ℕ → State → Bool × State}
    (h : (env s.tick).ok = false) :
    writeImage env start next buf size s =
      (false, (modchipWriteRstCmd env (diskWrite env buf start (sectors size) s).2).2) := by
  rw [writeImage, diskWrite_error h, sectors, diskWrite_error h]

/-- A file that is all there is read whole. -/
theorem readThenWrite_ok {pad : UInt8} {write : ℕ → ℕ → State → Bool × State} {f : Fil} {size : ℕ}
    (h : (env s.tick).ok = true) (hf : f.fptr = 0) (hsize : size ≤ f.size) :
    readThenWrite env pad write size f s = write sdmmcUpperBuffer size { s with
      tick := s.tick + 1
      memWrites := (sdmmcUpperBuffer, size) ::
        (sdmmcUpperBuffer + alignDown size, 0x200) :: s.memWrites
      mem := Store.blit (Store.fill s.mem (sdmmcUpperBuffer + alignDown size) 0x200 pad)
        sdmmcUpperBuffer size f.content } := by
  have hmin : min size f.size = size := Nat.min_eq_left hsize
  simp [readThenWrite, memset, fRead_ok, h, hf, hmin]

theorem readThenWrite_error {pad : UInt8} {write : ℕ → ℕ → State → Bool × State} {f : Fil}
    {size : ℕ} (h : (env s.tick).ok = false) :
    readThenWrite env pad write size f s = (false, (fRead env f sdmmcUpperBuffer size
      (memset (sdmmcUpperBuffer + alignDown size) pad 0x200 s)).2.2.2) := by
  rw [readThenWrite, fRead_error (by simpa using h)]

/-- **A one-shot update that succeeds has staged the padded file** and has gone on with `next`. -/
theorem readThenWrite_true {pad : UInt8} {start size : ℕ} {next : ℕ → State → Bool × State}
    {f : Fil} (hf : f.fptr = 0) (hsize : size = f.size)
    (h : (readThenWrite env pad (writeImage env start next) size f s).1 = true) :
    ∃ s' : State, (∀ k < sectorSize * sectors f.size,
        s'.boot0 (sectorSize * start + k) = f.padded pad k) ∧
      readThenWrite env pad (writeImage env start next) size f s = next (sectors f.size) s' := by
  subst hsize
  cases h0 : (env s.tick).ok with
  | false => simp [readThenWrite_error h0] at h
  | true =>
    rw [readThenWrite_ok h0 hf (Nat.le_refl _)] at h ⊢
    cases h1 : (env (s.tick + 1)).ok with
    | false => simp [writeImage_error, h1] at h
    | true =>
      refine ⟨_, fun k hk ↦ ?_, writeImage_ok h1⟩
      rw [diskWrite_ok (by exact h1)]
      dsimp only
      rw [Store.blit_add hk]
      exact staged_buffer s.mem sdmmcUpperBuffer pad f.content hk

/-- A medium with the image staged and the command that names it written. -/
theorem FwStaged.of_cmdWritten {f : Fil} {m : ℕ → UInt8} (hpos : 0 < f.size)
    (hsize : f.size ≤ fwMaxSize)
    (himg : ∀ k < sectorSize * sectors f.size, m (sectorSize * fwStartSector + k) = f.padded 0 k) :
    FwStaged f (cmdWritten m ⟨cmdFwUpdate, fwStartSector, sectors f.size⟩) := by
  have hcnt : sectors f.size < 2 ^ 32 := by rw [sectors]; rw [fwMaxSize] at hsize; omega
  have hcmd : (⟨cmdFwUpdate, fwStartSector, sectors f.size⟩ : Cmd).cmd < 2 ^ 32 := by
    change cmdFwUpdate < _; decide
  have hstart : (⟨cmdFwUpdate, fwStartSector, sectors f.size⟩ : Cmd).fwSectorStart < 2 ^ 32 := by
    change fwStartSector < _; decide
  obtain ⟨h0, h4, h8⟩ := Cmd.words hcmd hstart hcnt fun k hk ↦ cmdWritten_bytes (m := m) hk
  refine ⟨hpos, fun k hk ↦ ?_, h0, h4, h8⟩
  rw [cmdWritten_of_not_mem (by simp [fwStartSector]; omega)]
  exact himg k hk

/-! ## The chunk loop -/

theorem maxBtr_eq : maxBtr = 222 * 512 := rfl

/-- The staging buffer after the padding and the read of one chunk: what the file has there, and
zeros behind its end. -/
private theorem chunk_buffer (m : ℕ → UInt8) (buf : ℕ) (src : ℕ → UInt8) {btr k : ℕ}
    (hbtr : btr ≤ maxBtr) (hk : k < sectorSize * sectors btr) :
    Store.blit (if btr < maxBtr then Store.fill m (buf + alignDown btr) 0x200 0 else m) buf btr src
      (buf + k) = if k < btr then src k else 0 := by
  by_cases hlt : btr < maxBtr
  · rw [if_pos hlt]
    exact staged_buffer m buf 0 src hk
  · have heq : btr = maxBtr := by omega
    have hkb : k < btr := by
      rw [sectors, sectorSize_eq, heq, maxBtr_eq] at hk
      rw [heq, maxBtr_eq]
      omega
    rw [if_neg hlt, if_pos hkb, Store.blit_add hkb]

/-- **What a pass that goes round has done**: it was called for, the file had the bytes, and the
padded chunk is on BOOT0 and nothing else of BOOT0 is touched. -/
theorem fwChunk_again {size i : ℕ} {f : Fil} {p : ℕ × Fil × State}
    (h : fwChunk env size (i, f, s) = .again p) :
    i < size ∧ min (size - i) maxBtr ≤ f.size - f.fptr ∧
      p.1 = (i + maxBtr) % 2 ^ 32 ∧
      p.2.1 = { f with fptr := f.fptr + min (size - i) maxBtr } ∧
      ∃ data : ℕ → UInt8,
        p.2.2.boot0 = Store.blit s.boot0 (sectorSize * (fwStartSector + i / 0x200))
          (sectorSize * sectors (min (size - i) maxBtr)) data ∧
        ∀ k < sectorSize * sectors (min (size - i) maxBtr),
          data k = if k < min (size - i) maxBtr then f.content (f.fptr + k) else 0 := by
  rw [fwChunk] at h
  by_cases hi : i < size
  swap
  · simp [hi] at h
  simp only [hi, ↓reduceIte] at h
  set btr := min (size - i) maxBtr with hbtr
  set s1 := if btr < maxBtr then memset (sdmmcUpperBuffer + alignDown btr) 0 0x200 s else s with hs1
  have hmem : s1.mem = if btr < maxBtr then
      Store.fill s.mem (sdmmcUpperBuffer + alignDown btr) 0x200 0 else s.mem := by
    rw [hs1]; split <;> rfl
  have hboot : s1.boot0 = s.boot0 := by rw [hs1]; split <;> rfl
  cases h1 : (env s1.tick).ok with
  | false => simp [fRead_error h1] at h
  | true =>
    rw [fRead_ok h1] at h
    by_cases hbr : min btr (f.size - f.fptr) = btr
    swap
    · simp [hbr] at h
    simp only [hbr, ne_eq, not_true_eq_false, ↓reduceIte] at h
    cases h2 : (env (s1.tick + 1)).ok with
    | false => simp [diskWrite_error, h2] at h
    | true =>
      simp only [diskWrite_ok, h2, Loop.Pass.again.injEq] at h
      subst h
      refine ⟨hi, by omega, rfl, rfl, fun k ↦ Store.blit s1.mem sdmmcUpperBuffer btr
        (fun j ↦ f.content (f.fptr + j)) (sdmmcUpperBuffer + k), ?_, fun k hk ↦ ?_⟩
      · rw [← hboot, sectors]
      rw [hmem]
      exact chunk_buffer s.mem sdmmcUpperBuffer (fun k ↦ f.content (f.fptr + k)) (by omega) hk

/-- A loop left with success was left at its head, with nothing done in the last pass. -/
theorem fwChunk_leave_true {size i : ℕ} {f : Fil} {r : Bool × State}
    (h : fwChunk env size (i, f, s) = .leave r) (hr : r.1 = true) : size ≤ i ∧ r.2 = s := by
  rw [fwChunk] at h
  by_cases hi : i < size
  swap
  · simp only [hi, ↓reduceIte, Loop.Pass.leave.injEq] at h
    exact ⟨by omega, by rw [← h]⟩
  exfalso
  simp only [hi, ↓reduceIte] at h
  split at h
  · simp only [Loop.Pass.leave.injEq] at h
    rw [← h] at hr
    exact Bool.false_ne_true hr
  · split at h
    · simp only [Loop.Pass.leave.injEq] at h
      rw [← h] at hr
      exact Bool.false_ne_true hr
    · split at h
      · simp only [Loop.Pass.leave.injEq] at h
        rw [← h] at hr
        exact Bool.false_ne_true hr
      · simp at h

/-- The chunk loop is left: what it has yet to read drops on every pass. -/
theorem fwChunks_leave (env : Env) (size : ℕ) (f : Fil) (s : State) :
    Loop.run (fwChunk env size) (f.size + 1) (0, f, s) = .leave (fwChunks env size f s) := by
  obtain ⟨r, hr⟩ : ∃ r, Loop.run (fwChunk env size) (f.size + 1) (0, f, s) = .leave r := by
    refine Loop.run_leave_of_measure (fun p ↦ p.2.1.size = f.size)
      (fun p ↦ p.2.1.size - p.2.1.fptr) (fun p p' hp h ↦ ?_) rfl (by dsimp only; omega)
    obtain ⟨i, g, t⟩ := p
    obtain ⟨hi, hleft, -, hg, -⟩ := fwChunk_again h
    have hbtr : 0 < min (size - i) maxBtr := by rw [maxBtr_eq]; omega
    rw [hg]
    exact ⟨hp, by dsimp only; omega⟩
  rw [hr, fwChunks, hr]

/-- What holds of the chunk loop at its head: the file has been read up to `i`, and the part of the
padded file below `i` is on BOOT0. -/
structure ChunkInv (f : Fil) (p : ℕ × Fil × State) : Prop where
  /-- Chunks start on sector boundaries. -/
  aligned : p.1 % 0x200 = 0
  /-- The file is the one the loop was given. -/
  size : p.2.1.size = f.size
  /-- And so are its bytes. -/
  content : p.2.1.content = f.content
  /-- The read position follows `i`, and stops at the end of the file. -/
  fptr : p.2.1.fptr = min p.1 f.size
  /-- The image, as far as it has got. -/
  image : ∀ k < min p.1 (sectorSize * sectors f.size),
    p.2.2.boot0 (sectorSize * fwStartSector + k) = f.padded 0 k

theorem ChunkInv.start {f : Fil} (hf : f.fptr = 0) (s : State) : ChunkInv f (0, f, s) :=
  ⟨rfl, rfl, rfl, by rw [hf, Nat.zero_min], fun k hk ↦ by
    rw [Nat.zero_min] at hk
    exact absurd hk (Nat.not_lt_zero k)⟩

/-- One pass of the chunk loop keeps the invariant. -/
theorem ChunkInv.step {f : Fil} (hsize : f.size ≤ fwMaxSize) {p p' : ℕ × Fil × State}
    (hp : ChunkInv f p) (h : fwChunk env f.size p = .again p') : ChunkInv f p' := by
  obtain ⟨i, g, t⟩ := p
  obtain ⟨hi, -, hi', hg, data, hboot, hdata⟩ := fwChunk_again h
  have hal := hp.aligned
  have hfp := hp.fptr
  dsimp only at hal hfp
  rw [fwMaxSize] at hsize
  rw [Nat.min_eq_left (by omega)] at hfp
  have hnowrap : p'.1 = i + maxBtr := by rw [hi', Nat.mod_eq_of_lt (by rw [maxBtr_eq]; omega)]
  -- The sector the chunk goes to starts at byte `i` of the staging area.
  have haddr : sectorSize * (fwStartSector + i / 0x200) = sectorSize * fwStartSector + i := by
    rw [sectorSize_eq]; omega
  refine ⟨?_, by rw [hg]; exact hp.size, by rw [hg]; exact hp.content, ?_, fun k hk ↦ ?_⟩
  · rw [hnowrap, maxBtr_eq]; omega
  · have hread : i + min (f.size - i) maxBtr = min (i + maxBtr) f.size := by
      rw [← Nat.add_min_add_left, Nat.add_sub_cancel' (Nat.le_of_lt hi), Nat.min_comm]
    rw [hg, hnowrap, hfp, ← hread]
  · rw [hboot, haddr]
    rw [hnowrap] at hk
    by_cases hki : k < i
    · rw [Store.blit_of_not_mem (.inl (by omega))]
      exact hp.image k (by dsimp only; omega)
    · obtain ⟨j, rfl⟩ : ∃ j, k = i + j := ⟨k - i, by omega⟩
      have hj : j < sectorSize * sectors (min (f.size - i) maxBtr) := by
        rw [sectors, sectorSize_eq, maxBtr_eq] at *; omega
      have hcontent : g.content = f.content := hp.content
      rw [← Nat.add_assoc, Store.blit_add hj, hdata j hj, hfp, hcontent, Fil.padded]
      refine if_congr ?_ rfl rfl
      rw [sectors, sectorSize_eq, maxBtr_eq] at *
      omega

/-- **A chunk loop that succeeds has staged the whole image.** -/
theorem fwChunks_image {f : Fil} (hf : f.fptr = 0) (hsize : f.size ≤ fwMaxSize)
    (h : (fwChunks env f.size f s).1 = true) {k : ℕ} (hk : k < sectorSize * sectors f.size) :
    (fwChunks env f.size f s).2.boot0 (sectorSize * fwStartSector + k) = f.padded 0 k := by
  have hleave := fwChunks_leave env f.size f s
  refine (Loop.run_inv (I := ChunkInv f)
    (Q := fun r ↦ r.1 = true → ∀ k < sectorSize * sectors f.size,
      r.2.boot0 (sectorSize * fwStartSector + k) = f.padded 0 k)
    (fun p p' hp hpp' ↦ hp.step hsize hpp') (fun p r hp hr htrue k hk ↦ ?_)
    (ChunkInv.start hf s) _).2 _ hleave h k hk
  obtain ⟨i, g, t⟩ := p
  obtain ⟨hi, hrs⟩ := fwChunk_leave_true hr htrue
  have hal : i % 0x200 = 0 := hp.aligned
  rw [hrs]
  refine hp.image k ?_
  rw [sectors, sectorSize_eq] at *
  dsimp only
  omega

/-- The chunk loop succeeds when every operation does. -/
theorem fwChunks_of_ok (henv : ∀ n, (env n).ok = true) {f : Fil} (hf : f.fptr = 0)
    (hsize : f.size ≤ fwMaxSize) : (fwChunks env f.size f s).1 = true := by
  have hleave := fwChunks_leave env f.size f s
  refine (Loop.run_inv (I := ChunkInv f) (Q := fun r ↦ r.1 = true)
    (fun p p' hp hpp' ↦ hp.step hsize hpp') (fun p r hp hr ↦ ?_) (ChunkInv.start hf s) _).2 _ hleave
  obtain ⟨i, g, t⟩ := p
  rw [fwChunk] at hr
  by_cases hi : i < f.size
  · have hfp := hp.fptr
    have hgs := hp.size
    dsimp only at hfp hgs
    have hmin : min (min (f.size - i) maxBtr) (g.size - g.fptr) = min (f.size - i) maxBtr := by
      omega
    simp [hi, fRead_ok, diskWrite_ok, henv, hmin] at hr
  · simp only [hi, ↓reduceIte, Loop.Pass.leave.injEq] at hr
    rw [← hr]

/-! ## Where the law holds -/

/-- Every operation the one-shot path adds is the staging write, or a write of the command that
names the image, or one of a reset. -/
theorem readThenWrite_fw_diskOps {f : Fil} (hf : f.fptr = 0) {op : DiskOp}
    (h : op ∈ (readThenWrite env 0 (modchipWriteFwUpdate env) f.size f s).2.diskOps) :
    op ∈ s.diskOps ∨ op.sector = fwStartSector ∨ op.sector = cmdSector ∧ (op.isWrite = true →
      (∀ k < 12, op.data k = Cmd.bytes ⟨cmdFwUpdate, fwStartSector, sectors f.size⟩ k) ∨
        Store.word op.data 0 = 0 ∨ Store.word op.data 0 = cmdRst) := by
  cases h0 : (env s.tick).ok with
  | false =>
    rw [readThenWrite_error h0, fRead_error (by exact h0)] at h
    exact .inl h
  | true =>
    rw [readThenWrite_ok h0 hf (Nat.le_refl _), modchipWriteFwUpdate] at h
    cases h1 : (env (s.tick + 1)).ok with
    | false =>
      rw [writeImage_error h1, diskWrite_error (by exact h1)] at h
      rcases modchipWriteRstCmd_diskOps h with h | ⟨hsec, hdata⟩
      · rcases List.mem_cons.mp h with rfl | h
        · exact .inr (.inl rfl)
        · exact .inl h
      · exact .inr (.inr ⟨hsec, fun hw ↦ .inr (hdata hw)⟩)
    | true =>
      rw [writeImage_ok h1, modchipWriteFwUpdateCmd, diskWrite_ok (by exact h1)] at h
      rcases modchipWriteCmd_diskOps h with h | ⟨hsec, hdata⟩
      · rcases List.mem_cons.mp h with rfl | h
        · exact .inr (.inl rfl)
        · exact .inl h
      · exact .inr (.inr ⟨hsec, fun hw ↦ .inl (hdata hw)⟩)

theorem modchipWriteFwUpdateFromFile_of_lt {f : Fil} (h : f.size < sdmmcUpBufSz) :
    modchipWriteFwUpdateFromFile env f s =
      readThenWrite env 0 (modchipWriteFwUpdate env) f.size f s := by
  have hf : f.fSize = f.size := Fil.fSize_eq (by rw [sdmmcUpBufSz_eq] at h; omega)
  rw [modchipWriteFwUpdateFromFile, hf, if_pos h]

/-- The number of sectors the command of a firmware update names. -/
def fwCmdCount (size : ℕ) : ℕ := if size < sdmmcUpBufSz then sectors size else size

/-- **What a firmware update that succeeds leaves on BOOT0**, on either path: the whole image, and
the command that names the first `fwCmdCount` sectors of it. -/
theorem modchipWriteFwUpdateFromFile_true {f : Fil} (hf : f.fptr = 0) (hsize : f.size ≤ fwMaxSize)
    (h : (modchipWriteFwUpdateFromFile env f s).1 = true) :
    ∃ m : ℕ → UInt8, (∀ k < sectorSize * sectors f.size,
        m (sectorSize * fwStartSector + k) = f.padded 0 k) ∧
      (modchipWriteFwUpdateFromFile env f s).2.boot0 =
        cmdWritten m ⟨cmdFwUpdate, fwStartSector, fwCmdCount f.size⟩ := by
  by_cases hlt : f.size < sdmmcUpBufSz
  · rw [modchipWriteFwUpdateFromFile_of_lt hlt] at h ⊢
    obtain ⟨s', himg, hrun⟩ := readThenWrite_true hf rfl h
    rw [modchipWriteFwUpdate, hrun] at h ⊢
    rw [fwCmdCount, if_pos hlt]
    exact ⟨s'.boot0, himg, modchipWriteCmd_boot0 h⟩
  · have hfs : f.fSize = f.size := Fil.fSize_eq (by rw [fwMaxSize] at hsize; omega)
    rw [modchipWriteFwUpdateFromFile, hfs, if_neg hlt] at h ⊢
    rw [fwCmdCount, if_neg hlt]
    split at h
    · next s' heq =>
      rw [modchipWriteFwUpdateCmd] at h ⊢
      refine ⟨s'.boot0, fun k hk ↦ ?_, by simpa using modchipWriteCmd_boot0 h⟩
      have htrue : (fwChunks env f.size f s).1 = true := by rw [heq]
      have himg := fwChunks_image hf hsize htrue hk
      rwa [heq] at himg
    · exact absurd h Bool.false_ne_true

/-- The one-shot path, on a device that does everything it is told, succeeds with any file. -/
theorem modchipWriteFwUpdateFromFile_small_ok (henv : ∀ n, (env n).ok = true) {f : Fil}
    (hf : f.fptr = 0) (hlt : f.size < sdmmcUpBufSz) :
    (modchipWriteFwUpdateFromFile env f s).1 = true := by
  rw [modchipWriteFwUpdateFromFile_of_lt hlt, readThenWrite_ok (henv _) hf (Nat.le_refl _),
    modchipWriteFwUpdate, writeImage_ok (henv _)]
  exact (modchipWriteCmd_true_iff env _ _).mpr ⟨henv _, henv _⟩

/-- The chunked path, on a device that does everything it is told: the command it writes counts
bytes. -/
theorem modchipWriteFwUpdateFromFile_of_ok (henv : ∀ n, (env n).ok = true) {f : Fil}
    (hf : f.fptr = 0) (hle : sdmmcUpBufSz ≤ f.size) (hsize : f.size ≤ fwMaxSize) :
    (modchipWriteFwUpdateFromFile env f s).1 = true ∧
      Store.word (modchipWriteFwUpdateFromFile env f s).2.boot0 (sectorSize * cmdSector + 8)
        = f.size := by
  have hfs : f.fSize = f.size := Fil.fSize_eq (by rw [fwMaxSize] at hsize; omega)
  have hchunks := fwChunks_of_ok (s := s) henv hf hsize
  have hrun : modchipWriteFwUpdateFromFile env f s =
      modchipWriteFwUpdateCmd env fwStartSector f.size (fwChunks env f.size f s).2 := by
    rw [modchipWriteFwUpdateFromFile, hfs, if_neg (by omega)]
    split
    · next s' heq => rw [heq]; simp
    · next s' heq => rw [heq] at hchunks; exact absurd hchunks Bool.false_ne_true
  have htrue : (modchipWriteFwUpdateCmd env fwStartSector f.size (fwChunks env f.size f s).2).1
      = true := (modchipWriteCmd_true_iff env _ _).mpr ⟨henv _, henv _⟩
  rw [hrun]
  refine ⟨htrue, ?_⟩
  rw [modchipWriteFwUpdateCmd] at htrue ⊢
  rw [modchipWriteCmd_boot0 htrue]
  rw [fwMaxSize] at hsize
  have hcnt : (⟨cmdFwUpdate, fwStartSector, f.size⟩ : Cmd).fwSectorCnt < 2 ^ 32 := by
    change f.size < _; omega
  have hcmd : (⟨cmdFwUpdate, fwStartSector, f.size⟩ : Cmd).cmd < 2 ^ 32 := by
    change cmdFwUpdate < _; decide
  have hstart : (⟨cmdFwUpdate, fwStartSector, f.size⟩ : Cmd).fwSectorStart < 2 ^ 32 := by
    change fwStartSector < _; decide
  exact (Cmd.words hcmd hstart hcnt fun k hk ↦ cmdWritten_bytes hk).2.2

/-- A device on which every operation succeeds. -/
def okEnv : Env := fun _ ↦ ⟨true, 0, fun _ ↦ false, fun _ ↦ 0⟩

/-- **The law of a firmware update, exactly where it holds**: for the files that are not empty and
fit the staging buffer. -/
theorem fwUpdateLaw_iff {size : ℕ} (hsize : size ≤ fwMaxSize) (content mem boot0 : ℕ → UInt8) :
    (∀ env, FwUpdateLaw env (.opened size content) (.start mem boot0)) ↔
      0 < size ∧ size < sdmmcUpBufSz := by
  have hok : ∀ n, (okEnv n).ok = true := fun _ ↦ rfl
  constructor
  · intro h
    have hlt : size < sdmmcUpBufSz := by
      by_contra hge
      obtain ⟨htrue, hcount⟩ := modchipWriteFwUpdateFromFile_of_ok (s := .start mem boot0) hok
        (f := .opened size content) rfl (Nat.le_of_not_lt hge) hsize
      have hstaged := ((h okEnv).staged htrue).count
      rw [hcount] at hstaged
      have hsz : size = sectors size := hstaged
      rw [sectors] at hsz
      rw [sdmmcUpBufSz_eq] at hge
      omega
    refine ⟨?_, hlt⟩
    exact ((h okEnv).staged (modchipWriteFwUpdateFromFile_small_ok hok rfl hlt)).nonempty
  · rintro ⟨hpos, hlt⟩ env
    have hrun : modchipWriteFwUpdateFromFile env (.opened size content) (.start mem boot0) =
        readThenWrite env 0 (modchipWriteFwUpdate env) size (.opened size content)
          (.start mem boot0) :=
      modchipWriteFwUpdateFromFile_of_lt hlt
    have hcnt : 0 < sectors size ∧ sectors size ≤ 0x100 := by
      rw [sectors]; rw [fwMaxSize] at hsize; omega
    refine ⟨fun h ↦ ?_, fun op hop hw hsec hupd ↦ ?_⟩
    · obtain ⟨m, himg, hboot⟩ :=
        modchipWriteFwUpdateFromFile_true (f := .opened size content) rfl hsize h
      have hcount : fwCmdCount (Fil.opened size content).size = sectors size := if_pos hlt
      rw [hboot, hcount]
      exact FwStaged.of_cmdWritten (f := .opened size content) hpos hsize himg
    · rw [hrun] at hop
      rcases readThenWrite_fw_diskOps (f := .opened size content) rfl hop with hop | hop | hop
      · exact absurd hop List.not_mem_nil
      · rw [hop] at hsec
        exact absurd hsec (by decide)
      · obtain ⟨-, hdata⟩ := hop
        rcases hdata hw with hdata | hzero | hrst
        · have hwords := Cmd.words (m := op.data) (a := 0)
            (c := ⟨cmdFwUpdate, fwStartSector, sectors size⟩) (show cmdFwUpdate < 2 ^ 32 by decide)
            (show fwStartSector < 2 ^ 32 by decide) (show sectors size < 2 ^ 32 by omega)
            fun k hk ↦ by rw [Nat.zero_add]; exact hdata k hk
          rw [Nat.zero_add, Nat.zero_add] at hwords
          rw [hwords.2.1, hwords.2.2]
          refine ⟨hcnt.1, ?_⟩
          change fwStartSector + sectors size ≤ lastSector + 1
          rw [fwStartSector, lastSector]
          omega
        · rw [IsUpdateCmd, hzero] at hupd
          exact absurd hupd (by decide)
        · rw [IsUpdateCmd, hrst] at hupd
          exact absurd hupd (by decide)

theorem fwUpdateLaw_iff_small : (∀ env, FwUpdateLaw env (.opened 0x1000 fun _ ↦ 0xFF)
    (.start (fun _ ↦ 0) fun _ ↦ 0)) ↔ 0 < 0x1000 ∧ 0x1000 < sdmmcUpBufSz :=
  fwUpdateLaw_iff (by decide) _ _ _

/-- A file of exactly `SDMMC_UP_BUF_SZ` bytes is chunked, and its update names 113664 sectors where
it has 222. -/
theorem fwUpdateLaw_counterexample : ¬ FwUpdateLaw okEnv (.opened 0x1BC00 fun _ ↦ 0)
    (.start (fun _ ↦ 0) fun _ ↦ 0) := by
  intro hlaw
  have hok : ∀ n, (okEnv n).ok = true := fun _ ↦ rfl
  obtain ⟨htrue, hcount⟩ := modchipWriteFwUpdateFromFile_of_ok hok
    (s := .start (fun _ ↦ 0) fun _ ↦ 0) (f := .opened 0x1BC00 fun _ ↦ 0) rfl (by decide) (by decide)
  have hstaged := (hlaw.staged htrue).count
  rw [hcount] at hstaged
  exact absurd hstaged (by decide)

end Modchip
end SdLoader
