import SdLoader.Modchip.Defs

/-!
# What each modchip operation does

One lemma for each operation and each way it can turn out, so that nothing above this file has to
look inside a `disk_read` or a `modchip_write_cmd` again.

* `cmdWritten` is the effect of a command that was written: sixteen bytes of sector 1, and nothing
  else, change.
* `modchipWriteCmd_true_iff` and `modchipWriteCmd_false` — a command write succeeds exactly when
  its two disk operations do, and one that does not leaves a failed operation on sector 1 behind.
* `modchipWriteRstCmd_boot0_or` — the reset command changes BOOT0 only if an operation on sector 1
  fails.
* `staged_buffer` — after the padding and a successful file read the staging buffer holds the
  padded file.
-/

set_option autoImplicit false

namespace SdLoader
namespace Modchip

variable {env : Env} {s : State}

/-! ## The disk and the file -/

theorem diskRead_ok {buf sector count : ℕ} (h : (env s.tick).ok = true) :
    diskRead env buf sector count s =
      (.ok, { s with
        tick := s.tick + 1
        diskOps := ⟨false, sector, count, fun _ ↦ 0, true⟩ :: s.diskOps
        memWrites := (buf, sectorSize * count) :: s.memWrites
        mem := Store.blit s.mem buf (sectorSize * count) fun k ↦
          s.boot0 (sectorSize * sector + k) }) := by
  simp [diskRead, h]

theorem diskRead_error {buf sector count : ℕ} (h : (env s.tick).ok = false) :
    diskRead env buf sector count s =
      (.error, { s with
        tick := s.tick + 1
        diskOps := ⟨false, sector, count, fun _ ↦ 0, false⟩ :: s.diskOps
        memWrites := (buf, sectorSize * count) :: s.memWrites
        mem :=
          Store.smear s.mem buf (sectorSize * count) (env s.tick).hit (env s.tick).junk }) := by
  simp [diskRead, h]

theorem diskWrite_ok {buf sector count : ℕ} (h : (env s.tick).ok = true) :
    diskWrite env buf sector count s =
      (.ok, { s with
        tick := s.tick + 1
        diskOps := ⟨true, sector, count, fun k ↦ s.mem (buf + k), true⟩ :: s.diskOps
        boot0 := Store.blit s.boot0 (sectorSize * sector) (sectorSize * count) fun k ↦
          s.mem (buf + k) }) := by
  simp [diskWrite, h]

theorem diskWrite_error {buf sector count : ℕ} (h : (env s.tick).ok = false) :
    diskWrite env buf sector count s =
      (.error, { s with
        tick := s.tick + 1
        diskOps := ⟨true, sector, count, fun k ↦ s.mem (buf + k), false⟩ :: s.diskOps
        boot0 := Store.smear s.boot0 (sectorSize * sector) (sectorSize * count)
          (env s.tick).hit (env s.tick).junk }) := by
  simp [diskWrite, h]

theorem fRead_ok {f : Fil} {buf btr : ℕ} (h : (env s.tick).ok = true) :
    fRead env f buf btr s =
      (.ok, min btr (f.size - f.fptr), { f with fptr := f.fptr + min btr (f.size - f.fptr) },
        { s with
          tick := s.tick + 1
          memWrites := (buf, min btr (f.size - f.fptr)) :: s.memWrites
          mem := Store.blit s.mem buf (min btr (f.size - f.fptr)) fun k ↦
            f.content (f.fptr + k) }) := by
  simp [fRead, h]

theorem fRead_error {f : Fil} {buf btr : ℕ} (h : (env s.tick).ok = false) :
    fRead env f buf btr s =
      (.diskErr, min (env s.tick).br (min btr (f.size - f.fptr)),
        { f with fptr := f.fptr + min (env s.tick).br (min btr (f.size - f.fptr)) },
        { s with
          tick := s.tick + 1
          memWrites := (buf, min btr (f.size - f.fptr)) :: s.memWrites
          mem := Store.smear s.mem buf (min btr (f.size - f.fptr)) (env s.tick).hit
            (env s.tick).junk }) := by
  simp [fRead, h]

@[simp] theorem memset_boot0 (a : ℕ) (v : UInt8) (n : ℕ) (s : State) :
    (memset a v n s).boot0 = s.boot0 := rfl

@[simp] theorem memset_tick (a : ℕ) (v : UInt8) (n : ℕ) (s : State) :
    (memset a v n s).tick = s.tick := rfl

@[simp] theorem memset_diskOps (a : ℕ) (v : UInt8) (n : ℕ) (s : State) :
    (memset a v n s).diskOps = s.diskOps := rfl

@[simp] theorem memcpy_boot0 (a : ℕ) (src : ℕ → UInt8) (n : ℕ) (s : State) :
    (memcpy a src n s).boot0 = s.boot0 := rfl

@[simp] theorem memcpy_tick (a : ℕ) (src : ℕ → UInt8) (n : ℕ) (s : State) :
    (memcpy a src n s).tick = s.tick := rfl

@[simp] theorem memcpy_diskOps (a : ℕ) (src : ℕ → UInt8) (n : ℕ) (s : State) :
    (memcpy a src n s).diskOps = s.diskOps := rfl

/-! ## Configuration and descriptor -/

theorem modchipReadDesc_boot0 (env : Env) (desc : Desc) (s : State) :
    (modchipReadDesc env desc s).2.2.boot0 = s.boot0 := by
  rw [modchipReadDesc]
  cases h : (env s.tick).ok with
  | true => rw [diskRead_ok h]
  | false => rw [diskRead_error h]

/-- Saving the configuration touches one sector, however it turns out. -/
theorem modchipSetCfg_boot0 {cfg : Cfg} {x : ℕ}
    (hx : x < sectorSize * cfgSector ∨ sectorSize * cfgSector + sectorSize ≤ x) :
    (modchipSetCfg env cfg s).2.boot0 x = s.boot0 x := by
  rw [modchipSetCfg]
  cases h0 : (env s.tick).ok with
  | false => rw [diskRead_error h0]
  | true =>
    rw [diskRead_ok h0]
    cases h1 : (env (s.tick + 1)).ok with
    | true =>
      simp only [memcpy, diskWrite_ok, h1, Nat.mul_one]
      exact Store.blit_of_not_mem hx
    | false =>
      simp only [memcpy, diskWrite_error, h1, Nat.mul_one]
      exact Store.smear_of_not_mem hx

/-! ## Writing a command -/

/-- A medium with the command `c` in sector 1: sixteen bytes cleared, twelve of them set. -/
def cmdWritten (m : ℕ → UInt8) (c : Cmd) : ℕ → UInt8 :=
  Store.blit (Store.fill m sectorSize 16 0) sectorSize 12 c.bytes

theorem cmdWritten_of_not_mem {m : ℕ → UInt8} {c : Cmd} {x : ℕ}
    (h : x < sectorSize ∨ sectorSize + 16 ≤ x) : cmdWritten m c x = m x := by
  rw [cmdWritten, Store.blit_of_not_mem (by omega), Store.fill_of_not_mem h]

theorem cmdWritten_bytes {m : ℕ → UInt8} {c : Cmd} {k : ℕ} (h : k < 12) :
    cmdWritten m c (sectorSize + k) = c.bytes k :=
  Store.blit_add h

theorem cmdWritten_tail {m : ℕ → UInt8} {c : Cmd} {k : ℕ} (h : 12 ≤ k) (h' : k < 16) :
    cmdWritten m c (sectorSize + k) = 0 := by
  rw [cmdWritten, Store.blit_of_not_mem (by omega), Store.fill_of_mem (by omega) (by omega)]

/-- The first three words of a store that starts with a command's bytes. -/
theorem Cmd.words {m : ℕ → UInt8} {a : ℕ} {c : Cmd} (hcmd : c.cmd < 2 ^ 32)
    (hstart : c.fwSectorStart < 2 ^ 32) (hcnt : c.fwSectorCnt < 2 ^ 32)
    (h : ∀ k < 12, m (a + k) = c.bytes k) :
    Store.word m a = c.cmd ∧ Store.word m (a + 4) = c.fwSectorStart ∧
      Store.word m (a + 8) = c.fwSectorCnt := by
  refine ⟨Store.word_eq_of_wordByte hcmd fun k hk ↦ ?_,
    Store.word_eq_of_wordByte hstart fun k hk ↦ ?_, Store.word_eq_of_wordByte hcnt fun k hk ↦ ?_⟩
  · rw [h k (by omega), Cmd.bytes, if_pos hk]
  · rw [Nat.add_assoc, h (4 + k) (by omega), Cmd.bytes, if_neg (by omega), if_pos (by omega),
      Nat.add_sub_cancel_left]
  · rw [Nat.add_assoc, h (8 + k) (by omega), Cmd.bytes, if_neg (by omega), if_neg (by omega),
      Nat.add_sub_cancel_left]

/-- The staging buffer after the read, the `memset` and the `memcpy` of `modchip_write_cmd`. -/
private theorem cmd_buffer {m b : ℕ → UInt8} {c : Cmd} {buf k : ℕ} (hk : k < sectorSize) :
    Store.blit (Store.fill (Store.blit m buf sectorSize fun j ↦ b (sectorSize + j)) buf 16 0)
      buf 12 c.bytes (buf + k) = cmdWritten b c (sectorSize + k) := by
  rcases Nat.lt_or_ge k 12 with h12 | h12
  · rw [Store.blit_add h12, cmdWritten_bytes h12]
  · rw [Store.blit_of_not_mem (by omega)]
    rcases Nat.lt_or_ge k 16 with h16 | h16
    · rw [Store.fill_of_mem (by omega) (by omega), cmdWritten_tail h12 h16]
    · rw [Store.fill_of_not_mem (by omega), Store.blit_add hk, cmdWritten_of_not_mem (by omega)]

theorem modchipWriteCmd_true_iff (env : Env) (c : Cmd) (s : State) :
    (modchipWriteCmd env c s).1 = true ↔
      (env s.tick).ok = true ∧ (env (s.tick + 1)).ok = true := by
  rw [modchipWriteCmd]
  cases h0 : (env s.tick).ok with
  | false => simp [diskRead_error h0]
  | true =>
    rw [diskRead_ok h0]
    cases h1 : (env (s.tick + 1)).ok with
    | false => simp [diskWrite_error, memset, memcpy, h1]
    | true => simp [diskWrite_ok, memset, memcpy, h1]

/-- **The effect of a command that was written.** -/
theorem modchipWriteCmd_boot0 {c : Cmd} (h : (modchipWriteCmd env c s).1 = true) :
    (modchipWriteCmd env c s).2.boot0 = cmdWritten s.boot0 c := by
  obtain ⟨h0, h1⟩ := (modchipWriteCmd_true_iff env c s).mp h
  funext x
  simp only [modchipWriteCmd, diskRead_ok h0, memset, memcpy, diskWrite_ok, h1, cmdSector,
    cmdOffset, Nat.add_zero, Nat.mul_one]
  by_cases hx : sectorSize ≤ x ∧ x < sectorSize + sectorSize
  · obtain ⟨k, rfl⟩ : ∃ k, x = sectorSize + k := ⟨x - sectorSize, by omega⟩
    have hk : k < sectorSize := by omega
    rw [Store.blit_add hk, cmd_buffer hk]
  · rw [Store.blit_of_not_mem (by omega), cmdWritten_of_not_mem (by simp at *; omega)]

/-- A command that was not written leaves a failed operation on sector 1 behind. -/
theorem modchipWriteCmd_false {c : Cmd} (h : (modchipWriteCmd env c s).1 = false) :
    ∃ op ∈ (modchipWriteCmd env c s).2.diskOps, op.sector = cmdSector ∧ op.ok = false := by
  have hn := (modchipWriteCmd_true_iff env c s).not.mp (by simp [h])
  rw [modchipWriteCmd]
  cases h0 : (env s.tick).ok with
  | false => exact ⟨_, by rw [diskRead_error h0]; exact List.mem_cons_self .., rfl, rfl⟩
  | true =>
    have h1 : (env (s.tick + 1)).ok = false := by simpa [h0] using hn
    simp only [diskRead_ok h0, memset, memcpy, diskWrite_error, h1]
    exact ⟨_, List.mem_cons_self .., rfl, rfl⟩

/-- Every disk operation of `modchip_write_cmd` is on sector 1, and what it writes there starts
with the command. -/
theorem modchipWriteCmd_diskOps {c : Cmd} {op : DiskOp}
    (h : op ∈ (modchipWriteCmd env c s).2.diskOps) :
    op ∈ s.diskOps ∨ op.sector = cmdSector ∧
      (op.isWrite = true → ∀ k < 12, op.data k = c.bytes k) := by
  rw [modchipWriteCmd] at h
  cases h0 : (env s.tick).ok with
  | false =>
    rw [diskRead_error h0] at h
    rcases List.mem_cons.mp h with rfl | h
    · exact .inr ⟨rfl, by simp⟩
    · exact .inl h
  | true =>
    rw [diskRead_ok h0] at h
    have hdata : ∀ (m : ℕ → UInt8) (k : ℕ), k < 12 →
        Store.blit m sdmmcUpperBuffer 12 c.bytes (sdmmcUpperBuffer + k) = c.bytes k :=
      fun m k hk ↦ Store.blit_add hk
    cases h1 : (env (s.tick + 1)).ok with
    | false =>
      simp only [memset, memcpy, diskWrite_error, h1, List.mem_cons] at h
      rcases h with rfl | rfl | h
      · exact .inr ⟨rfl, fun _ k hk ↦ hdata _ k hk⟩
      · exact .inr ⟨rfl, by simp⟩
      · exact .inl h
    | true =>
      simp only [memset, memcpy, diskWrite_ok, h1, List.mem_cons] at h
      rcases h with rfl | rfl | h
      · exact .inr ⟨rfl, fun _ k hk ↦ hdata _ k hk⟩
      · exact .inr ⟨rfl, by simp⟩
      · exact .inl h

/-! ## The reset command -/

/-- A reset whose read of sector 1 succeeds gives up there. -/
theorem modchipWriteRstCmd_of_ok (h : (env s.tick).ok = true) :
    modchipWriteRstCmd env s = (false, (diskRead env sdmmcUpperBuffer 1 1 s).2) := by
  rw [modchipWriteRstCmd, diskRead_ok h]
  rfl

/-- The operations done so far are not forgotten. -/
theorem mem_modchipWriteCmd_diskOps {c : Cmd} {op : DiskOp} (h : op ∈ s.diskOps) :
    op ∈ (modchipWriteCmd env c s).2.diskOps := by
  rw [modchipWriteCmd]
  cases h0 : (env s.tick).ok with
  | false =>
    rw [diskRead_error h0]
    exact List.mem_cons_of_mem _ h
  | true =>
    rw [diskRead_ok h0]
    cases h1 : (env (s.tick + 1)).ok <;> simp [memset, memcpy, diskWrite_error, diskWrite_ok, h1, h]

/-- A reset whose read of sector 1 fails goes on, with that failure behind it. -/
theorem modchipWriteRstCmd_failed (h : (env s.tick).ok = false) :
    ∃ op ∈ (modchipWriteRstCmd env s).2.diskOps, op.sector = cmdSector ∧ op.ok = false := by
  refine ⟨⟨false, 1, 1, fun _ ↦ 0, false⟩, ?_, rfl, rfl⟩
  rw [modchipWriteRstCmd, diskRead_error h]
  cases h1 : (env (s.tick + 1)).ok with
  | true => simp [DResult.val, memset, diskWrite_ok, h1]
  | false =>
    simp only [DResult.val, memset, diskWrite_error, h1, Nat.one_ne_zero, ↓reduceIte]
    exact mem_modchipWriteCmd_diskOps (by simp)

/-- **The reset command reaches the medium only through a failure.** -/
theorem modchipWriteRstCmd_boot0_or (env : Env) (s : State) :
    (modchipWriteRstCmd env s).2.boot0 = s.boot0 ∨
      ∃ op ∈ (modchipWriteRstCmd env s).2.diskOps, op.sector = cmdSector ∧ op.ok = false := by
  cases h0 : (env s.tick).ok with
  | true => exact .inl (by rw [modchipWriteRstCmd_of_ok h0, diskRead_ok h0])
  | false => exact .inr (modchipWriteRstCmd_failed h0)

/-- **The result of a reset command**: it is done if its read and its first write have failed, and
the operations of `modchip_write_cmd` have not. -/
theorem modchipWriteRstCmd_true_iff (env : Env) (s : State) :
    (modchipWriteRstCmd env s).1 = true ↔
      (env s.tick).ok = false ∧ (env (s.tick + 1)).ok = false ∧
        (env (s.tick + 2)).ok = true ∧ (env (s.tick + 3)).ok = true := by
  cases h0 : (env s.tick).ok with
  | true => simp [modchipWriteRstCmd_of_ok h0]
  | false =>
    rw [modchipWriteRstCmd, diskRead_error h0]
    cases h1 : (env (s.tick + 1)).ok with
    | true => simp [DResult.val, memset, diskWrite_ok, h1]
    | false => simp [DResult.val, memset, diskWrite_error, h1, modchipWriteCmd_true_iff]

/-- What a reset command writes to sector 1 starts with zero or with the reset command. -/
theorem modchipWriteRstCmd_diskOps {op : DiskOp} (h : op ∈ (modchipWriteRstCmd env s).2.diskOps) :
    op ∈ s.diskOps ∨ op.sector = cmdSector ∧ (op.isWrite = true →
      Store.word op.data 0 = 0 ∨ Store.word op.data 0 = cmdRst) := by
  cases h0 : (env s.tick).ok with
  | true =>
    rw [modchipWriteRstCmd_of_ok h0, diskRead_ok h0] at h
    rcases List.mem_cons.mp h with rfl | h
    · exact .inr ⟨rfl, by simp⟩
    · exact .inl h
  | false =>
    have hzero : ∀ m : ℕ → UInt8,
        Store.word (fun k ↦ Store.fill m sdmmcUpperBuffer 256 0 (sdmmcUpperBuffer + k)) 0 = 0 := by
      intro m
      refine Store.word_eq_of_wordByte (by decide) fun k hk ↦ ?_
      rw [Store.fill_of_mem (by omega) (by omega)]
      simp [Store.wordByte]
    rw [modchipWriteRstCmd, diskRead_error h0] at h
    cases h1 : (env (s.tick + 1)).ok with
    | true =>
      simp only [DResult.val, memset, diskWrite_ok, h1, Nat.one_ne_zero, ↓reduceIte,
        List.mem_cons] at h
      rcases h with rfl | rfl | h
      · exact .inr ⟨rfl, fun _ ↦ .inl (hzero _)⟩
      · exact .inr ⟨rfl, by simp⟩
      · exact .inl h
    | false =>
      simp only [DResult.val, memset, diskWrite_error, h1, Nat.one_ne_zero, ↓reduceIte] at h
      rcases modchipWriteCmd_diskOps h with h | ⟨hsec, hdata⟩
      · simp only [List.mem_cons] at h
        rcases h with rfl | rfl | h
        · exact .inr ⟨rfl, fun _ ↦ .inl (hzero _)⟩
        · exact .inr ⟨rfl, by simp⟩
        · exact .inl h
      · refine .inr ⟨hsec, fun hw ↦ .inr ?_⟩
        have hrst : (⟨cmdRst, 0, 0⟩ : Cmd).cmd < 2 ^ 32 := by decide
        exact (Cmd.words hrst (Nat.two_pow_pos 32) (Nat.two_pow_pos 32)
          fun k hk ↦ by rw [Nat.zero_add]; exact hdata hw k hk).1

/-! ## Staging a file -/

/-- The number of sectors a file of `size` bytes takes. -/
def sectors (size : ℕ) : ℕ := (size + 0x1ff) / 0x200

/-- The file padded with `pad` to whole sectors. -/
def Fil.padded (f : Fil) (pad : UInt8) (k : ℕ) : UInt8 := if k < f.size then f.content k else pad

theorem Fil.fSize_le (f : Fil) : f.fSize ≤ f.size := Nat.mod_le _ _

theorem Fil.fSize_eq {f : Fil} (h : f.size < 2 ^ 32) : f.fSize = f.size := Nat.mod_eq_of_lt h

/-- **The staging buffer holds the padded file.**  The padding goes in first, over the whole last
sector, and the file read then overwrites the part of it the file fills. -/
theorem staged_buffer (m : ℕ → UInt8) (buf : ℕ) (pad : UInt8) (src : ℕ → UInt8) {n k : ℕ}
    (hk : k < sectorSize * sectors n) :
    Store.blit (Store.fill m (buf + alignDown n) 0x200 pad) buf n src (buf + k) =
      if k < n then src k else pad := by
  split
  · next h => exact Store.blit_add h
  · next h =>
    rw [Store.blit_of_not_mem (by omega)]
    rw [sectors, sectorSize_eq] at hk
    exact Store.fill_of_mem (by rw [alignDown]; omega) (by rw [alignDown]; omega)

end Modchip
end SdLoader
