import SdLoader.Modchip.FwUpdate

/-!
# The writers of commands

There are four of them.  Three are `modchip_write_cmd` with a command of their own, and do what they
say: they succeed exactly if the read and the write of sector 1 do, and leave the command there.
The reset command, which clears the first half of the sector before, takes the results of its own
read and write the wrong way round.  If everything succeeds it gives up after the read, and it
reports success only if both of them have failed.

* `Writer` — the four, with the command each of them writes.
* `WriterLaw` — what a writer is for: the result says if all of its disk operations have succeeded,
  and if they have, the command is in sector 1.
* `modchipWriteCmd_law` — the law of `modchip_write_cmd`.
* `writerLaw_iff` — the law holds of the three, and of the reset command for the outcomes it is
  written for.
-/

set_option autoImplicit false

namespace SdLoader
namespace Modchip

/-- The functions that write a command. -/
inductive Writer
  | rst
  | fwUpdate (sectorStart sectorCnt : UInt32)
  | blUpdate (sectorStart sectorCnt : UInt32)
  | rollback

namespace Writer

/-- The function. -/
def run : Writer → Env → State → Bool × State
  | .rst, env => modchipWriteRstCmd env
  | .fwUpdate start cnt, env => modchipWriteFwUpdateCmd env start.toNat cnt.toNat
  | .blUpdate start cnt, env => modchipWriteBlUpdateCmd env start.toNat cnt.toNat
  | .rollback, env => modchipWriteRollbackCmd env

/-- The command it is to write. -/
def cmd : Writer → Cmd
  | .rst => ⟨cmdRst, 0, 0⟩
  | .fwUpdate start cnt => ⟨cmdFwUpdate, start.toNat, cnt.toNat⟩
  | .blUpdate start cnt => ⟨cmdBlUpdate, start.toNat, cnt.toNat⟩
  | .rollback => ⟨cmdFwUpdate, 0xffffffff, 0xffffffff⟩

/-- How much of the sector it is to clear. -/
def cleared : Writer → ℕ
  | .rst => 256
  | _ => 16

/-- The first words of the command sector are the command and a zero.  The bytes behind them are
cleared or as they were, and those of the other sectors are as they were. -/
structure Written (w : Writer) (before after : ℕ → UInt8) : Prop where
  cmd : Store.word after (sectorSize * cmdSector) = w.cmd.cmd
  start : Store.word after (sectorSize * cmdSector + 4) = w.cmd.fwSectorStart
  count : Store.word after (sectorSize * cmdSector + 8) = w.cmd.fwSectorCnt
  zero : Store.word after (sectorSize * cmdSector + 12) = 0
  cleared : ∀ k, 16 ≤ k → k < w.cleared → after (sectorSize * cmdSector + k) = 0
  rest : ∀ x, x < sectorSize * cmdSector ∨ sectorSize * cmdSector + w.cleared ≤ x →
    after x = before x

end Writer

/-- What a writer is for. -/
structure WriterLaw (w : Writer) (env : Env) (s : State) : Prop where
  /-- It returns true exactly if its disk operations have succeeded. -/
  result : (w.run env s).1 = true ↔ ∀ op ∈ (w.run env s).2.diskOps, op.ok = true
  /-- Then the command is there. -/
  written : (w.run env s).1 = true → w.Written s.boot0 (w.run env s).2.boot0
  /-- If it returns false, one of them has failed. -/
  failed : (w.run env s).1 = false → ∃ op ∈ (w.run env s).2.diskOps, op.ok = false

variable {env : Env} {s : State}

/-! ## The three that are `modchip_write_cmd` -/

theorem Writer.cmd_lt (w : Writer) :
    w.cmd.cmd < 2 ^ 32 ∧ w.cmd.fwSectorStart < 2 ^ 32 ∧ w.cmd.fwSectorCnt < 2 ^ 32 := by
  cases w with
  | rst => simp [Writer.cmd, cmdRst]
  | fwUpdate start cnt => exact ⟨by simp [Writer.cmd, cmdFwUpdate], start.toNat_lt, cnt.toNat_lt⟩
  | blUpdate start cnt => exact ⟨by simp [Writer.cmd, cmdBlUpdate], start.toNat_lt, cnt.toNat_lt⟩
  | rollback => simp [Writer.cmd, cmdFwUpdate]

/-- The command of a writer that does nothing but write it. -/
theorem Writer.written_cmdWritten {w : Writer} (hw : w.cleared = 16) (m : ℕ → UInt8) :
    w.Written m (cmdWritten m w.cmd) := by
  obtain ⟨hcmd, hstart, hcnt⟩ := w.cmd_lt
  obtain ⟨h0, h4, h8⟩ := Cmd.words hcmd hstart hcnt fun k hk ↦ cmdWritten_bytes (m := m) hk
  refine ⟨h0, h4, h8, ?_, fun k hk hk' ↦ by omega, fun x hx ↦ ?_⟩
  · refine Store.word_eq_of_wordByte (Nat.two_pow_pos 32) fun k hk ↦ ?_
    have htail := cmdWritten_tail (m := m) (c := w.cmd) (show 12 ≤ 12 + k by omega)
      (show 12 + k < 16 by omega)
    rw [← Nat.add_assoc] at htail
    rw [cmdSector, Nat.mul_one, htail]
    simp [Store.wordByte]
  · rw [hw, cmdSector, Nat.mul_one] at hx
    exact cmdWritten_of_not_mem hx

/-- `modchip_write_cmd` succeeds exactly if its two operations do. -/
theorem modchipWriteCmd_result {c : Cmd} (h : s.diskOps = []) :
    (modchipWriteCmd env c s).1 = true ↔
      ∀ op ∈ (modchipWriteCmd env c s).2.diskOps, op.ok = true := by
  constructor
  · intro htrue op hop
    obtain ⟨h0, h1⟩ := (modchipWriteCmd_true_iff env c s).mp htrue
    simp only [modchipWriteCmd, diskRead_ok h0, memset, memcpy, diskWrite_ok, h1, h,
      List.mem_cons, List.not_mem_nil, or_false] at hop
    rcases hop with rfl | rfl <;> rfl
  · intro hall
    cases hres : (modchipWriteCmd env c s).1 with
    | true => rfl
    | false =>
      obtain ⟨op, hop, -, hfail⟩ := modchipWriteCmd_false hres
      rw [hall op hop] at hfail
      cases hfail

theorem modchipWriteCmd_law {w : Writer} (hw : w.cleared = 16)
    (hrun : ∀ env s, w.run env s = modchipWriteCmd env w.cmd s) (h : s.diskOps = []) :
    WriterLaw w env s := by
  refine ⟨?_, fun htrue ↦ ?_, fun hfalse ↦ ?_⟩ <;> rw [hrun] at *
  · exact modchipWriteCmd_result h
  · rw [modchipWriteCmd_boot0 htrue]
    exact Writer.written_cmdWritten hw s.boot0
  · obtain ⟨op, hop, -, hfail⟩ := modchipWriteCmd_false hfalse
    exact ⟨op, hop, hfail⟩

/-! ## The reset command -/

/-- The outcomes for which the result of the reset command says what has happened: its first read
fails, and not all of its other operations turn out as it takes them to. -/
def RstOutcomes (env : Env) (tick : ℕ) : Prop :=
  (env tick).ok = false ∧ ¬((env (tick + 1)).ok = false ∧ (env (tick + 2)).ok = true ∧
    (env (tick + 3)).ok = true)

theorem rst_law_iff (h : s.diskOps = []) : WriterLaw .rst env s ↔ RstOutcomes env s.tick := by
  constructor
  · intro hlaw
    have hresult := hlaw.result
    simp only [Writer.run] at hresult
    cases h0 : (env s.tick).ok with
    | true =>
      -- The read has succeeded, and nothing else is tried.
      have hfalse : (modchipWriteRstCmd env s).1 = true := by
        refine hresult.mpr fun op hop ↦ ?_
        rw [modchipWriteRstCmd_of_ok h0, diskRead_ok h0, h] at hop
        rw [List.mem_singleton.mp hop]
      rw [modchipWriteRstCmd_of_ok h0] at hfalse
      cases hfalse
    | false =>
      refine ⟨h0, fun hrest ↦ ?_⟩
      have htrue := (modchipWriteRstCmd_true_iff env s).mpr ⟨h0, hrest⟩
      obtain ⟨op, hop, -, hfail⟩ := modchipWriteRstCmd_failed h0
      rw [hresult.mp htrue op hop] at hfail
      cases hfail
  · rintro ⟨h0, hrest⟩
    obtain ⟨op, hop, -, hfail⟩ := modchipWriteRstCmd_failed h0
    have hfalse : (modchipWriteRstCmd env s).1 = false := by
      by_contra htrue
      rw [Bool.not_eq_false, modchipWriteRstCmd_true_iff] at htrue
      exact hrest htrue.2
    refine ⟨?_, fun htrue ↦ ?_, fun _ ↦ ⟨op, hop, hfail⟩⟩
    · constructor
      · intro htrue
        rw [Writer.run, hfalse] at htrue
        cases htrue
      · intro hall
        rw [hall op hop] at hfail
        cases hfail
    · rw [Writer.run, hfalse] at htrue
      cases htrue

/-- **The law of the command writers, exactly where it holds.** -/
theorem writerLaw_iff (w : Writer) (env : Env) (mem boot0 : ℕ → UInt8) :
    WriterLaw w env (.start mem boot0) ↔ (w = .rst → RstOutcomes env 0) := by
  cases w with
  | rst =>
    rw [rst_law_iff rfl]
    exact ⟨fun h _ ↦ h, fun h ↦ h rfl⟩
  | fwUpdate start cnt =>
    exact iff_of_true (modchipWriteCmd_law rfl (fun _ _ ↦ rfl) rfl) fun h ↦ by cases h
  | blUpdate start cnt =>
    exact iff_of_true (modchipWriteCmd_law rfl (fun _ _ ↦ rfl) rfl) fun h ↦ by cases h
  | rollback =>
    exact iff_of_true (modchipWriteCmd_law rfl (fun _ _ ↦ rfl) rfl) fun h ↦ by cases h

/-- If every operation succeeds, the reset command is not written, and reported as failed. -/
theorem writerLaw_counterexample : ¬WriterLaw .rst okEnv (.start (fun _ ↦ 0) fun _ ↦ 0) := by
  intro h
  obtain ⟨h0, -⟩ := (rst_law_iff rfl).mp h
  cases h0

end Modchip
end SdLoader
