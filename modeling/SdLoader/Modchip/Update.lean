import SdLoader.Modchip.FwUpdate

/-!
# The three updates

The firmware, the bootloader and the loader's own image are staged by three functions that differ in
where they stage, in what they pad with, and in the command they end with; the last of them has
none.  `Update` names the three, so that what holds of all of them can be said once.

`Update.run_true` is what one that succeeds leaves on BOOT0: the padded file in its staging sectors,
and behind it the command that names them.
-/

set_option autoImplicit false

namespace SdLoader
namespace Modchip

/-- The updates that read their image from a file. -/
inductive Update
  | fw
  | bl
  | ipl
  deriving DecidableEq

namespace Update

/-- The update itself. -/
def run : Update → Env → Fil → State → Bool × State
  | .fw => modchipWriteFwUpdateFromFile
  | .bl => modchipWriteBlUpdateFromFile
  | .ipl => modchipWriteIplUpdateFromFile

/-- The first sector it stages its image in. -/
def startSector : Update → ℕ
  | .fw => fwStartSector
  | .bl => rpBlStartSector
  | .ipl => blStartSector

/-- The byte it fills the last sector up with. -/
def pad : Update → UInt8
  | .fw => 0
  | .bl => 0xff
  | .ipl => 0

/-- Is a file of this size refused before anything is written? -/
def refuses (u : Update) (size : ℕ) : Prop := u ≠ .fw ∧ sdmmcUpBufSz < size

/-- The command it writes for an image of `size` bytes. -/
def cmd : Update → ℕ → Option Cmd
  | .fw, size => some ⟨cmdFwUpdate, fwStartSector, fwCmdCount size⟩
  | .bl, size => some ⟨cmdBlUpdate, rpBlStartSector, sectors size⟩
  | .ipl, _ => none

/-- BOOT0 with that command written. -/
def commanded (u : Update) (size : ℕ) (m : ℕ → UInt8) : ℕ → UInt8 :=
  match u.cmd size with
  | some c => cmdWritten m c
  | none => m

theorem startSector_ge (u : Update) : fwStartSector ≤ u.startSector := by
  cases u <;> decide

/-- Only sector 1 holds the command. -/
theorem commanded_of_not_mem (u : Update) {size x : ℕ} {m : ℕ → UInt8} (hx : sectorSize + 16 ≤ x) :
    u.commanded size m x = m x := by
  cases u with
  | fw => exact cmdWritten_of_not_mem (.inr hx)
  | bl => exact cmdWritten_of_not_mem (.inr hx)
  | ipl => rfl

variable {env : Env} {s : State}

/-- **What an update that succeeds leaves on BOOT0.** -/
theorem run_true (u : Update) {f : Fil} (hf : f.fptr = 0) (hsize : f.size ≤ fwMaxSize)
    (h : (u.run env f s).1 = true) :
    ∃ m : ℕ → UInt8, (∀ k < sectorSize * sectors f.size,
        m (sectorSize * u.startSector + k) = f.padded u.pad k) ∧
      (u.run env f s).2.boot0 = u.commanded f.size m := by
  have hfs : f.fSize = f.size := Fil.fSize_eq (by rw [fwMaxSize] at hsize; omega)
  cases u with
  | fw => exact modchipWriteFwUpdateFromFile_true hf hsize h
  | bl =>
    rw [run, modchipWriteBlUpdateFromFile] at h ⊢
    by_cases hbig : f.fSize > sdmmcUpBufSz
    · simp only [hbig, ↓reduceIte] at h
      exact absurd h Bool.false_ne_true
    simp only [hbig, ↓reduceIte] at h ⊢
    obtain ⟨s', himg, hrun⟩ := readThenWrite_true hf hfs h
    rw [modchipWriteBlUpdate, hrun] at h ⊢
    exact ⟨s'.boot0, himg, modchipWriteCmd_boot0 h⟩
  | ipl =>
    rw [run, modchipWriteIplUpdateFromFile] at h ⊢
    by_cases hbig : f.fSize > sdmmcUpBufSz
    · simp only [hbig, ↓reduceIte] at h
      exact absurd h Bool.false_ne_true
    simp only [hbig, ↓reduceIte] at h ⊢
    obtain ⟨s', himg, hrun⟩ := readThenWrite_true hf hfs h
    rw [modchipWriteIplUpdate, hrun]
    exact ⟨s'.boot0, himg, rfl⟩

end Update
end Modchip
end SdLoader
