import SdLoader.Fat.Defs

/-!
# Mounting a volume

* `mountVolume_honest` — a mount never succeeds once a sector it has asked for could not be read,
  and none could after it; so `fatFs` is a `FatFs` of the files.
* `mountVolume_accepted` — what a mount returns is the volume of a boot sector that has passed the
  checks of `Accepted`, whatever the sectors of the drive are.
* `Accepted.shape` — the size of a cluster is a power of two, and what that says about the numbers
  of clusters and of sectors.
* `Layout` — where FAT and clusters of a volume lie, counted from its first sector: `layout_fat`,
  `layout_exfat`.

The sizes of the system area of FAT12, FAT16 and FAT32, and of the clusters of exFAT, are numbers of
32 bits.  The layout is right if they do not wrap round.
-/

set_option autoImplicit false

namespace SdLoader
namespace Fat

open Files (Block FError FatFs)

variable {v : Volume} {win : Block} {bsect : ℕ} {fsType : FsType}

/-! ## Sectors that cannot be read -/

/-- `find_volume` has not found a volume. -/
def Fmt.Missing : Fmt → Prop
  | fat _ _ => False
  | exfat _ _ => False
  | bootSector _ => True
  | invalid => True
  | diskErr => True

theorem Fmt.Missing.lost {fmt : Fmt} (h : fmt.Missing) :
    ∃ e, Scan.lost (mountFmt fmt) = .error e := by
  cases fmt with
  | fat => exact h.elim
  | exfat => exact h.elim
  | bootSector win => exact ⟨_, rfl⟩
  | invalid => exact ⟨_, rfl⟩
  | diskErr => exact ⟨_, rfl⟩

theorem Fmt.elseTry_honest (fmt : Fmt) {next : Fmt → Scan Block Fmt}
    (h : ∀ fmt, (next fmt).HonestTo Fmt.Missing) : (fmt.elseTry next).HonestTo Fmt.Missing := by
  cases fmt with
  | fat sect win => trivial
  | exfat sect win => trivial
  | bootSector win => exact h _
  | invalid => exact h _
  | diskErr => exact h _

theorem mbrLoop_lost (pt : List ℕ) (fmt : Fmt) (h : fmt.Missing) :
    (Scan.lost (mbrLoop pt fmt)).Missing := by
  induction pt generalizing fmt with
  | nil => exact h
  | cons sect rest ih =>
    rw [mbrLoop]
    split
    · exact ih _ trivial
    · exact ih .diskErr trivial

theorem mbrLoop_honest (pt : List ℕ) (fmt : Fmt) : (mbrLoop pt fmt).HonestTo Fmt.Missing := by
  induction pt generalizing fmt with
  | nil => trivial
  | cons sect rest ih =>
    rw [mbrLoop]
    split
    · exact ih _
    · exact ⟨mbrLoop_lost rest .diskErr trivial, fun b ↦ (checkFs sect b).elseTry_honest ih⟩

theorem gptLoop_lost (ptLba n i : ℕ) : (Scan.lost (gptLoop ptLba n i)).Missing := by
  cases n with
  | zero => trivial
  | succ n => trivial

theorem gptLoop_honest (ptLba n i : ℕ) : (gptLoop ptLba n i).HonestTo Fmt.Missing := by
  induction n generalizing i with
  | zero => trivial
  | succ n ih =>
    refine ⟨trivial, fun b ↦ ?_⟩
    dsimp only
    split
    · exact ⟨gptLoop_lost ptLba n (i + 1), fun b' ↦ (checkFs _ b').elseTry_honest fun _ ↦ ih _⟩
    · exact ih _

theorem findVolume_honest (b : Option Block) : (findVolume b).HonestTo Fmt.Missing := by
  rw [findVolume]
  rcases checkFs 0 b with _ | _ | win | _ | _
  · trivial
  · trivial
  · dsimp only
    split
    · refine ⟨trivial, fun gpth ↦ ?_⟩
      dsimp only
      split
      · exact gptLoop_honest _ _ _
      · trivial
    · exact mbrLoop_honest _ _
  · trivial
  · trivial

theorem findBitmap_honest (n sect : ℕ) :
    (findBitmap n sect).HonestTo fun r ↦ ∃ e, r = .error e := by
  induction n generalizing sect with
  | zero => trivial
  | succ n ih =>
    refine ⟨⟨.diskErr, rfl⟩, fun b ↦ ?_⟩
    dsimp only
    split
    · trivial
    · exact ih _

theorem contiguousBitmap_honest (v : Volume) (n bcl : ℕ) : (contiguousBitmap v n bcl).Honest := by
  induction n generalizing bcl with
  | zero => trivial
  | succ n ih =>
    refine ⟨⟨.diskErr, rfl⟩, fun b ↦ ?_⟩
    dsimp only
    split
    · trivial
    · split
      · trivial
      · exact ih _

theorem mountExfat_honest (bsect : ℕ) (win : Block) : (mountExfat bsect win).Honest := by
  rw [mountExfat]
  dsimp only
  split
  · refine (findBitmap_honest _ _).bind ?_ ?_
    · rintro _ ⟨e, rfl⟩
      exact ⟨e, rfl⟩
    · rintro (e | ⟨win, i⟩)
      · trivial
      · dsimp only
        split
        · trivial
        · exact contiguousBitmap_honest _ _ _
  · trivial

/-- **A mount is honest**: once a sector has been refused, and all that come after it, it fails. -/
theorem mountVolume_honest : (Scan.look true 0 mountVolume).Honest := by
  refine ⟨⟨.diskErr, rfl⟩, fun b ↦ ?_⟩
  refine (findVolume_honest (some b)).bind (fun fmt h ↦ h.lost) fun fmt ↦ ?_
  cases fmt with
  | fat bsect win => trivial
  | exfat bsect win => exact mountExfat_honest bsect win
  | bootSector win => trivial
  | invalid => trivial
  | diskErr => trivial

/-- FatFs, with any way to follow a path. -/
def fatFs {Path Fil : Type} (followPath : Path → Volume → Scan Block (Except FError Fil)) :
    FatFs Path Volume Fil where
  findVolume := mountVolume
  followPath := followPath
  honest := mountVolume_honest

/-! ## What can be mounted -/

/-- A volume that has passed the checks `mount_volume` makes of a boot sector, once `check_fs` has
taken it for one.  Those of the bitmap of exFAT are not among them. -/
inductive Accepted : Volume → Prop
  /-- FAT12, FAT16 or FAT32. -/
  | fat {win : Block} {bsect : ℕ} {fsType : FsType} (type : fatType (nclst win) = some fsType)
      (checks : FatAccepted win fsType) : Accepted (fatVolume win bsect fsType)
  /-- exFAT. -/
  | exfat {win : Block} {bsect : ℕ} (checks : ExfatAccepted win bsect) :
      Accepted (exfatVolume win bsect)

theorem mountFat_accepted (h : mountFat win bsect = .ok v) : Accepted v := by
  rw [mountFat] at h
  split at h
  · cases h
  · next fsType htype =>
    split at h
    · next hchecks =>
      cases h
      exact .fat htype hchecks
    · cases h

theorem contiguousBitmap_ends (h : Accepted v) (n bcl : ℕ) :
    (contiguousBitmap v n bcl).Ends fun r ↦ ∀ v, r = .ok v → Accepted v := by
  induction n generalizing bcl with
  | zero =>
    intro v h
    cases h
  | succ n ih =>
    rintro (_ | b)
    · intro v h
      cases h
    · dsimp only
      split
      · intro v h'
        cases h'
        exact h
      · split
        · intro v h
          cases h
        · exact ih _

theorem mountExfat_ends (bsect : ℕ) (win : Block) :
    (mountExfat bsect win).Ends fun r ↦ ∀ v, r = .ok v → Accepted v := by
  rw [mountExfat]
  dsimp only
  split
  · next hchecks =>
    refine (Scan.ends_true _).bind ?_
    rintro (e | ⟨win, i⟩) -
    · intro v h
      cases h
    · dsimp only
      split
      · intro v h
        cases h
      · exact contiguousBitmap_ends (.exfat hchecks) _ _
  · intro v h
    cases h

/-- **What a mount returns has passed the checks** of `Accepted`, whatever the sectors of the drive
are, and whichever of them can be read. -/
theorem mountVolume_accepted (b : Option Block) :
    (mountVolume b).Ends fun r ↦ ∀ v, r = .ok v → Accepted v := by
  refine (Scan.ends_true _).bind fun fmt _ ↦ ?_
  cases fmt with
  | fat bsect win => exact fun v h ↦ mountFat_accepted h
  | exfat bsect win => exact mountExfat_ends bsect win
  | bootSector win => exact fun v h ↦ by cases h
  | invalid => exact fun v h ↦ by cases h
  | diskErr => exact fun v h ↦ by cases h

/-! ## Its shape -/

/-- The sectors of the FAT that the entries of the clusters are in. -/
def Volume.needed (v : Volume) : ℕ := (szbfat v.fsType v.nFatent + 511) / 512

/-- What is so of every volume that can be mounted. -/
structure Shape (v : Volume) : Prop where
  csize : ∃ k, k ≤ 15 ∧ v.csize = 2 ^ k
  two_le : 2 ≤ v.nFatent
  nFatent_le : v.nFatent ≤ 0x7FFFFFFF
  type : v.fsType ≠ .exfat → fatType (v.nFatent - 2) = some v.fsType
  fsize : v.fsType ≠ .exfat → v.needed ≤ v.fsize

theorem ldByte_lt (b : Block) (k : ℕ) : ldByte b k < 256 := (b.getD k 0).toNat_lt

@[simp] theorem length_cut (b : Block) (k n : ℕ) : (cut b k n).length = n :=
  Store.length_slice _ _ _

theorem exists_pow_of_atMostOneBit {n : ℕ} (hne : n ≠ 0) (hbit : AtMostOneBit n) :
    ∃ k, n = 2 ^ k := by
  induction n using Nat.strong_induction_on with
  | h n ih =>
    have hhalf : n / 2 &&& (n - 1) / 2 = 0 := by rw [← Nat.and_div_two, hbit]
    rcases Nat.mod_two_eq_zero_or_one n with heven | hodd
    · have hpred : (n - 1) / 2 = n / 2 - 1 := by omega
      rw [hpred] at hhalf
      obtain ⟨k, hk⟩ := ih (n / 2) (by omega) (by omega) hhalf
      exact ⟨k + 1, by rw [Nat.pow_succ, ← hk]; omega⟩
    · have hpred : (n - 1) / 2 = n / 2 := by omega
      rw [hpred, Nat.and_self] at hhalf
      exact ⟨0, by rw [Nat.pow_zero]; omega⟩

/-- A byte with one bit set is a power of two. -/
theorem exists_pow_of_byte {n : ℕ} (hlt : n < 256) (hne : n ≠ 0) (hbit : AtMostOneBit n) :
    ∃ k, k ≤ 15 ∧ n = 2 ^ k := by
  obtain ⟨k, rfl⟩ := exists_pow_of_atMostOneBit hne hbit
  have hk : k < 8 := (Nat.pow_lt_pow_iff_right (by decide)).mp hlt
  exact ⟨k, by omega, rfl⟩

theorem fatType_le {n : ℕ} (h : fatType n = some fsType) : n ≤ 0x0FFFFFF5 := by
  rw [fatType] at h
  split at h
  · omega
  · split at h
    · omega
    · split at h
      · assumption
      · cases h

/-- A power of two below 2 ^ 16. -/
theorem exists_pow_of_mod {k : ℕ} (h : 2 ^ k % 2 ^ 16 ≠ 0) : k ≤ 15 ∧ 2 ^ k % 2 ^ 16 = 2 ^ k := by
  by_cases hk : k ≤ 15
  · refine ⟨hk, Nat.mod_eq_of_lt (Nat.pow_lt_pow_right (by decide) (by omega))⟩
  · refine absurd ?_ h
    exact Nat.mod_eq_zero_of_dvd (Nat.pow_dvd_pow 2 (by omega))

/-- **The shape of a volume that has been mounted.** -/
theorem Accepted.shape (h : Accepted v) : Shape v := by
  cases h with
  | @fat win bsect fsType htype hchecks =>
    obtain ⟨-, -, ⟨hcsize, hbit⟩, -, -, -, -, -, hsize⟩ := hchecks
    have hle := fatType_le htype
    exact ⟨exists_pow_of_byte (ldByte_lt win 13) hcsize hbit, Nat.le_add_left 2 _,
      (by simp only [fatVolume]; omega), fun _ ↦ htype, fun _ ↦ hsize⟩
  | @exfat win bsect hchecks =>
    obtain ⟨-, -, -, -, hcsize, hclst, -⟩ := hchecks
    have hpow := exists_pow_of_mod hcsize
    exact ⟨⟨_, hpow⟩, Nat.le_add_left 2 _, (by simp only [exfatVolume]; omega),
      fun h ↦ absurd rfl h, fun h ↦ absurd rfl h⟩

/-! ## Its layout -/

/-- Where FAT and clusters of a volume of `total` sectors lie, counted from its first sector. -/
structure Layout (v : Volume) (fatOfs dataOfs total : ℕ) : Prop where
  fatbase : v.fatbase = (v.volbase + fatOfs) % 2 ^ 64
  database : v.database = (v.volbase + dataOfs) % 2 ^ 64
  fat : fatOfs + v.needed ≤ dataOfs
  data : dataOfs + v.csize * (v.nFatent - 2) ≤ total

/-- The system area, in sectors, before it is made a number of 32 bits. -/
def systemArea (win : Block) : ℕ :=
  ldWord win 14 + fatSectors win * ldByte win 16 + ldWord win 17 / 16

/-- **The clusters end where the volume does**, even if the system area wraps round. -/
theorem clusters_le (win : Block) (h : sysect win ≤ tsect win) :
    sysect win + ldByte win 13 * nclst win ≤ tsect win := by
  have hle := Nat.mul_div_le (tsect win - sysect win) (ldByte win 13)
  rw [nclst]
  omega

theorem sysect_eq (h : systemArea win < 2 ^ 32) : sysect win = systemArea win := by
  rw [systemArea] at h
  have hfats : fatSectors win * ldByte win 16 < 2 ^ 32 := by omega
  rw [sysect, fasize, systemArea, Nat.mod_eq_of_lt hfats, Nat.mod_eq_of_lt h]

/-- **The layout of a volume of FAT12, FAT16 or FAT32**: FAT, then clusters, to the end. -/
theorem layout_fat (h : FatAccepted win fsType) (hwrap : systemArea win < 2 ^ 32) :
    Layout (fatVolume win bsect fsType) (ldWord win 14) (sysect win) (tsect win) := by
  obtain ⟨-, hfats, -, -, -, hsys, -, -, hsize⟩ := h
  refine ⟨rfl, rfl, ?_, clusters_le win hsys⟩
  rw [sysect_eq hwrap, systemArea]
  have hmul : fatSectors win ≤ fatSectors win * ldByte win 16 :=
    Nat.le_mul_of_pos_right _ (by omega)
  change ldWord win 14 + (szbfat fsType (nclst win + 2) + 511) / 512 ≤ _
  omega

/-- **The layout of a volume of exFAT**, if the size of its clusters, in sectors, is a number of 32
bits, the sectors up to 2 ^ 32 behind the beginning of its clusters have numbers of 64, and the FAT,
of which nothing is checked, is where it should be. -/
theorem layout_exfat (h : ExfatAccepted win bsect)
    (hwrap : ldDword win 92 * (exfatVolume win bsect).csize < 2 ^ 32)
    (hdata : bsect + ldDword win 88 + 2 ^ 32 ≤ 2 ^ 64)
    (hfat : ldDword win 80 + (exfatVolume win bsect).needed ≤ ldDword win 88) :
    Layout (exfatVolume win bsect) (ldDword win 80) (ldDword win 88) (ldQword win 72) := by
  obtain ⟨-, -, -, -, -, -, hend⟩ := h
  refine ⟨rfl, rfl, hfat, ?_⟩
  have hbase : (exfatVolume win bsect).database = bsect + ldDword win 88 :=
    Nat.mod_eq_of_lt (by omega)
  -- the number of the last sector may wrap round, but then it is too small
  have hmax : maxlba win bsect ≤ ldQword win 72 + bsect := Nat.mod_le _ _
  rw [hbase, Nat.mod_eq_of_lt hwrap, Nat.mod_eq_of_lt (by omega)] at hend
  have hclst : (exfatVolume win bsect).nFatent - 2 = ldDword win 92 := rfl
  rw [hclst, Nat.mul_comm]
  omega

end Fat
end SdLoader
