import SdLoader.Fat.Mount
import SdLoader.Lib.Packing

/-!
# The FAT and its chains

The FAT is one little-endian number, and its entries are the digits of it, of 12, 16 or 32 bits:
those of FAT12 do not keep to bytes, nor to sectors.

* `fatNumber`, `entry` — this number, and what an entry says about a cluster of an object;
* `getFat_eval` — this is what `get_fat` computes from the sectors of the FAT;
* `getFat_run` — and it does so through the window of a drive that may fail, or says that it failed;
* `getFat_along` — it looks at no sector but those of the FAT.
-/

set_option autoImplicit false

namespace SdLoader
namespace Fat

open Files (Block)

variable {v : Volume} {vol : ℕ → UInt8} {obj : Obj} {clst : ℕ}

/-! ## Sectors -/

/-- A sector of a drive. -/
def sectorOf (vol : ℕ → UInt8) (s : ℕ) : Block := Store.slice vol (512 * s) 512

/-- All sectors of a drive. -/
def table (vol : ℕ → UInt8) (s : ℕ) : Option Block := some (sectorOf vol s)

theorem getD_slice (vol : ℕ → UInt8) (a : ℕ) {n i : ℕ} (h : i < n) :
    (Store.slice vol a n).getD i 0 = vol (a + i) := by
  rw [List.getD_eq_getElem?_getD, Store.getElem?_slice h, Option.getD_some]

theorem cut_slice (vol : ℕ → UInt8) (a : ℕ) {n k m : ℕ} (h : k + m ≤ n) :
    cut (Store.slice vol a n) k m = Store.slice vol (a + k) m := by
  refine List.map_congr_left fun i hi ↦ ?_
  rw [List.mem_range] at hi
  dsimp only
  rw [getD_slice vol a (by omega), Nat.add_assoc]

theorem ldByte_sectorOf (vol : ℕ → UInt8) (s : ℕ) {k : ℕ} (h : k < 512) :
    ldByte (sectorOf vol s) k = (vol (512 * s + k)).toNat := by
  rw [ldByte, sectorOf, getD_slice vol _ h]

/-- The sectors of FAT and clusters have numbers of 64 bits, and the first cluster does not begin in
sector 0. -/
structure Addressable (v : Volume) : Prop where
  fat : v.fatbase + v.needed ≤ 2 ^ 64
  pos : 0 < v.database
  data : v.database + v.csize * (v.nFatent - 2) ≤ 2 ^ 64

/-! ## Entries -/

/-- The bits of an entry. -/
def FsType.bits : FsType → ℕ
  | fat12 => 12
  | fat16 => 16
  | fat32 => 32
  | exfat => 32

/-- Those that are used. -/
def FsType.usedBits : FsType → ℕ
  | fat12 => 12
  | fat16 => 16
  | fat32 => 28
  | exfat => 31

/-- The FAT, as a number. -/
def fatNumber (v : Volume) (vol : ℕ → UInt8) : ℕ :=
  Bytes.ofLe (Store.slice vol (512 * v.fatbase) (512 * v.needed))

/-- An entry of the FAT. -/
def fatValue (v : Volume) (vol : ℕ → UInt8) (clst : ℕ) : ℕ :=
  Packing.digit (2 ^ v.fsType.bits) clst (fatNumber v vol) % 2 ^ v.fsType.usedBits

/-- What is known of a cluster without the FAT: an object of exFAT may be contiguous. -/
def generated (v : Volume) (obj : Obj) (clst : ℕ) : Option ℕ :=
  if v.fsType = .exfat then
    if obj.objsize ≠ 0 ∧ obj.sclust ≠ 0 ∨ obj.stat = 0 then
      let cofs := (clst + (2 ^ 32 - obj.sclust)) % 2 ^ 32
      let clen := (obj.objsize + (2 ^ 64 - 1)) % 2 ^ 64 / 512 / v.csize % 2 ^ 32
      if obj.stat = 2 ∧ cofs ≤ clen then some (if cofs = clen then 0x7FFFFFFF else clst + 1)
      else if obj.stat = 3 ∧ cofs < obj.nCont then some (clst + 1)
      else if obj.stat = 2 then some 1
      else if obj.nFrag ≠ 0 then some 0x7FFFFFFF
      else none
    else some 1
  else none

/-- What follows a cluster of an object. -/
def entry (v : Volume) (vol : ℕ → UInt8) (obj : Obj) (clst : ℕ) : ℕ :=
  if clst < 2 ∨ v.nFatent ≤ clst then 1
  else (generated v obj clst).getD (fatValue v vol clst)

/-- `get_fat`, once it is clear that it has to look into the FAT. -/
def lookUp (v : Volume) (clst : ℕ) : Scan Block ℕ :=
  match v.fsType with
  | .fat12 =>
    let bc := clst + clst / 2
    .look false ((v.fatbase + bc / 512) % 2 ^ 64) fun
      | none => .done 0xFFFFFFFF
      | some win =>
        let wc := ldByte win (bc % 512)
        .look false ((v.fatbase + (bc + 1) / 512) % 2 ^ 64) fun
          | none => .done 0xFFFFFFFF
          | some win =>
            let wc := wc ||| ldByte win ((bc + 1) % 512) <<< 8
            .done (if clst % 2 = 1 then wc >>> 4 else wc &&& 0xFFF)
  | .fat16 => fatWord v 2 (2 ^ 16) clst
  | .fat32 => fatWord v 4 (2 ^ 28) clst
  | .exfat => fatWord v 4 (2 ^ 31) clst

theorem getFat_eq (v : Volume) (obj : Obj) (clst : ℕ) :
    getFat v obj clst =
      if clst < 2 ∨ v.nFatent ≤ clst then .done 1
      else
        match generated v obj clst with
        | some val => .done val
        | none => lookUp v clst := by
  rw [getFat, generated, lookUp]
  split
  · rfl
  · cases v.fsType with
    | fat12 => rfl
    | fat16 => rfl
    | fat32 => rfl
    | exfat =>
      dsimp only
      rw [if_pos rfl]
      split
      · split
        · rfl
        · split
          · rfl
          · by_cases hstat : obj.stat = 2
            · rw [if_neg (not_not_intro hstat), if_pos hstat]
            · rw [if_pos hstat, if_neg hstat]
              split <;> rfl
      · rfl

/-! ## Reading an entry -/

/-- Digits of whole bytes are where they should be. -/
theorem digit_slice (vol : ℕ → UInt8) (a : ℕ) {w c n : ℕ} (h : w * c + w ≤ n) :
    Packing.digit (256 ^ w) c (Bytes.ofLe (Store.slice vol a n)) =
      Bytes.ofLe (Store.slice vol (a + w * c) w) := by
  obtain ⟨r, rfl⟩ : ∃ r, n = w * c + (w + r) := ⟨n - (w * c + w), by omega⟩
  rw [Packing.digit, ← Nat.pow_mul, ← Bytes.ofLe_drop, ← Bytes.ofLe_take, Store.drop_slice,
    Store.take_slice _ _ (Nat.le_add_right w r)]

/-- An entry of whole bytes. -/
theorem fatWord_eval {size mask : ℕ} (haddr : v.fatbase + v.needed ≤ 2 ^ 64)
    (hin : clst / (512 / size) < v.needed) (hfit : clst * size % 512 + size ≤ 512)
    (hplace : 512 * (clst / (512 / size)) + clst * size % 512 = size * clst) :
    (fatWord v size mask clst).eval (table vol) =
      some (Packing.digit (256 ^ size) clst (fatNumber v vol) % mask) := by
  have hsect : (v.fatbase + clst / (512 / size)) % 2 ^ 64 = v.fatbase + clst / (512 / size) :=
    Nat.mod_eq_of_lt (by omega)
  have hat : 512 * (v.fatbase + clst / (512 / size)) + clst * size % 512 =
      512 * v.fatbase + size * clst := by omega
  change some (Bytes.ofLe (cut (sectorOf vol _) _ _) % mask) = _
  rw [hsect, sectorOf, cut_slice vol _ hfit, hat, fatNumber, digit_slice vol _ (by omega)]

/-- An entry of 12 bits, from the two bytes it is in. -/
theorem digit_twelve (vol : ℕ → UInt8) (a : ℕ) {c n : ℕ} (h : c + c / 2 + 2 ≤ n) :
    Packing.digit (2 ^ 12) c (Bytes.ofLe (Store.slice vol a n)) =
      if c % 2 = 1 then
        ((vol (a + (c + c / 2))).toNat + 256 * (vol (a + (c + c / 2 + 1))).toNat) / 16
      else ((vol (a + (c + c / 2))).toNat + 256 * (vol (a + (c + c / 2 + 1))).toNat) % 2 ^ 12 := by
  obtain ⟨r, rfl⟩ : ∃ r, n = c + c / 2 + (1 + (1 + r)) := ⟨n - (c + c / 2 + 2), by omega⟩
  have h0 := (vol (a + (c + c / 2))).toNat_lt
  have h1 := (vol (a + (c + c / 2 + 1))).toNat_lt
  -- what is left of the number from the byte on in which the entry begins
  have htail : Bytes.ofLe (Store.slice vol a (c + c / 2 + (1 + (1 + r)))) / 256 ^ (c + c / 2) =
      (vol (a + (c + c / 2))).toNat + 256 * ((vol (a + (c + c / 2 + 1))).toNat +
        256 * Bytes.ofLe (Store.slice vol (a + (c + c / 2) + 1 + 1) r)) := by
    rw [← Bytes.ofLe_drop, Store.drop_slice, Store.slice_add, Store.slice_add]
    rfl
  rw [Packing.digit]
  split
  · next hodd =>
    have hpow : (2 ^ 12) ^ c = 256 ^ (c + c / 2) * 16 := by
      obtain ⟨j, rfl⟩ : ∃ j, c = 2 * j + 1 := ⟨c / 2, by omega⟩
      rw [show 2 * j + 1 + (2 * j + 1) / 2 = 3 * j + 1 by omega, show (256 : ℕ) = 2 ^ 8 from rfl,
        show (16 : ℕ) = 2 ^ 4 from rfl, ← Nat.pow_mul, ← Nat.pow_mul, ← Nat.pow_add]
      congr 1
      omega
    rw [hpow, ← Nat.div_div_eq_div_mul, htail]
    omega
  · next heven =>
    have hpow : (2 ^ 12) ^ c = 256 ^ (c + c / 2) := by
      obtain ⟨j, rfl⟩ : ∃ j, c = 2 * j := ⟨c / 2, by omega⟩
      rw [show 2 * j + 2 * j / 2 = 3 * j by omega, show (256 : ℕ) = 2 ^ 8 from rfl, ← Nat.pow_mul,
        ← Nat.pow_mul]
      congr 1
      omega
    rw [hpow, htail]
    omega

theorem or_shiftLeft_eq {a b : ℕ} (h : a < 256) : a ||| b <<< 8 = a + 256 * b := by
  rw [Nat.or_comm, ← Nat.shiftLeft_add_eq_or_of_lt h, Nat.shiftLeft_eq]
  omega

/-- The bytes of an entry of 12 bits are in the FAT. -/
theorem twelve_le (hclst : clst < v.nFatent) (htype : v.fsType = .fat12) :
    clst + clst / 2 + 2 ≤ 512 * v.needed := by
  have hbytes : clst + clst / 2 + 2 ≤ v.nFatent * 3 / 2 + v.nFatent % 2 := by
    rcases Nat.mod_two_eq_zero_or_one v.nFatent with h | h <;> omega
  rw [Volume.needed, htype, szbfat, Nat.and_one_is_mod]
  omega

theorem lookUp_fat12 (haddr : v.fatbase + v.needed ≤ 2 ^ 64) (hclst : clst < v.nFatent)
    (htype : v.fsType = .fat12) :
    (lookUp v clst).eval (table vol) = some (fatValue v vol clst) := by
  have hle := twelve_le hclst htype
  have hsect : (v.fatbase + (clst + clst / 2) / 512) % 2 ^ 64 =
      v.fatbase + (clst + clst / 2) / 512 := Nat.mod_eq_of_lt (by omega)
  have hsect' : (v.fatbase + (clst + clst / 2 + 1) / 512) % 2 ^ 64 =
      v.fatbase + (clst + clst / 2 + 1) / 512 := Nat.mod_eq_of_lt (by omega)
  have hat : 512 * (v.fatbase + (clst + clst / 2) / 512) + (clst + clst / 2) % 512 =
      512 * v.fatbase + (clst + clst / 2) := by omega
  have hat' : 512 * (v.fatbase + (clst + clst / 2 + 1) / 512) + (clst + clst / 2 + 1) % 512 =
      512 * v.fatbase + (clst + clst / 2 + 1) := by omega
  have hb := (vol (512 * v.fatbase + (clst + clst / 2))).toNat_lt
  have hb' := (vol (512 * v.fatbase + (clst + clst / 2 + 1))).toNat_lt
  rw [lookUp, htype, fatValue, htype, FsType.bits, FsType.usedBits, fatNumber,
    digit_twelve vol _ hle]
  change some (if clst % 2 = 1 then _ else _) = _
  rw [hsect, hsect', ldByte_sectorOf vol _ (Nat.mod_lt _ (by decide)),
    ldByte_sectorOf vol _ (Nat.mod_lt _ (by decide)), hat, hat', or_shiftLeft_eq hb]
  refine congrArg some ?_
  split
  · rw [Nat.shiftRight_eq_div_pow, Nat.mod_eq_of_lt (by omega)]
  · rw [show (0xFFF : ℕ) = 2 ^ 12 - 1 from rfl, Nat.and_two_pow_sub_one_eq_mod, Nat.mod_mod]

/-- **The FAT as a number**: what is read is a digit of it. -/
theorem lookUp_eval (haddr : v.fatbase + v.needed ≤ 2 ^ 64) (hclst : clst < v.nFatent) :
    (lookUp v clst).eval (table vol) = some (fatValue v vol clst) := by
  cases htype : v.fsType with
  | fat12 => exact lookUp_fat12 haddr hclst htype
  | fat16 =>
    have hin : clst / 256 < v.needed := by
      rw [Volume.needed, htype, szbfat]
      omega
    rw [lookUp, htype, fatValue, htype]
    exact fatWord_eval haddr hin (by omega) (by omega)
  | fat32 =>
    have hin : clst / 128 < v.needed := by
      rw [Volume.needed, htype, szbfat]
      omega
    rw [lookUp, htype, fatValue, htype]
    exact fatWord_eval haddr hin (by omega) (by omega)
  | exfat =>
    have hin : clst / 128 < v.needed := by
      rw [Volume.needed, htype, szbfat]
      omega
    rw [lookUp, htype, fatValue, htype]
    exact fatWord_eval haddr hin (by omega) (by omega)

/-- **What `get_fat` computes**, from the sectors of the drive. -/
theorem getFat_eval (haddr : v.fatbase + v.needed ≤ 2 ^ 64) (vol : ℕ → UInt8) (obj : Obj)
    (clst : ℕ) : (getFat v obj clst).eval (table vol) = some (entry v vol obj clst) := by
  rw [getFat_eq, entry]
  split
  · rfl
  · next hclst =>
    cases hgen : generated v obj clst with
    | some val => rfl
    | none => exact lookUp_eval haddr (by omega)

theorem getFat_failsTo (v : Volume) (obj : Obj) (clst : ℕ) :
    (getFat v obj clst).FailsTo 0xFFFFFFFF := by
  have hword : ∀ size mask, (fatWord v size mask clst).FailsTo 0xFFFFFFFF :=
    fun size mask ↦ ⟨rfl, fun b ↦ trivial⟩
  rw [getFat_eq]
  split
  · trivial
  · cases generated v obj clst with
    | some val => trivial
    | none =>
      rw [lookUp]
      cases v.fsType with
      | fat12 => exact ⟨rfl, fun b ↦ ⟨rfl, fun b' ↦ trivial⟩⟩
      | fat16 => exact hword _ _
      | fat32 => exact hword _ _
      | exfat => exact hword _ _

/-! ## Which sectors it reads -/

/-- A sector of the FAT that an entry is in. -/
def InFat (v : Volume) (s : ℕ) : Prop := ∃ o < v.needed, s = (v.fatbase + o) % 2 ^ 64

section
variable {σ : Type} (fetch : ℕ → σ → Option Block × σ)

/-- **`get_fat` looks at no sector but those of the FAT.** -/
theorem getFat_along (v : Volume) (obj : Obj) (clst : ℕ) (x : Access σ) :
    (getFat v obj clst).Along fetch (fun s _ ↦ InFat v s) x := by
  rw [getFat_eq]
  split
  · trivial
  · next hclst =>
    cases generated v obj clst with
    | some val => trivial
    | none =>
      have hword : ∀ size mask, clst / (512 / size) < v.needed →
          (fatWord v size mask clst).Along fetch (fun s _ ↦ InFat v s) x := by
        intro size mask hin
        refine ⟨fun _ ↦ ⟨_, hin, rfl⟩, ?_⟩
        dsimp only
        split <;> trivial
      rw [lookUp]
      cases htype : v.fsType with
      | fat12 =>
        have hle := twelve_le (show clst < v.nFatent by omega) htype
        refine ⟨fun _ ↦ ⟨_, by omega, rfl⟩, ?_⟩
        dsimp only
        split
        · trivial
        · refine ⟨fun _ ↦ ⟨_, by omega, rfl⟩, ?_⟩
          dsimp only
          split <;> trivial
      | fat16 =>
        refine hword 2 _ ?_
        rw [Volume.needed, htype, szbfat]
        omega
      | fat32 =>
        refine hword 4 _ ?_
        rw [Volume.needed, htype, szbfat]
        omega
      | exfat =>
        refine hword 4 _ ?_
        rw [Volume.needed, htype, szbfat]
        omega

end

end Fat
end SdLoader
