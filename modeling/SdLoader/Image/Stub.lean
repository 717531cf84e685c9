import Mathlib.Logic.Equiv.Defs
import SdLoader.Image.Defs
import SdLoader.Lib.Cbc

/-!
# The boot stub

On Erista the packer puts a small loader in front of the payload and encrypts the loader only.  The
boot ROM decrypts the whole image, so the stub of `loader/main.c` encrypts what comes after it once
more before it jumps there.  The packer leaves 0x20 zero bytes in between: the second block of them
is the initialisation vector with which the boot ROM comes to the payload.

AES with the boot key is a parameter, a permutation `E` of blocks.

* `Pkg1.toBytes` — the packer, `check.py`.
* `Link` — the symbols of `loader/link.ld`.
* `reencryptPayload` — the stub.
* `Pkg1.restored` — an image that ends before `__encrypt_end` is restored.
-/

set_option autoImplicit false

namespace SdLoader

namespace Image

open Bytes

/-! ## Blocks -/

/-- A block of AES. -/
@[ext] structure Block where
  bytes : List UInt8
  length_bytes : bytes.length = 0x10

namespace Block

/-- Exclusive or, byte by byte. -/
def xor (a b : Block) : Block :=
  ⟨List.zipWith (· ^^^ ·) a.bytes b.bytes, by
    rw [List.length_zipWith, a.length_bytes, b.length_bytes, Nat.min_self]⟩

/-- A block of equal bytes. -/
def fill (b : UInt8) : Block := ⟨List.replicate 0x10 b, List.length_replicate⟩

/-- The block of zeros, which is the initialisation vector. -/
def zero : Block := fill 0

/-- The first block of a string. -/
def first (l : List UInt8) : Block :=
  ⟨(l ++ zeros 0x10).take 0x10, by
    rw [List.length_take, List.length_append, zeros, List.length_replicate]
    omega⟩

/-- The first `n` blocks of a string. -/
def cut : ℕ → List UInt8 → List Block
  | 0, _ => []
  | n + 1, l => first l :: cut n (l.drop 0x10)

/-- The bytes of blocks. -/
def join (bs : List Block) : List UInt8 := bs.flatMap Block.bytes

end Block

/-- A chain of blocks as a mode on bytes: from a zero initialisation vector, for as many whole
blocks as there are. -/
def cbc (f : Block → List Block → List Block) (l : List UInt8) : List UInt8 :=
  Block.join (f Block.zero (Block.cut (l.length / 0x10) l)) ++ l.drop (0x10 * (l.length / 0x10))

section
variable (E : Equiv.Perm Block)

/-- Encryption in CBC mode. -/
def encryptCbc : List UInt8 → List UInt8 := cbc (Cbc.encrypt Block.xor E)

/-- Decryption in CBC mode. -/
def decryptCbc : List UInt8 → List UInt8 := cbc (Cbc.decrypt Block.xor E.symm)

/-! ## The packer -/

/-- `encrypt_bytes`: the library raises if the last block is not whole. -/
def encryptBytes (data : List UInt8) : Except Error (List UInt8) :=
  if data.length % 0x10 = 0 then .ok (encryptCbc E data)
  else .error (.value "Data must be padded to 16 byte boundary in CBC mode")

/-- `Pkg1` -/
structure Pkg1 where
  payload : List UInt8
  loader : Option (List UInt8)
  isEncrypted : Bool

/-- `Pkg1.to_bytes` -/
def Pkg1.toBytes (p : Pkg1) : Except Error (List UInt8) :=
  match givenBytes p.loader with
  | some loader => do
    let ret ← if p.isEncrypted then .ok loader else encryptBytes E loader
    return ret ++ zeros 0x20 ++ p.payload
  | none => if p.isEncrypted then .ok p.payload else encryptBytes E p.payload

end

/-! ## The stub -/

/-- What the link script starts from: `LOADER_LOAD_ADDR`, and the size of the section, which it has
padded to whole blocks. -/
structure Link where
  loaderStart : UInt32
  size : UInt32

namespace Link

variable (s : Link)

/-- `__loader_end` -/
def loaderEnd : UInt32 := s.loaderStart + s.size

/-- `__encrypt_start` -/
def encryptStart : UInt32 := s.loaderEnd + 0x20

/-- `__payload_start` -/
def payloadStart : UInt32 := s.encryptStart

/-- `__encrypt_end` -/
def encryptEnd : UInt32 := s.loaderStart + 0x10000

/-- `__payload_start`, counted from where the image is loaded. -/
def payloadOffset : ℕ := (s.payloadStart - s.loaderStart).toNat

end Link

section
variable (E : Equiv.Perm Block)

/-- `se_aes_decrypt_cbc`, in place and with a zero initialisation vector, on the memory `mem` that
has `addr` at offset `off`.  The engine is set up to encrypt; it counts blocks from zero. -/
def seAesDecryptCbc (off : ℕ) (size : UInt32) (mem : List UInt8) : List UInt8 :=
  let n := 0x10 * (((size >>> 4) - 1).toNat + 1)
  mem.take off ++ encryptCbc E (mem.extract off (off + n)) ++ mem.drop (off + n)

/-- `reencrypt_payload`, on memory from `__loader_start` on. -/
def reencryptPayload (s : Link) (mem : List UInt8) : List UInt8 :=
  seAesDecryptCbc E (s.encryptStart - s.loaderStart).toNat (s.encryptEnd - s.encryptStart) mem

/-- Memory from `__loader_start` on once the stub jumps to the payload: the boot ROM has loaded and
decrypted `image`, and `rest` is what memory holds behind it. -/
def booted (s : Link) (image rest : List UInt8) : List UInt8 :=
  reencryptPayload E s (decryptCbc E image ++ rest)

end

/-! ## Blocks and bytes -/

namespace Block

theorem xor_xor (a b : Block) : xor (xor a b) b = a := by
  ext1
  refine List.ext_getElem ?_ fun i h _ ↦ ?_
  · rw [(xor _ b).length_bytes, a.length_bytes]
  · simp only [xor, List.getElem_zipWith, UInt8.xor_assoc, UInt8.xor_self, UInt8.xor_zero]

@[simp] theorem join_nil : join [] = [] := rfl

@[simp] theorem join_cons (b : Block) (bs : List Block) : join (b :: bs) = b.bytes ++ join bs :=
  List.flatMap_cons

theorem join_append (bs cs : List Block) : join (bs ++ cs) = join bs ++ join cs :=
  List.flatMap_append

theorem length_join (bs : List Block) : (join bs).length = 0x10 * bs.length := by
  induction bs with
  | nil => rfl
  | cons b bs ih =>
    rw [join_cons, List.length_append, b.length_bytes, ih, List.length_cons]
    omega

theorem first_append (b : Block) (l : List UInt8) : first (b.bytes ++ l) = b := by
  ext1
  simp only [first, List.append_assoc]
  exact List.take_left' b.length_bytes

/-- Cutting a string that was put together from blocks. -/
theorem cut_join_append (bs : List Block) (n : ℕ) (l : List UInt8) :
    cut (bs.length + n) (join bs ++ l) = bs ++ cut n l := by
  induction bs with
  | nil => rw [List.length_nil, Nat.zero_add, join_nil, List.nil_append, List.nil_append]
  | cons b bs ih =>
    rw [List.length_cons, Nat.add_right_comm, cut, join_cons, List.append_assoc, first_append,
      List.drop_left' b.length_bytes, ih, List.cons_append]

/-- A string of whole blocks is put together from blocks. -/
theorem exists_join {l : List UInt8} (h : 0x10 ∣ l.length) : ∃ bs, join bs = l := by
  obtain ⟨n, hn⟩ := h
  induction n generalizing l with
  | zero => exact ⟨[], (List.eq_nil_of_length_eq_zero hn).symm⟩
  | succ n ih =>
    obtain ⟨bs, hbs⟩ := @ih (l.drop 0x10) (by rw [List.length_drop]; omega)
    have htake : (l.take 0x10).length = 0x10 := by rw [List.length_take]; omega
    exact ⟨⟨l.take 0x10, htake⟩ :: bs, by rw [join_cons, hbs, List.take_append_drop]⟩

end Block

open Block

/-! ## The two chains on bytes -/

section
variable {f : Block → List Block → List Block} {bs cs : List Block}

/-- What a chain makes of the blocks in front does not depend on what follows them. -/
theorem cbc_append (hf : ∀ cs, ∃ ds, f zero (bs ++ cs) = f zero bs ++ ds) (l : List UInt8) :
    ∃ r, cbc f (join bs ++ l) = join (f zero bs) ++ r := by
  have hdiv : (join bs ++ l).length / 0x10 = bs.length + l.length / 0x10 := by
    rw [List.length_append, length_join]
    omega
  obtain ⟨ds, hds⟩ := hf (cut (l.length / 0x10) l)
  rw [cbc, hdiv, cut_join_append, hds, join_append, List.append_assoc]
  exact ⟨_, rfl⟩

theorem cbc_join : cbc f (join bs) = join (f zero bs) := by
  have hdiv : (join bs).length / 0x10 = bs.length := by
    rw [length_join]
    omega
  have hcut := cut_join_append bs 0 []
  rw [List.append_nil, Nat.add_zero] at hcut
  rw [cbc, hdiv, hcut, ← length_join, List.drop_length, List.append_nil, cut, List.append_nil]

end

section
variable (E : Equiv.Perm Block) (bs : List Block)

theorem encryptCbc_join : encryptCbc E (join bs) = join (Cbc.encrypt xor E zero bs) := cbc_join

theorem encryptCbc_append (l : List UInt8) :
    ∃ r, encryptCbc E (join bs ++ l) = join (Cbc.encrypt xor E zero bs) ++ r :=
  cbc_append (fun _ ↦ ⟨_, Cbc.encrypt_append zero bs _⟩) l

theorem decryptCbc_append (l : List UInt8) :
    ∃ r, decryptCbc E (join bs ++ l) = join (Cbc.decrypt xor E.symm zero bs) ++ r :=
  cbc_append (fun _ ↦ ⟨_, Cbc.decrypt_append zero bs _⟩) l

end

theorem length_cut (n : ℕ) (l : List UInt8) : (cut n l).length = n := by
  induction n generalizing l with
  | zero => rfl
  | succ n ih => rw [cut, List.length_cons, ih]

theorem length_encryptCbc (E : Equiv.Perm Block) (l : List UInt8) :
    (encryptCbc E l).length = l.length := by
  rw [encryptCbc, cbc, List.length_append, length_join, Cbc.length_encrypt, length_cut,
    List.length_drop]
  omega

/-! ## Restoring -/

namespace Link

variable {s : Link}

theorem payloadOffset_eq (h : s.size.toNat + 0x20 < 2 ^ 32) :
    s.payloadOffset = s.size.toNat + 0x20 := by
  have hsub : s.payloadStart - s.loaderStart = s.size + 0x20 := by
    rw [payloadStart, encryptStart, loaderEnd]
    grind
  rw [payloadOffset, hsub]
  exact toNat_add h

theorem toNat_region (h : s.size.toNat + 0x20 ≤ 0x10000) :
    (s.encryptEnd - s.encryptStart).toNat = 0x10000 - (s.size.toNat + 0x20) := by
  have hsub : s.encryptEnd - s.encryptStart = 0x10000 - (s.size + 0x20) := by
    rw [encryptEnd, encryptStart, loaderEnd]
    grind
  have hadd : (s.size + 0x20).toNat = s.size.toNat + 0x20 :=
    toNat_add (by change _ + 0x20 < _; omega)
  rw [hsub, toNat_sub (by rw [hadd]; exact h), hadd]
  rfl

end Link

/-- How many blocks the engine is told to go through. -/
theorem blockCount_eq {size : UInt32} (h : 0x10 ≤ size.toNat) :
    ((size >>> 4) - 1).toNat + 1 = size.toNat / 0x10 := by
  have hshift : (size >>> 4).toNat = size.toNat / 0x10 := by
    rw [UInt32.toNat_shiftRight]
    exact Nat.shiftRight_eq_div_pow _ 4
  have hsub : ((size >>> 4) - 1).toNat = (size >>> 4).toNat - 1 :=
    toNat_sub (by change 1 ≤ _; omega)
  omega

/-- It does not leave out a block, even if there is none. -/
theorem le_blockCount (size : UInt32) : size.toNat / 0x10 ≤ ((size >>> 4) - 1).toNat + 1 := by
  by_cases h : 0x10 ≤ size.toNat
  · exact (blockCount_eq h).ge
  · omega

section
variable (E : Equiv.Perm Block)

/-- The stub encrypts the blocks at the start of its region. -/
theorem seAesDecryptCbc_eq {x : List UInt8} {size : UInt32} {cs : List Block}
    (hsize : 0x10 * cs.length ≤ size.toNat) (l : List UInt8) :
    ∃ r, seAesDecryptCbc E x.length size (x ++ (join cs ++ l)) =
      x ++ (join (Cbc.encrypt xor E zero cs) ++ r) := by
  have hcount := le_blockCount size
  obtain ⟨k, hk⟩ : ∃ k, 0x10 * (((size >>> 4) - 1).toNat + 1) = (join cs).length + k :=
    Nat.exists_eq_add_of_le (by rw [length_join]; omega)
  have hregion : (x ++ (join cs ++ l)).extract x.length (x.length + ((join cs).length + k)) =
      join cs ++ l.take k := by
    have h := extract_append_right (y := join cs ++ l) (n := x.length) rfl 0 ((join cs).length + k)
    rw [Nat.add_zero] at h
    rw [h, List.extract_eq_take_drop, List.drop_zero, Nat.sub_zero, List.take_length_add_append]
  obtain ⟨r, hr⟩ := encryptCbc_append E cs (l.take k)
  refine ⟨r ++ (x ++ (join cs ++ l)).drop (x.length + ((join cs).length + k)), ?_⟩
  rw [seAesDecryptCbc, hk, hregion, hr, List.take_left, List.append_assoc, List.append_assoc]

/-- **What the boot ROM makes of an image**: the loader in front, two blocks of no use, and the
payload as if it had been decrypted on its own. -/
theorem decrypt_image (ls ps : List Block) :
    ∃ u v, Cbc.decrypt Block.xor E.symm zero
      (Cbc.encrypt Block.xor E zero ls ++ ([zero, zero] ++ ps)) =
      ls ++ ([u, v] ++ Cbc.decrypt Block.xor E.symm zero ps) := by
  rw [Cbc.decrypt_append, Cbc.decrypt_encrypt xor_xor E.symm_apply_apply]
  exact ⟨_, _, rfl⟩

/-- The image the packer builds from a loader that is not empty. -/
theorem Pkg1.toBytes_eq {loader payload : List UInt8} (hne : loader ≠ [])
    (h : 0x10 ∣ loader.length) :
    Pkg1.toBytes E ⟨payload, some loader, false⟩ =
      .ok (encryptCbc E loader ++ zeros 0x20 ++ payload) := by
  have hgiven : givenBytes (some loader) = some loader := by
    cases loader with
    | nil => exact absurd rfl hne
    | cons b l => rfl
  have hencrypt : encryptBytes E loader = .ok (encryptCbc E loader) :=
    if_pos (Nat.mod_eq_zero_of_dvd h)
  simp only [Pkg1.toBytes, hgiven, hencrypt]
  rfl

/-- **The stub restores the image.**  Wherever the loader is linked to and whatever memory holds
behind the payload, decrypted along with it (`F`) or not (`G`), the payload is at `__payload_start`
as it was given to the packer, if it ends before `__encrypt_end`. -/
theorem Pkg1.restored (start : UInt32) {L P : List UInt8} (F G : List UInt8)
    (hL : 0x10 ∣ L.length) (hP : 0x10 ∣ P.length) (hfit : L.length + 0x20 + P.length ≤ 0x10000) :
    let image := encryptCbc E L ++ zeros 0x20 ++ P
    let s : Link := ⟨start, UInt32.ofNat L.length⟩
    let mem := booted E s (image ++ F) G
    (L ≠ [] → Pkg1.toBytes E ⟨P, some L, false⟩ = .ok image) ∧
      mem.extract 0 L.length = L ∧
      mem.extract s.payloadOffset (s.payloadOffset + P.length) = P := by
  intro image s mem
  have hsize : s.size.toNat = L.length := by
    change (UInt32.ofNat L.length).toNat = _
    rw [UInt32.toNat_ofNat', Nat.mod_eq_of_lt (by omega)]
  have hoffset : s.payloadOffset = L.length + 0x20 := by
    rw [Link.payloadOffset_eq (by omega), hsize]
  have hregion := Link.toNat_region (s := s) (by omega)
  obtain ⟨ls, rfl⟩ := exists_join hL
  obtain ⟨ps, rfl⟩ := exists_join hP
  have himage : image ++ F =
      join (Cbc.encrypt Block.xor E zero ls ++ ([zero, zero] ++ ps)) ++ F := by
    simp only [image, encryptCbc_join, join_append, List.append_assoc]
    rfl
  obtain ⟨u, v, huv⟩ := decrypt_image E ls ps
  obtain ⟨r, hr⟩ := decryptCbc_append E (Cbc.encrypt Block.xor E zero ls ++ ([zero, zero] ++ ps)) F
  -- what the boot ROM leaves, cut where the region of the stub starts
  have hmem : decryptCbc E (image ++ F) ++ G = (join ls ++ join [u, v]) ++
      (join (Cbc.decrypt Block.xor E.symm zero ps) ++ (r ++ G)) := by
    rw [himage, hr, huv]
    simp only [join_append, List.append_assoc]
  have hstart : (join ls ++ join [u, v]).length = s.payloadOffset := by
    rw [hoffset, List.length_append, length_join [u, v]]
    rfl
  obtain ⟨r', hr'⟩ := @seAesDecryptCbc_eq E (join ls ++ join [u, v])
    (s.encryptEnd - s.encryptStart) (Cbc.decrypt Block.xor E.symm zero ps)
    (by rw [Cbc.length_decrypt, ← length_join]; omega) (r ++ G)
  have hfinal : mem = (join ls ++ join [u, v]) ++ (join ps ++ r') := by
    change seAesDecryptCbc E s.payloadOffset _ _ = _
    rw [hmem, ← hstart, hr', Cbc.encrypt_decrypt xor_xor E.apply_symm_apply]
  refine ⟨fun hne ↦ Pkg1.toBytes_eq E hne hL, ?_, ?_⟩
  · rw [hfinal, List.append_assoc, extract_append_of_le (Nat.le_refl _), extract_all rfl]
  · have hend : (join ls ++ join [u, v] ++ join ps).length =
        s.payloadOffset + (join ps).length := by
      rw [List.length_append, hstart]
    rw [hfinal, ← List.append_assoc, extract_append_of_le hend.ge,
      extract_append_self hstart (by rw [hstart])]

end

/-! ## Behind the end of the region -/

/-- What lies behind `__encrypt_end` stays as the boot ROM has left it. -/
theorem reencryptPayload_drop (E : Equiv.Perm Block) {s : Link} (hsize : 0x10 ∣ s.size.toNat)
    (hfit : s.size.toNat + 0x30 ≤ 0x10000) {mem : List UInt8} (hmem : 0x10000 ≤ mem.length) :
    (reencryptPayload E s mem).drop 0x10000 = mem.drop 0x10000 := by
  have hoffset : (s.encryptStart - s.loaderStart).toNat = s.size.toNat + 0x20 :=
    Link.payloadOffset_eq (by omega)
  have hregion := Link.toNat_region (s := s) (by omega)
  have hcount := @blockCount_eq (s.encryptEnd - s.encryptStart) (by omega)
  have hend : s.size.toNat + 0x20 +
      0x10 * (((s.encryptEnd - s.encryptStart) >>> 4) - 1).toNat.succ = 0x10000 := by
    omega
  rw [reencryptPayload, seAesDecryptCbc, hoffset, hend]
  refine List.drop_left' ?_
  rw [List.length_append, length_encryptCbc, List.extract_eq_take_drop, List.length_take,
    List.length_take, List.length_drop]
  omega

theorem join_drop (bs : List Block) (k : ℕ) : (join bs).drop (0x10 * k) = join (bs.drop k) := by
  induction bs generalizing k with
  | nil => rw [List.drop_nil, join_nil, List.drop_nil]
  | cons b bs ih =>
    cases k with
    | zero => rfl
    | succ k =>
      rw [join_cons, Nat.mul_succ, Nat.add_comm, ← List.drop_drop, List.drop_left' b.length_bytes,
        ih, List.drop_succ_cons]

theorem join_replicate (b : UInt8) (n : ℕ) :
    join (List.replicate n (fill b)) = List.replicate (0x10 * n) b := by
  induction n with
  | zero => rfl
  | succ n ih =>
    rw [List.replicate_succ, join_cons, ih, fill, List.replicate_append_replicate, Nat.mul_succ,
      Nat.add_comm]

/-- If encryption changes nothing, equal blocks of ciphertext are zeros but for the first. -/
theorem decrypt_replicate (b : Block) (n : ℕ) :
    Cbc.decrypt Block.xor (Equiv.refl Block).symm b (List.replicate n b) =
      List.replicate n (Block.xor b b) := by
  induction n with
  | zero => rfl
  | succ n ih =>
    rw [List.replicate_succ, Cbc.decrypt, ih, List.replicate_succ]
    rfl

theorem decryptCbc_replicate (n : ℕ) : ∃ bs : List Block, bs.length = 4 ∧
    decryptCbc (Equiv.refl Block) (encryptCbc (Equiv.refl Block) (zeros 0x10) ++ zeros 0x20 ++
      List.replicate (0x10 * (n + 1)) 1) = join (bs ++ List.replicate n zero) := by
  have hloader : zeros 0x10 = join [zero] := rfl
  obtain ⟨u, v, huv⟩ := decrypt_image (Equiv.refl Block) [zero] (List.replicate (n + 1) (fill 1))
  have himage : encryptCbc (Equiv.refl Block) (zeros 0x10) ++ zeros 0x20 ++
      List.replicate (0x10 * (n + 1)) 1 = join (Cbc.encrypt Block.xor (Equiv.refl Block) zero [zero]
        ++ ([zero, zero] ++ List.replicate (n + 1) (fill 1))) := by
    rw [hloader, encryptCbc_join, join_append, join_append, join_replicate, List.append_assoc]
    rfl
  refine ⟨[zero, u, v, Block.xor (fill 1) zero], rfl, ?_⟩
  rw [himage, decryptCbc, cbc_join, huv, List.replicate_succ, Cbc.decrypt, decrypt_replicate]
  rfl

/-- Blocks in reverse, for a cipher. -/
def reversal : Equiv.Perm Block where
  toFun b := ⟨b.bytes.reverse, by rw [List.length_reverse, b.length_bytes]⟩
  invFun b := ⟨b.bytes.reverse, by rw [List.length_reverse, b.length_bytes]⟩
  left_inv b := Block.ext (List.reverse_reverse b.bytes)
  right_inv b := Block.ext (List.reverse_reverse b.bytes)

/-- A loader of one block and a payload of two, with three bytes behind them. -/
theorem Pkg1.restored_sample :
    (Pkg1.toBytes reversal ⟨le 0x20 (2 ^ 255 - 19), some (le 0x10 (3 ^ 80)), false⟩ =
      .ok (encryptCbc reversal (le 0x10 (3 ^ 80)) ++ zeros 0x20 ++ le 0x20 (2 ^ 255 - 19))) ∧
    (booted reversal ⟨0x40010000, 0x10⟩ (encryptCbc reversal (le 0x10 (3 ^ 80)) ++ zeros 0x20 ++
      le 0x20 (2 ^ 255 - 19) ++ [7, 8]) [9]).extract 0x30 0x50 = le 0x20 (2 ^ 255 - 19) := by
  have h := @Pkg1.restored reversal 0x40010000 (le 0x10 (3 ^ 80)) (le 0x20 (2 ^ 255 - 19))
    [7, 8] [9]
    (by rw [length_le]) (by rw [length_le]; decide) (by rw [length_le, length_le]; decide)
  exact ⟨h.1 (by decide), h.2.2⟩

/-- A payload of 0x10000 ones, with a cipher that changes nothing: the last blocks are decrypted,
and not encrypted again. -/
theorem Pkg1.restored_counterexample :
    (Pkg1.toBytes (Equiv.refl Block) ⟨List.replicate 0x10000 1, some (zeros 0x10), false⟩ =
      .ok (encryptCbc (Equiv.refl Block) (zeros 0x10) ++ zeros 0x20 ++
        List.replicate 0x10000 1)) ∧
    (booted (Equiv.refl Block) ⟨0x40010000, 0x10⟩ (encryptCbc (Equiv.refl Block) (zeros 0x10) ++
      zeros 0x20 ++ List.replicate 0x10000 1) []).extract 0x30 0x10030 ≠
        List.replicate 0x10000 1 := by
  refine ⟨Pkg1.toBytes_eq _ (by decide) (by decide), fun heq ↦ ?_⟩
  obtain ⟨bs, hbs, hmem⟩ := decryptCbc_replicate 0xfff
  rw [booted, hmem, List.append_nil] at heq
  have hlength : 0x10000 ≤ (join (bs ++ List.replicate 0xfff zero)).length := by
    rw [length_join, List.length_append, hbs, List.length_replicate]
    decide
  have htail : (join (bs ++ List.replicate 0xfff zero)).drop 0x10000 = List.replicate 0x30 0 := by
    rw [show 0x10000 = 0x10 * 0x1000 from rfl, join_drop, List.drop_append,
      List.drop_of_length_le (by rw [hbs]; decide), List.nil_append, hbs, List.drop_replicate]
    exact join_replicate 0 3
  have hdrop := congrArg (List.drop 0xffd0) heq
  rw [List.extract_eq_take_drop, List.drop_take, List.drop_drop,
    reencryptPayload_drop _ (by decide) (by decide) hlength, htail, List.drop_replicate] at hdrop
  exact absurd hdrop (by decide)

end Image
end SdLoader
