import SdLoader.Gfx.Rotation
import SdLoader.Lib.Packing

/-!
# The image converter and the renderer

`tools/bmp2header/main.cpp` packs the pixels of a bitmap file into bytes, and
`gfx_render_bmp_1bit_rot` and `gfx_render_bmp_2bit_rot` take them out again.  Both go through the
pixels without regard to the ends of lines.

* `Bmp.put` — what the converter does with a pixel; `Bmp.arr` is what it has written in the end.
* `arr_eq` — full bytes hold the digits they should; the last byte is shifted by a wrong amount.
* `taken_eq` — what is taken out of the file for a pixel: if one bit is stored and two are taken,
  its neighbour comes with it.
* `agrees_iff` — which images survive this.

The sizes are such that no product overflows, which in the converter would be undefined.  What is
written around the numbers, and the palette, are left out.
-/

set_option autoImplicit false

namespace SdLoader
namespace Gfx

open Packing

/-- `biBitCount` -/
inductive BitCount
  | one
  | two
  | four
  | eight

/-- The bits of a pixel in the file. -/
def BitCount.bits : BitCount → ℕ
  | one => 1
  | two => 2
  | four => 4
  | eight => 8

/-- `bit_depth`, where there is a renderer for it. -/
inductive Depth
  | one
  | two

/-- The bits of a pixel in the array. -/
def Depth.bits : Depth → ℕ
  | one => 1
  | two => 2

/-- `pixels_per_byte` -/
def BitCount.pixelsPerByte (b : BitCount) : ℕ := 8 / b.bits

/-- `actual_pixels_per_byte` -/
def Depth.pixelsPerByte (d : Depth) : ℕ := 8 / d.bits

/-- `stride` -/
def strideOf (biWidth : ℕ) (b : BitCount) : ℕ := ((biWidth * b.bits + 0x1f) / 32 * 32) / 8

/-- An uncompressed bitmap. -/
structure Bmp where
  biBitCount : BitCount
  biWidth : ℕ
  /-- Negative if the first line in the file is the top one. -/
  biHeight : ℤ
  /-- `img_data` -/
  imgData : ℕ → UInt8
  line_fits : biWidth * biBitCount.bits + 0x1f < 2 ^ 31
  pixels_fit : biWidth * biHeight.natAbs < 2 ^ 31
  bytes_fit : strideOf biWidth biBitCount * biHeight.natAbs < 2 ^ 32

/-! ## The converter -/

/-- The variables of the packing loop, with the array that has been written. -/
structure Packer where
  count : ℕ
  next : ℕ
  out : List UInt8

namespace Bmp

variable (p : Bmp) (d : Depth)

/-- `bottom_up` -/
def bottomUp : Bool := 0 < p.biHeight

/-- `biHeight`, made positive. -/
def height : ℕ := p.biHeight.natAbs

/-- `stride` -/
def stride : ℕ := strideOf p.biWidth p.biBitCount

/-- `cur` -/
def cur (i j : ℕ) : ℕ :=
  let pixelsPerByte := p.biBitCount.pixelsPerByte
  ((p.imgData (i * p.stride + j / pixelsPerByte)).toNat >>>
    (((pixelsPerByte - 1) - (j &&& (pixelsPerByte - 1))) * p.biBitCount.bits)) &&&
      ((1 <<< d.bits) - 1)

/-- The body of the packing loop. -/
def put (s : Packer) (i j : ℕ) : Packer :=
  let actualPixelsPerByte := d.pixelsPerByte
  let count := s.count + 1
  let isLast := count == p.biWidth * p.height
  let isLastForNext := count % actualPixelsPerByte == 0
  let next := ((s.next <<< d.bits) ||| p.cur d i j) % 256
  let next :=
    if isLast then
      (next <<< (d.bits *
        ((actualPixelsPerByte - (count % actualPixelsPerByte + 1)) % actualPixelsPerByte))) % 256
    else next
  { count, next, out := if isLastForNext || isLast then s.out ++ [UInt8.ofNat next] else s.out }

/-- The lines of the file, in the order they are gone through. -/
def lines : List ℕ := if p.bottomUp then (List.range p.height).reverse else List.range p.height

/-- The packing loop. -/
def pack : Packer :=
  p.lines.foldl (fun s i ↦ (List.range p.biWidth).foldl (fun s j ↦ p.put d s i j) s) ⟨0, 0, []⟩

/-- The array in the header. -/
def arr : List UInt8 := (p.pack d).out

/-! ## The image -/

/-- The line of the file that holds row `i` of the image. -/
def line (i : ℕ) : ℕ := if p.bottomUp then p.height - 1 - i else i

/-- The palette index of the pixel in row `i`, column `j`. -/
def index (i j : ℕ) : ℕ :=
  digit (2 ^ p.biBitCount.bits) (p.biBitCount.pixelsPerByte - 1 - j % p.biBitCount.pixelsPerByte)
    (p.imgData (p.line i * p.stride + j / p.biBitCount.pixelsPerByte)).toNat

/-- The renderer for the depth, with the array as its image. -/
def render (g : Ctxt) (posX posY : UInt32) : List Write :=
  let buf := fun k ↦ (p.arr d).getD k 0
  match d with
  | .one => gfxRenderBmp1bitRot buf g (UInt32.ofNat p.biWidth) (UInt32.ofNat p.height) posX posY
  | .two => gfxRenderBmp2bitRot buf g (UInt32.ofNat p.biWidth) (UInt32.ofNat p.height) posX posY

/-- The renderer goes through the image row by row; what it writes for a pixel is the palette index
of the pixel, as far as there are bits for it. -/
def Agrees (g : Ctxt) (posX posY : UInt32) : Prop :=
  ∀ i < p.height, ∀ j < p.biWidth,
    (p.render d g posX posY)[i * p.biWidth + j]?.map Prod.snd =
      some (UInt8.ofNat (p.index i j % 2 ^ d.bits))

/-- The palette index of pixel `n`, row by row. -/
def pixel (n : ℕ) : ℕ := p.index (n / p.biWidth) (n % p.biWidth)

/-- What is taken out of the file for pixel `n`: its index, and if that is one bit and two are
taken, the one to the left of it in the same byte. -/
def taken (n : ℕ) : ℕ :=
  p.pixel n % 2 ^ d.bits +
    match p.biBitCount, d with
    | .one, .two => if n % p.biWidth % 8 = 0 then 0 else 2 * p.pixel (n - 1)
    | _, _ => 0

/-- **The condition.**  For a pixel that is not in the last byte of the array, what is taken out of
the file is its index.  If the last byte is full, the indices of its pixels are zero; if it is not,
each of them is what is taken out for the pixel before. -/
def Survives : Prop :=
  ∀ n < p.biWidth * p.height,
    if n / d.pixelsPerByte < (p.biWidth * p.height - 1) / d.pixelsPerByte then
      p.taken d n = p.pixel n % 2 ^ d.bits
    else if p.biWidth * p.height % d.pixelsPerByte = 0 then p.pixel n % 2 ^ d.bits = 0
    else p.pixel n % 2 ^ d.bits = if n = 0 then 0 else p.taken d (n - 1)

end Bmp

/-! ## The array -/

section
variable {p : Bmp} {d : Depth}

theorem Depth.base_pow (d : Depth) : (2 ^ d.bits) ^ d.pixelsPerByte = 256 := by
  cases d <;> rfl

theorem Depth.pixelsPerByte_pos (d : Depth) : 2 < d.pixelsPerByte := by
  cases d <;> decide

/-- A loop in a loop is one loop. -/
theorem foldl_range_mul {σ : Type} (f : σ → ℕ → ℕ → σ) (w h : ℕ) (s : σ) :
    (List.range h).foldl (fun s i ↦ (List.range w).foldl (fun s j ↦ f s i j) s) s =
      (List.range (w * h)).foldl (fun s n ↦ f s (n / w) (n % w)) s := by
  induction h generalizing s with
  | zero => rfl
  | succ h ih =>
    rw [List.range_succ, List.foldl_append, ih, Nat.mul_succ, List.range_add, List.foldl_append,
      List.foldl_cons, List.foldl_nil, List.foldl_map]
    refine List.foldl_ext _ _ _ fun s j hj ↦ ?_
    have hlt := List.mem_range.mp hj
    rw [Nat.mul_add_div (by omega), Nat.div_eq_of_lt hlt, Nat.add_zero, Nat.mul_add_mod,
      Nat.mod_eq_of_lt hlt]

theorem lines_eq (p : Bmp) : p.lines = (List.range p.height).map p.line := by
  rw [Bmp.lines]
  cases hup : p.bottomUp with
  | false =>
    rw [if_neg (by simp)]
    refine (List.map_id _).symm.trans (List.map_congr_left fun i _ ↦ ?_)
    rw [Bmp.line, hup]
    rfl
  | true =>
    rw [if_pos rfl]
    refine List.ext_getElem (by simp) fun i hi _ ↦ ?_
    simp [Bmp.line, hup]

/-- The digits that are packed, in order. -/
def Bmp.stream (p : Bmp) (d : Depth) (n : ℕ) : ℕ := p.cur d (p.line (n / p.biWidth)) (n % p.biWidth)

theorem stream_lt (p : Bmp) (d : Depth) (n : ℕ) : p.stream d n < 2 ^ d.bits := by
  rw [Bmp.stream, Bmp.cur, Nat.one_shiftLeft]
  exact Nat.and_lt_two_pow _ (Nat.sub_lt (Nat.two_pow_pos _) Nat.one_pos)

theorem pack_eq (p : Bmp) (d : Depth) : p.pack d = (List.range (p.biWidth * p.height)).foldl
    (fun s n ↦ p.put d s (p.line (n / p.biWidth)) (n % p.biWidth)) ⟨0, 0, []⟩ := by
  rw [Bmp.pack, lines_eq, List.foldl_map]
  exact foldl_range_mul (fun s i j ↦ p.put d s (p.line i) j) _ _ _

/-- The word after `k` pixels. -/
def Bmp.word (p : Bmp) (d : Depth) : ℕ → ℕ := acc (2 ^ d.bits) d.pixelsPerByte (p.stream d)

/-- The bytes that are full after `k` pixels. -/
def Bmp.full (p : Bmp) (d : Depth) (k : ℕ) : List UInt8 :=
  (List.range (k / d.pixelsPerByte)).map fun t ↦
    UInt8.ofNat (p.word d ((t + 1) * d.pixelsPerByte))

/-- The last byte of an array of `n` pixels. -/
def Bmp.lastByte (p : Bmp) (d : Depth) (n : ℕ) : ℕ :=
  p.word d n * (2 ^ d.bits) ^ ((d.pixelsPerByte - (n % d.pixelsPerByte + 1)) % d.pixelsPerByte) %
    256

/-- Shifting a digit in. -/
theorem shift_in (p : Bmp) (d : Depth) (k : ℕ) :
    ((p.word d k <<< d.bits) ||| p.stream d k) % 256 = p.word d (k + 1) := by
  rw [← Nat.shiftLeft_add_eq_or_of_lt (stream_lt p d k), Nat.shiftLeft_eq, Bmp.word, acc,
    d.base_pow]

theorem full_succ (p : Bmp) (d : Depth) (k : ℕ) : p.full d (k + 1) =
    if (k + 1) % d.pixelsPerByte = 0 then p.full d k ++ [UInt8.ofNat (p.word d (k + 1))]
    else p.full d k := by
  have hpos := d.pixelsPerByte_pos
  rw [Bmp.full, Nat.succ_div, Bmp.full]
  split
  · next hdvd =>
    have hmul : (k / d.pixelsPerByte + 1) * d.pixelsPerByte = k + 1 := by
      rw [← Nat.div_mul_cancel hdvd, Nat.succ_div_of_dvd hdvd]
    rw [if_pos (Nat.mod_eq_zero_of_dvd hdvd), List.range_succ, List.map_append, List.map_singleton,
      hmul]
  · next hdvd => rw [if_neg fun hzero ↦ hdvd (Nat.dvd_of_mod_eq_zero hzero), Nat.add_zero]

/-- Before the last pixel, what has been written is what is full. -/
theorem put_prefix (p : Bmp) (d : Depth) {k : ℕ} (hk : k < p.biWidth * p.height) :
    (List.range k).foldl (fun s n ↦ p.put d s (p.line (n / p.biWidth)) (n % p.biWidth)) ⟨0, 0, []⟩ =
      ⟨k, p.word d k, p.full d k⟩ := by
  induction k with
  | zero => simp [Bmp.word, acc, Bmp.full]
  | succ k ih =>
    rw [List.range_succ, List.foldl_append, ih (by omega), List.foldl_cons, List.foldl_nil, Bmp.put,
      full_succ, ← shift_in]
    have hlast : (k + 1 == p.biWidth * p.height) = false := by
      rw [beq_eq_false_iff_ne]
      omega
    simp only [hlast, Bool.or_false, Bool.false_eq_true, if_false, beq_iff_eq]
    rfl

/-- **The array**: the bytes that are full before the last pixel, and the last byte. -/
theorem arr_eq (p : Bmp) (d : Depth) {m : ℕ} (hm : p.biWidth * p.height = m + 1) :
    p.arr d = p.full d m ++ [UInt8.ofNat (p.lastByte d (m + 1))] := by
  rw [Bmp.arr, pack_eq, hm, List.range_succ, List.foldl_append, put_prefix p d (by omega),
    List.foldl_cons, List.foldl_nil, Bmp.put]
  have hlast : (m + 1 == p.biWidth * p.height) = true := by
    rw [beq_iff_eq, hm]
  simp only [hlast, Bool.or_true, if_true]
  have hin := shift_in p d m
  rw [Bmp.stream] at hin
  rw [hin, Bmp.lastByte, Nat.shiftLeft_eq, Nat.pow_mul]

/-! ## What the renderer takes out -/

theorem toNat_pixel1bit (buf : ℕ → UInt8) (count : UInt32) :
    (pixel1bit buf count).toNat =
      digit 2 (7 - count.toNat % 8) (buf (count.toNat / 8)).toNat := by
  have hmod : (count % 8).toNat = count.toNat % 8 := UInt32.toNat_mod count 8
  have hshift : (7 - count % 8).toNat = 7 - count.toNat % 8 := by
    rw [Bytes.toNat_sub (by rw [hmod]; exact Nat.le_of_lt_succ (Nat.mod_lt _ (by decide))), hmod]
    rfl
  have hdiv : (count / 8).toNat = count.toNat / 8 := UInt32.toNat_div count 8
  rw [pixel1bit, UInt8.toNat_and, UInt8.toNat_shiftRight, UInt32.toNat_toUInt8, hshift, hdiv,
    Nat.mod_eq_of_lt (show 7 - count.toNat % 8 < 2 ^ 8 by omega),
    Nat.mod_eq_of_lt (show 7 - count.toNat % 8 < 8 by omega), Nat.shiftRight_eq_div_pow]
  exact Nat.and_two_pow_sub_one_eq_mod _ 1

theorem toNat_pixel2bit (buf : ℕ → UInt8) (count : UInt32) :
    (pixel2bit buf count).toNat =
      digit 4 (3 - count.toNat % 4) (buf (count.toNat / 4)).toNat := by
  have hlt : count.toNat % 4 < 4 := Nat.mod_lt _ (by decide)
  have hmod : (count % 4).toNat = count.toNat % 4 := UInt32.toNat_mod count 4
  have htwice : (count % 4 * 2).toNat = count.toNat % 4 * 2 := by
    rw [Bytes.toNat_mul (by rw [hmod, show (2 : UInt32).toNat = 2 from rfl]; omega), hmod]
    rfl
  have hshift : (6 - count % 4 * 2).toNat = 6 - count.toNat % 4 * 2 := by
    rw [Bytes.toNat_sub (by rw [htwice, show (6 : UInt32).toNat = 6 from rfl]; omega), htwice]
    rfl
  have hdiv : (count / 4).toNat = count.toNat / 4 := UInt32.toNat_div count 4
  have hpow : 2 ^ (6 - count.toNat % 4 * 2) = 4 ^ (3 - count.toNat % 4) := by
    rw [show 4 = 2 ^ 2 from rfl, ← Nat.pow_mul]
    congr 1
    omega
  rw [pixel2bit, UInt8.toNat_and, UInt8.toNat_shiftRight, UInt32.toNat_toUInt8, hshift, hdiv,
    Nat.mod_eq_of_lt (show 6 - count.toNat % 4 * 2 < 2 ^ 8 by omega),
    Nat.mod_eq_of_lt (show 6 - count.toNat % 4 * 2 < 8 by omega), Nat.shiftRight_eq_div_pow, hpow]
  exact Nat.and_two_pow_sub_one_eq_mod _ 2

/-- **What is taken out of the array** for pixel `n`. -/
def Bmp.decoded (p : Bmp) (d : Depth) (n : ℕ) : ℕ :=
  digit (2 ^ d.bits) (d.pixelsPerByte - 1 - n % d.pixelsPerByte)
    ((p.arr d).getD (n / d.pixelsPerByte) 0).toNat

theorem word_lt (p : Bmp) (d : Depth) (k : ℕ) : p.word d k < 256 := by
  cases k with
  | zero => exact Nat.zero_lt_succ _
  | succ k =>
    rw [← shift_in]
    exact Nat.mod_lt _ (by decide)

/-- A byte that is full gives its digits back. -/
theorem decoded_of_full (p : Bmp) (d : Depth) {m n : ℕ} (hm : p.biWidth * p.height = m + 1)
    (hn : n / d.pixelsPerByte < m / d.pixelsPerByte) : p.decoded d n = p.stream d n := by
  have hbyte : (p.arr d).getD (n / d.pixelsPerByte) 0 =
      UInt8.ofNat (p.word d ((n / d.pixelsPerByte + 1) * d.pixelsPerByte)) := by
    rw [arr_eq p d hm, List.getD_append _ _ _ _ (by simpa [Bmp.full] using hn), Bmp.full,
      List.getD_eq_getElem _ _ (by simpa using hn), List.getElem_map, List.getElem_range]
  rw [Bmp.decoded, hbyte, UInt8.toNat_ofNat_of_lt' (word_lt _ _ _), Bmp.word]
  have hpos := d.pixelsPerByte_pos
  have hmod := Nat.mod_lt n (show 0 < d.pixelsPerByte by omega)
  have hdiv := Nat.div_add_mod n d.pixelsPerByte
  rw [digit_acc (stream_lt p d) (by omega), Nat.succ_mul, Nat.mul_comm]
  rw [if_pos (by omega)]
  congr 1
  omega

/-- Where the digits of a last byte that is not full are. -/
theorem last_places {a m n : ℕ} (ha : 0 < a) (hn : n / a = m / a) (hnm : n ≤ m)
    (hpart : (m + 1) % a ≠ 0) :
    (a - ((m + 1) % a + 1)) % a = a - 1 - (m + 1) % a ∧
    a - 1 - n % a - (a - 1 - (m + 1) % a) = (m + 1) % a - n % a ∧
    (m + 1) % a - n % a + n = m + 1 ∧ n % a < (m + 1) % a ∧ (m + 1) % a < a := by
  have hlt := Nat.mod_lt (m + 1) ha
  have hdiv : (m + 1) / a = m / a :=
    Nat.succ_div_of_not_dvd fun hdvd ↦ hpart (Nat.mod_eq_zero_of_dvd hdvd)
  have hdm := Nat.div_add_mod (m + 1) a
  have hdn := Nat.div_add_mod n a
  rw [hdiv] at hdm
  rw [hn] at hdn
  refine ⟨?_, by omega, by omega, by omega, hlt⟩
  rw [Nat.mod_eq_of_lt (by omega)]
  omega

/-- The last byte gives its digits back one place further on, or if it is full all of it but one
digit is zero. -/
theorem decoded_of_last (p : Bmp) (d : Depth) {m n : ℕ} (hm : p.biWidth * p.height = m + 1)
    (hn : n / d.pixelsPerByte = m / d.pixelsPerByte) (hnm : n ≤ m) : p.decoded d n =
      if (m + 1) % d.pixelsPerByte = 0 then
        if n % d.pixelsPerByte = 0 then p.stream d m else 0
      else if n = 0 then 0 else p.stream d (n - 1) := by
  have hbyte : (p.arr d).getD (n / d.pixelsPerByte) 0 = UInt8.ofNat (p.lastByte d (m + 1)) := by
    rw [arr_eq p d hm, List.getD_append_right _ _ _ _ (by simp [Bmp.full, hn]), Bmp.full,
      List.length_map, List.length_range, hn, Nat.sub_self]
    rfl
  have hlt : p.lastByte d (m + 1) < 256 := Nat.mod_lt _ (by decide)
  have hpos := d.pixelsPerByte_pos
  have hs : d.pixelsPerByte - 1 - n % d.pixelsPerByte < d.pixelsPerByte := by omega
  rw [Bmp.decoded, hbyte, UInt8.toNat_ofNat_of_lt' hlt, Bmp.lastByte, ← d.base_pow,
    digit_shift (Nat.two_pow_pos _) hs, Bmp.word, digit_acc (stream_lt p d) (by omega),
    Nat.add_sub_cancel]
  by_cases hfull : (m + 1) % d.pixelsPerByte = 0
  · -- all but the lowest digit is shifted out
    rw [if_pos hfull, hfull, Nat.zero_add, Nat.mod_eq_of_lt (by omega)]
    by_cases hfirst : n % d.pixelsPerByte = 0
    · rw [if_pos hfirst, hfirst, Nat.sub_zero, if_pos (Nat.le_refl _), Nat.sub_self,
        if_pos (Nat.succ_pos m), Nat.sub_zero]
    · rw [if_neg hfirst, if_neg (by omega)]
  · -- one place less than there are left
    obtain ⟨hshift, hplace, hsum, hlt, hle⟩ := last_places (by omega) hn hnm hfull
    rw [if_neg hfull, hshift, if_pos (by omega), hplace]
    by_cases hzero : n = 0
    · rw [if_pos hzero, if_neg (by omega)]
    · rw [if_neg hzero, if_pos (by omega)]
      exact congrArg _ (by omega)

/-! ## What the converter takes out -/

theorem and_pixelsPerByte (b : BitCount) (j : ℕ) :
    j &&& (b.pixelsPerByte - 1) = j % b.pixelsPerByte := by
  cases b
  · exact Nat.and_two_pow_sub_one_eq_mod j 3
  · exact Nat.and_two_pow_sub_one_eq_mod j 2
  · exact Nat.and_two_pow_sub_one_eq_mod j 1
  · exact Nat.and_two_pow_sub_one_eq_mod j 0

theorem stream_eq (p : Bmp) (d : Depth) (n : ℕ) :
    p.stream d n = (p.imgData (p.line (n / p.biWidth) * p.stride +
      n % p.biWidth / p.biBitCount.pixelsPerByte)).toNat /
        (2 ^ p.biBitCount.bits) ^ (p.biBitCount.pixelsPerByte - 1 -
          n % p.biWidth % p.biBitCount.pixelsPerByte) % 2 ^ d.bits := by
  simp only [Bmp.stream, Bmp.cur, and_pixelsPerByte, Nat.one_shiftLeft,
    Nat.and_two_pow_sub_one_eq_mod, Nat.shiftRight_eq_div_pow]
  rw [Nat.mul_comm _ p.biBitCount.bits, Nat.pow_mul]

/-- The pixel to the left, where it is in the same byte. -/
theorem pixel_pred (p : Bmp) {n : ℕ} (hb : p.biBitCount = .one) (hn : n % p.biWidth % 8 ≠ 0) :
    p.pixel (n - 1) = digit 2 (7 - n % p.biWidth % 8 + 1) (p.imgData
      (p.line (n / p.biWidth) * p.stride + n % p.biWidth / 8)).toNat := by
  obtain ⟨hdiv, hmod⟩ : (n - 1) / p.biWidth = n / p.biWidth ∧
      (n - 1) % p.biWidth = n % p.biWidth - 1 := by
    have hsum := Nat.div_add_mod n p.biWidth
    rcases Nat.eq_zero_or_pos p.biWidth with hzero | hpos
    · rw [hzero, Nat.div_zero, Nat.div_zero, Nat.mod_zero, Nat.mod_zero]
      exact ⟨rfl, rfl⟩
    · have hpred : n - 1 = p.biWidth * (n / p.biWidth) + (n % p.biWidth - 1) := by omega
      have hlt : n % p.biWidth - 1 < p.biWidth :=
        Nat.lt_of_le_of_lt (Nat.sub_le _ _) (Nat.mod_lt n hpos)
      constructor
      · conv_lhs => rw [hpred]
        rw [Nat.mul_add_div hpos, Nat.div_eq_of_lt hlt, Nat.add_zero]
      · conv_lhs => rw [hpred]
        rw [Nat.mul_add_mod, Nat.mod_eq_of_lt hlt]
  have hbyte : (n % p.biWidth - 1) / 8 = n % p.biWidth / 8 := by omega
  have hplace : 8 - 1 - (n % p.biWidth - 1) % 8 = 7 - n % p.biWidth % 8 + 1 := by omega
  rw [Bmp.pixel, Bmp.index, hdiv, hmod, hb]
  simp only [BitCount.pixelsPerByte, BitCount.bits, Nat.reduceDiv, Nat.pow_one, hbyte, hplace]

/-- Two bits that are taken where one is stored. -/
theorem two_bits (x k : ℕ) : x / 2 ^ k % 2 ^ 2 = digit 2 k x % 2 ^ 2 + 2 * digit 2 (k + 1) x := by
  have hnext : x / 2 ^ (k + 1) = x / 2 ^ k / 2 := by
    rw [Nat.pow_succ, Nat.div_div_eq_div_mul]
  rw [digit, digit, hnext]
  omega

theorem mod_of_bits_le {x k b d : ℕ} (h : d ≤ b) :
    x / (2 ^ b) ^ k % 2 ^ d = digit (2 ^ b) k x % 2 ^ d :=
  (Nat.mod_mod_of_dvd _ (Nat.pow_dvd_pow 2 h)).symm

/-- **What is taken out of the file** for a pixel: its index, with the bit to the left of it if that
is in the same byte and there is room. -/
theorem taken_eq (p : Bmp) (d : Depth) (n : ℕ) : p.stream d n = p.taken d n := by
  have hdigit : p.pixel n = digit (2 ^ p.biBitCount.bits) (p.biBitCount.pixelsPerByte - 1 -
      n % p.biWidth % p.biBitCount.pixelsPerByte) (p.imgData (p.line (n / p.biWidth) * p.stride +
        n % p.biWidth / p.biBitCount.pixelsPerByte)).toNat := rfl
  by_cases hle : d.bits ≤ p.biBitCount.bits
  · have hnone : p.taken d n = p.pixel n % 2 ^ d.bits := by
      rcases hb : p.biBitCount <;> rcases d <;> simp only [Bmp.taken, hb, Nat.add_zero]
      rw [hb] at hle
      exact absurd hle (by decide)
    rw [stream_eq, hnone, hdigit, mod_of_bits_le hle]
  · obtain ⟨hb, rfl⟩ : p.biBitCount = .one ∧ d = .two := by
      rcases hb : p.biBitCount <;> rcases d <;> rw [hb] at hle
      case one.two => exact ⟨rfl, rfl⟩
      all_goals exact absurd (by decide) hle
    have htaken : p.taken .two n = p.pixel n % 2 ^ Depth.two.bits +
        if n % p.biWidth % 8 = 0 then 0 else 2 * p.pixel (n - 1) := by
      simp only [Bmp.taken, hb]
    rw [stream_eq, htaken, hdigit, hb]
    simp only [BitCount.bits, BitCount.pixelsPerByte, Depth.bits, Nat.pow_one, Nat.reduceDiv,
      Nat.reduceSub]
    rw [two_bits]
    split
    · next hzero =>
      have hout : digit 2 (7 - n % p.biWidth % 8 + 1)
          (p.imgData (p.line (n / p.biWidth) * p.stride + n % p.biWidth / 8)).toNat = 0 := by
        rw [hzero, digit, Nat.div_eq_of_lt (UInt8.toNat_lt _)]
      rw [hout]
    · next hne => rw [pixel_pred p hb hne]

/-! ## What is drawn -/

theorem getElem?_flatMap_range {α : Type} (f : ℕ → ℕ → α) {m n i j : ℕ} (hi : i < m) (hj : j < n) :
    ((List.range m).flatMap fun i ↦ (List.range n).map (f i))[i * n + j]? = some (f i j) := by
  have hlen : ∀ m, ((List.range m).flatMap fun i ↦ (List.range n).map (f i)).length = m * n := by
    intro m
    simp [List.length_flatMap]
  induction m with
  | zero => omega
  | succ m ih =>
    rw [List.range_succ, List.flatMap_append, List.flatMap_singleton]
    rcases Nat.lt_succ_iff_lt_or_eq.mp hi with hlt | rfl
    · have hin : i * n + j < m * n := by
        have hmul : (i + 1) * n ≤ m * n := Nat.mul_le_mul_right n hlt
        rw [Nat.succ_mul] at hmul
        omega
      rw [List.getElem?_append_left (by rwa [hlen]), ih hlt]
    · rw [List.getElem?_append_right (by rw [hlen]; omega), hlen, Nat.add_sub_cancel_left,
        List.getElem?_map, List.getElem?_range hj, Option.map_some]

/-- What the renderer writes for the pixel in row `i`, column `j`. -/
theorem getElem?_renderBmpRot (pixel : UInt32 → UInt8) (g : Ctxt) {w h i j : ℕ}
    (posX posY : UInt32) (hi : i < h) (hj : j < w) (hsize : w * h < 2 ^ 31) :
    ∃ a, (renderBmpRot pixel g (UInt32.ofNat w) (UInt32.ofNat h) posX posY)[i * w + j]? =
      some (a, pixel (UInt32.ofNat (i * w + j))) := by
  have hw : w < 2 ^ 32 := by
    have hle : w ≤ w * h := Nat.le_mul_of_pos_right w (by omega)
    omega
  have hh : h < 2 ^ 32 := by
    have hle : h ≤ w * h := Nat.le_mul_of_pos_left h (by omega)
    omega
  rw [renderBmpRot_eq, drawnBmp, UInt32.toNat_ofNat_of_lt' hw, UInt32.toNat_ofNat_of_lt' hh,
    List.getElem?_map, getElem?_flatMap_range _ hi hj, Option.map_some, UInt32.ofNat_add,
    UInt32.ofNat_mul]
  exact ⟨_, rfl⟩

/-- The renderer is the one that takes out what `Bmp.decoded` says. -/
theorem render_eq (p : Bmp) (d : Depth) (g : Ctxt) (posX posY : UInt32) {i j : ℕ}
    (hi : i < p.height) (hj : j < p.biWidth) :
    (p.render d g posX posY)[i * p.biWidth + j]?.map Prod.snd =
      some (UInt8.ofNat (p.decoded d (i * p.biWidth + j))) := by
  have hlt : i * p.biWidth + j < 2 ^ 32 := by
    have hmul : (i + 1) * p.biWidth ≤ p.height * p.biWidth := Nat.mul_le_mul_right _ hi
    have hfit := p.pixels_fit
    rw [Nat.succ_mul] at hmul
    rw [← Bmp.height, Nat.mul_comm] at hfit
    omega
  have hto := UInt32.toNat_ofNat_of_lt' hlt
  cases d with
  | one =>
    obtain ⟨a, ha⟩ := getElem?_renderBmpRot (pixel1bit fun k ↦ (p.arr .one).getD k 0) g posX posY hi
      hj p.pixels_fit
    have hvalue := toNat_pixel1bit (fun k ↦ (p.arr .one).getD k 0)
      (UInt32.ofNat (i * p.biWidth + j))
    rw [hto] at hvalue
    rw [Bmp.render, gfxRenderBmp1bitRot, ha, Option.map_some]
    exact congrArg some ((UInt8.ofNat_toNat).symm.trans (congrArg UInt8.ofNat hvalue))
  | two =>
    obtain ⟨a, ha⟩ := getElem?_renderBmpRot (pixel2bit fun k ↦ (p.arr .two).getD k 0) g posX posY hi
      hj p.pixels_fit
    have hvalue := toNat_pixel2bit (fun k ↦ (p.arr .two).getD k 0)
      (UInt32.ofNat (i * p.biWidth + j))
    rw [hto] at hvalue
    rw [Bmp.render, gfxRenderBmp2bitRot, ha, Option.map_some]
    exact congrArg some ((UInt8.ofNat_toNat).symm.trans (congrArg UInt8.ofNat hvalue))

theorem decoded_lt (p : Bmp) (d : Depth) (n : ℕ) : p.decoded d n < 2 ^ d.bits :=
  Nat.mod_lt _ (Nat.two_pow_pos _)

/-- **What is drawn** is right if and only if what is taken out of the array is. -/
theorem agrees_iff_decoded (p : Bmp) (d : Depth) (g : Ctxt) (posX posY : UInt32) :
    p.Agrees d g posX posY ↔
      ∀ n < p.biWidth * p.height, p.decoded d n = p.pixel n % 2 ^ d.bits := by
  have hbits : 2 ^ d.bits < 256 := by cases d <;> decide
  -- of numbers that are small enough, the bytes are the same only if they are
  have hbyte : ∀ n x, UInt8.ofNat (p.decoded d n) = UInt8.ofNat (x % 2 ^ d.bits) ↔
      p.decoded d n = x % 2 ^ d.bits := by
    intro n x
    have hleft := decoded_lt p d n
    have hright := Nat.mod_lt x (Nat.two_pow_pos d.bits)
    rw [← UInt8.toNat_inj, UInt8.toNat_ofNat_of_lt' (Nat.lt_trans hleft hbits),
      UInt8.toNat_ofNat_of_lt' (Nat.lt_trans hright hbits)]
  constructor
  · intro h n hn
    have hwidth : 0 < p.biWidth := Nat.pos_of_mul_pos_right (Nat.zero_lt_of_lt hn)
    have hi : n / p.biWidth < p.height := Nat.div_lt_of_lt_mul hn
    have hj := Nat.mod_lt n hwidth
    have heq := h _ hi _ hj
    rw [render_eq p d g posX posY hi hj, Option.some.injEq, hbyte, Nat.mul_comm,
      Nat.div_add_mod] at heq
    exact heq
  · intro h i hi j hj
    have hn : i * p.biWidth + j < p.biWidth * p.height := by
      have hmul : (i + 1) * p.biWidth ≤ p.height * p.biWidth := Nat.mul_le_mul_right _ hi
      rw [Nat.succ_mul] at hmul
      rw [Nat.mul_comm p.biWidth]
      omega
    have hdiv : (i * p.biWidth + j) / p.biWidth = i := by
      rw [Nat.mul_comm, Nat.mul_add_div (by omega), Nat.div_eq_of_lt hj, Nat.add_zero]
    have hmod : (i * p.biWidth + j) % p.biWidth = j := by
      rw [Nat.mul_comm, Nat.mul_add_mod, Nat.mod_eq_of_lt hj]
    have heq := h _ hn
    rw [Bmp.pixel, hdiv, hmod] at heq
    rw [render_eq p d g posX posY hi hj, heq]

/-- The last two places of a byte that is full. -/
theorem full_places {a m : ℕ} (ha : 2 < a) (h : (m + 1) % a = 0) :
    m % a ≠ 0 ∧ (m - 1) % a ≠ 0 ∧ (m - 1) / a = m / a := by
  obtain ⟨q, hq⟩ : ∃ q, m + 1 = a * (q + 1) := by
    obtain ⟨q, hq⟩ := Nat.dvd_of_mod_eq_zero h
    cases q with
    | zero => omega
    | succ q => exact ⟨q, hq⟩
  rw [Nat.mul_succ] at hq
  have hm : m = a * q + (a - 1) := by omega
  have hpred : m - 1 = a * q + (a - 2) := by omega
  rw [hpred, hm, Nat.mul_add_mod, Nat.mul_add_mod, Nat.mul_add_div (by omega),
    Nat.mul_add_div (by omega), Nat.div_eq_of_lt (by omega), Nat.div_eq_of_lt (by omega),
    Nat.mod_eq_of_lt (by omega), Nat.mod_eq_of_lt (by omega)]
  exact ⟨by omega, by omega, rfl⟩

/-- If two neighbours are zero, so is what is taken out for the right one. -/
theorem taken_eq_zero {p : Bmp} {d : Depth} {n : ℕ} (h : p.pixel n % 2 ^ d.bits = 0)
    (h' : p.pixel (n - 1) % 2 ^ d.bits = 0) : p.taken d n = 0 := by
  have hlt : p.pixel (n - 1) < 2 ^ p.biBitCount.bits := Nat.mod_lt _ (Nat.two_pow_pos _)
  rcases hb : p.biBitCount <;> rcases d
  case one.two =>
    rw [hb] at hlt
    have hzero : p.pixel (n - 1) = 0 := by
      rwa [Nat.mod_eq_of_lt (Nat.lt_trans hlt (by decide))] at h'
    simp only [Bmp.taken, hb, h, hzero, Nat.mul_zero, ite_self]
  all_goals simp only [Bmp.taken, hb, h]

/-- **Which images survive**: what is drawn from the array is what is in the file, if and only if
the image meets the condition. -/
theorem agrees_iff (p : Bmp) (d : Depth) (g : Ctxt) (posX posY : UInt32) :
    p.Agrees d g posX posY ↔ p.Survives d := by
  rw [agrees_iff_decoded]
  rcases Nat.eq_zero_or_pos (p.biWidth * p.height) with hzero | hpos
  · rw [Bmp.Survives, hzero]
    exact iff_of_true (fun n hn ↦ absurd hn (Nat.not_lt_zero n))
      fun n hn ↦ absurd hn (Nat.not_lt_zero n)
  obtain ⟨m, hm⟩ : ∃ m, p.biWidth * p.height = m + 1 := ⟨p.biWidth * p.height - 1, by omega⟩
  rw [Bmp.Survives, hm, Nat.add_sub_cancel]
  have hpos := d.pixelsPerByte_pos
  have hfull : ∀ n, n / d.pixelsPerByte < m / d.pixelsPerByte → p.decoded d n = p.taken d n := by
    intro n hn
    rw [decoded_of_full p d hm hn, taken_eq]
  have hlast : ∀ n < m + 1, ¬ n / d.pixelsPerByte < m / d.pixelsPerByte →
      n / d.pixelsPerByte = m / d.pixelsPerByte := fun n hn hge ↦
    Nat.le_antisymm (Nat.div_le_div_right (Nat.le_of_lt_succ hn)) (Nat.le_of_not_lt hge)
  by_cases hr : (m + 1) % d.pixelsPerByte = 0
  · -- the last two pixels are in the last byte, and not the first of it
    obtain ⟨hmod, hmod', hdiv⟩ := full_places hpos hr
    have htail : ∀ n < m + 1, ¬ n / d.pixelsPerByte < m / d.pixelsPerByte → p.decoded d n =
        if n % d.pixelsPerByte = 0 then p.taken d m else 0 := by
      intro n hn hbyte
      rw [decoded_of_last p d hm (hlast n hn hbyte) (Nat.le_of_lt_succ hn), if_pos hr, taken_eq]
    have hmlt : ¬ m / d.pixelsPerByte < m / d.pixelsPerByte := Nat.lt_irrefl _
    have hmlt' : ¬ (m - 1) / d.pixelsPerByte < m / d.pixelsPerByte := by
      rw [hdiv]
      exact hmlt
    constructor
    · intro h n hn
      have hzero : p.pixel m % 2 ^ d.bits = 0 := by
        rw [← h m (Nat.lt_succ_self m), htail m (Nat.lt_succ_self m) hmlt, if_neg hmod]
      have hzero' : p.pixel (m - 1) % 2 ^ d.bits = 0 := by
        rw [← h (m - 1) (by omega), htail (m - 1) (by omega) hmlt', if_neg hmod']
      have heq := h n hn
      split
      · next hbyte => rwa [hfull n hbyte] at heq
      · next hbyte =>
        rw [htail n hn hbyte, taken_eq_zero hzero hzero', ite_self] at heq
        exact heq.symm
    · intro h n hn
      have hzero := h m (Nat.lt_succ_self m)
      have hzero' := h (m - 1) (by omega)
      rw [if_neg hmlt, if_pos hr] at hzero
      rw [if_neg hmlt', if_pos hr] at hzero'
      have heq := h n hn
      by_cases hbyte : n / d.pixelsPerByte < m / d.pixelsPerByte
      · rw [if_pos hbyte] at heq
        rw [hfull n hbyte, heq]
      · rw [if_neg hbyte, if_pos hr] at heq
        rw [htail n hn hbyte, taken_eq_zero hzero hzero', ite_self, heq]
  · refine forall₂_congr fun n hn ↦ ?_
    by_cases hbyte : n / d.pixelsPerByte < m / d.pixelsPerByte
    · rw [if_pos hbyte, hfull n hbyte]
    · rw [if_neg hbyte, if_neg hr,
        decoded_of_last p d hm (hlast n hn hbyte) (Nat.le_of_lt_succ hn), if_neg hr, eq_comm,
        taken_eq]

/-- A bitmap of one pixel, with palette index 1. -/
def sampleFile : Bmp where
  biBitCount := .eight
  biWidth := 1
  biHeight := 1
  imgData _ := 1
  line_fits := by decide
  pixels_fit := by decide
  bytes_fit := by decide

/-- It is drawn with palette index 0. -/
theorem agrees_counterexample :
    ∃ (p : Bmp) (d : Depth), ∀ g posX posY, ¬ p.Agrees d g posX posY := by
  refine ⟨sampleFile, .one, fun g posX posY h ↦ ?_⟩
  have hdrawn := (agrees_iff_decoded _ _ _ _ _).mp h 0 (by decide)
  exact absurd hdrawn (by decide)

end

end Gfx
end SdLoader
