import SdLoader.Gfx.Defs
import SdLoader.Lib.Bytes

/-!
# One map for the rotated screen

A pixel of the screen is in the framebuffer row that is as far from the last one as the pixel is
from the left.  Characters and rectangles are drawn according to that map; images are drawn one row
further on, so that the leftmost column of an image at the left edge ends up behind the framebuffer.

* `Ctxt.place` — the map; `place_inside` says that it stays in the framebuffer.
* `putc_placed`, `clearRect_placed` — characters and rectangles.
* `renderBmpRot_eq` — what is written for an image.
* `Primitive.lawful_iff` — which of them go by the map.
-/

set_option autoImplicit false

namespace SdLoader
namespace Gfx

/-- The address of a pixel of the screen. -/
def Ctxt.place (g : Ctxt) (x y : UInt32) : UInt32 := g.fb + g.stride * (g.height - 1 - x) + y

/-- A pixel of the screen, and the byte it is given. -/
structure Drawn where
  x : UInt32
  y : UInt32
  value : UInt8

/-- Where the byte goes. -/
def Drawn.write (g : Ctxt) (d : Drawn) : Write := (g.place d.x d.y, d.value)

/-- The pixel is on the screen. -/
def Drawn.On (g : Ctxt) (d : Drawn) : Prop := d.x < g.height ∧ d.y < g.width

/-! ## What is drawn -/

/-- The `_rot` functions with their arguments. -/
inductive Primitive
  /-- `gfx_con_setpos_rot`, followed by `gfx_putc_rot` of a character that there is. -/
  | putc (con : Con) (x y : UInt32) (c : UInt8)
  | clearRect (color : UInt8) (posX posY width height : UInt32)
  | bmp1bit (buf : ℕ → UInt8) (sizeX sizeY posX posY : UInt32)
  | bmp2bit (buf : ℕ → UInt8) (sizeX sizeY posX posY : UInt32)

/-- The pixels of a character. -/
def drawnChar (font : ℕ → UInt8) (con : Con) (x y : UInt32) (c : UInt8) : List Drawn :=
  (List.range 8).flatMap fun i ↦ (List.range 8).flatMap fun j ↦
    (con.ink ((font (8 * (c.toNat - 32) + i)).toNat / 2 ^ j)).toList.map
      fun v ↦ ⟨x + UInt32.ofNat j, y + UInt32.ofNat i, v⟩

/-- The pixels of a rectangle, from the right. -/
def drawnRect (color : UInt8) (posX posY width height : UInt32) : List Drawn :=
  (List.range width.toNat).flatMap fun k ↦ (List.range height.toNat).map fun i ↦
    ⟨posX + width - 1 - UInt32.ofNat k, posY + UInt32.ofNat i, color⟩

/-- The pixels of an image. -/
def drawnBmp (pixel : UInt32 → UInt8) (sizeX sizeY posX posY : UInt32) : List Drawn :=
  (List.range sizeY.toNat).flatMap fun i ↦ (List.range sizeX.toNat).map fun j ↦
    ⟨posX + UInt32.ofNat j, posY + UInt32.ofNat i,
      pixel (UInt32.ofNat i * sizeX + UInt32.ofNat j)⟩

namespace Primitive

/-- What it writes. -/
def writes (font : ℕ → UInt8) (g : Ctxt) : Primitive → List Write
  | putc con x y c => (gfxPutcRot font g (gfxConSetposRot g con x y) c).1
  | clearRect color posX posY width height => gfxClearRectRot g color posX posY width height
  | bmp1bit buf sizeX sizeY posX posY => gfxRenderBmp1bitRot buf g sizeX sizeY posX posY
  | bmp2bit buf sizeX sizeY posX posY => gfxRenderBmp2bitRot buf g sizeX sizeY posX posY

/-- What it draws. -/
def drawn (font : ℕ → UInt8) : Primitive → List Drawn
  | putc con x y c => drawnChar font con x y c
  | clearRect color posX posY width height => drawnRect color posX posY width height
  | bmp1bit buf sizeX sizeY posX posY => drawnBmp (pixel1bit buf) sizeX sizeY posX posY
  | bmp2bit buf sizeX sizeY posX posY => drawnBmp (pixel2bit buf) sizeX sizeY posX posY

/-- The position and the size of what it draws. -/
def rect : Primitive → (ℕ × ℕ) × ℕ × ℕ
  | putc _ x y _ => ((x.toNat, y.toNat), 8, 8)
  | clearRect _ posX posY width height => ((posX.toNat, posY.toNat), width.toNat, height.toNat)
  | bmp1bit _ sizeX sizeY posX posY => ((posX.toNat, posY.toNat), sizeX.toNat, sizeY.toNat)
  | bmp2bit _ sizeX sizeY posX posY => ((posX.toNat, posY.toNat), sizeX.toNat, sizeY.toNat)

/-- It lies inside the screen, which is as wide as the framebuffer is high; a character is one of
the font. -/
def Inside (g : Ctxt) (p : Primitive) : Prop :=
  p.rect.1.1 + p.rect.2.1 ≤ g.height.toNat ∧ p.rect.1.2 + p.rect.2.2 ≤ g.width.toNat ∧
    ∀ con x y c, p = putc con x y c → 32 ≤ c ∧ c ≤ 126

/-- It is an image with at least one pixel. -/
def HasImage : Primitive → Prop
  | putc .. | clearRect .. => False
  | bmp1bit _ sizeX sizeY _ _ => sizeX ≠ 0 ∧ sizeY ≠ 0
  | bmp2bit _ sizeX sizeY _ _ => sizeX ≠ 0 ∧ sizeY ≠ 0

/-- It writes every pixel where it belongs, and only into the framebuffer. -/
structure Lawful (font : ℕ → UInt8) (g : Ctxt) (p : Primitive) : Prop where
  placed : p.writes font g = (p.drawn font).map (Drawn.write g)
  inside : ∀ w ∈ p.writes font g, g.fb.toNat ≤ w.1.toNat ∧
    w.1.toNat < g.fb.toNat + g.stride.toNat * g.height.toNat

end Primitive

/-! ## The map -/

section
variable {g : Ctxt}

/-- **The map stays in the framebuffer.** -/
theorem place_inside {x y : UInt32} (hx : x < g.height) (hy : y < g.width) :
    (g.place x y).toNat = g.fb.toNat + g.stride.toNat * (g.height.toNat - 1 - x.toNat) + y.toNat ∧
    (g.place x y).toNat < g.fb.toNat + g.stride.toNat * g.height.toNat := by
  rw [UInt32.lt_iff_toNat_lt] at hx hy
  have hwidth := g.width_le
  have hfits := g.fits
  have hone : (g.height - 1).toNat = g.height.toNat - 1 := Bytes.toNat_sub (by
    rw [UInt32.toNat_one]
    omega)
  have hrow : (g.height - 1 - x).toNat = g.height.toNat - 1 - x.toNat := by
    rw [Bytes.toNat_sub (by omega), hone]
  have hmul : g.stride.toNat * (g.height.toNat - 1 - x.toNat) + g.stride.toNat ≤
      g.stride.toNat * g.height.toNat := by
    rw [← Nat.mul_succ]
    exact Nat.mul_le_mul_left _ (by omega)
  have hrows : (g.stride * (g.height - 1 - x)).toNat =
      g.stride.toNat * (g.height.toNat - 1 - x.toNat) := by
    rw [Bytes.toNat_mul (by rw [hrow]; omega), hrow]
  have hfb : (g.fb + g.stride * (g.height - 1 - x)).toNat =
      g.fb.toNat + g.stride.toNat * (g.height.toNat - 1 - x.toNat) := by
    rw [Bytes.toNat_add (by omega), hrows]
  have hto : (g.place x y).toNat =
      g.fb.toNat + g.stride.toNat * (g.height.toNat - 1 - x.toNat) + y.toNat := by
    rw [Ctxt.place, Bytes.toNat_add (by omega), hfb]
  exact ⟨hto, by omega⟩

/-! ## Characters -/

theorem putLine_eq (con : Con) (n : ℕ) (fb : UInt32) (v : ℕ) :
    putLine g con n fb v = (List.range n).flatMap fun j ↦
      (con.ink (v / 2 ^ j)).toList.map (fb - g.stride * UInt32.ofNat j, ·) := by
  induction n generalizing fb v with
  | zero => rfl
  | succ n ih =>
    rw [putLine, ih, List.range_succ_eq_map, List.flatMap_cons, List.flatMap_map]
    have hfirst : fb - g.stride * UInt32.ofNat 0 = fb := by
      rw [show UInt32.ofNat 0 = 0 from rfl]
      grind
    rw [hfirst, Nat.pow_zero, Nat.div_one]
    refine congrArg (_ ++ ·) (List.flatMap_congr fun j _ ↦ ?_)
    have haddr : fb - g.stride - g.stride * UInt32.ofNat j =
        fb - g.stride * UInt32.ofNat (j + 1) := by
      rw [UInt32.ofNat_add, show UInt32.ofNat 1 = 1 from rfl]
      grind
    rw [haddr, Nat.div_div_eq_div_mul, ← Nat.pow_succ']

/-- **Characters** are drawn by the map. -/
theorem putc_placed (font : ℕ → UInt8) (con : Con) (x y : UInt32) {c : UInt8}
    (hc : 32 ≤ c ∧ c ≤ 126) : (gfxPutcRot font g (gfxConSetposRot g con x y) c).1 =
      (drawnChar font con x y c).map (Drawn.write g) := by
  rw [gfxPutcRot, if_pos hc, drawnChar, List.map_flatMap]
  refine List.flatMap_congr fun i _ ↦ ?_
  rw [putLine_eq, List.map_flatMap]
  refine List.flatMap_congr fun j _ ↦ ?_
  rw [List.map_map]
  refine List.map_congr_left fun v _ ↦ ?_
  have haddr : g.fb + g.stride * (g.height - x - 1) + y + UInt32.ofNat i -
      g.stride * UInt32.ofNat j = g.place (x + UInt32.ofNat j) (y + UInt32.ofNat i) := by
    rw [Ctxt.place]
    grind
  exact congrArg (·, v) haddr

/-! ## Rectangles -/

/-- **Rectangles** inside the screen are filled by the map. -/
theorem clearRect_placed (color : UInt8) {posX posY width height : UInt32}
    (hx : posX.toNat + width.toNat ≤ g.height.toNat) :
    gfxClearRectRot g color posX posY width height =
      (drawnRect color posX posY width height).map (Drawn.write g) := by
  have hbefore : (g.height - posX).toNat = g.height.toNat - posX.toNat :=
    Bytes.toNat_sub (by omega)
  have hfirst : (g.height - posX - width).toNat = g.height.toNat - posX.toNat - width.toNat := by
    rw [Bytes.toNat_sub (by omega), hbefore]
  have hlast : g.height - posX - width + width = g.height - posX := by grind
  have hcount : (g.height - posX).toNat - (g.height - posX - width).toNat = width.toNat := by
    omega
  rw [gfxClearRectRot, gfxClearRect, hlast, hcount, drawnRect, List.map_flatMap,
    List.range'_eq_map_range, List.flatMap_map]
  refine List.flatMap_congr fun k _ ↦ ?_
  rw [memset, List.map_map]
  refine List.map_congr_left fun i _ ↦ ?_
  have haddr : g.fb + UInt32.ofNat ((g.height - posX - width).toNat + k) * g.stride + posY +
      UInt32.ofNat i = g.place (posX + width - 1 - UInt32.ofNat k) (posY + UInt32.ofNat i) := by
    rw [UInt32.ofNat_add, UInt32.ofNat_toNat, Ctxt.place]
    grind
  exact congrArg (·, color) haddr

/-! ## Images -/

theorem renderRow_eq (pixel : UInt32 → UInt8) (x : UInt32) (n : ℕ) (y count : UInt32) :
    renderRow pixel g x n y count = (List.range n).map fun j ↦
      (g.fb + g.stride * (y - UInt32.ofNat j) + x, pixel (count + UInt32.ofNat j)) := by
  induction n generalizing y count with
  | zero => rfl
  | succ n ih =>
    rw [renderRow, ih, List.range_succ_eq_map, List.map_cons, List.map_map]
    have hzero : UInt32.ofNat 0 = 0 := rfl
    rw [hzero, UInt32.sub_zero, UInt32.add_zero]
    refine congrArg (_ :: ·) (List.map_congr_left fun j _ ↦ ?_)
    have hy : y - 1 - UInt32.ofNat j = y - UInt32.ofNat (j + 1) := by
      rw [UInt32.ofNat_add, show UInt32.ofNat 1 = 1 from rfl]
      grind
    have hcount : count + 1 + UInt32.ofNat j = count + UInt32.ofNat (j + 1) := by
      rw [UInt32.ofNat_add, show UInt32.ofNat 1 = 1 from rfl]
      grind
    rw [hy, hcount]
    rfl

theorem renderRows_eq (pixel : UInt32 → UInt8) (sizeX posX : UInt32) (m : ℕ) (x count : UInt32) :
    renderRows pixel g sizeX posX m x count = (List.range m).flatMap fun i ↦
      renderRow pixel g (x + UInt32.ofNat i) sizeX.toNat (g.height - posX)
        (count + UInt32.ofNat i * sizeX) := by
  induction m generalizing x count with
  | zero => rfl
  | succ m ih =>
    rw [renderRows, ih, List.range_succ_eq_map, List.flatMap_cons, List.flatMap_map]
    have hzero : UInt32.ofNat 0 = 0 := rfl
    rw [hzero, UInt32.zero_mul, UInt32.add_zero, UInt32.add_zero]
    refine congrArg (_ ++ ·) (List.flatMap_congr fun i _ ↦ ?_)
    have hx : x + 1 + UInt32.ofNat i = x + UInt32.ofNat (i + 1) := by
      rw [UInt32.ofNat_add, show UInt32.ofNat 1 = 1 from rfl]
      grind
    have hcount : count + sizeX + UInt32.ofNat i * sizeX =
        count + UInt32.ofNat (i + 1) * sizeX := by
      rw [UInt32.ofNat_add, show UInt32.ofNat 1 = 1 from rfl]
      grind
    rw [hx, hcount]

/-- **What is written for an image**: every pixel, one row behind its place. -/
theorem renderBmpRot_eq (pixel : UInt32 → UInt8) (sizeX sizeY posX posY : UInt32) :
    renderBmpRot pixel g sizeX sizeY posX posY =
      (drawnBmp pixel sizeX sizeY posX posY).map fun d ↦ (g.place d.x d.y + g.stride, d.value) := by
  rw [renderBmpRot, renderRows_eq, drawnBmp, List.map_flatMap]
  refine List.flatMap_congr fun i _ ↦ ?_
  rw [renderRow_eq, List.map_map]
  refine List.map_congr_left fun j _ ↦ ?_
  have haddr : g.fb + g.stride * (g.height - posX - UInt32.ofNat j) + (posY + UInt32.ofNat i) =
      g.place (posX + UInt32.ofNat j) (posY + UInt32.ofNat i) + g.stride := by
    rw [Ctxt.place]
    grind
  have hcount : 0 + UInt32.ofNat i * sizeX + UInt32.ofNat j =
      UInt32.ofNat i * sizeX + UInt32.ofNat j := by grind
  rw [haddr, hcount]
  rfl

/-! ## On the screen -/

/-- The pixel of a rectangle that is `k` to the right of its corner, and `i` below it. -/
theorem offset_lt {pos n bound : UInt32} {k : ℕ} (h : pos.toNat + n.toNat ≤ bound.toNat)
    (hk : k < n.toNat) : pos + UInt32.ofNat k < bound := by
  have hto : (UInt32.ofNat k).toNat = k := Bytes.toNat_ofNat (Nat.le_of_lt hk)
  have hbound := bound.toNat_lt
  rw [UInt32.lt_iff_toNat_lt, Bytes.toNat_add (by omega), hto]
  omega

theorem drawnChar_on {font : ℕ → UInt8} {con : Con} {x y : UInt32} {c : UInt8}
    (hx : x.toNat + 8 ≤ g.height.toNat) (hy : y.toNat + 8 ≤ g.width.toNat) :
    ∀ d ∈ drawnChar font con x y c, d.On g := by
  intro d hd
  simp only [drawnChar, List.mem_flatMap, List.mem_range, List.mem_map] at hd
  obtain ⟨i, hi, j, hj, v, -, rfl⟩ := hd
  exact ⟨offset_lt (n := 8) hx hj, offset_lt (n := 8) hy hi⟩

theorem drawnRect_on {color : UInt8} {posX posY width height : UInt32}
    (hx : posX.toNat + width.toNat ≤ g.height.toNat)
    (hy : posY.toNat + height.toNat ≤ g.width.toNat) :
    ∀ d ∈ drawnRect color posX posY width height, d.On g := by
  intro d hd
  simp only [drawnRect, List.mem_flatMap, List.mem_range, List.mem_map] at hd
  obtain ⟨k, hk, i, hi, rfl⟩ := hd
  refine ⟨?_, offset_lt hy hi⟩
  have hto : (UInt32.ofNat k).toNat = k := Bytes.toNat_ofNat (Nat.le_of_lt hk)
  have hheight := g.height.toNat_lt
  have hsum : (posX + width).toNat = posX.toNat + width.toNat := Bytes.toNat_add (by omega)
  have hone : (posX + width - 1).toNat = posX.toNat + width.toNat - 1 := by
    rw [Bytes.toNat_sub (by rw [hsum, UInt32.toNat_one]; omega), hsum, UInt32.toNat_one]
  rw [UInt32.lt_iff_toNat_lt, Bytes.toNat_sub (by omega), hone, hto]
  omega

theorem drawnBmp_on {pixel : UInt32 → UInt8} {sizeX sizeY posX posY : UInt32}
    (hx : posX.toNat + sizeX.toNat ≤ g.height.toNat)
    (hy : posY.toNat + sizeY.toNat ≤ g.width.toNat) :
    ∀ d ∈ drawnBmp pixel sizeX sizeY posX posY, d.On g := by
  intro d hd
  simp only [drawnBmp, List.mem_flatMap, List.mem_range, List.mem_map] at hd
  obtain ⟨i, hi, j, hj, rfl⟩ := hd
  exact ⟨offset_lt hx hj, offset_lt hy hi⟩

namespace Primitive

variable {font : ℕ → UInt8} {p : Primitive}

theorem drawn_on (h : p.Inside g) : ∀ d ∈ p.drawn font, d.On g := by
  obtain ⟨hx, hy, -⟩ := h
  cases p with
  | putc con x y c => exact drawnChar_on hx hy
  | clearRect color posX posY width height => exact drawnRect_on hx hy
  | bmp1bit buf sizeX sizeY posX posY => exact drawnBmp_on hx hy
  | bmp2bit buf sizeX sizeY posX posY => exact drawnBmp_on hx hy

/-- What goes by the map stays in the framebuffer. -/
theorem lawful_of_placed (h : p.Inside g)
    (hplaced : p.writes font g = (p.drawn font).map (Drawn.write g)) : p.Lawful font g := by
  refine ⟨hplaced, fun w hw ↦ ?_⟩
  rw [hplaced, List.mem_map] at hw
  obtain ⟨d, hd, rfl⟩ := hw
  obtain ⟨hx, hy⟩ := drawn_on h d hd
  obtain ⟨heq, hlt⟩ := place_inside hx hy
  rw [Drawn.write, heq] at *
  exact ⟨by omega, by omega⟩

/-- An image goes by the map only if it has no pixel. -/
theorem placed_bmp_iff {pixel : UInt32 → UInt8} {sizeX sizeY posX posY : UInt32}
    (hy : posY.toNat + sizeY.toNat ≤ g.width.toNat) :
    renderBmpRot pixel g sizeX sizeY posX posY =
      (drawnBmp pixel sizeX sizeY posX posY).map (Drawn.write g) ↔
        ¬ (sizeX ≠ 0 ∧ sizeY ≠ 0) := by
  rw [renderBmpRot_eq, List.map_inj_left]
  constructor
  · rintro h ⟨hsizeX, hsizeY⟩
    have hposX : 0 < sizeX.toNat :=
      Nat.pos_of_ne_zero fun hzero ↦ hsizeX (UInt32.toNat_inj.mp hzero)
    have hposY : 0 < sizeY.toNat :=
      Nat.pos_of_ne_zero fun hzero ↦ hsizeY (UInt32.toNat_inj.mp hzero)
    have hmem : Drawn.mk (posX + UInt32.ofNat 0) (posY + UInt32.ofNat 0)
        (pixel (UInt32.ofNat 0 * sizeX + UInt32.ofNat 0)) ∈
          drawnBmp pixel sizeX sizeY posX posY := by
      simp only [drawnBmp, List.mem_flatMap, List.mem_range, List.mem_map]
      exact ⟨0, hposY, 0, hposX, rfl⟩
    -- the two addresses are a row apart, and rows are not empty
    have haddr := congrArg Prod.fst (h _ hmem)
    have hstride : g.stride = 0 := by
      simp only [Drawn.write] at haddr
      grind
    have hwidth := g.width_le
    rw [hstride, UInt32.toNat_zero] at hwidth
    omega
  · intro hempty d hd
    simp only [drawnBmp, List.mem_flatMap, List.mem_range, List.mem_map] at hd
    obtain ⟨i, hi, j, hj, -⟩ := hd
    refine absurd ⟨?_, ?_⟩ hempty
    · rintro rfl
      exact absurd hj (Nat.not_lt_zero j)
    · rintro rfl
      exact absurd hi (Nat.not_lt_zero i)

/-- **Everything but an image goes by the map.**  A primitive that lies inside the screen writes
each pixel where it belongs, if and only if it is not an image with a pixel. -/
theorem lawful_iff (font : ℕ → UInt8) (h : p.Inside g) : p.Lawful font g ↔ ¬ p.HasImage := by
  cases p with
  | putc con x y c =>
    exact iff_of_true (lawful_of_placed h (putc_placed font con x y (h.2.2 con x y c rfl))) id
  | clearRect color posX posY width height =>
    exact iff_of_true (lawful_of_placed h (clearRect_placed color h.1)) id
  | bmp1bit buf sizeX sizeY posX posY =>
    rw [HasImage, ← placed_bmp_iff h.2.1]
    exact ⟨Lawful.placed, lawful_of_placed h⟩
  | bmp2bit buf sizeX sizeY posX posY =>
    rw [HasImage, ← placed_bmp_iff h.2.1]
    exact ⟨Lawful.placed, lawful_of_placed h⟩

/-- A framebuffer of the size the loader sets up. -/
def sampleCtxt : Ctxt where
  fb := 0xc0000000
  width := 180
  height := 320
  stride := 192
  width_le := by decide
  fits := by decide

/-- An image of one pixel in the corner. -/
def sampleBmp : Primitive := bmp1bit (fun _ ↦ 0x80) 1 1 0 0

theorem inside_sampleBmp : sampleBmp.Inside sampleCtxt :=
  ⟨by decide, by decide, fun con x y c h ↦ by cases h⟩

theorem lawful_iff_sample :
    sampleBmp.Lawful (fun _ ↦ 0) sampleCtxt ↔ ¬ sampleBmp.HasImage :=
  lawful_iff (fun _ ↦ 0) inside_sampleBmp

/-- Its pixel is written behind the framebuffer. -/
theorem lawful_counterexample :
    ∃ g p, Inside g p ∧ ∀ font, ¬ p.Lawful font g := by
  refine ⟨sampleCtxt, sampleBmp, inside_sampleBmp, fun font h ↦ ?_⟩
  have hmem : (0xc0000000 + 192 * 320, 1) ∈ sampleBmp.writes font sampleCtxt :=
    List.mem_singleton.mpr (by decide)
  exact absurd (h.inside _ hmem).2 (by decide)

end Primitive

end

end Gfx
end SdLoader
