import Mathlib.Algebra.Order.Ring.Nat
import Mathlib.Data.Nat.Notation
import Mathlib.Data.List.Basic
import Mathlib.Tactic.Common

/-!
# Drawing on the rotated screen

`sdloader/gfx/gfx.c`.  The panel stands on its side: what is the row of a pixel in the framebuffer
is its horizontal position on the screen, counted from the right.  The functions that end in `_rot`
take positions on the screen.

Each of them is a list of writes to memory, an address with a byte, in the order in which they are
made.  Addresses and loop variables are the 32-bit numbers they are in the code, and wrap round as
they do there.

The font is a parameter, since nothing depends on what the characters look like.
-/

set_option autoImplicit false

namespace SdLoader
namespace Gfx

/-- A byte that is stored, and where. -/
abbrev Write := UInt32 × UInt8

/-- `gfx_ctxt_t`, of a framebuffer whose rows are long enough and which is memory. -/
structure Ctxt where
  /-- The address of the first byte. -/
  fb : UInt32
  width : UInt32
  height : UInt32
  stride : UInt32
  width_le : width.toNat ≤ stride.toNat
  fits : fb.toNat + stride.toNat * height.toNat ≤ 2 ^ 32

/-- `gfx_con_t`, as far as it concerns single characters. -/
structure Con where
  x : UInt32
  y : UInt32
  savedx : UInt32
  savedy : UInt32
  fgcol : UInt8
  fillbg : Bool
  bgcol : UInt8

/-! ## Characters -/

/-- `gfx_con_setpos_rot` -/
def gfxConSetposRot (g : Ctxt) (con : Con) (x y : UInt32) : Con :=
  { con with x := y, y := g.height - x - 1 }

/-- The byte that the lowest bit of `v` stands for; a bit that is not set may stand for none. -/
def Con.ink (con : Con) (v : ℕ) : Option UInt8 :=
  if v % 2 = 1 then some con.fgcol else if con.fillbg then some con.bgcol else none

/-- The inner loop of `gfx_putc_rot`, `n` times round: one line of the character. -/
def putLine (g : Ctxt) (con : Con) : ℕ → UInt32 → ℕ → List Write
  | 0, _, _ => []
  | n + 1, fb, v => (con.ink v).toList.map (fb, ·) ++ putLine g con n (fb - g.stride) (v / 2)

/-- `gfx_putc_rot` -/
def gfxPutcRot (font : ℕ → UInt8) (g : Ctxt) (con : Con) (c : UInt8) : List Write × Con :=
  if 32 ≤ c ∧ c ≤ 126 then
    ((List.range 8).flatMap fun i ↦
        putLine g con 8 (g.fb + g.stride * con.y + con.x + UInt32.ofNat i)
          (font (8 * (c.toNat - 32) + i)).toNat,
      { con with y := con.y - 8 })
  else if c = 10 then
    ([], { con with
      y := con.savedy
      x := if con.x + 8 ≥ g.width then con.savedx else con.x + 8 })
  else ([], con)

/-! ## Rectangles -/

/-- `memset` -/
def memset (p : UInt32) (c : UInt8) (n : UInt32) : List Write :=
  (List.range n.toNat).map fun k ↦ (p + UInt32.ofNat k, c)

/-- `gfx_clear_rect` -/
def gfxClearRect (g : Ctxt) (color : UInt8) (posX posY width height : UInt32) : List Write :=
  (List.range' posY.toNat ((posY + height).toNat - posY.toNat)).flatMap fun i ↦
    memset (g.fb + UInt32.ofNat i * g.stride + posX) color width

/-- `gfx_clear_rect_rot` -/
def gfxClearRectRot (g : Ctxt) (color : UInt8) (posX posY width height : UInt32) : List Write :=
  gfxClearRect g color posY (g.height - posX - width) height width

/-! ## Images -/

/-- The inner loop of `gfx_render_bmp_1bit_rot` and `gfx_render_bmp_2bit_rot`, `n` times round. -/
def renderRow (pixel : UInt32 → UInt8) (g : Ctxt) (x : UInt32) : ℕ → UInt32 → UInt32 → List Write
  | 0, _, _ => []
  | n + 1, y, count => (g.fb + g.stride * y + x, pixel count) ::
      renderRow pixel g x n (y - 1) (count + 1)

/-- The outer loop, `m` times round. -/
def renderRows (pixel : UInt32 → UInt8) (g : Ctxt) (sizeX posX : UInt32) :
    ℕ → UInt32 → UInt32 → List Write
  | 0, _, _ => []
  | m + 1, x, count => renderRow pixel g x sizeX.toNat (g.height - posX) count ++
      renderRows pixel g sizeX posX m (x + 1) (count + sizeX)

/-- What `gfx_render_bmp_1bit_rot` and `gfx_render_bmp_2bit_rot` have in common: `pixel` is the
number they take out of the image for a pixel. -/
def renderBmpRot (pixel : UInt32 → UInt8) (g : Ctxt) (sizeX sizeY posX posY : UInt32) :
    List Write :=
  renderRows pixel g sizeX posX sizeY.toNat posY 0

/-- `(buf[count / 8] >> (7 - (count % 8))) & 0x1` -/
def pixel1bit (buf : ℕ → UInt8) (count : UInt32) : UInt8 :=
  (buf (count / 8).toNat >>> (7 - count % 8).toUInt8) &&& 0x1

/-- `(buf[count / 4] >> (6 - ((count % 4) * 2))) & 0x3` -/
def pixel2bit (buf : ℕ → UInt8) (count : UInt32) : UInt8 :=
  (buf (count / 4).toNat >>> (6 - (count % 4) * 2).toUInt8) &&& 0x3

/-- `gfx_render_bmp_1bit_rot` -/
def gfxRenderBmp1bitRot (buf : ℕ → UInt8) : Ctxt → UInt32 → UInt32 → UInt32 → UInt32 → List Write :=
  renderBmpRot (pixel1bit buf)

/-- `gfx_render_bmp_2bit_rot` -/
def gfxRenderBmp2bitRot (buf : ℕ → UInt8) : Ctxt → UInt32 → UInt32 → UInt32 → UInt32 → List Write :=
  renderBmpRot (pixel2bit buf)

end Gfx
end SdLoader
