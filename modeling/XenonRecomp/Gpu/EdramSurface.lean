/-
# Surfaces in EDRAM

`EdramSurfaceLayout` and `covered_edram_tiles` (`src/graphics/xenos/edram_surface.cpp`).
EDRAM is 2048 tiles of 80 × 16 samples, and a surface lies in it from its base
tile on, row of tiles after row of tiles.  Tile numbers wrap around.  The
fields and intermediate values of a layout are `uint32_t`; where one of them
can wrap, the definition says so, and a tile number need not: 2048 divides
`2 ^ 32`.
-/

import Mathlib.Algebra.Order.Ring.Int
import Mathlib.Data.List.Sort
import Mathlib.Data.List.Dedup
import Mathlib.Data.List.FinRange

namespace XenonRecomp
namespace Gpu

/-- `Edram::kTileCount`. -/
abbrev tileCount : ℕ := 2048

/-- A tile of EDRAM. -/
abbrev Tile : Type := Fin tileCount

/-- The tile of a number, which wraps. -/
def tileOf (n : ℕ) : Tile :=
  ⟨n % tileCount, Nat.mod_lt n (by decide)⟩

inductive MsaaSamples where
  | x1
  | x2
  | x4
deriving DecidableEq, Repr

/-- `EdramSurfaceLayout`. -/
structure EdramSurfaceLayout where
  baseTile : ℕ
  pitchPixels : ℕ
  heightPixels : ℕ
  msaa : MsaaSamples
  is64bpp : Bool
  depth : Bool
deriving DecidableEq, Repr

/-- `EdramSurfaceRegion`: a rectangle of pixels. -/
structure EdramSurfaceRegion where
  left : ℤ
  top : ℤ
  right : ℤ
  bottom : ℤ
deriving DecidableEq, Repr

namespace EdramSurfaceLayout

variable (layout : EdramSurfaceLayout)

/-- The shift of a pixel column to its first sample column. -/
def xShift : ℕ :=
  if layout.msaa = .x4 then 1 else 0

/-- The shift of a pixel row to its first sample row. -/
def yShift : ℕ :=
  if layout.msaa = .x1 then 0 else 1

def sampleWidth : ℕ :=
  (layout.pitchPixels <<< layout.xShift) % 2 ^ 32

def sampleHeight : ℕ :=
  (layout.heightPixels <<< layout.yShift) % 2 ^ 32

/-- How many tiles hold a block of 80 × 16 samples. -/
def tileStride : ℕ :=
  if layout.is64bpp then 2 else 1

def pitchTiles : ℕ :=
  ((layout.sampleWidth + 79) % 2 ^ 32 / 80 * layout.tileStride) % 2 ^ 32

def tileRows : ℕ :=
  (layout.sampleHeight + 15) % 2 ^ 32 / 16

def tileCount : ℕ :=
  (layout.pitchTiles * layout.tileRows) % 2 ^ 32

def Valid : Prop :=
  layout.pitchPixels ≠ 0 ∧ layout.heightPixels ≠ 0 ∧ layout.pitchTiles ≠ 0 ∧ layout.tileCount ≠ 0

instance : Decidable layout.Valid :=
  inferInstanceAs (Decidable (_ ∧ _ ∧ _ ∧ _))

/-- The whole surface. -/
def whole : EdramSurfaceRegion :=
  ⟨0, 0, layout.pitchPixels, layout.heightPixels⟩

end EdramSurfaceLayout

/-- The region within the pixels of a layout. -/
def EdramSurfaceRegion.clamp (region : EdramSurfaceRegion) (layout : EdramSurfaceLayout) :
    EdramSurfaceRegion where
  left := min (max region.left 0) layout.pitchPixels
  top := min (max region.top 0) layout.heightPixels
  right := min (max region.right 0) layout.pitchPixels
  bottom := min (max region.bottom 0) layout.heightPixels

/-- The tiles of the block of samples in this row and column of blocks. -/
def EdramSurfaceLayout.blockTiles (layout : EdramSurfaceLayout) (tileY tileX : ℕ) : List Tile :=
  let tile := layout.baseTile + tileY * layout.pitchTiles + tileX * layout.tileStride
  if layout.is64bpp then [tileOf tile, tileOf (tile + 1)] else [tileOf tile]

/-- `covered_edram_tiles`: each tile that the region touches once, in order. -/
def coveredEdramTiles (layout : EdramSurfaceLayout) (region : EdramSurfaceRegion) : List Tile :=
  if layout.Valid then
    let region := region.clamp layout
    if region.left ≥ region.right ∨ region.top ≥ region.bottom then []
    else
      let firstX := region.left.toNat <<< layout.xShift / 80
      let lastX := (region.right.toNat <<< layout.xShift - 1) / 80
      let firstY := region.top.toNat <<< layout.yShift / 16
      let lastY := (region.bottom.toNat <<< layout.yShift - 1) / 16
      let blocks := (List.range' firstY (lastY + 1 - firstY)).flatMap fun tileY =>
        (List.range' firstX (lastX + 1 - firstX)).flatMap fun tileX =>
          layout.blockTiles tileY tileX
      blocks.dedup.insertionSort (· ≤ ·)
  else []

/-- The tiles of a whole surface. -/
def coveredTiles (surface : EdramSurfaceLayout) : List Tile :=
  coveredEdramTiles surface surface.whole

end Gpu
end XenonRecomp
