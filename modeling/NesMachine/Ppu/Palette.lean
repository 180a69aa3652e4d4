import NesMachine.Digest.Sha1

/-!
# Colours and frames

The picture unit knows 64 colours. A frame is 240 rows of 256 dots; a dot that was never drawn is
transparent black, a drawn dot is always opaque.
-/

namespace NesMachine

open Digest (Bytes)

/-- A colour with its opacity. -/
structure Rgba where
  red : UInt8
  green : UInt8
  blue : UInt8
  alpha : UInt8
  deriving DecidableEq, Repr, Inhabited

/-- The colour of a dot that was never drawn. -/
def Rgba.undrawn : Rgba := ⟨0, 0, 0, 0⟩

private def c (red green blue : UInt8) : Rgba := ⟨red, green, blue, 0xFF⟩

/-- The 64 colours. -/
def masterPalette : Array Rgba := #[
    c 84 84 84, c 0 30 116, c 8 16 144, c 48 0 136, c 68 0 100, c 92 0 48, c 84 4 0, c 60 24 0,
    c 32 42 0, c 8 58 0, c 0 64 0, c 0 60 0, c 0 50 60, c 0 0 0, c 0 0 0, c 0 0 0, c 152 150 152,
    c 8 76 196, c 48 50 236, c 92 30 228, c 136 20 176, c 160 20 100, c 152 34 32, c 120 60 0,
    c 84 90 0, c 40 114 0, c 8 124 0, c 0 118 40, c 0 102 120, c 0 0 0, c 0 0 0, c 0 0 0,
    c 236 238 236, c 76 154 236, c 120 124 236, c 176 98 236, c 228 84 236, c 236 88 180,
    c 236 106 100, c 212 136 32, c 160 170 0, c 116 196 0, c 76 208 32, c 56 204 108,
    c 56 180 204, c 60 60 60, c 0 0 0, c 0 0 0, c 236 238 236, c 168 204 236, c 188 188 236,
    c 212 178 236, c 236 174 236, c 236 174 212, c 236 180 176, c 228 196 144, c 204 210 120,
    c 180 222 120, c 168 226 144, c 152 226 180, c 160 214 228, c 160 162 160, c 0 0 0, c 0 0 0]

/-- The colour behind a colour number; its two high bits have no meaning. -/
def colourOf (number : UInt8) : Rgba :=
  masterPalette.getD (number &&& 0x3F).toNat .undrawn

/-- Dots in a row of the picture. -/
def frameWidth : Nat := 256

/-- Rows of the picture. -/
def frameHeight : Nat := 240

/-- The dots of a picture, row by row. -/
abbrev Frame := Vector Rgba (frameWidth * frameHeight)

namespace Frame

/-- A picture on which nothing was drawn. -/
def blank : Frame := Vector.replicate (frameWidth * frameHeight) .undrawn

/-- Draws one dot. -/
def draw (frame : Frame) (x y : Nat) (colour : Rgba) : Frame :=
  frame.setIfInBounds (y * frameWidth + x) colour

/-- The dots of one row. -/
def row (frame : Frame) (y : Nat) : List Rgba :=
  (frame.toArray.extract (y * frameWidth) ((y + 1) * frameWidth)).toList

/-- The picture as bytes, four to a dot. -/
def bytes (frame : Frame) : Bytes :=
  frame.foldl (fun out dot => (((out.push dot.red).push dot.green).push dot.blue).push dot.alpha)
    (Array.emptyWithCapacity (4 * (frameWidth * frameHeight)))

end Frame

end NesMachine
