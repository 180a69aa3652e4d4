/-!
# Scroll counters

The picture unit addresses its memory through a 15-bit counter `v` laid out as `yyy NN YYYYY XXXXX`:
fine row, nametable, coarse row, coarse column. A second counter `t` of the same layout collects
what the processor writes; rendering copies it into `v` piece by piece.
-/

namespace NesMachine

/-- The scroll counters and the state of the registers that set them. -/
structure Scroll where
  /-- The counter in use. -/
  v : UInt16 := 0
  /-- The counter being set up. -/
  t : UInt16 := 0
  /-- The column within a tile at which a row starts. -/
  fineX : UInt8 := 0
  /-- Whether the next write is the second of a pair. -/
  secondWrite : Bool := false
  deriving DecidableEq, Repr, Inhabited

namespace Scroll

/-! ## Walking the nametables -/

/-- One tile to the right; the column after the last lies in the horizontal neighbour. -/
def nextColumn (v : UInt16) : UInt16 :=
  if v &&& 0x001F = 31 then v ^^^ 0x041F else v + 1

/-- One row down. The row after the last of a nametable lies in the vertical neighbour; rows that
reach into the attribute bytes wrap around without changing the nametable. -/
def nextRow (v : UInt16) : UInt16 :=
  if v &&& 0x7000 ≠ 0x7000 then v + 0x1000
  else
    let coarse := (v &&& 0x03E0) >>> 5
    let rest := v &&& 0x8C1F
    if coarse = 29 then rest ^^^ 0x0800
    else if coarse = 31 then rest
    else rest ||| ((coarse + 1) <<< 5)

/-- Column and horizontal nametable of `t` into `v`. -/
def copyHorizontal (s : Scroll) : Scroll :=
  { s with v := (s.v &&& 0xFBE0) ||| (s.t &&& 0x041F) }

/-- Rows and vertical nametable of `t` into `v`. -/
def copyVertical (s : Scroll) : Scroll :=
  { s with v := (s.v &&& 0x841F) ||| (s.t &&& 0x7BE0) }

/-- The counter after an access through the data register. -/
def afterAccess (s : Scroll) (step : UInt16) : Scroll :=
  { s with v := (s.v + step) &&& 0x7FFF }

/-! ## Addresses -/

/-- Where the tile number under the counter is stored. -/
def tileAddress (v : UInt16) : UInt16 :=
  0x2000 ||| (v &&& 0x0FFF)

/-- Where the attribute byte of the tile under the counter is stored. -/
def attributeAddress (v : UInt16) : UInt16 :=
  let row : UInt16 := (v >>> 4) &&& 0x38
  let column : UInt16 := (v >>> 2) &&& 0x07
  0x23C0 ||| (v &&& 0x0C00) ||| row ||| column

/-- The palette of the tile under the counter, in the two low bits: each quarter of an attribute
byte serves one quadrant of four tiles. -/
def attributeQuadrant (v : UInt16) (byte : UInt8) : UInt8 :=
  let half := if v &&& 0x0040 = 0 then byte else byte >>> 4
  if v &&& 0x0002 = 0 then half else half >>> 2

/-- The row within a tile under the counter. -/
def fineRow (v : UInt16) : UInt16 :=
  (v >>> 12) &&& 0x07

/-! ## Registers -/

/-- The nametable bits of a write to the control register. -/
def writeControl (s : Scroll) (value : UInt8) : Scroll :=
  let nametable : UInt16 := (value &&& 3).toUInt16 <<< 10
  { s with t := (s.t &&& 0xF3FF) ||| nametable }

/-- A write to the scroll register: first the column, then the row. -/
def writeScroll (s : Scroll) (value : UInt8) : Scroll :=
  let fine : UInt16 := (value &&& 7).toUInt16
  let coarse : UInt16 := (value >>> 3).toUInt16
  if s.secondWrite then
    let rows : UInt16 := (fine <<< 12) ||| (coarse <<< 5)
    { s with t := (s.t &&& 0x8C1F) ||| rows, secondWrite := false }
  else
    { s with
      t := (s.t &&& 0xFFE0) ||| coarse
      fineX := value &&& 7
      secondWrite := true }

/-- A write to the address register: first the high byte, then the low one, which takes effect. -/
def writeAddress (s : Scroll) (value : UInt8) : Scroll :=
  if s.secondWrite then
    let t := (s.t &&& 0x7F00) ||| value.toUInt16
    { s with t, v := t, secondWrite := false }
  else
    let high : UInt16 := (value &&& 0x3F).toUInt16 <<< 8
    { s with t := (s.t &&& 0x00FF) ||| high, secondWrite := true }

end Scroll

end NesMachine
