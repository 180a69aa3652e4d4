import NesMachine.Board.Slot

/-!
# Sprites

Object memory holds 64 entries of four bytes. While a line is drawn the picture unit looks for the
first eight entries that cover the next line and puts them into slots; their pattern rows are
fetched before that line starts.
-/

namespace NesMachine

open Board (Fault)

/-- One of the eight slots. -/
structure SpriteSlot where
  /-- The object entry in the slot, if one was found for it. -/
  entry : Option (Fin 64)
  y : UInt8
  tile : UInt8
  attr : UInt8
  x : UInt8
  patternLow : UInt8 := 0
  patternHigh : UInt8 := 0
  deriving DecidableEq, Repr

/-- The eight slots of a line. -/
abbrev SpriteLine := Vector SpriteSlot 8

namespace SpriteSlot

/-- A slot for which no sprite was found. -/
def empty : SpriteSlot := { entry := none, y := 0xFF, tile := 0xFF, attr := 0xFF, x := 0xFF }

/-- The palette bits. -/
def palette (s : SpriteSlot) : UInt8 := s.attr &&& 0x03

/-- Whether an opaque background hides the sprite. -/
def behindBackground (s : SpriteSlot) : Bool := s.attr &&& 0x20 ≠ 0

/-- Whether the columns are drawn right to left. -/
def flipsColumns (s : SpriteSlot) : Bool := s.attr &&& 0x40 ≠ 0

/-- Whether the rows are drawn bottom up. -/
def flipsRows (s : SpriteSlot) : Bool := s.attr &&& 0x80 ≠ 0

/-- The sprite's row that the line after `scanline` shows, for sprites of the given height. -/
def row (s : SpriteSlot) (scanline : Int) (height : Nat) : Nat :=
  let row := ((scanline - s.y.toNat) % (height : Int)).toNat
  if s.flipsRows then height - 1 - row else row

/-- Where the low plane of a sprite row is stored. A tall sprite names its pattern table by the
lowest bit of its tile and takes its lower half from the next tile. -/
def patternAddress (s : SpriteSlot) (scanline : Int) (tall highTable : Bool) : UInt16 :=
  let row := s.row scanline (if tall then 16 else 8)
  let tile :=
    if tall then s.tile.toNat % 2 * 0x1000 + s.tile.toNat / 2 * 2 * 16
    else (if highTable then 0x1000 else 0) + s.tile.toNat * 16
  UInt16.ofNat (tile + row + row / 8 * 8)

/-- The sprite's colour in a column of the picture: 0 where it is transparent or absent. -/
def colourAt (s : SpriteSlot) (x : Nat) : UInt8 :=
  if x < s.x.toNat ∨ s.x.toNat + 8 ≤ x then 0
  else
    let column := UInt8.ofNat (x - s.x.toNat)
    let bit := if s.flipsColumns then column else 7 - column
    let high := (s.patternHigh >>> bit) &&& 1
    let low := (s.patternLow >>> bit) &&& 1
    2 * high + low

/-- Whether the slot shows an opaque dot in a column. -/
def showsAt (s : SpriteSlot) (x : Nat) : Bool :=
  s.entry.isSome && s.colourAt x != 0

end SpriteSlot

/-- Object memory. -/
abbrev ObjectMemory := Vector UInt8 256

namespace ObjectMemory

/-- The byte at an address. -/
def read (oam : ObjectMemory) (addr : UInt8) : UInt8 := oam.get addr.toFin

/-- The memory with one byte replaced. -/
def write (oam : ObjectMemory) (addr value : UInt8) : ObjectMemory :=
  oam.set addr.toNat value addr.toNat_lt

/-- An entry, as a slot would hold it. -/
def entry (oam : ObjectMemory) (index : Fin 64) : SpriteSlot :=
  let byte (k : Nat) : UInt8 := oam.read (UInt8.ofNat (4 * index.val + k))
  { entry := some index, y := byte 0, tile := byte 1, attr := byte 2, x := byte 3 }

/-- Whether a sprite whose top is stored as `y` covers the line after `scanline`. -/
def covers (scanline : Int) (height : Nat) (y : UInt8) : Bool :=
  0 ≤ scanline - y.toNat && scanline - y.toNat < height

end ObjectMemory

namespace SpriteLine

/-- Eight empty slots. -/
def cleared : SpriteLine := Vector.replicate 8 .empty

/-- Puts sprites into the slots from `next` on, in order; tells whether one found no slot. -/
def fill (line : SpriteLine) (next : Nat) : List SpriteSlot → SpriteLine × Bool
  | [] => (line, false)
  | sprite :: rest =>
    if h : next < 8 then fill (line.set next sprite) (next + 1) rest else (line, true)

/-- The sprites of object memory that cover the line after `scanline`, in order. -/
def inRange (oam : ObjectMemory) (scanline : Int) (height : Nat) : List SpriteSlot :=
  (List.finRange 64).filterMap fun index =>
    if ObjectMemory.covers scanline height (oam.read (UInt8.ofNat (4 * index.val))) then
      some (oam.entry index)
    else none

/-- Looks for the sprites of the next line; tells whether there were more than eight. -/
def evaluate (line : SpriteLine) (oam : ObjectMemory) (scanline : Int) (height : Nat) :
    SpriteLine × Bool :=
  line.fill 0 (inRange oam scanline height)

/-- The sprite that is in front in a column of the picture. -/
def front? (line : SpriteLine) (x : Nat) : Option SpriteSlot :=
  line.toArray.find? (·.showsAt x)

/-- Whether the first object shows an opaque dot in a column. -/
def firstObjectAt (line : SpriteLine) (x : Nat) : Bool :=
  line.any fun s => s.entry == some 0 && s.showsAt x

end SpriteLine

end NesMachine
