import NesMachine.Ppu.Beam
import NesMachine.Ppu.Palette
import NesMachine.Ppu.Scroll
import NesMachine.Ppu.Sprite

/-!
# The picture unit

Its registers, memories and pipelines, and its states at power-on and after a reset.
-/

namespace NesMachine

/-- The background pipeline: the bytes of the tile being fetched, and the shift registers from which
the tile before it is drawn. -/
structure TilePipeline where
  /-- The address of the next fetch. -/
  address : UInt16 := 0
  tile : UInt8 := 0
  attr : UInt8 := 0
  patternLow : UInt8 := 0
  patternHigh : UInt8 := 0
  shiftLow : UInt16 := 0
  shiftHigh : UInt16 := 0
  attrShiftLow : UInt8 := 0
  attrShiftHigh : UInt8 := 0
  attrLatchLow : Bool := false
  attrLatchHigh : Bool := false
  deriving DecidableEq, Repr, Inhabited

/-- The pipeline with its shift registers empty. -/
def TilePipeline.cleared (t : TilePipeline) : TilePipeline :=
  { t with shiftLow := 0, shiftHigh := 0, attrShiftLow := 0, attrShiftHigh := 0 }

/-- Nametable memory. -/
abbrev NametableMemory := Vector UInt8 0x800

/-- Palette memory. -/
abbrev PaletteMemory := Vector UInt8 32

/-- The picture unit. -/
structure Ppu where
  ctrl : UInt8 := 0
  mask : UInt8 := 0
  status : UInt8 := 0
  oamAddr : UInt8 := 0
  /-- The last value on the register bus. -/
  openBus : UInt8 := 0
  /-- The byte that the next read of the data register delivers. -/
  readBuffer : UInt8 := 0
  scroll : Scroll := {}
  nametables : NametableMemory := Vector.replicate 0x800 0xFF
  palette : PaletteMemory := Vector.replicate 32 0x0F
  oam : ObjectMemory := Vector.replicate 256 0
  /-- The sprites found for the next line. -/
  foundSprites : SpriteLine := .cleared
  /-- The sprites of this line. -/
  lineSprites : SpriteLine := .cleared
  pipeline : TilePipeline := {}
  beam : Beam := {}
  frameCount : Nat := 0
  /-- An interrupt request that nobody has taken yet. -/
  nmi : Bool := false
  /-- A finished picture that nobody has taken yet. -/
  frameReady : Bool := false
  frame : Frame := .blank
  deriving Repr

namespace Ppu

/-! ## Register bits -/

/-- Whether the vertical blank raises an interrupt. -/
def nmiEnabled (p : Ppu) : Bool := p.ctrl &&& 0x80 ≠ 0

/-- Whether sprites are sixteen rows tall. -/
def tallSprites (p : Ppu) : Bool := p.ctrl &&& 0x20 ≠ 0

/-- Whether the background takes its patterns from the upper table. -/
def backgroundHighTable (p : Ppu) : Bool := p.ctrl &&& 0x10 ≠ 0

/-- Whether small sprites take their patterns from the upper table. -/
def spriteHighTable (p : Ppu) : Bool := p.ctrl &&& 0x08 ≠ 0

/-- How far an access through the data register advances the address. -/
def accessStep (p : Ppu) : UInt16 := if p.ctrl &&& 0x04 = 0 then 1 else 32

/-- Rows of a sprite. -/
def spriteHeight (p : Ppu) : Nat := if p.tallSprites then 16 else 8

/-- Whether colours are reduced to their grey column. -/
def greyscale (p : Ppu) : Bool := p.mask &&& 0x01 ≠ 0

/-- Whether the background is shown in a column of the picture. -/
def showsBackgroundAt (p : Ppu) (x : Nat) : Bool :=
  p.mask &&& 0x08 ≠ 0 && (8 ≤ x || p.mask &&& 0x02 ≠ 0)

/-- Whether sprites are shown in a column of the picture. -/
def showsSpritesAt (p : Ppu) (x : Nat) : Bool :=
  p.mask &&& 0x10 ≠ 0 && (8 ≤ x || p.mask &&& 0x04 ≠ 0)

/-- Whether the background or the sprites are on. -/
def rendering (p : Ppu) : Bool := p.mask &&& 0x18 ≠ 0

/-- The status bit that tells of more than eight sprites on a line. -/
def spriteOverflow : UInt8 := 0x20

/-- The status bit that tells of the first object over an opaque background. -/
def spriteZeroHit : UInt8 := 0x40

/-- The status bit of the vertical blank. -/
def vblank : UInt8 := 0x80

/-- Whether the vertical blank is flagged. -/
def inVblank (p : Ppu) : Bool := p.status &&& vblank ≠ 0

/-! ## Power and reset -/

/-- Sets the television system, which decides the length of a frame. -/
def setTv (p : Ppu) (tv : TvSystem) : Ppu := { p with beam := { p.beam with tv } }

/-- The reset line: registers, slots, shift registers, position and picture start over; the
memories, the bytes being fetched and the attribute latches stay. -/
def reset (p : Ppu) : Ppu :=
  { ({} : Ppu) with
    nametables := p.nametables
    palette := p.palette
    oam := p.oam
    pipeline := p.pipeline.cleared
    beam := { tv := p.beam.tv } }

/-! ## Requests -/

/-- Takes the interrupt request. -/
def takeNmi (p : Ppu) : Bool × Ppu := (p.nmi, { p with nmi := false })

/-- Takes the notice of a finished picture. -/
def takeFrameReady (p : Ppu) : Bool × Ppu := (p.frameReady, { p with frameReady := false })

end Ppu

end NesMachine
