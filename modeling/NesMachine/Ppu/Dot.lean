import NesMachine.Ppu.Memory

/-!
# One dot

What the picture unit does on each dot of a scanline. On lines of the picture it draws one dot; on
these lines and the one before them it feeds the background pipeline and prepares the sprites of the
next line. Behind the picture it announces the finished frame and the vertical blank.
-/

namespace NesMachine

open Board (Fault)

/-! ## The background pipeline -/

namespace TilePipeline

/-- Moves the fetched tile behind the one being drawn. -/
def reload (t : TilePipeline) : TilePipeline :=
  { t with
    shiftLow := (t.shiftLow &&& 0xFF00) ||| t.patternLow.toUInt16
    shiftHigh := (t.shiftHigh &&& 0xFF00) ||| t.patternHigh.toUInt16
    attrLatchLow := t.attr &&& 1 ≠ 0
    attrLatchHigh := t.attr &&& 2 ≠ 0 }

/-- Moves on by one column. -/
def shift (t : TilePipeline) : TilePipeline :=
  { t with
    shiftLow := t.shiftLow <<< 1
    shiftHigh := t.shiftHigh <<< 1
    attrShiftLow := (t.attrShiftLow <<< 1) ||| t.attrLatchLow.toUInt8
    attrShiftHigh := (t.attrShiftHigh <<< 1) ||| t.attrLatchHigh.toUInt8 }

/-- The colour in front of the pipeline, `fineX` columns in. -/
def colour (t : TilePipeline) (fineX : UInt8) : UInt8 :=
  let bit : UInt16 := 15 - fineX.toUInt16
  let high : UInt16 := (t.shiftHigh >>> bit) &&& 1
  let low : UInt16 := (t.shiftLow >>> bit) &&& 1
  (2 * high + low).toUInt8

/-- The palette in front of the pipeline, `fineX` columns in. -/
def palette (t : TilePipeline) (fineX : UInt8) : UInt8 :=
  let bit : UInt8 := 7 - fineX
  let high : UInt8 := (t.attrShiftHigh >>> bit) &&& 1
  let low : UInt8 := (t.attrShiftLow >>> bit) &&& 1
  2 * high + low

end TilePipeline

namespace Ppu

/-- Where the low plane of the tile row being fetched is stored. -/
def patternAddress (p : Ppu) : UInt16 :=
  (if p.backgroundHighTable then 0x1000 else 0) + p.pipeline.tile.toUInt16 * 16 +
    Scroll.fineRow p.scroll.v

/-- Points the next fetch at the tile number under the scroll counter. -/
def aimAtTile (p : Ppu) : Ppu :=
  { p with pipeline := { p.pipeline with address := Scroll.tileAddress p.scroll.v } }

/-- Fetches a tile number. -/
def fetchTile (p : Ppu) (slot : Slot) : Except Fault Ppu := do
  let tile ← p.readMemory slot p.pipeline.address
  return { p with pipeline := { p.pipeline with tile } }

/-- Fetches an attribute byte. -/
def fetchAttribute (p : Ppu) (slot : Slot) : Except Fault Ppu := do
  let byte ← p.readMemory slot p.pipeline.address
  return { p with pipeline := { p.pipeline with attr := Scroll.attributeQuadrant p.scroll.v byte } }

/-- Fetches the low plane of a tile row. -/
def fetchPatternLow (p : Ppu) (slot : Slot) : Except Fault Ppu := do
  let patternLow ← p.readMemory slot p.pipeline.address
  return { p with pipeline := { p.pipeline with patternLow } }

/-- Fetches the high plane of a tile row. -/
def fetchPatternHigh (p : Ppu) (slot : Slot) : Except Fault Ppu := do
  let patternHigh ← p.readMemory slot p.pipeline.address
  return { p with pipeline := { p.pipeline with patternHigh } }

/-- The step of the fetch cycle that belongs to a dot: two dots each for the tile number, the
attribute byte and the two planes, and every eighth dot one column to the right. -/
def fetchStep (p : Ppu) (slot : Slot) (dot : Nat) : Except Fault Ppu :=
  match dot % 8 with
  | 1 => .ok { p with
      pipeline := { p.pipeline.reload with address := Scroll.tileAddress p.scroll.v } }
  | 2 => p.fetchTile slot
  | 3 => .ok { p with
      pipeline := { p.pipeline with address := Scroll.attributeAddress p.scroll.v } }
  | 4 => p.fetchAttribute slot
  | 5 => .ok { p with pipeline := { p.pipeline with address := p.patternAddress } }
  | 6 => p.fetchPatternLow slot
  | 7 => .ok { p with pipeline := { p.pipeline with address := p.pipeline.address + 8 } }
  | _ => do
    let p ← p.fetchPatternHigh slot
    return if p.rendering then
      { p with scroll := { p.scroll with v := Scroll.nextColumn p.scroll.v } } else p

/-! ## Drawing -/

/-- The background's palette index in a column of the picture: 0 where it is off, clipped or
transparent. -/
def backgroundIndex (p : Ppu) (x : Nat) : UInt8 :=
  if p.showsBackgroundAt x then
    let colour := p.pipeline.colour p.scroll.fineX
    if colour = 0 then 0 else colour + 4 * p.pipeline.palette p.scroll.fineX
  else 0

/-- The sprite in front in a column of the picture, if sprites are shown there. -/
def spriteAt? (p : Ppu) (x : Nat) : Option SpriteSlot :=
  if p.showsSpritesAt x then p.lineSprites.front? x else none

/-- The palette index of a column, from the background's index and the sprite in front. -/
def compose (background : UInt8) (sprite : Option SpriteSlot) (x : Nat) : UInt8 :=
  match sprite with
  | none => background
  | some s =>
    if background = 0 ∨ !s.behindBackground then 0x10 + 4 * s.palette + s.colourAt x
    else background

/-- Whether the first object meets an opaque background in a column of the picture. -/
def hitsFirstObject (p : Ppu) (background : UInt8) (x : Nat) : Bool :=
  background != 0 && x != 255 && p.showsSpritesAt x && p.lineSprites.firstObjectAt x

/-- Draws the dot in column `x` of row `y`. -/
def drawDot (p : Ppu) (x y : Nat) : Ppu :=
  let background := p.backgroundIndex x
  let index := if p.rendering then compose background (p.spriteAt? x) x else 0
  let colour := colourOf (p.readPalette (0x3F00 + index.toUInt16))
  let status := if p.hitsFirstObject background x then p.status ||| spriteZeroHit else p.status
  { p with status, frame := p.frame.draw x y colour }

/-- Draws the dot under the beam, two dots late, and shifts the pipeline. -/
def outputDot (p : Ppu) : Ppu :=
  let { scanline, dot, .. } := p.beam
  let p := if 0 ≤ scanline ∧ 2 ≤ dot ∧ dot < frameWidth + 2 then
    p.drawDot (dot - 2) scanline.toNat else p
  { p with pipeline := p.pipeline.shift }

/-! ## Sprites -/

/-- Looks for the sprites of the next line. -/
def evaluateSprites (p : Ppu) : Ppu :=
  let (foundSprites, overflow) := p.foundSprites.evaluate p.oam p.beam.scanline p.spriteHeight
  { p with foundSprites, status := if overflow then p.status ||| spriteOverflow else p.status }

/-- Fetches the pattern rows of one slot. Empty slots are fetched too. -/
def loadSprite (p : Ppu) (slot : Slot) (s : SpriteSlot) : Except Fault SpriteSlot := do
  let addr := s.patternAddress p.beam.scanline p.tallSprites p.spriteHighTable
  let patternLow ← p.readMemory slot addr
  let patternHigh ← p.readMemory slot (addr + 8)
  return { s with patternLow, patternHigh }

/-- Fetches the pattern rows of the next line's sprites. -/
def loadSprites (p : Ppu) (slot : Slot) : Except Fault Ppu := do
  let lineSprites ← p.foundSprites.mapM (p.loadSprite slot)
  return { p with lineSprites }

/-- What the sprite unit does on a dot: it clears the slots, looks for sprites, and fetches them. On
the pre-render line the status flags fall with the slots. -/
def spriteStep (p : Ppu) (slot : Slot) : Except Fault Ppu :=
  match p.beam.dot with
  | 1 => .ok { p with
      foundSprites := .cleared
      status := if p.beam.scanline = Beam.preRender then p.status &&& 0x1F else p.status }
  | 257 => .ok (if p.rendering then p.evaluateSprites else p)
  | 321 => p.loadSprites slot
  | _ => .ok p

/-! ## A line -/

/-- What the background unit does on a dot. -/
def backgroundStep (p : Ppu) (slot : Slot) : Except Fault Ppu :=
  let dot := p.beam.dot
  if (2 ≤ dot ∧ dot ≤ 255) ∨ (322 ≤ dot ∧ dot ≤ 337) then p.outputDot.fetchStep slot dot
  else if dot = 256 then do
    let p ← p.outputDot.fetchPatternHigh slot
    return if p.rendering then
      { p with scroll := { p.scroll with v := Scroll.nextRow p.scroll.v } } else p
  else if dot = 257 then
    let p := p.outputDot
    .ok { p with
      pipeline := p.pipeline.reload
      scroll := if p.rendering then p.scroll.copyHorizontal else p.scroll }
  else if 280 ≤ dot ∧ dot ≤ 304 ∧ p.beam.scanline = Beam.preRender then
    .ok (if p.rendering then { p with scroll := p.scroll.copyVertical } else p)
  else if dot = 1 ∨ dot = 321 ∨ dot = 339 then .ok p.aimAtTile
  else if dot = 338 ∨ dot = 340 then p.fetchTile slot
  else .ok p

/-- A dot of the picture or of the line before it. -/
def renderDot (p : Ppu) (slot : Slot) : Except Fault Ppu := do
  (← p.spriteStep slot).backgroundStep slot

/-- A dot behind the picture. -/
def idleDot (p : Ppu) : Ppu :=
  if p.beam.scanline = Beam.postRender then
    if p.beam.dot = 0 then { p with frameReady := true, frameCount := p.frameCount + 1 } else p
  else if p.beam.scanline = Beam.vblankStart ∧ p.beam.dot = 1 then
    { p with status := p.status ||| vblank, nmi := p.nmi || p.nmiEnabled }
  else p

/-- One dot. -/
def step (p : Ppu) (slot : Slot) : Except Fault Ppu := do
  let p ← if p.beam.scanline < Beam.postRender then p.renderDot slot else .ok p.idleDot
  return { p with beam := p.beam.advance p.rendering }

end Ppu

end NesMachine
