import NesMachine.TvSystem

/-!
# The beam

The picture is drawn dot by dot: 341 dots to a scanline, from the pre-render line before the
picture to the last line of the vertical blank. On every other frame an NTSC picture unit that is
rendering leaves out the last dot of the pre-render line.
-/

namespace NesMachine

/-- The position of the beam. -/
structure Beam where
  /-- The scanline; the picture is on lines 0 to 239, the pre-render line is -1. -/
  scanline : Int := 0
  dot : Nat := 0
  oddFrame : Bool := false
  tv : TvSystem := .ntsc
  deriving DecidableEq, Repr, Inhabited

namespace Beam

/-- The line before the picture. -/
def preRender : Int := -1

/-- The idle line behind the picture. -/
def postRender : Int := 240

/-- The line on which the vertical blank begins. -/
def vblankStart : Int := 241

/-- The last dot of a line. -/
def lastDot : Nat := 340

/-- The last line of a frame. -/
def lastLine (beam : Beam) : Int := postRender + beam.tv.vblankLines

/-- Whether the next dot is left out. -/
def skipsDot (beam : Beam) (rendering : Bool) : Bool :=
  beam.scanline == preRender && beam.dot == lastDot - 1 && beam.oddFrame && beam.tv == .ntsc &&
    rendering

/-- The start of the next line. -/
def nextLine (beam : Beam) : Beam :=
  if beam.scanline + 1 > beam.lastLine then
    { beam with scanline := preRender, dot := 0, oddFrame := !beam.oddFrame }
  else { beam with scanline := beam.scanline + 1, dot := 0 }

/-- The next dot. -/
def advance (beam : Beam) (rendering : Bool) : Beam :=
  if beam.dot ≥ lastDot || beam.skipsDot rendering then beam.nextLine
  else { beam with dot := beam.dot + 1 }

end Beam

end NesMachine
