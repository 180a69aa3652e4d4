/-!
# Television systems

A console is built for one of two television systems. They differ in the processor cycles that
make up a frame, in the scanlines of the vertical blank, and in the dots that pass per cycle.
-/

namespace NesMachine

/-- The television system a console runs for. -/
inductive TvSystem where
  | ntsc
  | pal
  deriving DecidableEq, Repr, Inhabited

namespace TvSystem

/-- Processor cycles that one frame is given. -/
def frameCycles : TvSystem → Int
  | ntsc => 29781
  | pal => 33248

/-- Scanlines of the vertical blank, the idle line before it not counted. -/
def vblankLines : TvSystem → Int
  | ntsc => 20
  | pal => 70

/-- The name used in reports. -/
def name : TvSystem → String
  | ntsc => "Ntsc"
  | pal => "Pal"

/-- The word used in settings files. -/
def keyword : TvSystem → String
  | ntsc => "ntsc"
  | pal => "pal"

/-- The system that a settings word names. -/
def ofKeyword? (word : String) : Option TvSystem :=
  if word = "ntsc" then some .ntsc else if word = "pal" then some .pal else none

theorem ofKeyword?_keyword (tv : TvSystem) : ofKeyword? tv.keyword = some tv := by
  cases tv <;> decide

end TvSystem

end NesMachine
