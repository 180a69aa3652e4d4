import NesMachine.Files.Path
import NesMachine.TvSystem

/-!
# Settings

What a user can choose for a console.
-/

namespace NesMachine

/-- The settings of a console. -/
structure Settings where
  /-- The directory of save files, if they are not kept beside the games. -/
  saveDir : Option Path := none
  /-- The file that failures are written to. -/
  errorLog : Option Path := some ⟨"error.txt"⟩
  /-- The television system, if the game does not choose it. -/
  tv : Option TvSystem := none
  /-- How many events are remembered. -/
  eventCapacity : UInt64 := 512
  deriving DecidableEq, Repr, Inhabited

end NesMachine
