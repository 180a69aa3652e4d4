import NesMachine.Text.Blank
import NesMachine.Text.Lowercase

/-!
# Suite tests

A suite lists games together with the picture each of them shows after so many frames. A test that
needs recorded input cannot be run; tests for the other television system are run on request.
-/

namespace NesMachine.Suite

/-- A test. -/
structure Test where
  /-- The game's file, below the directory of all games. -/
  file : String := ""
  /-- The television system it is made for. -/
  system : String := ""
  /-- The frames it runs. -/
  frames : UInt32 := 0
  /-- The digest of the picture it shows then. -/
  digest : String := ""
  /-- The buttons pressed while it runs. -/
  input : String := ""
  deriving DecidableEq, Repr, Inhabited

/-- Whether a test is made for PAL, however that is capitalised. -/
def Test.isPal (t : Test) : Bool := t.system.toList.map Char.toLower = ['p', 'a', 'l']

/-- Which tests of a suite are run. -/
structure Selection where
  includePal : Bool := false
  /-- Pieces of file names, one of which has to occur; any name will do if there are none. -/
  pieces : List String := []
  deriving DecidableEq, Repr, Inhabited

/-- Whether a file name, in small letters, holds one of the pieces. -/
def Selection.admitsFile (s : Selection) (file : String) : Bool :=
  let file := Text.lowercase file.toList
  s.pieces.isEmpty || s.pieces.any fun piece => Text.contains file piece.toList

/-- Whether a test is run. -/
def Selection.admits (s : Selection) (t : Test) : Bool :=
  (s.includePal || !t.isPal) && t.input.isEmpty && s.admitsFile t.file

end NesMachine.Suite
