import NesMachine.Cartridge
import NesMachine.Text.Radix

/-!
# Failures

Why a command ends without success: what failed, and below it the chain of causes. A report gives
every cause a line of its own, numbered if there are several.
-/

namespace NesMachine.Cli

/-- A failure with its causes, the nearest first. -/
structure Failure where
  message : String
  causes : List String := []
  deriving DecidableEq, Repr, Inhabited

namespace Failure

/-- What failed because a game could not be loaded. -/
def ofLoad (context : String) (error : LoadError) : Failure :=
  ⟨context, error.message :: error.cause?.toList⟩

/-- What failed because of a file. -/
def ofFile (context : String) (error : Files.Error) : Failure := ⟨context, [error.message]⟩

/-- A failure in one line. -/
def line (failure : Failure) : String := ": ".intercalate (failure.message :: failure.causes)

/-- A text behind a margin; its other lines are set in by as much. -/
def setIn (margin text : String) : String :=
  let indent := String.ofList (List.replicate margin.length ' ')
  margin ++ ("\n" ++ indent).intercalate (text.splitOn "\n") ++ "\n"

/-- A cause with its number. -/
def numbered (cause : String × Nat) : String :=
  setIn (Radix.padLeft 5 (toString cause.2) ++ ": ") cause.1

/-- The causes in a report. -/
def causeLines : List String → String
  | [] => ""
  | [cause] => "\nCaused by:\n" ++ setIn "    " cause
  | causes => "\nCaused by:\n" ++ String.join (causes.zipIdx.map numbered)

/-- The report of a failure. -/
def report (failure : Failure) : String :=
  "Error: " ++ failure.message ++ "\n" ++ causeLines failure.causes

end Failure

end NesMachine.Cli
