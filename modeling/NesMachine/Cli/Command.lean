import NesMachine.Cli.Failure
import NesMachine.Console.Basic
import NesMachine.Settings.Json
import NesMachine.Terminal

/-!
# Commands

What the commands of this program have in common: how they end, how they read the values behind
their options, and how they load a game. A command that breaks down still saves the game in the
slot; one that stops at once does not.
-/

namespace NesMachine.Cli

/-- How a command ends before it is through. -/
inductive Stop where
  /-- It gives up and reports why. -/
  | failed (failure : Failure)
  /-- The console broke down. -/
  | broke (wreck : Wreck)
  /-- It stops at once. -/
  | exit (code : UInt32)

/-- A command that runs on a computer `m`. -/
abbrev Command (m : Type → Type) := ExceptT Stop m

/-- The last words on a breakdown. -/
def lastWords : Breakdown → String
  | .board fault => fault.message
  | .sectionPastEnd => "a section of the ROM file starts behind its end"
  | .eventCapacity => "too many events to remember"

variable {m : Type → Type} [Monad m] [Host m] [Terminal m]

/-- Gives up. -/
def fail {α : Type} (failure : Failure) : Command m α := throw (.failed failure)

/-- Lets a console run. -/
def running {α : Type} (part : ExceptT Wreck m α) : Command m α := part.adapt .broke

/-- Runs a command to its end and gives its exit code. -/
def conclude (command : Command m Unit) : m UInt32 := do
  match ← command.run with
  | .ok () => return 0
  | .error (.exit code) => return code
  | .error (.failed failure) =>
    Terminal.printError failure.report
    return 1
  | .error (.broke wreck) =>
    Terminal.printError (lastWords wreck.breakdown ++ "\n")
    wreck.cartridge.persist
    return 101

/-- Refuses an argument. -/
def unknownArgument {α : Type} (argument : String) : Command m α :=
  fail ⟨"unknown argument: " ++ argument ++ "\nUse --help to view supported options.", []⟩

/-- The number that was read from the value of an option. -/
def numberOf {α : Type} (option value : String) (read : Except Integer.Error α) : Command m α :=
  match read with
  | .ok n => return n
  | .error e => fail ⟨"invalid " ++ option ++ " value: " ++ value, [e.message]⟩

/-- Reads a settings file. -/
def readSettings (path : Path) : Command m Settings := do
  match ← Host.readText path with
  | .error e => fail (.ofFile ("failed to read config " ++ path.text) e)
  | .ok text =>
    match Settings.parse? text with
    | some settings => return settings
    | none => fail ⟨"in " ++ path.text, ["invalid emulator config JSON"]⟩

/-- A console with settings and a game. -/
def consoleWith (settings : Settings) (rom : Path) : Command m Console := do
  let c ← running (Console.ofSettings settings : Except Wreck Console)
  let (loaded, c) ← running (c.loadFile rom)
  match loaded with
  | .ok () => return c
  | .error e => fail (.ofLoad ("failed to load " ++ rom.text) e)

end NesMachine.Cli
