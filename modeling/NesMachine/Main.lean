import NesMachine.Cli.Debugger
import NesMachine.Cli.Runner
import NesMachine.Cli.Tracer
import Std.Time.DateTime.Timestamp

/-!
# The program

The commands on a real computer. The first argument chooses the command, and the others are the
command's own.
-/

namespace NesMachine

/-- A computation on a real computer; its state is the least important level the journal shows. -/
abbrev Desktop := StateT Level IO

namespace Desktop

/-- The number of an error of the operating system, which may come with its sign turned. -/
def errorNumber (code : UInt32) : UInt32 := min code (0 - code)

/-- The text of an error of the operating system. -/
def systemText (code : UInt32) (details : String) : String :=
  details ++ " (os error " ++ toString (errorNumber code) ++ ")"

/-- The file error that the operating system reports. -/
def fileError : IO.Error → Files.Error
  | .noFileOrDirectory .. => .notFound
  | .alreadyExists .. => .alreadyExists
  | .inappropriateType _ code _ => if errorNumber code = 20 then .notDirectory else .isDirectory
  | .invalidArgument _ code details =>
    if errorNumber code = 36 then .nameTooLong else .other (systemText code details)
  | .permissionDenied _ code details => .other (systemText code details)
  | error => .other error.toString

/-- A file operation and how it ended. -/
def attempt {α : Type} (operation : IO α) : Desktop (Except Files.Error α) := do
  match ← operation.toBaseIO with
  | .ok result => return .ok result
  | .error error => return .error (fileError error)

/-- Writes behind the end of a file. -/
def appendBytes (path : Path) (bytes : Digest.Bytes) : IO Unit :=
  IO.FS.withFile path.text .append fun file => file.write ⟨bytes⟩

instance : Host Desktop where
  readFile path := attempt do return (← IO.FS.readBinFile path.text).data
  writeFile path bytes := attempt (IO.FS.writeBinFile path.text ⟨bytes⟩)
  appendFile path bytes := attempt (appendBytes path bytes)
  createDirs path := attempt (IO.FS.createDirAll path.text)
  clock := do return (← Std.Time.Timestamp.now).toMillisecondsSinceUnixEpoch.val.toNat
  note entry := do
    if entry.level.shownAt (← get) then IO.eprintln entry.line

instance : Terminal Desktop where
  print text := do
    let output ← IO.getStdout
    output.putStr text
    output.flush
  printError text := IO.eprint text
  showUpTo level := set level

/-- The bytes up to the end of a line, or of the input. -/
partial def readBytes (input : IO.FS.Stream) (begun : List UInt8) : IO (List UInt8) := do
  match (← input.read 1).data.toList with
  | [] => return begun.reverse
  | byte :: _ =>
    let begun := byte :: begun
    if byte = 10 then return begun.reverse else readBytes input begun

/-- Talks with the user until the input ends or the user quits. -/
partial def converse (c : Console) : Cli.Command Desktop Unit := do
  Cli.Debugger.ask
  match Text.byteLines (← readBytes (← IO.getStdin) []) with
  | [] => c.cartridge.persist
  | line :: _ =>
    let (goesOn, c) ← Cli.Debugger.answer c line
    if goesOn then converse c else c.cartridge.persist

/-- The command that a word names. -/
def command? (word : String) (arguments : List String) : Option (Cli.Command Desktop Unit) :=
  match word with
  | "debug" => some do converse (← Cli.Debugger.start arguments)
  | "trace" => some (Cli.Tracer.run arguments)
  | "suite" => some (Cli.Runner.run arguments)
  | _ => none

/-- What the program says when no command is named. -/
def usage : String := "usage: nes-machine (debug | trace | suite) [arguments]"

end Desktop

end NesMachine

open NesMachine in
/-- Runs the command that the first argument names. -/
def main (arguments : List String) : IO UInt32 := do
  match arguments with
  | [] =>
    IO.eprintln Desktop.usage
    return 2
  | word :: rest =>
    match Desktop.command? word rest with
    | some command => (Cli.conclude command).run' .warn
    | none =>
      IO.eprintln Desktop.usage
      return 2
