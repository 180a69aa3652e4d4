import NesMachine.Cli.Command
import NesMachine.Suite.Reading
import NesMachine.Suite.Trial

/-!
# The suite runner

Runs the tests of a suite and reports which games showed the picture they should. It can also print
the digests it sees, to bring a suite up to date.
-/

namespace NesMachine.Cli.Runner

open Suite (Test Selection Observation)

/-- What the arguments choose. -/
structure Options where
  suite : Path := ⟨"external/nes-test-roms/test_roms.xml"⟩
  /-- The directory of the games. -/
  games : Path := ⟨"external/nes-test-roms"⟩
  maxTests : Nat := 80
  selection : Selection := {}
  extraFrames : UInt32 := 0
  /-- Whether digests are printed instead of judged. -/
  update : Bool := false
  verbosity : Nat := 0
  settings : Settings := { errorLog := none }

/-- The help text. -/
def help : String :=
  "ROM suite runner for dotclock\n\n" ++
  "Usage:\n" ++
  "rom_test_runner [options]\n\n" ++
  "Options:\n" ++
  "--suite <path>                 Path to test_roms.xml\n" ++
  "--rom-root <path>              Root path containing ROM files\n" ++
  "--max-tests <n>                Maximum number of tests to run (default 80)\n" ++
  "--include-pal                  Include PAL tests\n" ++
  "--contains <substr>            " ++
    "Only run tests whose filename contains this text (repeatable)\n" ++
  "--extra-frames <n>             Add n frames after XML runframes (default 0)\n" ++
  "--config <file>                Emulator config JSON\n" ++
  "--update                       " ++
    "Print observed digests as <tvsha1> lines instead of judging\n" ++
  "-v                             More logging (repeatable)\n" ++
  "-h, --help                     Show this help\n\n"

/-- The options that take a value. -/
inductive Setting where
  | suite
  | games
  | maxTests
  | contains
  | extraFrames
  | config
  deriving DecidableEq, Repr

namespace Setting

/-- The option of a setting. -/
def name : Setting → String
  | suite => "--suite"
  | games => "--rom-root"
  | maxTests => "--max-tests"
  | contains => "--contains"
  | extraFrames => "--extra-frames"
  | config => "--config"

/-- The setting of an option. -/
def ofName? (name : String) : Option Setting :=
  [suite, games, maxTests, contains, extraFrames, config].find? (·.name = name)

/-- What an option takes, in the words of an error. -/
def need : Setting → String
  | suite => "a path, e.g. --suite external/nes-test-roms/test_roms.xml"
  | games => "a path, e.g. --rom-root external/nes-test-roms"
  | maxTests => "an integer, e.g. --max-tests 120"
  | contains => "a substring, e.g. --contains vbl_nmi_timing"
  | extraFrames => "an integer, e.g. --extra-frames 120"
  | config => "a JSON file path"

end Setting

/-- The options with another piece of file names to look for. -/
def Options.wanting (o : Options) (piece : String) : Options :=
  let piece := String.ofList (Text.lowercase piece.toList)
  { o with selection := { o.selection with pieces := o.selection.pieces ++ [piece] } }

variable {m : Type → Type} [Monad m] [Host m] [Terminal m]

/-- Takes an option with its value. -/
def set (o : Options) (setting : Setting) (value : String) : Command m Options :=
  match setting with
  | .suite => return { o with suite := ⟨value⟩ }
  | .games => return { o with games := ⟨value⟩ }
  | .maxTests => do
    let n ← numberOf setting.name value (Integer.readUInt64 value.toList)
    return { o with maxTests := n.toNat }
  | .contains => return o.wanting value
  | .extraFrames => do
    let extraFrames ← numberOf setting.name value (Integer.readUInt32 value.toList)
    return { o with extraFrames }
  | .config => do
    let settings ← readSettings ⟨value⟩
    return { o with settings }

/-- Takes an option without a value. -/
def setFlag (o : Options) (option : String) : Command m Options :=
  match option with
  | "--include-pal" => return { o with selection := { o.selection with includePal := true } }
  | "--update" => return { o with update := true }
  | "-v" => return { o with verbosity := o.verbosity + 1 }
  | "--help" | "-h" => do
    Terminal.print help
    throw (.exit 0)
  | option => unknownArgument option

/-- Reads the arguments. -/
def readArguments (o : Options) : List String → Command m Options
  | [] => return o
  | [option] =>
    match Setting.ofName? option with
    | some setting => fail ⟨option ++ " requires " ++ setting.need, []⟩
    | none => setFlag o option
  | option :: value :: rest =>
    match Setting.ofName? option with
    | some setting => do readArguments (← set o setting value) rest
    | none => do readArguments (← setFlag o option) (value :: rest)

/-- How many tests ended in which way. -/
structure Tally where
  passed : Nat := 0
  failed : Nat := 0
  skipped : Nat := 0

/-- The report on a picture that differs from the one expected. -/
def differenceLines (t : Test) (o : Observation) : String :=
  "\n  expected: " ++ t.digest ++ "\n  got rgba: " ++ o.digest ++ "\n  got rgb : " ++
    o.colourDigest ++ "\n  pc=$" ++ Radix.wordHex o.pc ++ " cycles=" ++ toString o.cycles ++
    "\n  ppu ctrl=$" ++ Radix.byteHex o.ctrl ++ " mask=$" ++ Radix.byteHex o.mask ++
    " status=$" ++ Radix.byteHex o.status ++ " sl=" ++ toString o.scanline ++ " dot=" ++
    toString o.dot ++ "\n  " ++ o.board

/-- Reports a picture. -/
def reportPicture (o : Options) (tally : Tally) (label : String) (t : Test) (seen : Observation) :
    Command m Tally := do
  if o.update then
    Terminal.printLine (t.file ++ " <tvsha1>" ++ seen.digest ++ "</tvsha1>")
    return tally
  else
    match seen.verdict t.digest with
    | .same =>
      Terminal.printLine ("PASS " ++ label ++ " [rgba]")
      return { tally with passed := tally.passed + 1 }
    | .sameColours =>
      Terminal.printLine ("PASS " ++ label ++ " [rgb]")
      return { tally with passed := tally.passed + 1 }
    | .different =>
      Terminal.printLine ("FAIL " ++ label ++ differenceLines t seen)
      return { tally with failed := tally.failed + 1 }

/-- Runs a test and reports how it ended. -/
def runTest (o : Options) (tally : Tally) (label : String) (t : Test) : Command m Tally := do
  match ← running (t.run o.settings o.games o.extraFrames) with
  | .ok seen => reportPicture o tally label t seen
  | .error error =>
    let failure : Failure := match error with
      | .unsupported _ => ⟨error.message, []⟩
      | _ => .ofLoad ("failed to load ROM " ++ (o.games.join ⟨t.file⟩).text) error
    Terminal.printLine ("SKIP " ++ label ++ " -> " ++ failure.line)
    return { tally with skipped := tally.skipped + 1 }

/-- Runs the tests of which `ran` came before; there are `count` in all. -/
def runTests (o : Options) (count ran : Nat) (tally : Tally) : List Test → Command m Tally
  | [] => return tally
  | t :: rest => do
    let label := "[" ++ toString (ran + 1) ++ "/" ++ toString count ++ "] " ++ t.file
    runTests o count (ran + 1) (← runTest o tally label t) rest

/-- Reads the tests of a suite file. -/
def readSuite (path : Path) : Command m (List Test) := do
  match ← Host.readText path with
  | .error e => fail (.ofFile ("failed to read suite XML: " ++ path.text) e)
  | .ok text =>
    match Suite.parse? text with
    | some tests => return tests
    | none => fail ⟨"failed to parse suite XML: the document is not well formed", []⟩

/-- Milliseconds in seconds, with two places. -/
def seconds (milliseconds : Nat) : String :=
  let hundredths := (milliseconds + 5) / 10
  toString (hundredths / 100) ++ "." ++ String.ofList (Radix.fixed 10 2 hundredths)

/-- Runs a suite. -/
def run (arguments : List String) : Command m Unit := do
  let o ← readArguments {} arguments
  Terminal.showUpTo (.ofVerbosity o.verbosity)
  let started ← Host.clock
  let tests := ((← readSuite o.suite).filter o.selection.admits).take o.maxTests
  Terminal.printLine ("Running " ++ toString tests.length ++ " test(s) from " ++ o.suite.text)
  let tally ← runTests o tests.length 0 {} tests
  let ended ← Host.clock
  Terminal.printLine ("\nSummary:\n- Passed: " ++ toString tally.passed ++
    "\n- Failed: " ++ toString tally.failed ++ "\n- Skipped: " ++ toString tally.skipped ++
    "\n- Runtime: " ++ seconds (ended - started) ++ "s")

end NesMachine.Cli.Runner
