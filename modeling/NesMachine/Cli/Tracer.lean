import NesMachine.Cli.Command

/-!
# The tracer

Runs a game from a given address and prints the machine before every instruction, or compares it
with a golden log up to the first mismatch.
-/

namespace NesMachine.Cli.Tracer

/-- What the arguments choose. -/
structure Options where
  rom : Option Path := none
  /-- The golden log. -/
  golden : Option Path := none
  /-- Where the run starts. -/
  start : UInt16 := 0xC000
  /-- The most instructions that are run. -/
  lines : Nat := 8991
  /-- Whether the beam's position is compared. -/
  comparePosition : Bool := false
  /-- Whether only the outcome is printed. -/
  quiet : Bool := false
  verbosity : Nat := 0

/-- The help text. -/
def help : String :=
  "nestest trace generator for dotclock\n\n" ++
  "Usage:\n" ++
  "nestest_trace [options] <nestest.nes>\n\n" ++
  "Options:\n" ++
  "--log <file>       Compare against a golden nestest.log and stop at the first mismatch\n" ++
  "--pc <hex>         Start address (default C000, the automation entry)\n" ++
  "--lines <n>        Stop after n instructions (default 8991)\n" ++
  "--ppu              Also compare the PPU column\n" ++
  "--quiet            Print only the comparison summary\n" ++
  "-v                 More logging (repeatable)\n" ++
  "-h, --help         Show this help\n\n"

variable {m : Type → Type} [Monad m] [Host m] [Terminal m]

/-- Reads the arguments. -/
def readArguments (o : Options) : List String → Command m Options
  | [] => return o
  | ["--log"] => fail ⟨"--log requires a path to nestest.log", []⟩
  | "--log" :: path :: rest => readArguments { o with golden := some ⟨path⟩ } rest
  | ["--pc"] => fail ⟨"--pc requires a hex address, e.g. --pc C000", []⟩
  | "--pc" :: value :: rest => do
    let digits := Integer.dropHexMarks value.toList
    let start ← numberOf "--pc" value (Integer.readUInt16 16 digits)
    readArguments { o with start } rest
  | ["--lines"] => fail ⟨"--lines requires an integer", []⟩
  | "--lines" :: value :: rest => do
    let lines ← numberOf "--lines" value (Integer.readUInt64 value.toList)
    readArguments { o with lines := lines.toNat } rest
  | "--ppu" :: rest => readArguments { o with comparePosition := true } rest
  | "--quiet" :: rest => readArguments { o with quiet := true } rest
  | "-v" :: rest => readArguments { o with verbosity := o.verbosity + 1 } rest
  | "--help" :: _ | "-h" :: _ => do
    Terminal.print help
    throw (.exit 0)
  | argument :: rest =>
    if argument.startsWith "-" then unknownArgument argument
    else readArguments { o with rom := some ⟨argument⟩ } rest

/-- Reads a golden log. Lines that are no trace lines are passed over, but not all of them. -/
def readGolden (path : Path) : Command m (List Trace.Record) := do
  match ← Host.readText path with
  | .error e => fail (.ofFile ("failed to read golden log " ++ path.text) e)
  | .ok text =>
    match (Text.lines text.toList).filterMap Trace.Record.parse? with
    | [] => fail ⟨"no trace lines in " ++ path.text, []⟩
    | records => return records

/-- Stops at a record that differs from the one expected. -/
def check (o : Options) (line : Nat) (record expected : Trace.Record) : Command m Unit := do
  let columns := record.differences expected o.comparePosition
  unless columns.isEmpty do
    Terminal.printLine ("\nMISMATCH at line " ++ toString line ++ " (" ++
      ", ".intercalate columns ++ ")")
    Terminal.printLine ("  expected: " ++ expected.line)
    Terminal.printLine ("  got     : " ++ record.line)
    throw (.exit 1)

/-- Runs instructions from line number `line` on, with the records expected from there on. -/
def trace (o : Options) (c : Console) (line : Nat) (expected : List Trace.Record) :
    Nat → Command m Console
  | 0 => return c
  | n + 1 => do
    let record := c.record
    unless o.quiet do Terminal.printLine record.line
    if let some expected := expected.head? then check o line record expected
    let (_, c) ← running c.step
    trace o c (line + 1) expected.tail n

/-- Traces a game. -/
def run (arguments : List String) : Command m Unit := do
  let o ← readArguments {} arguments
  match o.rom with
  | none => fail ⟨"missing ROM path; see --help", []⟩
  | some rom =>
    Terminal.showUpTo (.ofVerbosity o.verbosity)
    let golden ← match o.golden with
      | some path => readGolden path
      | none => pure []
    let limit := if o.golden.isSome then min golden.length o.lines else o.lines
    let c ← consoleWith { errorLog := none } rom
    let c ← trace o (c.setPc o.start) 1 golden limit
    if o.golden.isSome then
      Terminal.printLine (toString limit ++ " line(s) match the golden log")
    c.cartridge.persist

end NesMachine.Cli.Tracer
