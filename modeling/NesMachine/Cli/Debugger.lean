import NesMachine.Cli.Command
import NesMachine.Console.Disassembly

/-!
# The debugger

A conversation with a console, one line at a time: run instructions or frames, and look at the
registers, the memory, the picture unit, the board and the latest events.
-/

namespace NesMachine.Cli.Debugger

/-! ## Requests -/

/-- What a user asks for. -/
inductive Request where
  | help
  | step (count : Nat)
  | frame (count : Nat)
  | registers
  | memory (start length : UInt16)
  /-- A look at the memory without an address. -/
  | memoryUsage
  | picture
  | board
  | events (count : Nat)
  | reset
  | quit
  | unknown (word : String)
  deriving DecidableEq, Repr

/-- Reads an address, in hexadecimal digits with or without a mark before them. -/
def readAddress? (word : List Char) : Option UInt16 :=
  (Integer.readUInt16 16 ((Integer.dropHexMarks word).dropWhile (· = '$'))).toOption

/-- Reads a count, if a word is there for it. -/
def readCount (default : Nat) (word : Option (List Char)) : Nat :=
  ((word.bind fun w => (Integer.readUInt64 w).toOption).map UInt64.toNat).getD default

/-- The request that a first word and the words behind it make. -/
def Request.ofWords (word : String) (rest : List (List Char)) : Request :=
  match word with
  | "help" | "h" => .help
  | "step" | "s" => .step (readCount 1 rest[0]?)
  | "frame" | "f" => .frame (readCount 1 rest[0]?)
  | "regs" => .registers
  | "mem" =>
    match rest[0]?.bind readAddress? with
    | some start =>
      let length := rest[1]?.bind fun w => (Integer.readUInt16 10 w).toOption
      .memory start (length.getD 16)
    | none => .memoryUsage
  | "ppu" => .picture
  | "mapper" => .board
  | "events" => .events (readCount 16 rest[0]?)
  | "reset" => .reset
  | "quit" | "q" => .quit
  | word => .unknown word

/-- The request that a line makes, unless it is blank. -/
def Request.ofLine? (line : String) : Option Request :=
  match Text.words Text.isBlank line.toList with
  | [] => none
  | word :: rest => some (.ofWords (String.ofList word) rest)

/-! ## Views -/

/-- The list of requests. -/
def help : String :=
  "Commands:\n" ++
  "  step, s [n]        - Execute n instructions (default 1)\n" ++
  "  frame, f [n]       - Run n frames (default 1)\n" ++
  "  regs               - Show CPU registers\n" ++
  "  mem <addr> [len]   - Dump CPU address space (hex, no side effects)\n" ++
  "  ppu                - Show PPU state\n" ++
  "  mapper             - Show mapper state\n" ++
  "  events [n]         - Show recent debug events\n" ++
  "  reset              - Press reset\n" ++
  "  quit, q            - Exit debugger\n"

/-- A bit of the status in a word. -/
def flagWord (p : UInt8) (bit : UInt8) : String :=
  if (p >>> bit) &&& 1 = 1 then "true" else "false"

/-- The view of the registers. -/
def registersView (c : Console) : String :=
  let r := c.machine.cpu.registers
  "A: $" ++ Radix.byteHex r.a ++ "  X: $" ++ Radix.byteHex r.x ++ "  Y: $" ++ Radix.byteHex r.y ++
    "\nP: " ++ Radix.byteBits r.p ++ " (NV-BDIZC)" ++
    "\nSP: $" ++ Radix.byteHex r.sp ++ "  PC: $" ++ Radix.wordHex r.pc ++
    "\nFlags: N=" ++ flagWord r.p 7 ++ " V=" ++ flagWord r.p 6 ++ " D=" ++ flagWord r.p 3 ++
    " I=" ++ flagWord r.p 2 ++ " Z=" ++ flagWord r.p 1 ++ " C=" ++ flagWord r.p 0 ++
    "\nCycles: " ++ toString c.machine.cpu.cycles ++ "\n"

/-- The view of the picture unit. -/
def pictureView (c : Console) : String :=
  let p := c.machine.ppu
  let s := p.scroll
  "PPU State:" ++
    "\n  Scanline: " ++ toString p.beam.scanline ++ ", Dot: " ++ toString p.beam.dot ++
    ", Frame: " ++ toString p.frameCount ++
    "\n  $2000 (ctrl):   " ++ Radix.byteBits p.ctrl ++
    "\n  $2001 (mask):   " ++ Radix.byteBits p.mask ++
    "\n  $2002 (status): " ++ Radix.byteBits p.status ++
    "\n  OAMADDR: $" ++ Radix.byteHex p.oamAddr ++
    "\n  v=$" ++ Radix.wordHex s.v ++ " t=$" ++ Radix.wordHex s.t ++ " fine_x=" ++
    toString s.fineX ++ " toggle=" ++ toString s.secondWrite ++
    "\n  palette: " ++ " ".intercalate (p.palette.toList.map Radix.byteHex) ++ "\n"

/-- A row of the view of the memory. -/
def memoryRow (c : Console) (start : UInt16) (length : Nat) : Except Wreck String := do
  let bytes ← (List.range length).mapM fun k => c.peek (start + UInt16.ofNat k)
  return Radix.wordHex start ++ ": " ++ " ".intercalate (bytes.map Radix.byteHex)

/-! ## The conversation -/

variable {m : Type → Type} [Monad m] [Host m] [Terminal m]

/-- Runs instructions and traces each of them. -/
def traceSteps (c : Console) : Nat → ExceptT Wreck m Console
  | 0 => return c
  | n + 1 => do
    let (line, c) ← c.tracedStep
    Terminal.printLine line
    traceSteps c n

/-- Prints rows of sixteen bytes, and what is left in a shorter one. -/
def printMemory (c : Console) (start length : UInt16) : ExceptT Wreck m Unit :=
  (List.range ((length.toNat + 15) / 16)).forM fun k => do
    let row ← memoryRow c (start + UInt16.ofNat (16 * k)) (min 16 (length.toNat - 16 * k))
    Terminal.printLine row

/-- Does what is asked for. -/
def perform (c : Console) : Request → ExceptT Wreck m Console
  | .help => do
    Terminal.print help
    return c
  | .step count => traceSteps c count
  | .frame count => do
    let c ← c.runFrames count
    Terminal.printLine ("Ran " ++ toString count ++ " frame(s); frame #" ++
      toString c.machine.ppu.frameCount)
    Terminal.printLine c.traceLine
    return c
  | .registers => do
    Terminal.print (registersView c)
    return c
  | .memory start length => do
    printMemory c start length
    return c
  | .memoryUsage => do
    Terminal.printLine "Usage: mem <addr> [len]"
    return c
  | .picture => do
    Terminal.print (pictureView c)
    return c
  | .board => do
    Terminal.printLine ("Mapper: " ++ c.boardState)
    return c
  | .events count => do
    (c.latestEvents count).forM fun event => Terminal.printLine ("  " ++ event)
    return c
  | .reset => do
    let c ← c.reset
    Terminal.printLine c.traceLine
    return c
  | .quit => do
    Terminal.printLine "Goodbye!"
    return c
  | .unknown word => do
    Terminal.printLine
      ("Unknown command: " ++ word ++ ". Type 'help' for available commands.")
    return c

/-- Answers a line; tells whether the conversation goes on. -/
def answer (c : Console) (line : List UInt8) : Command m (Bool × Console) := do
  match String.fromUTF8? ⟨line.toArray⟩ with
  | none =>
    c.cartridge.persist
    fail (.ofFile "failed to read command" .invalidText)
  | some line =>
    match Request.ofLine? line with
    | none => return (true, c)
    | some request => return (request != .quit, ← running (perform c request))

/-- Asks for the next line. -/
def ask : m Unit := Terminal.print "> "

/-- Talks with a user who types some lines. -/
def converse (c : Console) : List (List UInt8) → Command m Console
  | [] => do
    ask
    return c
  | line :: rest => do
    ask
    let (goesOn, c) ← answer c line
    if goesOn then converse c rest else return c

/-! ## The command -/

/-- What the arguments choose. -/
structure Options where
  rom : Option Path := none
  settings : Settings := {}
  verbosity : Nat := 0

/-- Reads the arguments. -/
def readArguments (o : Options) : List String → Command m Options
  | [] => return o
  | ["--config"] => fail ⟨"--config requires a JSON file path", []⟩
  | "--config" :: path :: rest => do
    let settings ← readSettings ⟨path⟩
    readArguments { o with settings } rest
  | "-v" :: rest => readArguments { o with verbosity := o.verbosity + 1 } rest
  | rom :: rest => readArguments { o with rom := some ⟨rom⟩ } rest

/-- Greets the user and loads the game. Without a game there is only help. -/
def start (arguments : List String) : Command m Console := do
  Terminal.print "dotclock NES Debugger\n=====================\n\n"
  let o ← readArguments {} arguments
  Terminal.showUpTo (.ofVerbosity o.verbosity)
  match o.rom with
  | none =>
    Terminal.print ("Usage: dotclock_debug [--config <file>] [-v] <rom.nes>\n\n" ++ help)
    throw (.exit 0)
  | some rom =>
    Terminal.printLine ("Loading ROM: " ++ rom.text)
    let c ← consoleWith o.settings rom
    Terminal.printLine "ROM loaded successfully!"
    Terminal.printLine ("Mapper: " ++ c.boardName ++ " (" ++ c.tv.name ++ ")\n")
    Terminal.printLine ("Initial state:\n" ++ c.traceLine ++ "\n")
    Terminal.printLine "Type 'help' for commands"
    return c

/-- Debugs a game for a user whose lines are known beforehand. -/
def run (arguments : List String) (input : List UInt8) : Command m Unit := do
  let c ← start arguments
  let c ← converse c (Text.byteLines input)
  c.cartridge.persist

end NesMachine.Cli.Debugger
