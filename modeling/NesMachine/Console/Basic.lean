import NesMachine.Cartridge
import NesMachine.Machine.Execute
import NesMachine.Settings.Basic
import NesMachine.Trace

/-!
# The console

A machine with its settings: it loads games, runs them, remembers what happened, and hands finished
pictures to a screen. A run can end in a wreck, of which only the cartridge is left.
-/

namespace NesMachine

open Digest (Bytes)

/-- Where failures are recorded. -/
inductive ErrorLog where
  | off
  /-- Lines with a time stamp at the end of a file. -/
  | file (path : Path)
  /-- Messages kept in memory, newest first. -/
  | memory (messages : List String)
  deriving DecidableEq, Repr, Inhabited

/-- What a screen has seen. -/
structure Screen where
  pictures : Nat := 0
  last : Option Frame := none

/-- Why a console broke down. -/
inductive Breakdown where
  /-- The board was asked for a byte that it does not have. -/
  | board (fault : Board.Fault)
  /-- A ROM file whose section would start behind its end. -/
  | sectionPastEnd
  /-- More events were to be remembered than memory can hold. -/
  | eventCapacity
  deriving DecidableEq, Repr

/-- What is left of a console that broke down. -/
structure Wreck where
  breakdown : Breakdown
  cartridge : Cartridge

/-- A console. -/
structure Console where
  machine : Machine := {}
  saveDir : Option Path := none
  saveFile : Option Path := none
  settings : Settings := {}
  tv : TvSystem := .ntsc
  errorLog : ErrorLog := .off
  /-- What happened, newest first. -/
  events : List String := []
  screen : Screen := {}

namespace Console

/-- The most events that memory can hold: an entry takes 24 bytes of an address space of 63 bits. -/
def maxEvents : Nat := (Nat.pow 2 63 - 1) / 24

/-- A console with the given settings and an empty slot. -/
def ofSettings (settings : Settings) : Except Wreck Console :=
  if settings.eventCapacity.toNat > maxEvents then .error ⟨.eventCapacity, {}⟩
  else .ok {
    saveDir := settings.saveDir
    settings
    tv := settings.tv.getD .ntsc
    errorLog := match settings.errorLog with
      | some path => .file path
      | none => .off }

/-! ## What it shows -/

/-- Whether a game is in the slot. -/
def hasGame (c : Console) : Bool := c.machine.slot.isSome

/-- The slot and the files behind it. -/
def cartridge (c : Console) : Cartridge := ⟨c.machine.slot, c.saveDir, c.saveFile⟩

/-- The name of the game's board. -/
def boardName (c : Console) : String :=
  match c.machine.slot with
  | some board => Board.mapperName board.image.header.mapper
  | none => "No ROM loaded"

/-- The bank selection of the game's board. -/
def boardState (c : Console) : String :=
  match c.machine.slot with
  | some board => if board.describe.isEmpty then c.boardName else board.describe
  | none => "No mapper"

/-- The record of the machine as it is now. -/
def record (c : Console) : Trace.Record := .ofMachine c.machine

/-- The trace line of the machine as it is now. -/
def traceLine (c : Console) : String := c.record.line

/-- The byte at an address, without side effects. -/
def peek (c : Console) (addr : UInt16) : Except Wreck UInt8 :=
  (c.machine.peek addr).mapError fun fault => ⟨.board fault, c.cartridge⟩

/-- The latest events, newest first. -/
def latestEvents (c : Console) (count : Nat) : List String := c.events.take count

/-! ## What is done to it -/

/-- Remembers an event and forgets the oldest beyond the capacity. -/
def remember (c : Console) (event : String) : Console :=
  { c with events := (event :: c.events).take c.settings.eventCapacity.toNat }

/-- Attaches a screen that has seen nothing. -/
def attachScreen (c : Console) : Console :=
  { c with machine := { c.machine with screen := true }, screen := {} }

/-- Sets the buttons held on the pad. -/
def setButtons (c : Console) (buttons : UInt8) : Console :=
  { c with machine := { c.machine with pad := c.machine.pad.setButtons buttons } }

/-- Sets the level of the maskable interrupt. -/
def setIrq (c : Console) (irq : Bool) : Console :=
  { c with machine := { c.machine with cpu := { c.machine.cpu with irq } } }

/-- Sets the program counter. -/
def setPc (c : Console) (pc : UInt16) : Console :=
  { c with machine := { c.machine with
      cpu := c.machine.cpu.mapRegisters fun r => { r with pc } } }

/-- Hands the pictures the machine has shown to the screen. -/
def present (c : Console) : Console :=
  match c with
  | ⟨machine, saveDir, saveFile, settings, tv, errorLog, events, screen⟩ =>
    match machine.shown with
    | [] => ⟨machine, saveDir, saveFile, settings, tv, errorLog, events, screen⟩
    | newest :: older =>
      ⟨{ machine with shown := [] }, saveDir, saveFile, settings, tv, errorLog, events,
        { pictures := screen.pictures + older.length + 1, last := some newest }⟩

variable {m : Type → Type} [Monad m] [Host m]

/-- The journal entry of a notice. -/
def entryOf : Notice → JournalEntry
  | .reset pc => ⟨.debug, .cpu, "CPU reset -> PC=$" ++ Radix.wordHex pc⟩
  | .serviced .nmi pc => ⟨.trace, .cpu, "Nmi serviced -> PC=$" ++ Radix.wordHex pc⟩
  | .serviced .irq pc => ⟨.trace, .cpu, "Irq serviced -> PC=$" ++ Radix.wordHex pc⟩

/-- Writes notices to the journal; they are given newest first. -/
def noteAll (notices : List Notice) : m Unit :=
  notices.reverse.forM fun notice => Host.note (entryOf notice)

/-- Lets the machine run. Its notices go to the journal and its pictures to the screen. -/
def run {α : Type} (part : Machine.Run α) (c : Console) : ExceptT Wreck m (α × Console) :=
  match c with
  | ⟨machine, saveDir, saveFile, settings, tv, errorLog, events, screen⟩ =>
    match part machine with
    | .ok (result, machine) => do
      noteAll machine.notices
      let c : Console := ⟨{ machine with notices := [] }, saveDir, saveFile, settings, tv,
        errorLog, events, screen⟩
      return (result, c.present)
    | .error crash => do
      noteAll crash.notices
      throw ⟨.board crash.fault, ⟨crash.slot, saveDir, saveFile⟩⟩

/-- Runs one frame; without a game nothing runs. -/
def runFrame (c : Console) : ExceptT Wreck m Console := do
  if c.hasGame then return (← run Machine.runFrame c).2 else return c

/-- Runs several frames. -/
def runFrames (c : Console) : Nat → ExceptT Wreck m Console
  | 0 => return c
  | n + 1 => do runFrames (← c.runFrame) n

/-- Runs one step and gives the cycles it took; without a game nothing runs. -/
def step (c : Console) : ExceptT Wreck m (Nat × Console) := do
  if c.hasGame then
    let before := c.machine.cpu.cycles
    let ((), c) ← run Machine.step c
    return (c.machine.cpu.cycles - before, c)
  else return (0, c)

/-- The reset line of the machine: picture unit first, then the processor. -/
def resetMachine : Machine.Run Unit := do
  modify fun m => { m with ppu := m.ppu.reset }
  Machine.resetCpu

/-- Presses reset; without a game nothing happens. -/
def reset (c : Console) : ExceptT Wreck m Console := do
  if c.hasGame then
    let ((), c) ← run resetMachine c
    return c.remember ("CPU reset, PC=$" ++ Radix.wordHex c.machine.cpu.registers.pc)
  else return c

/-- Records a failure. -/
def recordFailure (c : Console) (text : String) : m Console := do
  match c.errorLog with
  | .off => return c
  | .memory messages => return { c with errorLog := .memory (text :: messages) }
  | .file path =>
    let seconds := (← Host.clock) / 1000
    let line := "[" ++ toString seconds ++ "] " ++ text ++ "\n"
    if let .error e ← Host.appendFile path line.toUTF8.data then
      Host.log .warn .errorLog ("could not append to " ++ path.text ++ ": " ++ e.message)
    return c

/-- Switches the machine on with a game in the slot: a new processor, and a reset of all. -/
def powerOn (c : Console) : ExceptT Wreck m Console :=
  let tv := c.settings.tv.getD c.machine.slot.tv
  reset { c with
    tv
    machine := { c.machine with cpu := ({} : Cpu).setTv tv, ppu := c.machine.ppu.setTv tv } }

/-- Puts a cartridge that was loaded from `source` to use. -/
def install (c : Console) (source : String) (cartridge : Cartridge) : ExceptT Wreck m Console := do
  let c ← powerOn { c with
    machine := { c.machine with slot := cartridge.slot }
    saveFile := cartridge.saveFile }
  return c.remember ("ROM loaded: " ++ source ++ " (" ++ c.boardName ++ ")")

/-- Reports that nothing was loaded from `source`. -/
def refuse (c : Console) (source : String) (error : LoadError) : m Console := do
  let text := "failed to load " ++ source ++ ": " ++ error.message
  Host.log .error .console text
  let c ← c.recordFailure text
  return c.remember text

/-- Ends an attempt to load a game from `source`. -/
def finishLoad (c : Console) (source : String) (outcome : Except LoadFailure Cartridge) :
    ExceptT Wreck m (Except LoadError Unit × Console) := do
  match outcome with
  | .ok cartridge => return (.ok (), ← c.install source cartridge)
  | .error (.refused error) => return (.error error, ← c.refuse source error)
  | .error .sectionPastEnd => throw ⟨.sectionPastEnd, c.cartridge⟩

/-- Loads a game from a ROM file. -/
def loadFile (c : Console) (path : Path) : ExceptT Wreck m (Except LoadError Unit × Console) := do
  c.finishLoad path.text (← c.cartridge.load path)

/-- Loads a game from the bytes of a ROM file; it has no save file. -/
def loadBytes (c : Console) (bytes : Bytes) (name : String) :
    ExceptT Wreck m (Except LoadError Unit × Console) := do
  c.finishLoad name (← c.cartridge.loadBytes bytes none)

/-- Takes the game out of the slot. -/
def unload (c : Console) : m Console := do
  let cartridge ← c.cartridge.unload
  return { c with
    machine := { c.machine with slot := cartridge.slot }
    saveFile := cartridge.saveFile }.remember "ROM unloaded"

end Console

end NesMachine
