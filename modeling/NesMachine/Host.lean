import NesMachine.Digest.Sha1
import NesMachine.Files.Error
import NesMachine.Files.Path

/-!
# The host

What a console asks of the computer it runs on: files, a clock, and a journal. `Host` names these
services for any monad, so the same console runs on a real computer and on a modelled one.
-/

namespace NesMachine

open Digest (Bytes)

/-- How much a journal entry matters. -/
inductive Level where
  | error
  | warn
  | info
  | debug
  | trace
  deriving DecidableEq, Repr, Inhabited

namespace Level

/-- The tag of a journal entry. -/
def tag : Level → String
  | error => "error"
  | warn => "warn"
  | info => "info"
  | debug => "debug"
  | trace => "trace"

/-- The name used in reports. -/
def name : Level → String
  | error => "Error"
  | warn => "Warn"
  | info => "Info"
  | debug => "Debug"
  | trace => "Trace"

/-- The place in the order from the most to the least important. -/
def rank : Level → Nat
  | error => 0
  | warn => 1
  | info => 2
  | debug => 3
  | trace => 4

/-- The least important level shown when verbosity was asked for `count` times. -/
def ofVerbosity (count : Nat) : Level :=
  match count with
  | 0 => warn
  | 1 => info
  | 2 => debug
  | _ => trace

/-- Whether an entry is shown when `limit` is the least important level shown. -/
def shownAt (level limit : Level) : Bool := level.rank ≤ limit.rank

end Level

/-- The parts of the program that write journal entries. -/
inductive Topic where
  | console
  | cartridge
  | cpu
  | errorLog
  deriving DecidableEq, Repr, Inhabited

/-- The name of a part in the journal. -/
def Topic.name : Topic → String
  | console => "dotclock::nes"
  | cartridge => "dotclock::nes::cartridge"
  | cpu => "dotclock::nes::cpu"
  | errorLog => "dotclock::nes::sink"

/-- A line of the journal. -/
structure JournalEntry where
  level : Level
  topic : Topic
  text : String
  deriving DecidableEq, Repr

/-- The text of a journal line. -/
def JournalEntry.line (e : JournalEntry) : String :=
  "[" ++ e.level.tag ++ "] " ++ e.topic.name ++ ": " ++ e.text

/-- The services of a computer. -/
class Host (m : Type → Type) where
  /-- Reads a whole file. -/
  readFile : Path → m (Except Files.Error Bytes)
  /-- Writes a whole file. -/
  writeFile : Path → Bytes → m (Except Files.Error Unit)
  /-- Writes behind the end of a file, which is made if it is missing. -/
  appendFile : Path → Bytes → m (Except Files.Error Unit)
  /-- Makes a directory and those above it that are missing. -/
  createDirs : Path → m (Except Files.Error Unit)
  /-- Milliseconds since the start of 1970. -/
  clock : m Nat
  /-- Writes a journal entry. -/
  note : JournalEntry → m Unit

/-- A computation that can fail has the services of the one it is built on. -/
instance {ε : Type} {m : Type → Type} [Monad m] [Host m] : Host (ExceptT ε m) where
  readFile path := ExceptT.lift (Host.readFile path)
  writeFile path bytes := ExceptT.lift (Host.writeFile path bytes)
  appendFile path bytes := ExceptT.lift (Host.appendFile path bytes)
  createDirs path := ExceptT.lift (Host.createDirs path)
  clock := ExceptT.lift Host.clock
  note entry := ExceptT.lift (Host.note entry)

namespace Host

variable {m : Type → Type} [Monad m] [Host m]

/-- Writes a journal entry. -/
def log (level : Level) (topic : Topic) (text : String) : m Unit :=
  note ⟨level, topic, text⟩

/-- Reads a whole file as text. -/
def readText (path : Path) : m (Except Files.Error String) := do
  match ← readFile path with
  | .error e => return .error e
  | .ok bytes =>
    match String.fromUTF8? ⟨bytes⟩ with
    | some text => return .ok text
    | none => return .error .invalidText

end Host

end NesMachine
