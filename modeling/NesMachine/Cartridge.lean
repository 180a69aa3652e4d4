import NesMachine.Board.Slot
import NesMachine.Host

/-!
# Cartridges and their save files

The slot together with the file behind it. A game with a battery keeps its work memory in a save
file: it is restored when the game is loaded and written when the game leaves the slot. A load that
fails gives no cartridge, so nothing changes.
-/

namespace NesMachine

open Digest (Bytes)

/-- Why a game cannot be loaded. -/
inductive LoadError where
  | notFound (path : Path)
  | unreadable (path : Path) (cause : Files.Error)
  | invalid (error : Rom.Error)
  | unsupported (mapper : UInt8)
  deriving DecidableEq, Repr

namespace LoadError

/-- The text of an error. -/
def message : LoadError → String
  | notFound path => "ROM file not found: " ++ path.text
  | unreadable path cause => "failed to read ROM " ++ path.text ++ ": " ++ cause.message
  | invalid error => error.message
  | unsupported mapper => "mapper " ++ toString mapper.toNat ++ " not supported"

/-- The text of what lies behind an error. -/
def cause? : LoadError → Option String
  | unreadable _ cause => some cause.message
  | _ => none

end LoadError

/-- How an attempt to load a game ends without one. -/
inductive LoadFailure where
  /-- The game was refused. -/
  | refused (error : LoadError)
  /-- The file broke the reader: a section would start behind its end. -/
  | sectionPastEnd
  deriving DecidableEq, Repr

/-- How a broken ROM file shows when a game is loaded. -/
def LoadFailure.ofRom : Rom.Failure → LoadFailure
  | .refused error => .refused (.invalid error)
  | .sectionPastEnd => .sectionPastEnd

/-- A cartridge slot and the files behind it. -/
structure Cartridge where
  slot : Slot := none
  /-- The directory of save files, if they are not kept beside the games. -/
  saveDir : Option Path := none
  /-- The save file of the game in the slot. -/
  saveFile : Option Path := none

namespace Cartridge

/-- The extension of save files. -/
def saveExtension : String := "prgram"

/-- Where the save file of a game belongs. -/
def savePathFor (saveDir : Option Path) (rom : Path) : Path :=
  match saveDir with
  | some dir => dir.join ⟨String.ofList rom.stem ++ "." ++ saveExtension⟩
  | none => rom.withExtension saveExtension

/-- Reads a ROM file and puts the game on its board. -/
def boardOf (bytes : Bytes) : Except LoadFailure Board := do
  let image ← (Rom.Image.parse bytes).mapError .ofRom
  match Board.Kind.ofMapper? image.header.mapper with
  | some kind => return .ofImage kind image
  | none => throw (.refused (.unsupported image.header.mapper))

/-- The file and bytes to be saved, if the game in the slot has a battery. -/
def saved? (c : Cartridge) : Option (Path × Bytes) :=
  match c.slot, c.saveFile with
  | some board, some path =>
    if board.image.header.hasBattery && !board.image.prgRam.isEmpty then
      some (path, board.image.prgRam)
    else none
  | _, _ => none

/-- Work memory overwritten from the front by as much of a save file as fits. -/
def overlay (memory saved : Bytes) : Bytes :=
  let length := min saved.size memory.size
  saved.extract 0 length ++ memory.extract length memory.size

/-- A game whose work memory was restored from a save file. -/
def restored (board : Board) (saved : Bytes) : Board :=
  { board with image := { board.image with prgRam := overlay board.image.prgRam saved } }

/-- A game in one line. -/
def describe (board : Board) : String :=
  let { header, chr, chrIsRam, prgRam, .. } := board.image
  "cartridge loaded: " ++ Board.mapperName header.mapper ++ " (mapper " ++
    toString header.mapper.toNat ++ "), " ++ header.format.name ++ ", PRG " ++
    toString (header.prgSize / 1024) ++ " KB, CHR " ++ toString (chr.size / 1024) ++ " KB" ++
    (if chrIsRam then " (RAM)" else "") ++ ", PRG-RAM " ++ toString (prgRam.size / 1024) ++
    " KB, " ++ header.tv.name ++ ", " ++ header.mirroring.name

variable {m : Type → Type} [Monad m] [Host m]

/-- Writes a save file, and the directory for it if that is missing. -/
def writeSave (path : Path) (bytes : Bytes) : m Unit := do
  if let some dir := path.parent?.filter (!·.text.isEmpty) then
    if let .error e ← Host.createDirs dir then
      Host.log .warn .cartridge
        ("could not create save directory " ++ dir.text ++ ": " ++ e.message)
      return
  match ← Host.writeFile path bytes with
  | .ok () =>
    Host.log .info .cartridge
      ("saved " ++ toString bytes.size ++ " bytes of PRG-RAM to " ++ path.text)
  | .error e =>
    Host.log .warn .cartridge ("could not write save file " ++ path.text ++ ": " ++ e.message)

/-- Writes the work memory of a game with a battery to its save file. -/
def persist (c : Cartridge) : m Unit :=
  match c.saved? with
  | some (path, bytes) => writeSave path bytes
  | none => pure ()

/-- Takes the game out of the slot. -/
def unload (c : Cartridge) : m Cartridge := do
  c.persist
  if c.slot.isSome then Host.log .debug .cartridge "cartridge unloaded"
  return { c with slot := none, saveFile := none }

/-- Restores work memory from a save file, if there is one. -/
def restore (board : Board) (path : Path) : m Board := do
  match ← Host.readFile path with
  | .ok saved =>
    Host.log .info .cartridge ("restored " ++ toString (min saved.size board.image.prgRam.size) ++
      " bytes of PRG-RAM from " ++ path.text)
    return restored board saved
  | .error .notFound => return board
  | .error e =>
    Host.log .warn .cartridge ("could not read save file " ++ path.text ++ ": " ++ e.message)
    return board

/-- Replaces the game in the slot. The game that leaves is saved before the save file of the new
one is read, since they may share it. -/
def insert (c : Cartridge) (board : Board) (saveFile : Option Path) : m Cartridge := do
  let c ← c.unload
  let board ← match saveFile with
    | some path => restore board path
    | none => pure board
  Host.log .info .cartridge (describe board)
  return { c with slot := some board, saveFile }

/-- Loads a game from the bytes of a ROM file. -/
def loadBytes (c : Cartridge) (bytes : Bytes) (saveFile : Option Path) :
    m (Except LoadFailure Cartridge) := do
  match boardOf bytes with
  | .ok board => return .ok (← c.insert board saveFile)
  | .error failure => return .error failure

/-- Loads a game from a ROM file. -/
def load (c : Cartridge) (path : Path) : m (Except LoadFailure Cartridge) := do
  match ← Host.readFile path with
  | .ok bytes => c.loadBytes bytes (some (savePathFor c.saveDir path))
  | .error .notFound => return .error (.refused (.notFound path))
  | .error e => return .error (.refused (.unreadable path e))

end Cartridge

end NesMachine
