import NesMachine.Digest.Sha1
import NesMachine.Text.Radix

/-!
# Board faults

A board selects banks without regard to how many the game has. Reaching outside of a memory is a
fault that ends the run; it is never wrapped onto another bank.
-/

namespace NesMachine.Board

open Digest (Bytes)

/-- The boards that are supported. -/
inductive Kind where
  | nrom
  | mmc1
  | uxrom
  | cnrom
  | axrom
  deriving DecidableEq, Repr, Inhabited

namespace Kind

/-- The board that a header's mapper number names. -/
def ofMapper? (mapper : UInt8) : Option Kind :=
  match mapper.toNat with
  | 0 => some nrom
  | 1 => some mmc1
  | 2 => some uxrom
  | 3 => some cnrom
  | 7 => some axrom
  | _ => none

/-- The name used in reports. -/
def name : Kind → String
  | nrom => "NROM"
  | mmc1 => "MMC1"
  | uxrom => "UxROM"
  | cnrom => "CNROM"
  | axrom => "AxROM"

end Kind

/-- The name of the board behind a mapper number. -/
def mapperName (mapper : UInt8) : String :=
  match Kind.ofMapper? mapper with
  | some kind => kind.name
  | none => "Unsupported"

/-- The memories on a board. -/
inductive Region where
  | prg
  | prgRam
  | chr
  deriving DecidableEq, Repr, Inhabited

/-- The name used in reports. -/
def Region.name : Region → String
  | prg => "PRG"
  | prgRam => "PRG-RAM"
  | chr => "CHR"

/-- An access outside of a memory. -/
structure Fault where
  board : Kind
  region : Region
  offset : Nat
  size : Nat
  deriving DecidableEq, Repr

/-- The text of a fault. -/
def Fault.message (fault : Fault) : String :=
  fault.board.name ++ ": " ++ fault.region.name ++ " offset $" ++ Radix.hex fault.offset ++
    " outside $" ++ Radix.hex fault.size ++ "-byte array (header/ROM size mismatch)"

/-- The byte at an offset of a memory. -/
def fetch (board : Kind) (region : Region) (memory : Bytes) (offset : Nat) : Except Fault UInt8 :=
  if h : offset < memory.size then .ok memory[offset]
  else .error ⟨board, region, offset, memory.size⟩

/-- The memory with one byte replaced; a fault gives the memory back as it was. -/
def place (board : Kind) (region : Region) (memory : Bytes) (offset : Nat) (value : UInt8) :
    Except (Fault × Bytes) Bytes :=
  if h : offset < memory.size then .ok (memory.set offset value)
  else .error (⟨board, region, offset, memory.size⟩, memory)

end NesMachine.Board
