import NesMachine.Board.Basic

/-!
# The cartridge slot

What the rest of the machine sees of a game. An empty slot reads as zero, ignores writes, and
arranges the nametables horizontally. A write that faults gives the slot back as it was.
-/

namespace NesMachine

/-- The cartridge slot: a board, or nothing. -/
abbrev Slot := Option Board

namespace Slot

open Board (Fault)

/-- What the processor reads at an address from `$4020` up. -/
def readPrg (slot : Slot) (addr : UInt16) : Except Fault UInt8 :=
  match slot with
  | some board => board.readPrg addr
  | none => .ok 0

/-- A processor write at an address from `$4020` up. -/
def writePrg (slot : Slot) (addr : UInt16) (value : UInt8) : Except (Fault × Slot) Slot :=
  match slot with
  | some board =>
    match board.writePrg addr value with
    | .ok board => .ok (some board)
    | .error (fault, board) => .error (fault, some board)
  | none => .ok none

/-- What the picture unit reads at an address below `$2000`. -/
def readChr (slot : Slot) (addr : UInt16) : Except Fault UInt8 :=
  match slot with
  | some board => board.readChr addr
  | none => .ok 0

/-- A picture-unit write at an address below `$2000`. -/
def writeChr (slot : Slot) (addr : UInt16) (value : UInt8) : Except (Fault × Slot) Slot :=
  match slot with
  | some board =>
    match board.writeChr addr value with
    | .ok board => .ok (some board)
    | .error (fault, board) => .error (fault, some board)
  | none => .ok none

/-- The arrangement of the nametables. -/
def mirroring (slot : Slot) : Mirroring :=
  match slot with
  | some board => board.mirroring
  | none => .horizontal

/-- The television system of the game. -/
def tv (slot : Slot) : TvSystem :=
  match slot with
  | some board => board.image.header.tv
  | none => .ntsc

end Slot

end NesMachine
