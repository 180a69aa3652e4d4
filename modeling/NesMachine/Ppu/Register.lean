import NesMachine.Ppu.Memory

/-!
# The registers of the picture unit

Eight registers, of which the processor sees many copies. A register that does not answer reads as
the last value on their bus. Reading the status register has side effects; `peek` has none.
-/

namespace NesMachine

open Board (Fault)

namespace Ppu

/-- The register that an address selects. -/
def registerOf (addr : UInt16) : Nat := (addr &&& 7).toNat

/-- The status register: three flags over the last value on the bus. -/
def statusByte (p : Ppu) : UInt8 := (p.status &&& 0xE0) ||| (p.openBus &&& 0x1F)

/-- Reads the data register. Palettes are delivered at once; anything else goes through the read
buffer, which then holds the byte at the address, or the nametable byte beneath a palette. -/
def readData (p : Ppu) (slot : Slot) : Except Fault (UInt8 × Ppu) := do
  let addr := p.scroll.v &&& 0x3FFF
  let scroll := p.scroll.afterAccess p.accessStep
  let value ← p.readMemory slot addr
  if 0x3F00 ≤ addr then
    let beneath ← p.readMemory slot (addr - 0x1000)
    return (value, { p with readBuffer := beneath, scroll })
  else return (p.readBuffer, { p with readBuffer := value, scroll })

/-- Reads a register. -/
def readRegister (p : Ppu) (slot : Slot) (addr : UInt16) : Except Fault (UInt8 × Ppu) := do
  let (value, p) ← match registerOf addr with
    | 2 => pure (p.statusByte,
        { p with status := p.status &&& 0x7F, scroll := { p.scroll with secondWrite := false } })
    | 4 => pure (p.oam.read p.oamAddr, p)
    | 7 => p.readData slot
    | _ => pure (p.openBus, p)
  return (value, { p with openBus := value })

/-- What a register would show, without side effects. -/
def peek (p : Ppu) (addr : UInt16) : UInt8 :=
  match registerOf addr with
  | 2 => p.statusByte
  | 4 => p.oam.read p.oamAddr
  | 7 => p.readBuffer
  | _ => p.openBus

/-- Writes the control register. Enabling the interrupt within the vertical blank raises it. -/
def writeCtrl (p : Ppu) (value : UInt8) : Ppu :=
  let raises := !p.nmiEnabled && value &&& 0x80 ≠ 0 && p.inVblank
  { p with ctrl := value, scroll := p.scroll.writeControl value, nmi := p.nmi || raises }

/-- Writes a byte of object memory. -/
def writeOam (p : Ppu) (value : UInt8) : Ppu :=
  let addr := p.oamAddr
  { p with oam := p.oam.write addr value, oamAddr := addr + 1 }

/-- Writes the data register. -/
def writeData (p : Ppu) (slot : Slot) (value : UInt8) : Except (Fault × Slot) (Ppu × Slot) := do
  let (p, slot) ← p.writeMemory slot (p.scroll.v &&& 0x3FFF) value
  return ({ p with scroll := p.scroll.afterAccess p.accessStep }, slot)

/-- Writes a register. A fault gives the slot back as it was. -/
def writeRegister (p : Ppu) (slot : Slot) (addr : UInt16) (value : UInt8) :
    Except (Fault × Slot) (Ppu × Slot) :=
  let p := { p with openBus := value }
  match registerOf addr with
  | 0 => .ok (p.writeCtrl value, slot)
  | 1 => .ok ({ p with mask := value }, slot)
  | 3 => .ok ({ p with oamAddr := value }, slot)
  | 4 => .ok (p.writeOam value, slot)
  | 5 => .ok ({ p with scroll := p.scroll.writeScroll value }, slot)
  | 6 => .ok ({ p with scroll := p.scroll.writeAddress value }, slot)
  | 7 => p.writeData slot value
  | _ => .ok (p, slot)

end Ppu

end NesMachine
