import NesMachine.Ppu.State

/-!
# The memory behind the picture unit

Patterns come from the cartridge, nametables and palettes from the picture unit itself. Two physical
nametables serve four logical ones as the board arranges them, and the first colour of each sprite
palette is the first colour of a background palette.
-/

namespace NesMachine

open Board (Fault)

namespace Ppu

/-- The palette cell behind an address. -/
def paletteCell (addr : UInt16) : Fin 32 :=
  let index := addr.toNat % 32
  if 16 ≤ index ∧ index % 4 = 0 then ⟨index - 16, by omega⟩ else ⟨index, by omega⟩

/-- The physical nametable behind a logical one. -/
def physicalTable (mirroring : Mirroring) (table : Nat) : Nat :=
  match mirroring with
  | .horizontal => table / 2 % 2
  | .vertical => table % 2
  | .singleScreenA => 0
  | .singleScreenB => 1

/-- The nametable cell behind an address from `$2000` up. -/
def nametableCell (addr : UInt16) (mirroring : Mirroring) : Fin 0x800 :=
  let index := (addr.toNat - 0x2000) % 0x1000
  ⟨physicalTable mirroring (index / 0x400) * 0x400 + index % 0x400, by
    cases mirroring <;> simp only [physicalTable] <;> omega⟩

/-- The colour number in a palette cell, as the mask register lets it through. -/
def readPalette (p : Ppu) (addr : UInt16) : UInt8 :=
  let value := p.palette.get (paletteCell addr)
  if p.greyscale then value &&& 0x30 else value

/-- Reads the 14-bit address space. -/
def readMemory (p : Ppu) (slot : Slot) (addr : UInt16) : Except Fault UInt8 :=
  let addr := addr &&& 0x3FFF
  if addr < 0x2000 then slot.readChr addr
  else if addr < 0x3F00 then .ok (p.nametables.get (nametableCell addr slot.mirroring))
  else .ok (p.readPalette addr)

/-- Writes the 14-bit address space. A fault gives the slot back as it was. -/
def writeMemory (p : Ppu) (slot : Slot) (addr : UInt16) (value : UInt8) :
    Except (Fault × Slot) (Ppu × Slot) :=
  let addr := addr &&& 0x3FFF
  if addr < 0x2000 then (slot.writeChr addr value).map fun slot => (p, slot)
  else if addr < 0x3F00 then
    let cell := nametableCell addr slot.mirroring
    .ok ({ p with nametables := p.nametables.set cell.val value cell.isLt }, slot)
  else
    let cell := paletteCell addr
    .ok ({ p with palette := p.palette.set cell.val value cell.isLt }, slot)

end Ppu

end NesMachine
