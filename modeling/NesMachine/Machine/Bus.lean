import NesMachine.Machine.Clock

/-!
# The bus

The address space of the processor: work memory below `$2000`, the registers of the picture unit
below `$4000`, the controller pad and the transfer of object memory below `$4020`, the cartridge
above. Every access takes a cycle, which passes before the access. `peek` looks without a cycle and
without side effects.
-/

namespace NesMachine.Machine

/-- Reads a register of the picture unit. -/
def readPpu (addr : UInt16) : Run UInt8 := fun m =>
  match m with
  | ⟨cpu, ppu, slot, pad, screen, shown, notices⟩ =>
    match ppu.readRegister slot addr with
    | .ok (value, ppu) => .ok (value, ⟨cpu, ppu, slot, pad, screen, shown, notices⟩)
    | .error fault => .error ⟨fault, slot, notices⟩

/-- Writes a register of the picture unit. -/
def writePpu (addr : UInt16) (value : UInt8) : Run Unit := fun m =>
  match m with
  | ⟨cpu, ppu, slot, pad, screen, shown, notices⟩ =>
    match ppu.writeRegister slot addr value with
    | .ok (ppu, slot) => .ok ((), ⟨cpu, ppu, slot, pad, screen, shown, notices⟩)
    | .error (fault, slot) => .error ⟨fault, slot, notices⟩

/-- Reads the controller pad. -/
def readPad : Run UInt8 :=
  modifyGet fun m =>
    let (value, pad) := m.pad.read
    (value, { m with pad })

/-- Reads the cartridge. -/
def readCartridge (addr : UInt16) : Run UInt8 := fun m =>
  match m.slot.readPrg addr with
  | .ok value => .ok (value, m)
  | .error fault => m.crash fault

/-- Writes the cartridge. -/
def writeCartridge (addr : UInt16) (value : UInt8) : Run Unit := fun m =>
  match m with
  | ⟨cpu, ppu, slot, pad, screen, shown, notices⟩ =>
    match slot.writePrg addr value with
    | .ok slot => .ok ((), ⟨cpu, ppu, slot, pad, screen, shown, notices⟩)
    | .error (fault, slot) => .error ⟨fault, slot, notices⟩

/-- What answers a read at an address, the cycle apart. -/
def fetchBus (addr : UInt16) : Run UInt8 :=
  if addr < 0x2000 then return (← get).cpu.readRam addr
  else if addr < 0x4000 then readPpu addr
  else if addr = 0x4016 then readPad
  else if addr < 0x4020 then pure 0
  else readCartridge addr

/-- A read. -/
def read (addr : UInt16) : Run UInt8 := do
  cycle
  fetchBus addr

/-- The address that a read of a byte of object memory through the transfer comes from. -/
def transferSource (page : UInt8) (k : Nat) : UInt16 := page.toUInt16 * 256 + UInt16.ofNat k

/-- Copies `count` bytes of a page, from offset `k` on, into object memory: a read and a write each.
-/
def transferBytes (page : UInt8) (k : Nat) : Nat → Run Unit
  | 0 => pure ()
  | count + 1 => do
    let value ← read (transferSource page k)
    cycle
    writePpu 4 value
    transferBytes page (k + 1) count

/-- Copies a page into object memory. The transfer waits one cycle, or two from an odd one on. -/
def transferObjects (page : UInt8) : Run Unit := do
  idle (if (← get).cpu.cycles % 2 = 1 then 2 else 1)
  transferBytes page 0 256

/-- What a write at an address does, the cycle apart. -/
def storeBus (addr : UInt16) (value : UInt8) : Run Unit :=
  if addr < 0x2000 then modifyCpu (·.writeRam addr value)
  else if addr < 0x4000 then writePpu addr value
  else if addr = 0x4014 then transferObjects value
  else if addr = 0x4016 then modify fun m => { m with pad := m.pad.writeStrobe value }
  else if addr < 0x4020 then pure ()
  else writeCartridge addr value

/-- A write. -/
def write (addr : UInt16) (value : UInt8) : Run Unit := do
  cycle
  storeBus addr value

/-- The byte at an address, without a cycle and without side effects. -/
def peek (m : Machine) (addr : UInt16) : Except Board.Fault UInt8 :=
  if addr < 0x2000 then .ok (m.cpu.readRam addr)
  else if addr < 0x4000 then .ok (m.ppu.peek addr)
  else if addr = 0x4016 then .ok m.pad.peek
  else if addr < 0x4020 then .ok 0
  else m.slot.readPrg addr

end NesMachine.Machine
