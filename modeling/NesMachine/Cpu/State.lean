import NesMachine.Cpu.Registers
import NesMachine.TvSystem

/-!
# The processor

Its registers, its 2 KB of work memory, its interrupt inputs, and its clock. Three dots of the
picture pass in a cycle, and on PAL one more in every fifth.
-/

namespace NesMachine

/-- Work memory. -/
abbrev WorkMemory := Vector UInt8 0x800

/-- The processor. -/
structure Cpu where
  registers : Cpu.Registers := {}
  ram : WorkMemory := Vector.replicate 0x800 0
  /-- Cycles left in the current frame; negative when the last instruction ran over. -/
  remaining : Int := 0
  /-- Cycles since power-on. -/
  cycles : Nat := 0
  /-- An edge on the non-maskable input that was not serviced yet. -/
  nmi : Bool := false
  /-- The level of the maskable input. -/
  irq : Bool := false
  tv : TvSystem := .ntsc
  /-- Cycles since the last extra dot. -/
  palPhase : Nat := 0
  deriving Repr

namespace Cpu

/-- Sets the television system, which decides the dots per cycle. -/
def setTv (c : Cpu) (tv : TvSystem) : Cpu := { c with tv, palPhase := 0 }

/-- The memory cell behind an address below `$2000`: the memory repeats every 2 KB. -/
def ramCell (addr : UInt16) : Fin 0x800 := ⟨addr.toNat % 0x800, by omega⟩

/-- Reads work memory. -/
def readRam (c : Cpu) (addr : UInt16) : UInt8 := c.ram.get (ramCell addr)

/-- Writes work memory. -/
def writeRam (c : Cpu) (addr : UInt16) (value : UInt8) : Cpu :=
  let cell := ramCell addr
  { c with ram := c.ram.set cell.val value cell.isLt }

/-- Counts one cycle and gives the dots that pass in it. -/
def tick (c : Cpu) : Nat × Cpu :=
  match c.tv with
  | .ntsc => (3, { c with cycles := c.cycles + 1, remaining := c.remaining - 1 })
  | .pal =>
    let extra := c.palPhase + 1 = 5
    (if extra then 4 else 3,
      { c with
        cycles := c.cycles + 1
        remaining := c.remaining - 1
        palPhase := if extra then 0 else c.palPhase + 1 })

/-- Changes the registers. -/
def mapRegisters (c : Cpu) (f : Registers → Registers) : Cpu :=
  { c with registers := f c.registers }

end Cpu

end NesMachine
