import NesMachine.Cpu.State
import NesMachine.Pad
import NesMachine.Ppu.Register
import NesMachine.Ppu.Dot

/-!
# The machine

The processor, the picture unit, the cartridge slot and the controller pad on one bus, with what
the machine has shown and reported so far. A board fault ends a run; the cartridge and the reports
outlive it.
-/

namespace NesMachine

open Board (Fault)

/-- The interrupts that come from outside of the program. -/
inductive Interrupt where
  | nmi
  | irq
  deriving DecidableEq, Repr, Inhabited

/-- Something that the machine reports about itself. -/
inductive Notice where
  /-- The processor was reset and continues at `pc`. -/
  | reset (pc : UInt16)
  /-- An interrupt was serviced and its handler starts at `pc`. -/
  | serviced (interrupt : Interrupt) (pc : UInt16)
  deriving DecidableEq, Repr

/-- The machine. -/
structure Machine where
  cpu : Cpu := {}
  ppu : Ppu := {}
  slot : Slot := none
  pad : Pad := {}
  /-- Whether anybody looks at the pictures. -/
  screen : Bool := false
  /-- The pictures shown, newest first. -/
  shown : List Frame := []
  /-- The reports made, newest first. -/
  notices : List Notice := []

/-- The end of a run by a fault, with what outlives the machine. -/
structure Crash where
  fault : Fault
  slot : Slot
  notices : List Notice

namespace Machine

/-- A part of a run. -/
abbrev Run := StateT Machine (Except Crash)

/-- Ends the run. -/
def crash {α : Type} (m : Machine) (fault : Fault) : Except Crash α :=
  .error ⟨fault, m.slot, m.notices⟩

/-- The registers of the processor. -/
def registers : Run Cpu.Registers := return (← get).cpu.registers

/-- Changes the processor. -/
def modifyCpu (f : Cpu → Cpu) : Run Unit := modify fun m => { m with cpu := f m.cpu }

/-- Changes the registers of the processor. -/
def modifyRegisters (f : Cpu.Registers → Cpu.Registers) : Run Unit :=
  modifyCpu (·.mapRegisters f)

/-- Makes a report. -/
def report (notice : Notice) : Run Unit :=
  modify fun m => { m with notices := notice :: m.notices }

end Machine

end NesMachine
