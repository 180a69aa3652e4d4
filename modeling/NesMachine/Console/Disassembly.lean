import NesMachine.Console.Basic
import NesMachine.Cpu.Opcode

/-!
# Disassembly

One instruction in text: its bytes, its name and its addressing mode, and the line that traces a
step through it.
-/

namespace NesMachine.Console

/-- The instruction at an address. -/
def disassemble (c : Console) (pc : UInt16) : Except Wreck String := do
  let opcode ← c.peek pc
  let { op, mode } := Cpu.decode opcode
  let operands ← (List.range mode.operandLength).mapM fun k => c.peek (pc + 1 + UInt16.ofNat k)
  let bytes := " ".intercalate ((opcode :: operands).map Radix.byteHex)
  return Radix.padRight 8 bytes ++ " " ++ op.mnemonic ++ " (" ++ mode.name ++ ")"

variable {m : Type → Type} [Monad m] [Host m]

/-- Runs one step and describes it: the machine before it, the instruction, the cycles it took. -/
def tracedStep (c : Console) : ExceptT Wreck m (String × Console) := do
  let before := c.traceLine
  let instruction ← c.disassemble c.machine.cpu.registers.pc
  let (cycles, c) ← c.step
  return (before ++ "  " ++ instruction ++ "  +" ++ toString cycles, c)

end NesMachine.Console
