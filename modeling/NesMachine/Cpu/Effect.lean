import NesMachine.Cpu.Opcode
import NesMachine.Cpu.Registers

/-!
# What operations do

The 56 operations fall into a few classes that use the bus in the same way. Within a class they
differ only in a function on the registers.
-/

namespace NesMachine.Cpu

/-- A class of operations, with the function on the registers that tells its members apart. -/
inductive Effect where
  /-- Reads the operand. -/
  | read (apply : Registers → UInt8 → Registers)
  /-- Writes a register to the operand. -/
  | store (value : Registers → UInt8)
  /-- Reads the operand and writes it back. -/
  | modify (apply : Registers → UInt8 → Registers.Modified)
  /-- Stays within the registers. -/
  | registers (apply : Registers → Registers)
  /-- Jumps if a condition holds. -/
  | branch (taken : Registers → Bool)
  /-- Pushes a byte. -/
  | push (value : Registers → UInt8)
  /-- Pulls a byte. -/
  | pull (apply : Registers → UInt8 → Registers)
  /-- Jumps. -/
  | jump
  /-- Jumps and pushes the way back. -/
  | call
  /-- Returns from a call. -/
  | leave
  /-- Returns from an interrupt. -/
  | leaveInterrupt
  /-- Interrupts itself. -/
  | softwareInterrupt

/-- The class of an operation. -/
def Op.effect : Op → Effect
  | lda => .read Registers.loadA
  | ldx => .read Registers.loadX
  | ldy => .read Registers.loadY
  | adc => .read Registers.adc
  | sbc => .read Registers.sbc
  | and => .read Registers.and
  | ora => .read Registers.ora
  | eor => .read Registers.eor
  | bit => .read Registers.bit
  | cmp => .read fun r => r.compare r.a
  | cpx => .read fun r => r.compare r.x
  | cpy => .read fun r => r.compare r.y
  | nop => .read fun r _ => r
  | sta => .store (·.a)
  | stx => .store (·.x)
  | sty => .store (·.y)
  | asl => .modify Registers.asl
  | lsr => .modify Registers.lsr
  | rol => .modify Registers.rol
  | ror => .modify Registers.ror
  | inc => .modify Registers.inc
  | dec => .modify Registers.dec
  | inx => .registers fun r => r.loadX (r.x + 1)
  | iny => .registers fun r => r.loadY (r.y + 1)
  | dex => .registers fun r => r.loadX (r.x - 1)
  | dey => .registers fun r => r.loadY (r.y - 1)
  | tax => .registers fun r => r.loadX r.a
  | tay => .registers fun r => r.loadY r.a
  | tsx => .registers fun r => r.loadX r.sp
  | txa => .registers fun r => r.loadA r.x
  | tya => .registers fun r => r.loadA r.y
  | txs => .registers Registers.transferXToSp
  | clc => .registers (·.setFlag .carry false)
  | cld => .registers (·.setFlag .decimal false)
  | cli => .registers (·.setFlag .interruptDisable false)
  | clv => .registers (·.setFlag .overflow false)
  | sec => .registers (·.setFlag .carry true)
  | sed => .registers (·.setFlag .decimal true)
  | sei => .registers (·.setFlag .interruptDisable true)
  | bcc => .branch fun r => !r.flag .carry
  | bcs => .branch (·.flag .carry)
  | bne => .branch fun r => !r.flag .zero
  | beq => .branch (·.flag .zero)
  | bpl => .branch fun r => !r.flag .negative
  | bmi => .branch (·.flag .negative)
  | bvc => .branch fun r => !r.flag .overflow
  | bvs => .branch (·.flag .overflow)
  | jmp => .jump
  | jsr => .call
  | rts => .leave
  | rti => .leaveInterrupt
  | brk => .softwareInterrupt
  | pha => .push (·.a)
  | php => .push Registers.statusPushed
  | pla => .pull Registers.loadA
  | plp => .pull Registers.pullStatus

end NesMachine.Cpu
