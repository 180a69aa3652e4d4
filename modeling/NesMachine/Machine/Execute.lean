import NesMachine.Cpu.Effect
import NesMachine.Machine.Bus

/-!
# Running instructions

An instruction is fetched, its operand resolved, its effect performed. Cycles are never looked up:
they add up from the accesses and the idle cycles of these parts. Interrupts are taken between
instructions, and a frame runs instructions until its budget of cycles is used up.
-/

namespace NesMachine.Machine

open Cpu (Registers Op AddrMode Effect)

/-! ## Words and the stack -/

/-- A word of two bytes. -/
def word (low high : UInt8) : UInt16 := (high.toUInt16 <<< 8) ||| low.toUInt16

/-- Whether two addresses lie on the same page. -/
def samePage (a b : UInt16) : Bool := a &&& 0xFF00 = b &&& 0xFF00

/-- Reads a word. -/
def readWord (addr : UInt16) : Run UInt16 := do
  let low ← read addr
  let high ← read (addr + 1)
  return word low high

/-- Reads a word whose two bytes lie in page zero. -/
def readZeroPageWord (addr : UInt8) : Run UInt16 := do
  let low ← read addr.toUInt16
  let high ← read (addr + 1).toUInt16
  return word low high

/-- Fetches the byte under the program counter. -/
def fetchByte : Run UInt8 := do
  let byte ← read (← registers).pc
  modifyRegisters fun r => { r with pc := r.pc + 1 }
  return byte

/-- Fetches the word under the program counter. -/
def fetchWord : Run UInt16 := do
  let low ← fetchByte
  let high ← fetchByte
  return word low high

/-- Where a stack pointer points. -/
def stackAddress (sp : UInt8) : UInt16 := 0x0100 ||| sp.toUInt16

/-- Pushes a byte. -/
def push (value : UInt8) : Run Unit := do
  write (stackAddress (← registers).sp) value
  modifyRegisters fun r => { r with sp := r.sp - 1 }

/-- Pulls a byte. -/
def pull : Run UInt8 := do
  modifyRegisters fun r => { r with sp := r.sp + 1 }
  read (stackAddress (← registers).sp)

/-- Pushes a word, high byte first. -/
def pushWord (value : UInt16) : Run Unit := do
  push (value >>> 8).toUInt8
  push value.toUInt8

/-- Pulls a word. -/
def pullWord : Run UInt16 := do
  let low ← pull
  let high ← pull
  return word low high

/-- Continues at an address. -/
def jumpTo (pc : UInt16) : Run Unit := modifyRegisters fun r => { r with pc }

/-! ## Operands -/

/-- Where an operand is. -/
inductive Operand where
  | none
  | accumulator
  | address (addr : UInt16)
  deriving DecidableEq, Repr

/-- The address `index` bytes behind `base`. Leaving the page costs a cycle; operations that write
always spend it. -/
def indexed (op : Op) (base : UInt16) (index : UInt8) : Run UInt16 := do
  let addr := base + index.toUInt16
  if op.alwaysPaysIndexCycle || !samePage base addr then cycle
  return addr

/-- Fetches the bytes behind the opcode and finds the operand. -/
def resolve (op : Op) (mode : AddrMode) : Run Operand := do
  match mode with
  | .implied =>
    cycle
    return .none
  | .accumulator =>
    cycle
    return .accumulator
  | .immediate =>
    let pc := (← registers).pc
    jumpTo (pc + 1)
    return .address pc
  | .zeroPage => return .address (← fetchByte).toUInt16
  | .zeroPageX =>
    let base ← fetchByte
    cycle
    return .address (base + (← registers).x).toUInt16
  | .zeroPageY =>
    let base ← fetchByte
    cycle
    return .address (base + (← registers).y).toUInt16
  | .absolute => return .address (← fetchWord)
  | .absoluteX =>
    let base ← fetchWord
    return .address (← indexed op base (← registers).x)
  | .absoluteY =>
    let base ← fetchWord
    return .address (← indexed op base (← registers).y)
  | .indirect =>
    let pointer ← fetchWord
    let low ← read pointer
    -- The pointer's high byte comes from the same page.
    let high ← read ((pointer &&& 0xFF00) ||| ((pointer + 1) &&& 0x00FF))
    return .address (word low high)
  | .indexedIndirect =>
    let base ← fetchByte
    cycle
    return .address (← readZeroPageWord (base + (← registers).x))
  | .indirectIndexed =>
    let base ← readZeroPageWord (← fetchByte)
    return .address (← indexed op base (← registers).y)
  | .relative =>
    let offset ← fetchByte
    return .address ((← registers).pc + offset.toInt8.toInt16.toUInt16)

/-- The value of an operand. -/
def load : Operand → Run UInt8
  | .none => pure 0
  | .accumulator => return (← registers).a
  | .address addr => read addr

/-! ## Instructions -/

/-- Where the handler of non-maskable interrupts is named. -/
def nmiVector : UInt16 := 0xFFFA

/-- Where the start of the program is named. -/
def resetVector : UInt16 := 0xFFFC

/-- Where the handler of maskable interrupts is named. -/
def irqVector : UInt16 := 0xFFFE

/-- Performs the effect of an operation on its operand. -/
def perform (effect : Effect) (operand : Operand) : Run Unit := do
  match effect, operand with
  | .read apply, operand =>
    let value ← load operand
    modifyRegisters (apply · value)
  | .store value, .address addr => write addr (value (← registers))
  | .modify apply, .accumulator =>
    modifyRegisters fun r =>
      let (value, r) := apply r r.a
      { r with a := value }
  | .modify apply, .address addr =>
    let value ← read addr
    cycle
    let (value, r) := apply (← registers) value
    modifyRegisters fun _ => r
    write addr value
  | .registers apply, _ => modifyRegisters apply
  | .branch taken, .address target =>
    let r ← registers
    if taken r then
      idle (if samePage r.pc target then 1 else 2)
      jumpTo target
  | .push value, _ => push (value (← registers))
  | .pull apply, _ =>
    cycle
    let value ← pull
    modifyRegisters (apply · value)
  | .jump, .address addr => jumpTo addr
  | .call, .address addr =>
    cycle
    pushWord ((← registers).pc - 1)
    jumpTo addr
  | .leave, _ =>
    cycle
    let addr ← pullWord
    cycle
    jumpTo (addr + 1)
  | .leaveInterrupt, _ =>
    cycle
    let status ← pull
    modifyRegisters (·.pullStatus status)
    jumpTo (← pullWord)
  | .softwareInterrupt, _ =>
    modifyRegisters fun r => { r with pc := r.pc + 1 }
    pushWord (← registers).pc
    push (← registers).statusPushed
    modifyRegisters (·.setFlag .interruptDisable true)
    jumpTo (← readWord irqVector)
  | .store _, _ | .modify _, _ | .branch _, _ | .jump, _ | .call, _ => pure ()

/-- Fetches and executes one instruction. -/
def instruction : Run Unit := do
  let opcode ← fetchByte
  let { op, mode } := Cpu.decode opcode
  let operand ← resolve op mode
  perform op.effect operand

/-! ## Interrupts, steps and frames -/

/-- The vector of an interrupt. -/
def vectorOf : Interrupt → UInt16
  | .nmi => nmiVector
  | .irq => irqVector

/-- Services an interrupt. -/
def service (interrupt : Interrupt) : Run Unit := do
  idle 2
  pushWord (← registers).pc
  push (← registers).statusInterrupted
  modifyRegisters (·.setFlag .interruptDisable true)
  let pc ← readWord (vectorOf interrupt)
  jumpTo pc
  report (.serviced interrupt pc)

/-- The interrupt that is due, if any: an edge before a level, a level only while it is allowed. -/
def due? (cpu : Cpu) : Option Interrupt :=
  if cpu.nmi then some .nmi
  else if cpu.irq && !cpu.registers.flag .interruptDisable then some .irq
  else none

/-- One step: the interrupt that is due, or an instruction. -/
def step : Run Unit := do
  match due? (← get).cpu with
  | some .nmi =>
    modifyCpu ({ · with nmi := false })
    service .nmi
  | some .irq => service .irq
  | none => instruction

/-- Runs steps while cycles remain, at most `fuel` of them. -/
def runRemaining : Nat → Run Unit
  | 0 => pure ()
  | fuel + 1 => do
    if (← get).cpu.remaining > 0 then
      step
      runRemaining fuel

/-- Runs one frame: a frame's cycles are added to what the last one left or overdrew. Every step
takes a cycle at least, so the cycles themselves bound the steps. -/
def runFrame : Run Unit := do
  modifyCpu fun c => { c with remaining := c.remaining + c.tv.frameCycles }
  runRemaining (← get).cpu.remaining.toNat

/-- The reset line of the processor: the stack pointer starts over, interrupts are off, and the
program starts at its vector. -/
def resetCpu : Run Unit := do
  modifyCpu ({ · with nmi := false })
  idle 5
  modifyRegisters fun r => { r with sp := 0xFD }.setFlag .interruptDisable true
  let pc ← readWord resetVector
  jumpTo pc
  report (.reset pc)

end NesMachine.Machine
