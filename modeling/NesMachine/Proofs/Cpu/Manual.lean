import NesMachine.Cpu.Opcode

/-!
# The manual of the processor

The documented instruction set as its manuals give it: registers and memory hold numbers, arithmetic
is that of the integers, and what a byte or an address cannot hold is taken off at the end. `execute`
is one instruction: the state it leaves, the addresses it reads and the bytes it writes.
-/

namespace NesMachine.Manual

open Cpu (Op AddrMode)

/-- The registers; the status register is its six flags. -/
structure State where
  a : Nat
  x : Nat
  y : Nat
  sp : Nat
  pc : Nat
  carry : Bool
  zero : Bool
  interruptDisable : Bool
  decimal : Bool
  overflow : Bool
  negative : Bool
  deriving DecidableEq

/-- A byte as a number with a sign. -/
def signed (byte : Nat) : Int := if byte < 128 then byte else byte - 256

/-- A word of two bytes. -/
def word (low high : Nat) : Nat := low + 256 * high

namespace State

/-- The status register as a program pushes it. -/
def status (s : State) : Nat :=
  s.carry.toNat + 2 * s.zero.toNat + 4 * s.interruptDisable.toNat + 8 * s.decimal.toNat + 16 + 32 +
    64 * s.overflow.toNat + 128 * s.negative.toNat

/-- The flags that a pulled status register holds. -/
def pullStatus (s : State) (value : Nat) : State :=
  { s with
    carry := value % 2 = 1
    zero := value / 2 % 2 = 1
    interruptDisable := value / 4 % 2 = 1
    decimal := value / 8 % 2 = 1
    overflow := value / 64 % 2 = 1
    negative := value / 128 % 2 = 1 }

/-- The zero and negative flags of a byte. -/
def sign (s : State) (value : Nat) : State :=
  { s with zero := value = 0, negative := 128 ≤ value }

/-- The address of the stack `n` bytes above the stack pointer. -/
def above (s : State) (n : Nat) : Nat := 0x100 + (s.sp + n) % 0x100

/-- The address of the stack `n` bytes below the stack pointer. -/
def below (s : State) (n : Nat) : Nat := 0x100 + (s.sp + (0x100 - n)) % 0x100

end State

/-! ## Arithmetic -/

def loadA (s : State) (value : Nat) : State := { s with a := value }.sign value

def loadX (s : State) (value : Nat) : State := { s with x := value }.sign value

def loadY (s : State) (value : Nat) : State := { s with y := value }.sign value

/-- Addition: the carry is that of the unsigned sum, the overflow that of the signed one. -/
def adc (s : State) (value : Nat) : State :=
  let sum := s.a + value + s.carry.toNat
  let total := signed s.a + signed value + s.carry.toNat
  loadA { s with carry := 256 ≤ sum, overflow := total < -128 ∨ 127 < total } (sum % 256)

/-- Subtraction: the carry is set unless the unsigned difference borrows. -/
def sbc (s : State) (value : Nat) : State :=
  let difference := (s.a - value - (1 - s.carry.toNat) : Int)
  let total := signed s.a - signed value - (1 - s.carry.toNat)
  loadA { s with carry := 0 ≤ difference, overflow := total < -128 ∨ 127 < total }
    (difference % 256).toNat

/-- Comparison: the carry is set if the register is not below the value. -/
def compare (register : Nat) (s : State) (value : Nat) : State :=
  { s with carry := value ≤ register }.sign ((register + (256 - value)) % 256)

/-- Tests bits of the accumulator; the two high bits of the value become flags. -/
def bit (s : State) (value : Nat) : State :=
  { s with zero := s.a &&& value = 0, negative := 128 ≤ value, overflow := value / 64 % 2 = 1 }

/-- A result with its flags. -/
def result (s : State) (carry : Bool) (value : Nat) : Nat × State :=
  (value, { s with carry }.sign value)

def asl (s : State) (value : Nat) : Nat × State := result s (128 ≤ value) (value * 2 % 256)

def lsr (s : State) (value : Nat) : Nat × State := result s (value % 2 = 1) (value / 2)

def rol (s : State) (value : Nat) : Nat × State :=
  result s (128 ≤ value) (value * 2 % 256 + s.carry.toNat)

def ror (s : State) (value : Nat) : Nat × State :=
  result s (value % 2 = 1) (value / 2 + 128 * s.carry.toNat)

def increment (value : Nat) : Nat := (value + 1) % 256

def decrement (value : Nat) : Nat := (value + 255) % 256

/-! ## Operations -/

/-- What an operation does with its operand, the registers and the stack. -/
inductive Action where
  | reads (apply : State → Nat → State)
  | stores (value : State → Nat)
  | modifies (apply : State → Nat → Nat × State)
  | changes (apply : State → State)
  | branches (taken : State → Bool)
  | pushes (value : State → Nat)
  | pulls (apply : State → Nat → State)
  | jumps
  | calls
  | returns
  | resumes
  | breaks

/-- The operations of the manual. -/
def action : Op → Action
  | .lda => .reads loadA
  | .ldx => .reads loadX
  | .ldy => .reads loadY
  | .adc => .reads adc
  | .sbc => .reads sbc
  | .and => .reads fun s value => loadA s (s.a &&& value)
  | .ora => .reads fun s value => loadA s (s.a ||| value)
  | .eor => .reads fun s value => loadA s (s.a ^^^ value)
  | .bit => .reads bit
  | .cmp => .reads fun s => compare s.a s
  | .cpx => .reads fun s => compare s.x s
  | .cpy => .reads fun s => compare s.y s
  | .nop => .reads fun s _ => s
  | .sta => .stores (·.a)
  | .stx => .stores (·.x)
  | .sty => .stores (·.y)
  | .asl => .modifies asl
  | .lsr => .modifies lsr
  | .rol => .modifies rol
  | .ror => .modifies ror
  | .inc => .modifies fun s value => (increment value, s.sign (increment value))
  | .dec => .modifies fun s value => (decrement value, s.sign (decrement value))
  | .inx => .changes fun s => loadX s (increment s.x)
  | .iny => .changes fun s => loadY s (increment s.y)
  | .dex => .changes fun s => loadX s (decrement s.x)
  | .dey => .changes fun s => loadY s (decrement s.y)
  | .tax => .changes fun s => loadX s s.a
  | .tay => .changes fun s => loadY s s.a
  | .tsx => .changes fun s => loadX s s.sp
  | .txa => .changes fun s => loadA s s.x
  | .tya => .changes fun s => loadA s s.y
  | .txs => .changes fun s => { s with sp := s.x }
  | .clc => .changes ({ · with carry := false })
  | .cld => .changes ({ · with decimal := false })
  | .cli => .changes ({ · with interruptDisable := false })
  | .clv => .changes ({ · with overflow := false })
  | .sec => .changes ({ · with carry := true })
  | .sed => .changes ({ · with decimal := true })
  | .sei => .changes ({ · with interruptDisable := true })
  | .bcc => .branches (!·.carry)
  | .bcs => .branches (·.carry)
  | .bne => .branches (!·.zero)
  | .beq => .branches (·.zero)
  | .bpl => .branches (!·.negative)
  | .bmi => .branches (·.negative)
  | .bvc => .branches (!·.overflow)
  | .bvs => .branches (·.overflow)
  | .jmp => .jumps
  | .jsr => .calls
  | .rts => .returns
  | .rti => .resumes
  | .brk => .breaks
  | .pha => .pushes (·.a)
  | .php => .pushes State.status
  | .pla => .pulls loadA
  | .plp => .pulls State.pullStatus

/-! ## Operands -/

/-- Where an operand is. -/
inductive Place where
  | none
  | accumulator
  | cell (addr : Nat)

/-- An operand and the addresses that are read, in order, to find it. -/
structure Operand where
  place : Place
  read : List Nat

/-- The operand of an instruction whose opcode is at the program counter. -/
def operand (memory : Nat → Nat) (s : State) (mode : AddrMode) : Operand :=
  let first := (s.pc + 1) % 65536
  let second := (s.pc + 2) % 65536
  let base := word (memory first) (memory second)
  match mode with
  | .implied => ⟨.none, []⟩
  | .accumulator => ⟨.accumulator, []⟩
  | .immediate => ⟨.cell first, []⟩
  | .zeroPage => ⟨.cell (memory first), [first]⟩
  | .zeroPageX => ⟨.cell ((memory first + s.x) % 256), [first]⟩
  | .zeroPageY => ⟨.cell ((memory first + s.y) % 256), [first]⟩
  | .absolute => ⟨.cell base, [first, second]⟩
  | .absoluteX => ⟨.cell ((base + s.x) % 65536), [first, second]⟩
  | .absoluteY => ⟨.cell ((base + s.y) % 65536), [first, second]⟩
  | .indirect =>
    -- Both bytes of the pointer are on one page.
    let high := base / 256 * 256 + (base + 1) % 256
    ⟨.cell (word (memory base) (memory high)), [first, second, base, high]⟩
  | .indexedIndirect =>
    let low := (memory first + s.x) % 256
    let high := (low + 1) % 256
    ⟨.cell (word (memory low) (memory high)), [first, low, high]⟩
  | .indirectIndexed =>
    let low := memory first
    let high := (low + 1) % 256
    ⟨.cell ((word (memory low) (memory high) + s.y) % 65536), [first, low, high]⟩
  | .relative => ⟨.cell ((s.pc + 2 + signed (memory first)) % 65536).toNat, [first]⟩

/-- The bytes of an instruction. -/
def length : AddrMode → Nat
  | .implied | .accumulator => 1
  | .absolute | .absoluteX | .absoluteY | .indirect => 3
  | _ => 2

/-! ## Instructions -/

/-- What an instruction comes to: the addresses it reads and the bytes it writes are in order. -/
structure Outcome where
  state : State
  reads : List Nat
  writes : List (Nat × Nat)

/-- An action on an operand, behind the instruction. -/
def perform (memory : Nat → Nat) (s : State) : Action → Place → Outcome
  | .reads apply, .cell addr => ⟨apply s (memory addr), [addr], []⟩
  | .reads apply, .accumulator => ⟨apply s s.a, [], []⟩
  | .reads apply, .none => ⟨apply s 0, [], []⟩
  | .stores value, .cell addr => ⟨s, [], [(addr, value s)]⟩
  | .modifies apply, .accumulator =>
    let (value, s) := apply s s.a
    ⟨{ s with a := value }, [], []⟩
  | .modifies apply, .cell addr =>
    let (value, s) := apply s (memory addr)
    ⟨s, [addr], [(addr, value)]⟩
  | .changes apply, _ => ⟨apply s, [], []⟩
  | .branches taken, .cell target => ⟨if taken s then { s with pc := target } else s, [], []⟩
  | .pushes value, _ => ⟨{ s with sp := decrement s.sp }, [], [(s.below 0, value s)]⟩
  | .pulls apply, _ => ⟨apply { s with sp := increment s.sp } (memory (s.above 1)), [s.above 1], []⟩
  | .jumps, .cell target => ⟨{ s with pc := target }, [], []⟩
  | .calls, .cell target =>
    -- The address that is pushed is that of the last byte of the instruction.
    let back := (s.pc + 65535) % 65536
    ⟨{ s with pc := target, sp := (s.sp + 254) % 256 }, [],
      [(s.below 0, back / 256), (s.below 1, back % 256)]⟩
  | .returns, _ =>
    let back := word (memory (s.above 1)) (memory (s.above 2))
    ⟨{ s with pc := (back + 1) % 65536, sp := (s.sp + 2) % 256 }, [s.above 1, s.above 2], []⟩
  | .resumes, _ =>
    let back := word (memory (s.above 2)) (memory (s.above 3))
    ⟨{ s.pullStatus (memory (s.above 1)) with pc := back, sp := (s.sp + 3) % 256 },
      [s.above 1, s.above 2, s.above 3], []⟩
  | .breaks, _ =>
    -- The byte behind the opcode is skipped.
    let back := (s.pc + 1) % 65536
    ⟨{ s with
        pc := word (memory 0xFFFE) (memory 0xFFFF)
        sp := (s.sp + 253) % 256
        interruptDisable := true },
      [0xFFFE, 0xFFFF],
      [(s.below 0, back / 256), (s.below 1, back % 256), (s.below 2, s.status)]⟩
  | _, _ => ⟨s, [], []⟩

/-- The instruction at the program counter. -/
def execute (memory : Nat → Nat) (op : Op) (mode : AddrMode) (s : State) : Outcome :=
  let found := operand memory s mode
  let out := perform memory { s with pc := (s.pc + length mode) % 65536 } (action op) found.place
  { out with reads := s.pc :: (found.read ++ out.reads) }

/-! ## Opcodes -/

/-- The documented opcodes of an operation, by the mode of the operand. -/
def opcodes : Op → List (AddrMode × Nat)
  | .adc => [(.immediate, 0x69), (.zeroPage, 0x65), (.zeroPageX, 0x75), (.absolute, 0x6D),
      (.absoluteX, 0x7D), (.absoluteY, 0x79), (.indexedIndirect, 0x61), (.indirectIndexed, 0x71)]
  | .and => [(.immediate, 0x29), (.zeroPage, 0x25), (.zeroPageX, 0x35), (.absolute, 0x2D),
      (.absoluteX, 0x3D), (.absoluteY, 0x39), (.indexedIndirect, 0x21), (.indirectIndexed, 0x31)]
  | .asl => [(.accumulator, 0x0A), (.zeroPage, 0x06), (.zeroPageX, 0x16), (.absolute, 0x0E),
      (.absoluteX, 0x1E)]
  | .bcc => [(.relative, 0x90)]
  | .bcs => [(.relative, 0xB0)]
  | .beq => [(.relative, 0xF0)]
  | .bit => [(.zeroPage, 0x24), (.absolute, 0x2C)]
  | .bmi => [(.relative, 0x30)]
  | .bne => [(.relative, 0xD0)]
  | .bpl => [(.relative, 0x10)]
  | .brk => [(.implied, 0x00)]
  | .bvc => [(.relative, 0x50)]
  | .bvs => [(.relative, 0x70)]
  | .clc => [(.implied, 0x18)]
  | .cld => [(.implied, 0xD8)]
  | .cli => [(.implied, 0x58)]
  | .clv => [(.implied, 0xB8)]
  | .cmp => [(.immediate, 0xC9), (.zeroPage, 0xC5), (.zeroPageX, 0xD5), (.absolute, 0xCD),
      (.absoluteX, 0xDD), (.absoluteY, 0xD9), (.indexedIndirect, 0xC1), (.indirectIndexed, 0xD1)]
  | .cpx => [(.immediate, 0xE0), (.zeroPage, 0xE4), (.absolute, 0xEC)]
  | .cpy => [(.immediate, 0xC0), (.zeroPage, 0xC4), (.absolute, 0xCC)]
  | .dec => [(.zeroPage, 0xC6), (.zeroPageX, 0xD6), (.absolute, 0xCE), (.absoluteX, 0xDE)]
  | .dex => [(.implied, 0xCA)]
  | .dey => [(.implied, 0x88)]
  | .eor => [(.immediate, 0x49), (.zeroPage, 0x45), (.zeroPageX, 0x55), (.absolute, 0x4D),
      (.absoluteX, 0x5D), (.absoluteY, 0x59), (.indexedIndirect, 0x41), (.indirectIndexed, 0x51)]
  | .inc => [(.zeroPage, 0xE6), (.zeroPageX, 0xF6), (.absolute, 0xEE), (.absoluteX, 0xFE)]
  | .inx => [(.implied, 0xE8)]
  | .iny => [(.implied, 0xC8)]
  | .jmp => [(.absolute, 0x4C), (.indirect, 0x6C)]
  | .jsr => [(.absolute, 0x20)]
  | .lda => [(.immediate, 0xA9), (.zeroPage, 0xA5), (.zeroPageX, 0xB5), (.absolute, 0xAD),
      (.absoluteX, 0xBD), (.absoluteY, 0xB9), (.indexedIndirect, 0xA1), (.indirectIndexed, 0xB1)]
  | .ldx => [(.immediate, 0xA2), (.zeroPage, 0xA6), (.zeroPageY, 0xB6), (.absolute, 0xAE),
      (.absoluteY, 0xBE)]
  | .ldy => [(.immediate, 0xA0), (.zeroPage, 0xA4), (.zeroPageX, 0xB4), (.absolute, 0xAC),
      (.absoluteX, 0xBC)]
  | .lsr => [(.accumulator, 0x4A), (.zeroPage, 0x46), (.zeroPageX, 0x56), (.absolute, 0x4E),
      (.absoluteX, 0x5E)]
  | .nop => [(.implied, 0xEA)]
  | .ora => [(.immediate, 0x09), (.zeroPage, 0x05), (.zeroPageX, 0x15), (.absolute, 0x0D),
      (.absoluteX, 0x1D), (.absoluteY, 0x19), (.indexedIndirect, 0x01), (.indirectIndexed, 0x11)]
  | .pha => [(.implied, 0x48)]
  | .php => [(.implied, 0x08)]
  | .pla => [(.implied, 0x68)]
  | .plp => [(.implied, 0x28)]
  | .rol => [(.accumulator, 0x2A), (.zeroPage, 0x26), (.zeroPageX, 0x36), (.absolute, 0x2E),
      (.absoluteX, 0x3E)]
  | .ror => [(.accumulator, 0x6A), (.zeroPage, 0x66), (.zeroPageX, 0x76), (.absolute, 0x6E),
      (.absoluteX, 0x7E)]
  | .rti => [(.implied, 0x40)]
  | .rts => [(.implied, 0x60)]
  | .sbc => [(.immediate, 0xE9), (.zeroPage, 0xE5), (.zeroPageX, 0xF5), (.absolute, 0xED),
      (.absoluteX, 0xFD), (.absoluteY, 0xF9), (.indexedIndirect, 0xE1), (.indirectIndexed, 0xF1)]
  | .sec => [(.implied, 0x38)]
  | .sed => [(.implied, 0xF8)]
  | .sei => [(.implied, 0x78)]
  | .sta => [(.zeroPage, 0x85), (.zeroPageX, 0x95), (.absolute, 0x8D), (.absoluteX, 0x9D),
      (.absoluteY, 0x99), (.indexedIndirect, 0x81), (.indirectIndexed, 0x91)]
  | .stx => [(.zeroPage, 0x86), (.zeroPageY, 0x96), (.absolute, 0x8E)]
  | .sty => [(.zeroPage, 0x84), (.zeroPageX, 0x94), (.absolute, 0x8C)]
  | .tax => [(.implied, 0xAA)]
  | .tay => [(.implied, 0xA8)]
  | .tsx => [(.implied, 0xBA)]
  | .txa => [(.implied, 0x8A)]
  | .txs => [(.implied, 0x9A)]
  | .tya => [(.implied, 0x98)]

/-- **The decoder has the opcodes of the manual**, all of them and no others. -/
theorem mem_opcodes {op : Op} {mode : AddrMode} {opcode : Nat} :
    (mode, opcode) ∈ opcodes op ↔
      opcode < 256 ∧ Cpu.documented? (UInt8.ofNat opcode) = some ⟨op, mode⟩ := by
  have hrows : ∀ row ∈ opcodes op,
      row.2 < 256 ∧ Cpu.documented? (UInt8.ofNat row.2) = some ⟨op, row.1⟩ := by
    cases op <;> decide
  have hbytes : ∀ byte : Fin 256, ∀ instruction ∈ Cpu.documented? (UInt8.ofNat byte),
      (instruction.mode, byte.val) ∈ opcodes instruction.op := by decide +kernel
  constructor
  · intro hmem
    exact hrows _ hmem
  · rintro ⟨hlt, hdocumented⟩
    exact hbytes ⟨opcode, hlt⟩ _ hdocumented

end NesMachine.Manual
