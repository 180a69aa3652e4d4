/-!
# Registers and arithmetic

The registers of the processor, the flags of its status register, and what the operations do to
them. Arithmetic is binary: the decimal flag can be set but has no effect.
-/

namespace NesMachine.Cpu

/-- The bits of the status register. -/
inductive Flag where
  | carry
  | zero
  | interruptDisable
  | decimal
  | brk
  | unused
  | overflow
  | negative
  deriving DecidableEq, Repr, Inhabited

/-- The value of a flag's bit. -/
def Flag.mask : Flag → UInt8
  | carry => 0x01
  | zero => 0x02
  | interruptDisable => 0x04
  | decimal => 0x08
  | brk => 0x10
  | unused => 0x20
  | overflow => 0x40
  | negative => 0x80

/-- The registers. -/
structure Registers where
  a : UInt8 := 0
  x : UInt8 := 0
  y : UInt8 := 0
  /-- The status register. -/
  p : UInt8 := 0x24
  sp : UInt8 := 0xFD
  pc : UInt16 := 0
  deriving DecidableEq, Repr, Inhabited

namespace Registers

/-! ## Flags -/

/-- Whether a flag is set. -/
def flag (r : Registers) (f : Flag) : Bool := r.p &&& f.mask ≠ 0

/-- Sets or clears a flag. The unused bit is always on. -/
def setFlag (r : Registers) (f : Flag) (on : Bool) : Registers :=
  { r with p := (if on then r.p ||| f.mask else r.p &&& ~~~f.mask) ||| Flag.unused.mask }

/-- The zero and negative flags of a value. -/
def setZN (r : Registers) (value : UInt8) : Registers :=
  (r.setFlag .zero (value = 0)).setFlag .negative (value &&& 0x80 ≠ 0)

/-- The status register as a program pushes it. -/
def statusPushed (r : Registers) : UInt8 := r.p ||| Flag.brk.mask ||| Flag.unused.mask

/-- The status register as an interrupt pushes it. -/
def statusInterrupted (r : Registers) : UInt8 := (r.p &&& ~~~Flag.brk.mask) ||| Flag.unused.mask

/-- Takes the status register from the stack; the break bit does not exist in the processor. -/
def pullStatus (r : Registers) (value : UInt8) : Registers :=
  { r with p := (value &&& ~~~Flag.brk.mask) ||| Flag.unused.mask }

/-! ## Loads and transfers -/

/-- A value into the accumulator. -/
def loadA (r : Registers) (value : UInt8) : Registers := { r with a := value }.setZN value

/-- A value into X. -/
def loadX (r : Registers) (value : UInt8) : Registers := { r with x := value }.setZN value

/-- A value into Y. -/
def loadY (r : Registers) (value : UInt8) : Registers := { r with y := value }.setZN value

/-- X into the stack pointer, which leaves the flags alone. -/
def transferXToSp (r : Registers) : Registers := { r with sp := r.x }

/-! ## Arithmetic -/

/-- Addition with carry. -/
def adc (r : Registers) (value : UInt8) : Registers :=
  let sum := r.a.toNat + value.toNat + (r.flag .carry).toNat
  let out := UInt8.ofNat sum
  let r' := (r.setFlag .carry (sum > 0xFF)).setFlag .overflow
    ((r.a ^^^ out) &&& (value ^^^ out) &&& 0x80 ≠ 0)
  r'.loadA out

/-- Subtraction with borrow, which is the carry inverted. -/
def sbc (r : Registers) (value : UInt8) : Registers := r.adc (~~~value)

/-- Bitwise and. -/
def and (r : Registers) (value : UInt8) : Registers := r.loadA (r.a &&& value)

/-- Bitwise or. -/
def ora (r : Registers) (value : UInt8) : Registers := r.loadA (r.a ||| value)

/-- Bitwise exclusive or. -/
def eor (r : Registers) (value : UInt8) : Registers := r.loadA (r.a ^^^ value)

/-- Tests the accumulator's bits; the two high bits of the value become flags. -/
def bit (r : Registers) (value : UInt8) : Registers :=
  ((r.setFlag .zero (r.a &&& value = 0)).setFlag .negative (value &&& 0x80 ≠ 0)).setFlag .overflow
    (value &&& 0x40 ≠ 0)

/-- Compares a register with a value. -/
def compare (r : Registers) (register value : UInt8) : Registers :=
  (r.setFlag .carry (value ≤ register)).setZN (register - value)

/-! ## Shifts and counts -/

/-- The result of an operation on a byte, with the flags it leaves. -/
abbrev Modified := UInt8 × Registers

/-- A result with its zero and negative flags. -/
def result (r : Registers) (value : UInt8) : Modified := (value, r.setZN value)

/-- Shift to the left. -/
def asl (r : Registers) (value : UInt8) : Modified :=
  (r.setFlag .carry (value &&& 0x80 ≠ 0)).result (value <<< 1)

/-- Shift to the right. -/
def lsr (r : Registers) (value : UInt8) : Modified :=
  (r.setFlag .carry (value &&& 0x01 ≠ 0)).result (value >>> 1)

/-- Rotation to the left through the carry. -/
def rol (r : Registers) (value : UInt8) : Modified :=
  let carryIn : UInt8 := (r.flag .carry).toUInt8
  (r.setFlag .carry (value &&& 0x80 ≠ 0)).result ((value <<< 1) ||| carryIn)

/-- Rotation to the right through the carry. -/
def ror (r : Registers) (value : UInt8) : Modified :=
  let carryIn : UInt8 := if r.flag .carry then 0x80 else 0
  (r.setFlag .carry (value &&& 0x01 ≠ 0)).result ((value >>> 1) ||| carryIn)

/-- Counts up. -/
def inc (r : Registers) (value : UInt8) : Modified := r.result (value + 1)

/-- Counts down. -/
def dec (r : Registers) (value : UInt8) : Modified := r.result (value - 1)

end Registers

end NesMachine.Cpu
