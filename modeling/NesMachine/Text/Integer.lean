/-!
# Reading integers

An integer is read from a whole text: an optional sign, then digits of a base, within bounds. Digits
are looked at from the left, so a bad digit behind an overflow is never reached.
-/

namespace NesMachine.Integer

/-- Why a text is no integer. -/
inductive Error where
  | empty
  | invalidDigit
  | tooLarge
  | tooSmall
  deriving DecidableEq, Repr

/-- The text of an error. -/
def Error.message : Error → String
  | empty => "cannot parse integer from empty string"
  | invalidDigit => "invalid digit found in string"
  | tooLarge => "number too large to fit in target type"
  | tooSmall => "number too small to fit in target type"

/-- The value of a digit or letter, whatever the base. -/
def digitValue? (c : Char) : Option Nat :=
  if '0' ≤ c ∧ c ≤ '9' then some (c.toNat - 48)
  else if 'a' ≤ c ∧ c ≤ 'z' then some (c.toNat - 87)
  else if 'A' ≤ c ∧ c ≤ 'Z' then some (c.toNat - 55)
  else none

/-- The value of a digit of a base. -/
def digitIn? (base : Nat) (c : Char) : Option Nat :=
  (digitValue? c).filter (· < base)

/-- Appends digits to the number read so far; `overflow` tells that it passed the bound. -/
def readDigits (base bound : Nat) (overflow : Error) : Nat → List Char → Except Error Nat
  | n, [] => .ok n
  | n, c :: rest =>
    match digitIn? base c with
    | none => .error .invalidDigit
    | some d =>
      if n * base + d ≤ bound then readDigits base bound overflow (n * base + d) rest
      else .error overflow

/-- Reads a number up to `bound`. A plus sign may stand in front. -/
def readNat (base bound : Nat) : List Char → Except Error Nat
  | [] => .error .empty
  | ['+'] => .error .invalidDigit
  | '+' :: digits => readDigits base bound .tooLarge 0 digits
  | digits => readDigits base bound .tooLarge 0 digits

/-- Reads an integer from `-low` to `high`. A sign may stand in front. -/
def readInt (base low high : Nat) : List Char → Except Error Int
  | ['-'] => .error .invalidDigit
  | '-' :: digits => (readDigits base low .tooSmall 0 digits).map fun n => -(n : Int)
  | text => (readNat base high text).map fun n => (n : Int)

/-- The digits behind any number of `0x` marks. -/
def dropHexMarks : List Char → List Char
  | '0' :: 'x' :: rest => dropHexMarks rest
  | digits => digits

/-- Reads a byte. -/
def readUInt8 (base : Nat) (text : List Char) : Except Error UInt8 :=
  (readNat base 0xFF text).map UInt8.ofNat

/-- Reads a 16-bit word. -/
def readUInt16 (base : Nat) (text : List Char) : Except Error UInt16 :=
  (readNat base 0xFFFF text).map UInt16.ofNat

/-- Reads a decimal 32-bit word. -/
def readUInt32 (text : List Char) : Except Error UInt32 :=
  (readNat 10 0xFFFFFFFF text).map UInt32.ofNat

/-- Reads a decimal 64-bit word. -/
def readUInt64 (text : List Char) : Except Error UInt64 :=
  (readNat 10 0xFFFFFFFFFFFFFFFF text).map UInt64.ofNat

/-- Reads a decimal 16-bit signed word. -/
def readInt16 (text : List Char) : Except Error Int16 :=
  (readInt 10 0x8000 0x7FFF text).map Int16.ofInt

end NesMachine.Integer
