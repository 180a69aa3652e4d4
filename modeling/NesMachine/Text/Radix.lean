/-!
# Digits

Numbers written in a fixed number of digits, and the columns they are set in. Hexadecimal digits
above nine are capital letters.
-/

namespace NesMachine.Radix

/-- The digit for a value below sixteen. -/
def digit (d : Nat) : Char :=
  if d < 10 then Char.ofNat (48 + d) else Char.ofNat (55 + d)

/-- The last `width` digits of `n` in base `base`, leading zeros kept. -/
def fixed (base : Nat) : Nat → Nat → List Char
  | 0, _ => []
  | width + 1, n => fixed base width (n / base) ++ [digit (n % base)]

@[simp] theorem length_fixed (base width n : Nat) : (fixed base width n).length = width := by
  induction width generalizing n with
  | zero => rfl
  | succ width ih => simp [fixed, ih]

/-- A byte in two hexadecimal digits. -/
def byteHex (b : UInt8) : String :=
  String.ofList (fixed 16 2 b.toNat)

/-- A word in four hexadecimal digits. -/
def wordHex (w : UInt16) : String :=
  String.ofList (fixed 16 4 w.toNat)

/-- A byte in eight binary digits. -/
def byteBits (b : UInt8) : String :=
  String.ofList (fixed 2 8 b.toNat)

/-- A number in as many hexadecimal digits as it needs. -/
def hex (n : Nat) : String :=
  String.ofList ((Nat.toDigits 16 n).map Char.toUpper)

/-- The text set flush right in a column of `width` characters. -/
def padLeft (width : Nat) (text : String) : String :=
  String.ofList (List.replicate (width - text.length) ' ') ++ text

/-- The text set flush left in a column of `width` characters. -/
def padRight (width : Nat) (text : String) : String :=
  text ++ String.ofList (List.replicate (width - text.length) ' ')

end NesMachine.Radix
