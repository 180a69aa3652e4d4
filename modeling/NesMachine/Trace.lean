import NesMachine.Machine.State
import NesMachine.Text.Blank
import NesMachine.Text.Integer

/-!
# Trace lines

A trace line shows the machine between two instructions: the registers, the position of the beam and
the cycles so far. A golden log has the same columns with a disassembly between the address and the
registers, so a line is read by looking for its column labels.
-/

namespace NesMachine.Trace

/-- What a trace line shows. -/
structure Record where
  pc : UInt16
  a : UInt8
  x : UInt8
  y : UInt8
  p : UInt8
  sp : UInt8
  scanline : Int16
  dot : UInt16
  cycles : UInt64
  deriving DecidableEq, Repr

/-- The machine as it is now. -/
def Record.ofMachine (m : Machine) : Record :=
  let r := m.cpu.registers
  { pc := r.pc, a := r.a, x := r.x, y := r.y, p := r.p, sp := r.sp
    scanline := Int16.ofInt m.ppu.beam.scanline
    dot := UInt16.ofNat m.ppu.beam.dot
    cycles := UInt64.ofNat m.cpu.cycles }

/-! ## Writing -/

/-- The columns behind the address. -/
def Record.columns (r : Record) : String :=
  "A:" ++ Radix.byteHex r.a ++ " X:" ++ Radix.byteHex r.x ++ " Y:" ++ Radix.byteHex r.y ++
    " P:" ++ Radix.byteHex r.p ++ " SP:" ++ Radix.byteHex r.sp ++
    " PPU:" ++ Radix.padLeft 3 (toString r.scanline.toInt) ++
    "," ++ Radix.padLeft 3 (toString r.dot.toNat) ++ " CYC:" ++ toString r.cycles.toNat

/-- The trace line of a record. -/
def Record.line (r : Record) : String := Radix.wordHex r.pc ++ " " ++ r.columns

/-! ## Reading -/

/-- The text behind the first label in front of which stands a boundary, for a text with or without
one at its start. Where a label has none, the search goes on behind that label: `passed` characters
belong to it and are passed over. -/
def columnFrom (label : List Char) (boundary : Bool) (passed : Nat) : List Char → Option (List Char)
  | [] => none
  | c :: rest =>
    if passed = 0 && label.isPrefixOf (c :: rest) then
      if boundary then some ((c :: rest).drop label.length)
      else columnFrom label (c == ' ') (label.length - 1) rest
    else columnFrom label (c == ' ') (passed - 1) rest

/-- The text behind a label that starts the text or follows a space. -/
def column? (label text : List Char) : Option (List Char) := columnFrom label true 0 text

/-- The byte in a column of two hexadecimal digits. -/
def byteColumn? (label : String) (text : List Char) : Option UInt8 := do
  let rest ← column? label.toList text
  if rest.length < 2 then none
  else (Integer.readUInt8 16 (rest.take 2)).toOption

/-- Reads a trace line, with or without a disassembly. -/
def Record.parse? (line : List Char) : Option Record := do
  let line := Text.trim Text.isBlank line
  if line.length < 4 then none
  let pc ← (Integer.readUInt16 16 (line.take 4)).toOption
  let columns ← Text.dropUntil? "A:".toList line
  let position ← Text.after? "PPU:".toList columns
  let numbers := Text.words (fun c => c == ',' || c == ' ') position
  let scanline ← (Integer.readInt16 (← numbers[0]?)).toOption
  let dot ← (Integer.readUInt16 10 (← numbers[1]?)).toOption
  let clock ← Text.after? "CYC:".toList columns
  let cycles ← (Integer.readUInt64 (← (Text.words Text.isBlank clock).head?)).toOption
  let a ← byteColumn? "A:" columns
  let x ← byteColumn? "X:" columns
  let y ← byteColumn? "Y:" columns
  let p ← byteColumn? "P:" columns
  let sp ← byteColumn? "SP:" columns
  return { pc, a, x, y, p, sp, scanline, dot, cycles }

/-! ## Comparing -/

/-- The columns in which two records differ. The beam's position only counts on request. -/
def Record.differences (r s : Record) (comparePosition : Bool) : List String :=
  let columns : List (String × Bool) :=
    [("PC", r.pc == s.pc), ("A", r.a == s.a), ("X", r.x == s.x), ("Y", r.y == s.y),
      ("P", r.p == s.p), ("SP", r.sp == s.sp), ("CYC", r.cycles == s.cycles),
      ("PPU", !comparePosition || (r.scanline == s.scanline && r.dot == s.dot))]
  columns.filterMap fun (name, same) => if same then none else some name

end NesMachine.Trace
