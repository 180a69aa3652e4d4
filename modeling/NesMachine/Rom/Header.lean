import NesMachine.Digest.Sha1
import NesMachine.Text.Radix
import NesMachine.TvSystem

/-!
# The header of a ROM file

A ROM file opens with sixteen bytes that name the board and the sizes of the sections behind them.
There are two formats: the first counts whole chunks; the second widens the counts to twelve bits,
or gives them as an odd multiple of a power of two.
-/

namespace NesMachine

open Digest (Bytes)

/-- How the two physical nametables appear at the four logical ones. -/
inductive Mirroring where
  | horizontal
  | vertical
  | singleScreenA
  | singleScreenB
  deriving DecidableEq, Repr, Inhabited

/-- The name used in reports. -/
def Mirroring.name : Mirroring → String
  | horizontal => "Horizontal"
  | vertical => "Vertical"
  | singleScreenA => "SingleScreenA"
  | singleScreenB => "SingleScreenB"

namespace Rom

/-- The two header formats. -/
inductive Format where
  | ines
  | nes2
  deriving DecidableEq, Repr, Inhabited

/-- The name used in reports. -/
def Format.name : Format → String
  | ines => "INes"
  | nes2 => "Nes2"

/-- The parts of a ROM file that can fall short. -/
inductive Part where
  | header
  | prg
  | chr
  deriving DecidableEq, Repr, Inhabited

/-- The name used in reports. -/
def Part.name : Part → String
  | header => "header"
  | prg => "PRG"
  | chr => "CHR"

/-- Why a file is no ROM image. -/
inductive Error where
  /-- The file does not open with the four magic bytes; these are its first bytes. -/
  | badMagic (found : List UInt8)
  /-- A part is longer than what remains of the file. -/
  | truncated (part : Part) (expected available : Nat)
  /-- The header declares no program. -/
  | emptyPrg
  deriving DecidableEq, Repr

/-- The text of an error. -/
def Error.message : Error → String
  | badMagic found =>
    "invalid iNES header magic [" ++ ", ".intercalate (found.map Radix.byteHex) ++
      "], expected NES<EOF>"
  | truncated part expected available =>
    "ROM truncated: expected " ++ toString expected ++ " " ++ part.name ++ " bytes but only " ++
      toString available ++ " remain"
  | emptyPrg => "invalid PRG ROM: empty payload"

/-- What a header declares. -/
structure Header where
  format : Format
  mapper : UInt8
  mirroring : Mirroring
  hasBattery : Bool
  hasTrainer : Bool
  tv : TvSystem
  prgSize : Nat
  chrSize : Nat
  prgRamSize : Nat
  deriving DecidableEq, Repr

namespace Header

/-- Length of a header in bytes. -/
def length : Nat := 16

/-- Bytes in a chunk of program. -/
def prgChunk : Nat := 16 * 1024

/-- Bytes in a chunk of pattern memory. -/
def chrChunk : Nat := 8 * 1024

/-- The four bytes that open a ROM file. -/
def magic : List UInt8 := [0x4E, 0x45, 0x53, 0x1A]

/-- A size of the second format. The nibble extends the count to twelve bits; the nibble 15 makes
the low byte an exponent, capped at 60, and a multiplier. -/
def extendedSize (low nibble : UInt8) (chunk : Nat) : Nat :=
  if nibble = 15 then
    Nat.pow 2 (min (low.toNat / 4) 60) * (low.toNat % 4 * 2 + 1)
  else
    (nibble.toNat * 256 + low.toNat) * chunk

/-- A memory size of the second format: 64 bytes doubled `shift` times, and none for zero. -/
def shiftedSize (shift : UInt8) : Nat :=
  if shift = 0 then 0 else 64 * Nat.pow 2 shift.toNat

/-- Reads the header at the start of a file. -/
def parse (bytes : Bytes) : Except Error Header :=
  let opening := (bytes.extract 0 4).toList
  if opening ≠ magic then .error (.badMagic opening)
  else if bytes.size < length then .error (.truncated .header length bytes.size)
  else
    let byte (k : Nat) : UInt8 := bytes.getD k 0
    let format : Format := if byte 7 &&& 0x0C = 0x08 then .nes2 else .ines
    .ok {
      format
      mapper := (byte 7 &&& 0xF0 : UInt8) ||| (byte 6 >>> 4 : UInt8)
      mirroring := if byte 6 &&& 1 = 0 then .horizontal else .vertical
      hasBattery := byte 6 &&& 2 ≠ 0
      hasTrainer := byte 6 &&& 4 ≠ 0
      tv := match format with
        | .ines => if byte 9 &&& 1 = 0 then .ntsc else .pal
        | .nes2 => if byte 12 &&& 3 = 1 then .pal else .ntsc
      prgSize := match format with
        | .ines => (byte 4).toNat * prgChunk
        | .nes2 => extendedSize (byte 4) (byte 9 &&& 0x0F) prgChunk
      chrSize := match format with
        | .ines => (byte 5).toNat * chrChunk
        | .nes2 => extendedSize (byte 5) (byte 9 >>> 4) chrChunk
      prgRamSize := match format with
        | .ines => max (byte 8).toNat 1 * (8 * 1024)
        | .nes2 => shiftedSize (byte 10 &&& 0x0F) + shiftedSize (byte 10 >>> 4) }

end Header

end Rom

end NesMachine
