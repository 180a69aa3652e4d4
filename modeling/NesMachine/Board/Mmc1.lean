import NesMachine.Rom.Header

/-!
# The serial registers of the MMC1

The board has one input bit. Five writes make a value, lowest bit first; the address of the fifth
chooses the register that receives it. A marker bit that starts above the five bits counts the
writes. The banks that the registers select are kept beside them.
-/

namespace NesMachine.Board

/-- The shift register, the four registers behind it, and the banks they select. -/
structure Mmc1 where
  shift : UInt8 := 0x10
  control : UInt8 := 0x0C
  chr0 : UInt8 := 0
  chr1 : UInt8 := 0
  prg : UInt8 := 0
  /-- The 16 KB banks at the two halves of the program space. -/
  prgWindows : Nat × Nat := (0, 0)
  /-- The 4 KB banks at the two pattern tables. -/
  chrWindows : Nat × Nat := (0, 0)
  deriving DecidableEq, Repr, Inhabited

namespace Mmc1

/-- The shift register before the first bit: only the marker. -/
def marker : UInt8 := 0x10

/-- The program banks that the registers select among `banks` banks. -/
def selectPrg (control prg : UInt8) (banks : Nat) : Nat × Nat :=
  let bank := (prg &&& 0x0F).toNat
  match ((control >>> 2) &&& 3).toNat with
  | 0 | 1 => (bank / 2 * 2, bank / 2 * 2 + 1)
  | 2 => (0, bank)
  | _ => (bank, banks - 1)

/-- The pattern banks that the registers select. -/
def selectChr (control chr0 chr1 : UInt8) : Nat × Nat :=
  if control &&& 0x10 = 0 then
    let bank := (chr0 &&& 0x1E).toNat
    (bank, bank + 1)
  else (chr0.toNat, chr1.toNat)

/-- Brings the selected banks up to date with the registers. -/
def refresh (m : Mmc1) (banks : Nat) : Mmc1 :=
  { m with
    prgWindows := selectPrg m.control m.prg banks
    chrWindows := selectChr m.control m.chr0 m.chr1 }

/-- The registers at power-on, for a program of `banks` banks. -/
def powerOn (banks : Nat) : Mmc1 :=
  ({} : Mmc1).refresh banks

/-- Stores a complete value in the register that an address names. -/
def commit (m : Mmc1) (addr : UInt16) (value : UInt8) : Mmc1 :=
  if addr < 0xA000 then { m with control := value }
  else if addr < 0xC000 then { m with chr0 := value }
  else if addr < 0xE000 then { m with chr1 := value }
  else { m with prg := value }

/-- A write to the program space. Bit 7 empties the shift register and fixes the last bank; any
other value shifts its lowest bit in. -/
def receive (m : Mmc1) (banks : Nat) (addr : UInt16) (value : UInt8) : Mmc1 :=
  if value &&& 0x80 ≠ 0 then
    { m with shift := marker, control := m.control ||| 0x0C }.refresh banks
  else
    let shifted := (m.shift >>> 1) ||| ((value &&& 1) <<< 4)
    if m.shift &&& 1 = 0 then { m with shift := shifted }
    else { m.commit addr shifted with shift := marker }.refresh banks

/-- The nametable arrangement that the control register selects. -/
def mirroring (m : Mmc1) : Mirroring :=
  match (m.control &&& 3).toNat with
  | 0 => .singleScreenA
  | 1 => .singleScreenB
  | 2 => .vertical
  | _ => .horizontal

/-- The registers and banks in one line. -/
def describe (m : Mmc1) : String :=
  let pair := fun (w : Nat × Nat) => "[" ++ toString w.1 ++ ", " ++ toString w.2 ++ "]"
  "MMC1 control=$" ++ Radix.byteHex m.control ++ " prg=$" ++ Radix.byteHex m.prg ++ " chr0=$" ++
    Radix.byteHex m.chr0 ++ " chr1=$" ++ Radix.byteHex m.chr1 ++ " shift=$" ++
    Radix.byteHex m.shift ++ " prg_windows=" ++ pair m.prgWindows ++ " chr_windows=" ++
    pair m.chrWindows

end Mmc1

end NesMachine.Board
