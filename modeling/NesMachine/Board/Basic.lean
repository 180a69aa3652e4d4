import NesMachine.Board.Fault
import NesMachine.Board.Mmc1
import NesMachine.Rom.Image

/-!
# Boards

A board is a game's memories and the latch that selects banks of them. The processor sees it from
`$4020` up, the picture unit at `$0000` to `$1FFF`.
-/

namespace NesMachine

open Board (Kind Fault Mmc1 fetch place)

/-- What a board remembers of the writes to its program space. -/
inductive Board.Latch where
  | nrom
  | mmc1 (registers : Mmc1)
  | uxrom (bank : Nat)
  | cnrom (bank : Nat)
  | axrom (bank : Nat) (screen : Mirroring)
  deriving DecidableEq, Repr, Inhabited

/-- A game on its board. -/
structure Board where
  image : Rom.Image
  latch : Board.Latch
  deriving Repr

namespace Board

/-- The kind of board that a latch belongs to. -/
def Latch.kind : Latch → Kind
  | nrom => .nrom
  | mmc1 _ => .mmc1
  | uxrom _ => .uxrom
  | cnrom _ => .cnrom
  | axrom _ _ => .axrom

/-- The kind of a board. -/
def kind (b : Board) : Kind := b.latch.kind

/-- Bytes in a switchable half of the program space. -/
def halfBank : Nat := 0x4000

/-- How many 16 KB banks a program has; a shorter one counts as one. -/
def prgBanks (prg : Digest.Bytes) : Nat := max (prg.size / halfBank) 1

/-- Puts a game on its board. The MMC1 always carries at least 8 KB of work memory. -/
def ofImage (kind : Kind) (image : Rom.Image) : Board :=
  match kind with
  | .nrom => ⟨image, .nrom⟩
  | .uxrom => ⟨image, .uxrom 0⟩
  | .cnrom => ⟨image, .cnrom 0⟩
  | .axrom => ⟨image, .axrom 0 .singleScreenA⟩
  | .mmc1 =>
    let prgRam := image.prgRam ++ Array.replicate (0x2000 - image.prgRam.size) 0
    ⟨{ image with prgRam }, .mmc1 (Mmc1.powerOn (prgBanks image.prg))⟩

/-! ## Work memory -/

/-- Whether an address lies in the work memory window. -/
def inPrgRam (addr : UInt16) : Bool := 0x6000 ≤ addr && addr < 0x8000

/-- How often the work memory of a board repeats in its window. -/
def prgRamPeriod (b : Board) : Nat :=
  match b.latch with
  | .nrom =>
    let size := b.image.prgRam.size
    if size = 0x1000 ∨ size > 0x2000 then 0x1000 else 0x800
  | .cnrom _ => 0x800
  | _ => 0x2000

/-- Whether a board answers in the work memory window. -/
def hasPrgRam (b : Board) : Bool :=
  match b.latch with
  | .nrom | .cnrom _ => !b.image.prgRam.isEmpty
  | .mmc1 _ => true
  | .uxrom _ | .axrom _ _ => false

/-- The offset of an address in the work memory. -/
def prgRamOffset (b : Board) (addr : UInt16) : Nat :=
  (addr.toNat - 0x6000) % b.prgRamPeriod

/-! ## Program memory -/

/-- The offset in the program of an address from `$8000` up. -/
def prgOffset (b : Board) (addr : UInt16) : Nat :=
  match b.latch with
  | .nrom | .cnrom _ =>
    (addr.toNat - 0x8000) % if b.image.prg.size > halfBank then 2 * halfBank else halfBank
  | .uxrom bank =>
    (if addr < 0xC000 then bank else prgBanks b.image.prg - 1) * halfBank + addr.toNat % halfBank
  | .axrom bank _ => bank * (2 * halfBank) + addr.toNat % (2 * halfBank)
  | .mmc1 m =>
    (if addr < 0xC000 then m.prgWindows.1 else m.prgWindows.2) * halfBank + addr.toNat % halfBank

/-- What the processor reads at an address from `$4020` up. -/
def readPrg (b : Board) (addr : UInt16) : Except Fault UInt8 :=
  if 0x8000 ≤ addr then fetch b.kind .prg b.image.prg (b.prgOffset addr)
  else if inPrgRam addr && b.hasPrgRam then
    fetch b.kind .prgRam b.image.prgRam (b.prgRamOffset addr)
  else .ok 0

/-- The latch after a write to the program space. -/
def Latch.write (latch : Latch) (banks : Nat) (addr : UInt16) (value : UInt8) : Latch :=
  match latch with
  | .nrom => .nrom
  | .uxrom _ => .uxrom (value &&& 0x0F).toNat
  | .cnrom _ => .cnrom (value &&& 0x03).toNat
  | .axrom _ _ =>
    .axrom (value &&& 0x07).toNat (if value &&& 0x10 = 0 then .singleScreenA else .singleScreenB)
  | .mmc1 m => .mmc1 (m.receive banks addr value)

/-- A processor write at an address from `$4020` up. A fault gives the board back as it was. -/
def writePrg (b : Board) (addr : UInt16) (value : UInt8) : Except (Fault × Board) Board :=
  if 0x8000 ≤ addr then
    .ok { b with latch := b.latch.write (prgBanks b.image.prg) addr value }
  else if inPrgRam addr && b.hasPrgRam then
    let offset := b.prgRamOffset addr
    match b with
    | ⟨⟨header, prg, chr, chrIsRam, prgRam⟩, latch⟩ =>
      match place latch.kind .prgRam prgRam offset value with
      | .ok prgRam => .ok ⟨⟨header, prg, chr, chrIsRam, prgRam⟩, latch⟩
      | .error (fault, prgRam) => .error (fault, ⟨⟨header, prg, chr, chrIsRam, prgRam⟩, latch⟩)
  else .ok b

/-! ## Pattern memory -/

/-- The offset in the pattern memory of a picture-unit address. -/
def chrOffset (b : Board) (addr : UInt16) : Nat :=
  match b.latch with
  | .cnrom bank => bank * 0x2000 + addr.toNat % 0x2000
  | .mmc1 m =>
    (if addr &&& 0x1000 = 0 then m.chrWindows.1 else m.chrWindows.2) * 0x1000 + addr.toNat % 0x1000
  | _ => addr.toNat % 0x2000

/-- What the picture unit reads at an address. -/
def readChr (b : Board) (addr : UInt16) : Except Fault UInt8 :=
  fetch b.kind .chr b.image.chr (b.chrOffset addr)

/-- A picture-unit write at an address; a game with its own patterns ignores it. A fault gives the
board back as it was. -/
def writeChr (b : Board) (addr : UInt16) (value : UInt8) : Except (Fault × Board) Board :=
  if b.image.chrIsRam then
    let offset := b.chrOffset addr
    match b with
    | ⟨⟨header, prg, chr, chrIsRam, prgRam⟩, latch⟩ =>
      match place latch.kind .chr chr offset value with
      | .ok chr => .ok ⟨⟨header, prg, chr, chrIsRam, prgRam⟩, latch⟩
      | .error (fault, chr) => .error (fault, ⟨⟨header, prg, chr, chrIsRam, prgRam⟩, latch⟩)
  else .ok b

/-! ## Reports -/

/-- The arrangement of the nametables. -/
def mirroring (b : Board) : Mirroring :=
  match b.latch with
  | .axrom _ screen => screen
  | .mmc1 m => m.mirroring
  | _ => b.image.header.mirroring

/-- The bank selection in one line; empty for a board that has none. -/
def describe (b : Board) : String :=
  match b.latch with
  | .nrom => ""
  | .uxrom bank =>
    "UxROM prg_bank=" ++ toString bank ++ " fixed=" ++ toString (prgBanks b.image.prg - 1)
  | .cnrom bank => "CNROM chr_bank=" ++ toString bank
  | .axrom bank screen => "AxROM prg_bank=" ++ toString bank ++ " mirroring=" ++ screen.name
  | .mmc1 m => m.describe

end Board

end NesMachine
