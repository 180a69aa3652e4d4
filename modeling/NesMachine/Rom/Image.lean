import NesMachine.Rom.Header

/-!
# ROM images

The sections behind the header: an optional trainer, which is skipped, the program, and the pattern
memory. An image with no pattern memory of its own is given 8 KB of writable pattern memory.
-/

namespace NesMachine.Rom

open Digest (Bytes)

/-- The memories of a game. -/
structure Image where
  header : Header
  prg : Bytes
  chr : Bytes
  /-- Whether the pattern memory can be written. -/
  chrIsRam : Bool
  prgRam : Bytes
  deriving Repr

/-- Why a file gives no image. -/
inductive Failure where
  /-- The file was refused. -/
  | refused (error : Error)
  /-- A section would start behind the end of the file. -/
  | sectionPastEnd
  deriving DecidableEq, Repr

namespace Image

/-- Length of a trainer in bytes. -/
def trainerLength : Nat := 512

/-- Where the program starts in the file. -/
def prgStart (header : Header) : Nat :=
  Header.length + if header.hasTrainer then trainerLength else 0

/-- Cuts `length` bytes out of a file. -/
def cut (bytes : Bytes) (start length : Nat) (part : Part) : Except Failure Bytes :=
  if bytes.size - start < length then
    .error (.refused (.truncated part length (bytes.size - start)))
  else if bytes.size < start then .error .sectionPastEnd
  else .ok (bytes.extract start (start + length))

/-- Reads a whole file. -/
def parse (bytes : Bytes) : Except Failure Image := do
  let header ← (Header.parse bytes).mapError .refused
  let start := prgStart header
  let prg ← cut bytes start header.prgSize .prg
  if prg.isEmpty then throw (.refused .emptyPrg)
  let prgRam := Array.replicate header.prgRamSize 0
  if header.chrSize = 0 then
    return { header, prg, chr := Array.replicate Header.chrChunk 0, chrIsRam := true, prgRam }
  else
    let chr ← cut bytes (start + header.prgSize) header.chrSize .chr
    return { header, prg, chr, chrIsRam := false, prgRam }

end Image

end NesMachine.Rom
