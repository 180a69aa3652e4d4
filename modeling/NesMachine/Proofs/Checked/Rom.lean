import NesMachine.Proofs.Checked.Game
import NesMachine.Proofs.Rom.Format

/-!
# Reading ROM files, checked

The sizes in a header are computed in machine words, and the sections are cut out at a cursor that
moves on by these sizes. No header makes a size too large for its word, and a section that is not
there is noticed before it is cut out, but for one: a section without bytes is never missed, even
where the cursor has left the file.

* `parseHeader_eq`, `parseImage_eq`: the checks change nothing.
* `parse_panics`: no arithmetic fails, and the reader breaks at a trainer that is not there.
-/

namespace NesMachine.Checked

open Digest (Bytes)
open Rom (Header Image Part Format Failure Accepted Refused EndsInTrainer imageOf)

variable {ε : Type} {bytes : Bytes}

/-! ## Operators -/

/-- A shift to the left is checked for its width only; bits that leave the word are lost. -/
def shl64 (a b : Nat) : Except (Panic ε) Nat := require (b < 64) (a * 2 ^ b % 2 ^ 64)

theorem shl64_ok {a b : Nat} (hwidth : b < 64) (hfits : a * 2 ^ b < 2 ^ 64) :
    (shl64 a b : Except (Panic ε) Nat) = .ok (a * 2 ^ b) := by
  unfold shl64
  rw [require_ok hwidth, Nat.mod_eq_of_lt hfits]

/-- A byte of a file. -/
def byteAt (bytes : Bytes) (k : Nat) : Except (Panic ε) UInt8 :=
  if h : k < bytes.size then .ok bytes[k] else .error .arithmetic

theorem byteAt_ok {k : Nat} (h : k < bytes.size) :
    (byteAt bytes k : Except (Panic ε) UInt8) = .ok (bytes.getD k 0) := by
  unfold byteAt Array.getD
  rw [dif_pos h, dif_pos h]
  rfl

/-! ## Sizes -/

def extendedSize (low nibble : UInt8) (chunk : Nat) : Except (Panic ε) Nat :=
  if nibble = 15 then do
    let exponent ← shr8 low 2
    let doubled ← below (2 ^ 64) ((low &&& 3).toNat * 2)
    let multiplier ← below (2 ^ 64) (doubled + 1)
    let power ← shl64 1 (min exponent.toNat 60)
    below (2 ^ 64) (power * multiplier)
  else do
    let high ← shl64 nibble.toNat 8
    below (2 ^ 64) ((high ||| low.toNat) * chunk)

def shiftedSize (shift : UInt8) : Except (Panic ε) Nat :=
  if shift = 0 then .ok 0 else shl64 64 shift.toNat

theorem toNat_shift_two (value : UInt8) : (value >>> 2).toNat = value.toNat / 4 :=
  Cpu.Registers.forall_byte (p := fun v => (v >>> 2).toNat = v.toNat / 4) (by decide +kernel) value

theorem toNat_and_three (value : UInt8) : (value &&& 3).toNat = value.toNat % 4 :=
  Cpu.Registers.forall_byte (p := fun v => (v &&& 3).toNat = v.toNat % 4) (by decide +kernel) value

theorem extendedSize_ok (low nibble : UInt8) {chunk : Nat} (hchunk : chunk ≤ 2 ^ 14) :
    (extendedSize low nibble chunk : Except (Panic ε) Nat) =
      .ok (Header.extendedSize low nibble chunk) := by
  have hle := Rom.extendedSize_le low nibble hchunk
  have hlow := low.toNat_lt
  have hnibble := nibble.toNat_lt
  unfold Header.extendedSize at hle ⊢
  unfold extendedSize
  split_ifs at hle ⊢ with hform
  · have hpower : 2 ^ min (low.toNat / 4) 60 ≤ 2 ^ 60 :=
      Nat.pow_le_pow_right (by decide) (Nat.min_le_right _ _)
    rw [shr8_ok low (by decide), ok_bind, toNat_shift_two, toNat_and_three, below_ok (by omega),
      ok_bind, below_ok (by omega), ok_bind, shl64_ok (by omega) (by omega), ok_bind, Nat.one_mul]
    exact below_ok (Nat.lt_of_le_of_lt hle (by decide))
  · have hor : nibble.toNat * 2 ^ 8 ||| low.toNat = nibble.toNat * 256 + low.toNat := by
      rw [Nat.mul_comm, ← Nat.two_pow_add_eq_or_of_lt hlow, Nat.mul_comm]
    rw [shl64_ok (by decide) (by omega), ok_bind, hor]
    exact below_ok (Nat.lt_of_le_of_lt hle (by decide))

theorem shiftedSize_ok {shift : UInt8} (h : shift.toNat < 16) :
    (shiftedSize shift : Except (Panic ε) Nat) = .ok (Header.shiftedSize shift) ∧
      Header.shiftedSize shift ≤ 64 * 2 ^ 15 := by
  have hpower : 2 ^ shift.toNat ≤ 2 ^ 15 := Nat.pow_le_pow_right (by decide) (by omega)
  unfold shiftedSize Header.shiftedSize
  split_ifs
  · exact ⟨rfl, Nat.zero_le _⟩
  · exact ⟨shl64_ok (by omega) (by omega), Nat.mul_le_mul_left 64 hpower⟩

/-! ## The header -/

/-- Sizes of program, patterns and work memory, and the television system. -/
abbrev Sizes : Type := Nat × Nat × Nat × TvSystem

def inesSizes (bytes : Bytes) : Except (Panic ε) Sizes := do
  let ramChunks ← byteAt bytes 8
  let flags ← byteAt bytes 9
  let prgChunks ← byteAt bytes 4
  let prg ← below (2 ^ 64) (prgChunks.toNat * Header.prgChunk)
  let chrChunks ← byteAt bytes 5
  let chr ← below (2 ^ 64) (chrChunks.toNat * Header.chrChunk)
  let ram ← below (2 ^ 64) (max ramChunks.toNat 1 * (8 * 1024))
  return (prg, chr, ram, if flags &&& 1 = 0 then .ntsc else .pal)

def nes2Sizes (bytes : Bytes) : Except (Panic ε) Sizes := do
  let prgLow ← byteAt bytes 4
  let nibbles ← byteAt bytes 9
  let prg ← extendedSize prgLow (nibbles &&& 0x0F) Header.prgChunk
  let chrLow ← byteAt bytes 5
  let chrNibble ← shr8 nibbles 4
  let chr ← extendedSize chrLow chrNibble Header.chrChunk
  let shifts ← byteAt bytes 10
  let plain ← shiftedSize (shifts &&& 0x0F)
  let savedShift ← shr8 shifts 4
  let saved ← shiftedSize savedShift
  let ram ← below (2 ^ 64) (plain + saved)
  let flags ← byteAt bytes 12
  return (prg, chr, ram, if flags &&& 3 = 1 then .pal else .ntsc)

def parseHeader (bytes : Bytes) : Except (Panic Failure) Header :=
  let opening := (bytes.extract 0 4).toList
  if opening ≠ Header.magic then .error (.fault (.refused (.badMagic opening)))
  else if bytes.size < Header.length then
    .error (.fault (.refused (.truncated .header Header.length bytes.size)))
  else do
    let flags6 ← byteAt bytes 6
    let flags7 ← byteAt bytes 7
    let format : Format := if flags7 &&& 0x0C = 0x08 then .nes2 else .ines
    let mapperLow ← shr8 flags6 4
    let (prgSize, chrSize, prgRamSize, tv) ← match format with
      | .ines => inesSizes bytes
      | .nes2 => nes2Sizes bytes
    return {
      format, tv, prgSize, chrSize, prgRamSize
      mapper := (flags7 &&& 0xF0 : UInt8) ||| mapperLow
      mirroring := if flags6 &&& 1 = 0 then .horizontal else .vertical
      hasBattery := flags6 &&& 2 ≠ 0
      hasTrainer := flags6 &&& 4 ≠ 0 }

theorem inesSizes_ok (hlength : 16 ≤ bytes.size) :
    (inesSizes bytes : Except (Panic ε) Sizes) =
      .ok ((bytes.getD 4 0).toNat * Header.prgChunk, (bytes.getD 5 0).toNat * Header.chrChunk,
        max (bytes.getD 8 0).toNat 1 * (8 * 1024),
        if bytes.getD 9 0 &&& 1 = 0 then .ntsc else .pal) := by
  have hprg := (bytes.getD 4 0).toNat_lt
  have hchr := (bytes.getD 5 0).toNat_lt
  have hram := (bytes.getD 8 0).toNat_lt
  unfold inesSizes Header.prgChunk Header.chrChunk
  rw [byteAt_ok (by omega), ok_bind, byteAt_ok (by omega), ok_bind, byteAt_ok (by omega), ok_bind,
    below_ok (by omega), ok_bind, byteAt_ok (by omega), ok_bind, below_ok (by omega), ok_bind,
    below_ok (by omega)]
  rfl

theorem nes2Sizes_ok (hlength : 16 ≤ bytes.size) :
    (nes2Sizes bytes : Except (Panic ε) Sizes) =
      .ok (Header.extendedSize (bytes.getD 4 0) (bytes.getD 9 0 &&& 0x0F) Header.prgChunk,
        Header.extendedSize (bytes.getD 5 0) (bytes.getD 9 0 >>> 4) Header.chrChunk,
        Header.shiftedSize (bytes.getD 10 0 &&& 0x0F) + Header.shiftedSize (bytes.getD 10 0 >>> 4),
        if bytes.getD 12 0 &&& 3 = 1 then .pal else .ntsc) := by
  have hlow : (bytes.getD 10 0 &&& 0x0F).toNat < 16 := by
    rw [Rom.toNat_lowNibble]
    omega
  have hhigh : (bytes.getD 10 0 >>> 4).toNat < 16 := by
    have hlt := (bytes.getD 10 0).toNat_lt
    rw [Rom.toNat_highNibble]
    omega
  obtain ⟨hplain, hplainBound⟩ := shiftedSize_ok (ε := ε) hlow
  obtain ⟨hsaved, hsavedBound⟩ := shiftedSize_ok (ε := ε) hhigh
  unfold nes2Sizes
  rw [byteAt_ok (by omega), ok_bind, byteAt_ok (by omega), ok_bind,
    extendedSize_ok _ _ (by decide), ok_bind, byteAt_ok (by omega), ok_bind,
    shr8_ok _ (by decide), ok_bind, extendedSize_ok _ _ (by decide), ok_bind,
    byteAt_ok (by omega), ok_bind, hplain, ok_bind, shr8_ok _ (by decide), ok_bind, hsaved, ok_bind,
    below_ok (by omega), ok_bind, byteAt_ok (by omega)]
  rfl

/-- **No size of a header is too large for its word.** -/
theorem parseHeader_eq (bytes : Bytes) :
    parseHeader bytes = lift ((Header.parse bytes).mapError .refused) := by
  unfold parseHeader Header.parse
  simp only
  by_cases hopening : (bytes.extract 0 4).toList ≠ Header.magic
  · rw [if_pos hopening, if_pos hopening]
    rfl
  by_cases hshort : bytes.size < Header.length
  · rw [if_neg hopening, if_neg hopening, if_pos hshort, if_pos hshort]
    rfl
  have hlength : 16 ≤ bytes.size := Nat.not_lt.mp hshort
  rw [if_neg hopening, if_neg hopening, if_neg hshort, if_neg hshort, byteAt_ok (by omega), ok_bind,
    byteAt_ok (by omega), ok_bind, shr8_ok _ (by decide), ok_bind]
  by_cases hformat : bytes.getD 7 0 &&& 0x0C = 0x08
  · simp only [if_pos hformat, nes2Sizes_ok hlength]
    rfl
  · simp only [if_neg hformat, inesSizes_ok hlength]
    rfl

/-! ## The sections -/

/-- A slice of a file. -/
def slice (bytes : Bytes) (start stop : Nat) : Except (Panic Failure) Bytes :=
  if start ≤ stop ∧ stop ≤ bytes.size then .ok (bytes.extract start stop)
  else .error (.fault .sectionPastEnd)

/-- Cuts a section out at the cursor, which moves on. -/
def takeSection (bytes : Bytes) (cursor length : Nat) (part : Part) :
    Except (Panic Failure) (Bytes × Nat) :=
  let available := bytes.size - cursor
  if available < length then .error (.fault (.refused (.truncated part length available)))
  else do
    let stop ← below (2 ^ 64) (cursor + length)
    let section_ ← slice bytes cursor stop
    let next ← below (2 ^ 64) (cursor + length)
    return (section_, next)

/-- The cursor behind the header and the trainer. -/
def firstCursor (header : Header) : Except (Panic Failure) Nat :=
  if header.hasTrainer then below (2 ^ 64) (Header.length + Image.trainerLength)
  else .ok Header.length

def parseImage (bytes : Bytes) : Except (Panic Failure) Image := do
  let header ← parseHeader bytes
  let cursor ← firstCursor header
  let (prg, cursor) ← takeSection bytes cursor header.prgSize .prg
  if prg.isEmpty then throw (.fault (.refused .emptyPrg))
  let prgRam := Array.replicate header.prgRamSize 0
  if header.chrSize = 0 then
    return { header, prg, chr := Array.replicate Header.chrChunk 0, chrIsRam := true, prgRam }
  else
    let (chr, _) ← takeSection bytes cursor header.chrSize .chr
    return { header, prg, chr, chrIsRam := false, prgRam }

/-- A section is cut out, or found to be too long, without a check that fails. -/
theorem takeSection_eq {cursor length : Nat} (part : Part) (hfits : cursor + length < 2 ^ 64) :
    takeSection bytes cursor length part =
      lift ((Image.cut bytes cursor length part).map (·, cursor + length)) := by
  unfold takeSection Image.cut
  simp only
  split_ifs with hshort hpast
  · rfl
  · rw [below_ok hfits, ok_bind, slice, if_neg (by omega)]
    rfl
  · rw [below_ok hfits, ok_bind, slice, if_pos (by omega)]
    rfl

theorem firstCursor_ok (header : Header) : firstCursor header = .ok (Image.prgStart header) := by
  unfold firstCursor Image.prgStart
  split <;> rfl

theorem parseImage_eq (bytes : Bytes) : parseImage bytes = lift (Image.parse bytes) := by
  unfold parseImage Image.parse
  refine bind_eq_lift (parseHeader_eq bytes) fun header hheader => ?_
  obtain ⟨hprgSize, hchrSize⟩ := Rom.sizes_le (of_mapError_ok hheader)
  have hstart : Image.prgStart header ≤ 528 := by
    unfold Image.prgStart
    split <;> decide
  simp only
  have hlast : Image.prgStart header + header.prgSize + header.chrSize < 2 ^ 64 := by omega
  rw [firstCursor_ok, ok_bind, takeSection_eq .prg (by omega)]
  cases Image.cut bytes (Image.prgStart header) header.prgSize .prg with
  | error e => rfl
  | ok prg =>
    show (if prg.isEmpty then _ else _) = lift (if prg.isEmpty then _ else _)
    by_cases hempty : prg.isEmpty
    · rw [if_pos hempty, if_pos hempty]
      rfl
    · rw [if_neg hempty, if_neg hempty, takeSection_eq .chr hlast]
      by_cases hchr : header.chrSize = 0
      · rw [if_pos hchr, if_pos hchr]
        rfl
      · rw [if_neg hchr, if_neg hchr]
        cases Image.cut bytes (Image.prgStart header + header.prgSize) header.chrSize .chr <;> rfl

/-! ## Panics -/

/-- **Where the reader breaks.** No size and no cursor leaves its word. The one slice that can be out
of range is that of an empty program behind a trainer that the file does not hold; any other file gives
its image or is refused for what is wrong with it. -/
theorem parse_panics (bytes : Bytes) :
    parseImage bytes ≠ .error .arithmetic ∧
      (parseImage bytes = .error (.fault .sectionPastEnd) ↔ EndsInTrainer bytes) ∧
      (¬ EndsInTrainer bytes →
        Accepted bytes ∧ parseImage bytes = .ok (imageOf bytes) ∨
          ∃ e, Refused bytes e ∧ parseImage bytes = .error (.fault (.refused e))) := by
  rw [parseImage_eq]
  obtain ⟨haccepted, hparse⟩ | ⟨e, he, hparse⟩ | ⟨htrainer, hparse⟩ := Rom.parse_cases bytes
  all_goals rw [hparse]
  · refine ⟨nofun, ⟨nofun, fun htrainer => ?_⟩, fun _ => .inl ⟨haccepted, rfl⟩⟩
    cases hparse.symm.trans (Rom.parse_of_endsInTrainer htrainer)
  · refine ⟨nofun, ⟨nofun, fun htrainer => ?_⟩, fun _ => .inr ⟨e, he, rfl⟩⟩
    cases hparse.symm.trans (Rom.parse_of_endsInTrainer htrainer)
  · exact ⟨nofun, ⟨fun _ => htrainer, fun _ => rfl⟩, fun h => (h htrainer).elim⟩

/-- A header that declares a trainer and no program, and nothing behind it. -/
def loneHeader : Bytes := #[0x4E, 0x45, 0x53, 0x1A, 0, 0, 4, 0, 0, 0, 0, 0, 0, 0, 0, 0]

/-- It is neither an image nor refused. -/
theorem parse_loneHeader :
    ¬ ∀ bytes, (∃ image, parseImage bytes = .ok image) ∨
      ∃ e, parseImage bytes = .error (.fault (.refused e)) := by
  intro h
  have hparse : parseImage loneHeader = .error (.fault .sectionPastEnd) := by
    rw [parseImage_eq, Rom.parse_of_endsInTrainer ⟨by decide, by decide, by decide, by decide⟩]
    rfl
  obtain ⟨image, himage⟩ | ⟨e, he⟩ := h loneHeader
  · cases hparse.symm.trans himage
  · cases hparse.symm.trans he

end NesMachine.Checked
