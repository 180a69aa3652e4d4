import NesMachine.Rom.Image
import NesMachine.Proofs.Cpu.Arithmetic

/-!
# The format of ROM files

What the bytes of a header declare, as numbers, and what the file has to hold behind it. A file that
holds it is an image, whatever follows; any other file is refused for the first thing that is wrong.

* `header_eq`: the header of a file that opens as it should.
* `parse_cases`: a file is an image, is refused, or breaks the reader.
* `format_exact`: which files are images, of what, and why the others are refused.
-/

namespace NesMachine.Rom

open Digest (Bytes)

variable {bytes : Bytes}

/-! ## What a header declares -/

/-- The number in a byte of a file. -/
def number (bytes : Bytes) (k : Nat) : Nat := (bytes.getD k 0).toNat

/-- The file opens with the magic bytes. -/
def Opens (bytes : Bytes) : Prop := bytes.toList.take 4 = [0x4E, 0x45, 0x53, 0x1A]

instance (bytes : Bytes) : Decidable (Opens bytes) := inferInstanceAs (Decidable (_ = _))

/-- Bits 2 and 3 of byte 7 are 2 in the second format. -/
def isNes2 (bytes : Bytes) : Bool := number bytes 7 / 4 % 4 = 2

/-- A size of the second format: chunks in a count of twelve bits, or an odd multiple of a power of
two. -/
def wideSize (low nibble chunk : Nat) : Nat :=
  if nibble = 15 then 2 ^ min (low / 4) 60 * (2 * (low % 4) + 1) else (256 * nibble + low) * chunk

/-- A memory of the second format: none, or 64 bytes doubled as often as a nibble says. -/
def doubledSize (nibble : Nat) : Nat := if nibble = 0 then 0 else 64 * 2 ^ nibble

/-- The bytes of program that a file declares. -/
def declaredPrg (bytes : Bytes) : Nat :=
  if isNes2 bytes then wideSize (number bytes 4) (number bytes 9 % 16) 16384
  else number bytes 4 * 16384

/-- The bytes of patterns that a file declares. -/
def declaredChr (bytes : Bytes) : Nat :=
  if isNes2 bytes then wideSize (number bytes 5) (number bytes 9 / 16) 8192
  else number bytes 5 * 8192

/-- The bytes of work memory that a file declares. -/
def declaredRam (bytes : Bytes) : Nat :=
  if isNes2 bytes then doubledSize (number bytes 10 % 16) + doubledSize (number bytes 10 / 16)
  else max (number bytes 8) 1 * 8192

/-- The television system that a file declares. -/
def declaredTv (bytes : Bytes) : TvSystem :=
  if isNes2 bytes then if number bytes 12 % 4 = 1 then .pal else .ntsc
  else if number bytes 9 % 2 = 1 then .pal else .ntsc

/-- All that a file declares. -/
def declared (bytes : Bytes) : Header where
  format := if isNes2 bytes then .nes2 else .ines
  mapper := UInt8.ofNat (16 * (number bytes 7 / 16) + number bytes 6 / 16)
  mirroring := if number bytes 6 % 2 = 1 then .vertical else .horizontal
  hasBattery := number bytes 6 / 2 % 2 = 1
  hasTrainer := number bytes 6 / 4 % 2 = 1
  tv := declaredTv bytes
  prgSize := declaredPrg bytes
  chrSize := declaredChr bytes
  prgRamSize := declaredRam bytes

/-! ## Bytes as numbers -/

theorem and_three_iff (value : UInt8) : value &&& 3 = 1 ↔ value.toNat % 4 = 1 :=
  Cpu.Registers.forall_byte (p := fun v => v &&& 3 = 1 ↔ v.toNat % 4 = 1) (by decide +kernel) value

theorem and_nes2_iff (value : UInt8) : value &&& 0x0C = 0x08 ↔ value.toNat / 4 % 4 = 2 :=
  Cpu.Registers.forall_byte (p := fun v => v &&& 0x0C = 0x08 ↔ v.toNat / 4 % 4 = 2) (by decide +kernel) value

theorem toNat_lowNibble (value : UInt8) : (value &&& 0x0F).toNat = value.toNat % 16 :=
  Cpu.Registers.forall_byte (p := fun v => (v &&& 0x0F).toNat = v.toNat % 16) (by decide +kernel) value

theorem toNat_highNibble (value : UInt8) : (value >>> 4).toNat = value.toNat / 16 :=
  Cpu.Registers.forall_byte (p := fun v => (v >>> 4).toNat = v.toNat / 16) (by decide +kernel) value

theorem and_bit_eq_zero_iff {mask : UInt8} {k : Nat} (hmask : mask.toNat = 2 ^ k) (value : UInt8) :
    value &&& mask = 0 ↔ ¬ value.toNat / 2 ^ k % 2 = 1 := by
  rw [← Cpu.Registers.bit_iff hmask, not_not]

/-- The number of the board: the high nibbles of two bytes. -/
theorem mapper_eq (high low : UInt8) :
    (high &&& 0xF0 : UInt8) ||| (low >>> 4 : UInt8) = UInt8.ofNat (16 * (high.toNat / 16) + low.toNat / 16) := by
  have hhigh : (high &&& 0xF0).toNat = 2 ^ 4 * (high.toNat / 16) :=
    Cpu.Registers.forall_byte (p := fun v => (v &&& 0xF0).toNat = 2 ^ 4 * (v.toNat / 16))
      (by decide +kernel) high
  have hlow : low.toNat / 16 < 2 ^ 4 := by
    have hlt := low.toNat_lt
    omega
  rw [← UInt8.toNat_inj, UInt8.toNat_or, hhigh, toNat_highNibble,
    ← Nat.two_pow_add_eq_or_of_lt hlow, UInt8.toNat_ofNat']
  have hlt := high.toNat_lt
  omega

theorem extendedSize_eq (low nibble : UInt8) (chunk : Nat) :
    Header.extendedSize low nibble chunk = wideSize low.toNat nibble.toNat chunk := by
  have hnibble : nibble = 15 ↔ nibble.toNat = 15 := by
    rw [← UInt8.toNat_inj]
    rfl
  unfold Header.extendedSize wideSize
  simp only [hnibble, Nat.mul_comm]
  rfl

theorem shiftedSize_eq (shift : UInt8) : Header.shiftedSize shift = doubledSize shift.toNat := by
  have hshift : shift = 0 ↔ shift.toNat = 0 := by
    rw [← UInt8.toNat_inj]
    rfl
  unfold Header.shiftedSize doubledSize
  simp only [hshift]
  rfl

/-! ## The header -/

theorem opening_eq (bytes : Bytes) : (bytes.extract 0 4).toList = bytes.toList.take 4 := by
  rw [Array.toList_extract, List.extract_eq_take_drop]
  rfl

theorem opens_iff : Opens bytes ↔ ¬ (bytes.extract 0 4).toList ≠ Header.magic := by
  rw [opening_eq, not_not]
  rfl

theorem header_badMagic (hopens : ¬ Opens bytes) :
    Header.parse bytes = .error (.badMagic (bytes.toList.take 4)) := by
  rw [opens_iff, not_not] at hopens
  unfold Header.parse
  simp only
  rw [if_pos hopens, opening_eq]

theorem header_short (hopens : Opens bytes) (hshort : bytes.size < 16) :
    Header.parse bytes = .error (.truncated .header 16 bytes.size) := by
  unfold Header.parse
  simp only
  rw [if_neg (opens_iff.mp hopens), if_pos (show bytes.size < Header.length from hshort)]
  rfl

/-- **The header of a file that opens as it should.** -/
theorem header_eq (hopens : Opens bytes) (hlength : 16 ≤ bytes.size) :
    Header.parse bytes = .ok (declared bytes) := by
  have hsize : ¬ bytes.size < Header.length := Nat.not_lt.mpr hlength
  have hnes2 : bytes.getD 7 0 &&& 0x0C = 0x08 ↔ isNes2 bytes = true := by
    rw [and_nes2_iff, isNes2, decide_eq_true_iff]
    rfl
  have hbit (k : Nat) (mask : UInt8) {i : Nat} (hmask : mask.toNat = 2 ^ i) :
      bytes.getD k 0 &&& mask = 0 ↔ ¬ number bytes k / 2 ^ i % 2 = 1 :=
    and_bit_eq_zero_iff hmask _
  have hnumber (k : Nat) : (bytes.getD k 0).toNat = number bytes k := rfl
  unfold Header.parse
  simp only
  rw [if_neg (opens_iff.mp hopens), if_neg hsize]
  unfold declared declaredPrg declaredChr declaredRam declaredTv
  simp only [hnes2, mapper_eq, extendedSize_eq, shiftedSize_eq, toNat_lowNibble, toNat_highNibble,
    and_three_iff, hbit 6 1 (i := 0) rfl, hbit 6 2 (i := 1) rfl, hbit 6 4 (i := 2) rfl,
    hbit 9 1 (i := 0) rfl, hnumber, ne_eq, not_not, ite_not, pow_zero, Nat.div_one, pow_one,
    Nat.reducePow]
  cases isNes2 bytes
  · rfl
  · rfl

/-! ## The sections -/

/-- Where the program starts: behind the header, and behind the trainer if there is one. -/
def sectionsStart (bytes : Bytes) : Nat := 16 + if number bytes 6 / 4 % 2 = 1 then 512 else 0

/-- Where the last section ends. -/
def sectionsEnd (bytes : Bytes) : Nat := sectionsStart bytes + declaredPrg bytes + declaredChr bytes

/-- A file that holds what it declares. -/
structure Accepted (bytes : Bytes) : Prop where
  opens : Opens bytes
  length : 16 ≤ bytes.size
  prg : 0 < declaredPrg bytes
  fits : sectionsEnd bytes ≤ bytes.size

/-- The image in such a file. -/
def imageOf (bytes : Bytes) : Image where
  header := declared bytes
  prg := bytes.extract (sectionsStart bytes) (sectionsStart bytes + declaredPrg bytes)
  chr :=
    if declaredChr bytes = 0 then Array.replicate 8192 0
    else bytes.extract (sectionsStart bytes + declaredPrg bytes) (sectionsEnd bytes)
  chrIsRam := declaredChr bytes = 0
  prgRam := Array.replicate (declaredRam bytes) 0

/-- A file with something wrong, and the first thing that is. -/
inductive Refused (bytes : Bytes) : Error → Prop where
  | badMagic : ¬ Opens bytes → Refused bytes (.badMagic (bytes.toList.take 4))
  | header : Opens bytes → bytes.size < 16 → Refused bytes (.truncated .header 16 bytes.size)
  | prg : Opens bytes → 16 ≤ bytes.size → bytes.size - sectionsStart bytes < declaredPrg bytes →
      Refused bytes
        (.truncated .prg (declaredPrg bytes) (bytes.size - sectionsStart bytes))
  | emptyPrg : Opens bytes → 16 ≤ bytes.size → declaredPrg bytes = 0 → Refused bytes .emptyPrg
  | chr : Opens bytes → 16 ≤ bytes.size → 0 < declaredPrg bytes →
      sectionsStart bytes + declaredPrg bytes ≤ bytes.size → bytes.size < sectionsEnd bytes →
      Refused bytes (.truncated .chr (declaredChr bytes)
        (bytes.size - (sectionsStart bytes + declaredPrg bytes)))

/-- A file that declares no program, and a trainer that it does not hold. -/
structure EndsInTrainer (bytes : Bytes) : Prop where
  opens : Opens bytes
  length : 16 ≤ bytes.size
  prg : declaredPrg bytes = 0
  past : bytes.size < sectionsStart bytes

theorem prgStart_declared (bytes : Bytes) : Image.prgStart (declared bytes) = sectionsStart bytes := by
  unfold Image.prgStart declared sectionsStart
  simp only [decide_eq_true_iff]
  rfl

theorem cut_ok {start length : Nat} (part : Part) (h : start + length ≤ bytes.size) :
    Image.cut bytes start length part = .ok (bytes.extract start (start + length)) := by
  unfold Image.cut
  rw [if_neg (by omega), if_neg (by omega)]

theorem cut_short {start length : Nat} (part : Part) (h : bytes.size - start < length) :
    Image.cut bytes start length part =
      .error (.refused (.truncated part length (bytes.size - start))) := by
  unfold Image.cut
  rw [if_pos h]

theorem cut_past {start : Nat} (part : Part) (h : bytes.size < start) :
    Image.cut bytes start 0 part = .error .sectionPastEnd := by
  unfold Image.cut
  rw [if_neg (Nat.not_lt_zero _), if_pos h]

theorem parse_header {e : Error} (h : Header.parse bytes = .error e) :
    Image.parse bytes = .error (.refused e) := by
  unfold Image.parse
  rw [h]
  rfl

/-- The sections behind a header that opens as it should. -/
theorem parse_sections (hopens : Opens bytes) (hlength : 16 ≤ bytes.size) :
    Image.parse bytes = (do
      let prg ← Image.cut bytes (sectionsStart bytes) (declaredPrg bytes) .prg
      if prg.isEmpty then throw (.refused .emptyPrg)
      let prgRam := Array.replicate (declaredRam bytes) 0
      if declaredChr bytes = 0 then
        return ⟨declared bytes, prg, Array.replicate Header.chrChunk 0, true, prgRam⟩
      else
        let chr ← Image.cut bytes (sectionsStart bytes + declaredPrg bytes) (declaredChr bytes) .chr
        return ⟨declared bytes, prg, chr, false, prgRam⟩) := by
  unfold Image.parse
  rw [header_eq hopens hlength, ← prgStart_declared]
  rfl

/-- The patterns behind a program that is there. -/
theorem parse_patterns (hopens : Opens bytes) (hlength : 16 ≤ bytes.size)
    (hprg : 0 < declaredPrg bytes) (hfits : sectionsStart bytes + declaredPrg bytes ≤ bytes.size) :
    Image.parse bytes =
      if declaredChr bytes = 0 then .ok (imageOf bytes)
      else (Image.cut bytes (sectionsStart bytes + declaredPrg bytes) (declaredChr bytes) .chr).map
        fun chr => { imageOf bytes with chr } := by
  have hnonempty : ¬ (bytes.extract (sectionsStart bytes)
      (sectionsStart bytes + declaredPrg bytes)).isEmpty = true := by
    rw [Array.isEmpty_iff_size_eq_zero, Array.size_extract]
    omega
  rw [parse_sections hopens hlength, cut_ok .prg hfits]
  show (if _ then _ else _) = _
  rw [if_neg hnonempty]
  unfold imageOf
  by_cases hchr : declaredChr bytes = 0
  · simp only [hchr, if_true, decide_true]
    rfl
  · simp only [hchr, if_false, decide_false]
    cases Image.cut bytes (sectionsStart bytes + declaredPrg bytes) (declaredChr bytes) .chr <;> rfl

/-! ## Verdicts -/

theorem parse_of_accepted (h : Accepted bytes) : Image.parse bytes = .ok (imageOf bytes) := by
  have hfits := h.fits
  unfold sectionsEnd at hfits
  rw [parse_patterns h.opens h.length h.prg (by omega)]
  split_ifs with hchr
  · rfl
  · rw [cut_ok .chr hfits]
    unfold imageOf
    rw [if_neg hchr]
    rfl

theorem parse_of_endsInTrainer (h : EndsInTrainer bytes) :
    Image.parse bytes = .error .sectionPastEnd := by
  rw [parse_sections h.opens h.length, h.prg, cut_past .prg h.past]
  rfl

theorem parse_of_refused {e : Error} (h : Refused bytes e) (htrainer : ¬ EndsInTrainer bytes) :
    Image.parse bytes = .error (.refused e) := by
  cases h with
  | badMagic hmagic => exact parse_header (header_badMagic hmagic)
  | header hopens hshort => exact parse_header (header_short hopens hshort)
  | prg hopens hlength hshort =>
    rw [parse_sections hopens hlength, cut_short .prg hshort]
    rfl
  | emptyPrg hopens hlength hempty =>
    have hstart : sectionsStart bytes ≤ bytes.size :=
      Nat.not_lt.mp fun hpast => htrainer ⟨hopens, hlength, hempty, hpast⟩
    have hnothing : (bytes.extract (sectionsStart bytes) (sectionsStart bytes)).isEmpty = true := by
      rw [Array.isEmpty_iff_size_eq_zero, Array.size_extract]
      omega
    rw [parse_sections hopens hlength, hempty,
      cut_ok .prg (show sectionsStart bytes + 0 ≤ bytes.size from hstart)]
    exact if_pos hnothing
  | chr hopens hlength hprg hfits hshort =>
    unfold sectionsEnd at hshort
    rw [parse_patterns hopens hlength hprg hfits, if_neg (by omega), cut_short .chr (by omega)]
    rfl

theorem verdict (bytes : Bytes) :
    Accepted bytes ∨ EndsInTrainer bytes ∨ ∃ e, Refused bytes e := by
  by_cases hopens : Opens bytes
  case neg => exact .inr (.inr ⟨_, .badMagic hopens⟩)
  by_cases hlength : 16 ≤ bytes.size
  case neg => exact .inr (.inr ⟨_, .header hopens (Nat.not_le.mp hlength)⟩)
  by_cases hshort : bytes.size - sectionsStart bytes < declaredPrg bytes
  · exact .inr (.inr ⟨_, .prg hopens hlength hshort⟩)
  by_cases hempty : declaredPrg bytes = 0
  · exact .inr (.inr ⟨_, .emptyPrg hopens hlength hempty⟩)
  have hprg := Nat.pos_of_ne_zero hempty
  by_cases hfits : sectionsEnd bytes ≤ bytes.size
  · exact .inl ⟨hopens, hlength, hprg, hfits⟩
  · exact .inr (.inr ⟨_, .chr hopens hlength hprg (by omega) (Nat.not_le.mp hfits)⟩)

/-- **A file is an image, is refused, or breaks the reader.** -/
theorem parse_cases (bytes : Bytes) :
    (Accepted bytes ∧ Image.parse bytes = .ok (imageOf bytes)) ∨
      (∃ e, Refused bytes e ∧ Image.parse bytes = .error (.refused e)) ∨
      (EndsInTrainer bytes ∧ Image.parse bytes = .error .sectionPastEnd) := by
  by_cases htrainer : EndsInTrainer bytes
  · exact .inr (.inr ⟨htrainer, parse_of_endsInTrainer htrainer⟩)
  · obtain haccepted | htrainer' | ⟨e, he⟩ := verdict bytes
    · exact .inl ⟨haccepted, parse_of_accepted haccepted⟩
    · exact (htrainer htrainer').elim
    · exact .inr (.inl ⟨e, he, parse_of_refused he htrainer⟩)

/-- **The reader breaks at a trainer that is not there, with no program behind it.** -/
theorem parse_breaks_iff : Image.parse bytes = .error .sectionPastEnd ↔ EndsInTrainer bytes := by
  refine ⟨fun h => ?_, parse_of_endsInTrainer⟩
  obtain ⟨-, hparse⟩ | ⟨e, -, hparse⟩ | ⟨htrainer, -⟩ := parse_cases bytes
  · cases hparse.symm.trans h
  · cases hparse.symm.trans h
  · exact htrainer

/-! ## What follows the sections -/

section Rest

variable {stop : Nat} (rest : Bytes)

theorem extract_kept {i j : Nat} (hj : j ≤ stop) (hstop : stop ≤ bytes.size) :
    (bytes.extract 0 stop ++ rest).extract i j = bytes.extract i j := by
  have hsize : (bytes.extract 0 stop).size = stop := by
    rw [Array.size_extract]
    omega
  rw [Array.extract_append, hsize, Array.extract_extract, Nat.sub_eq_zero_of_le hj,
    Array.extract_zero, Array.append_empty, Nat.zero_add, Nat.zero_add, Nat.min_eq_left hj]

theorem number_kept {k : Nat} (hk : k < stop) (hstop : stop ≤ bytes.size) :
    number (bytes.extract 0 stop ++ rest) k = number bytes k := by
  have hsize : k < (bytes.extract 0 stop).size := by
    rw [Array.size_extract]
    omega
  unfold number
  rw [Array.getD_eq_getD_getElem?, Array.getD_eq_getD_getElem?, Array.getElem?_append_left hsize,
    Array.getElem?_extract, if_pos (by omega), Nat.zero_add]

end Rest

/-- The header decides what is declared. -/
theorem declared_congr {bytes' : Bytes} (h : ∀ k < 16, number bytes' k = number bytes k) :
    declared bytes' = declared bytes ∧ sectionsStart bytes' = sectionsStart bytes := by
  unfold declared declaredPrg declaredChr declaredRam declaredTv sectionsStart isNes2
  simp only [h 4 (by decide), h 5 (by decide), h 6 (by decide), h 7 (by decide), h 8 (by decide),
    h 9 (by decide), h 10 (by decide), h 12 (by decide), and_self]

/-- What follows the sections is not looked at. -/
theorem parse_kept (h : Accepted bytes) (rest : Bytes) :
    Image.parse (bytes.extract 0 (sectionsEnd bytes) ++ rest) = Image.parse bytes := by
  generalize hkept : bytes.extract 0 (sectionsEnd bytes) ++ rest = kept
  have hstart : 16 ≤ sectionsStart bytes := Nat.le_add_right 16 _
  have hend : sectionsStart bytes ≤ sectionsStart bytes + declaredPrg bytes ∧
      sectionsStart bytes + declaredPrg bytes ≤ sectionsEnd bytes :=
    ⟨Nat.le_add_right _ _, Nat.le_add_right _ _⟩
  have hnumber {k : Nat} (hk : k < 16) : number kept k = number bytes k :=
    hkept ▸ number_kept rest (by omega) h.fits
  have hextract {i j : Nat} (hj : j ≤ sectionsEnd bytes) : kept.extract i j = bytes.extract i j :=
    hkept ▸ extract_kept rest hj h.fits
  obtain ⟨hdeclared, hsame⟩ := declared_congr fun k hk => hnumber hk
  have hprg : declaredPrg kept = declaredPrg bytes := congrArg Header.prgSize hdeclared
  have hchr : declaredChr kept = declaredChr bytes := congrArg Header.chrSize hdeclared
  have hram : declaredRam kept = declaredRam bytes := congrArg Header.prgRamSize hdeclared
  have hsections : sectionsEnd kept = sectionsEnd bytes := by
    unfold sectionsEnd
    rw [hsame, hprg, hchr]
  have hsize : sectionsEnd bytes ≤ kept.size := by
    have hfits := h.fits
    rw [← hkept, Array.size_append, Array.size_extract]
    omega
  have haccepted : Accepted kept := by
    refine ⟨?_, by omega, hprg ▸ h.prg, hsections ▸ hsize⟩
    rw [opens_iff, hextract (by omega), ← opens_iff]
    exact h.opens
  rw [parse_of_accepted haccepted, parse_of_accepted h]
  unfold imageOf
  rw [hdeclared, hsame, hprg, hchr, hram, hsections, hextract hend.2, hextract (Nat.le_refl _)]

/-- **The format of ROM files.** Of a file that does not break the reader:

* it is an image exactly if it opens with the magic bytes, has a header and a program, and is as long
  as its sections; and then the image has the sections, or empty patterns to be written;
* it is refused exactly for the first thing that is wrong;
* what follows the sections makes no difference. -/
theorem format_exact (hreturns : Image.parse bytes ≠ .error .sectionPastEnd) :
    (∀ image, Image.parse bytes = .ok image ↔ Accepted bytes ∧ image = imageOf bytes) ∧
      (∀ e, Image.parse bytes = .error (.refused e) ↔ Refused bytes e) ∧
      (Accepted bytes → ∀ rest,
        Image.parse (bytes.extract 0 (sectionsEnd bytes) ++ rest) = Image.parse bytes) := by
  refine ⟨fun image => ⟨fun h => ?_, ?_⟩, fun e => ⟨fun h => ?_, fun h => ?_⟩,
    fun haccepted rest => parse_kept haccepted rest⟩
  · obtain ⟨haccepted, hparse⟩ | ⟨e, -, hparse⟩ | ⟨-, hparse⟩ := parse_cases bytes
    · cases hparse.symm.trans h
      exact ⟨haccepted, rfl⟩
    · cases hparse.symm.trans h
    · exact (hreturns hparse).elim
  · rintro ⟨haccepted, rfl⟩
    exact parse_of_accepted haccepted
  · obtain ⟨-, hparse⟩ | ⟨e', he, hparse⟩ | ⟨-, hparse⟩ := parse_cases bytes
    · cases hparse.symm.trans h
    · cases hparse.symm.trans h
      exact he
    · exact (hreturns hparse).elim
  · exact parse_of_refused h (mt parse_of_endsInTrainer hreturns)

/-- A file of the second format with three bytes of program and one of patterns, sizes that no count of
chunks can give, and a byte behind them. -/
def oddFile : Bytes :=
  #[0x4E, 0x45, 0x53, 0x1A, 1, 0, 2, 8, 0, 0xFF, 0x21, 0, 0, 0, 0, 0, 5, 6, 7, 8, 9]

/-- Its sections are those four bytes, and the byte behind them can be any. -/
theorem format_exact_odd : Image.parse oddFile ≠ .error .sectionPastEnd ∧
    Accepted oddFile ∧ Image.parse oddFile = .ok (imageOf oddFile) ∧
    (imageOf oddFile).prg = #[5, 6, 7] ∧ (imageOf oddFile).chr = #[8] ∧
    (imageOf oddFile).prgRam.size = 128 + 256 ∧ sectionsEnd oddFile = 20 ∧
    ∀ rest, Image.parse (oddFile.extract 0 20 ++ rest) = .ok (imageOf oddFile) := by
  have haccepted : Accepted oddFile := ⟨by decide, by decide, by decide, by decide⟩
  have hend : sectionsEnd oddFile = 20 := by decide
  have hparse := parse_of_accepted haccepted
  have hreturns : Image.parse oddFile ≠ .error .sectionPastEnd := by
    rw [hparse]
    rintro ⟨⟩
  obtain ⟨haccept, -, hrest⟩ := format_exact hreturns
  refine ⟨hreturns, haccepted, (haccept _).mpr ⟨haccepted, rfl⟩, by decide, by decide,
    by decide +kernel, hend, fun rest => ?_⟩
  rw [← hend, hrest haccepted rest, hparse]

end NesMachine.Rom
