import NesMachine.Proofs.Board.Serial
import NesMachine.Proofs.Cpu.Arithmetic

/-!
# Banks

A board is told by writes which banks to show at which addresses. What it selects is a function of the
writes that its registers have seen: of the last one, or on the MMC1 of the serial port behind them. A
bank that the game does not have is a fault, and no write reaches a memory that is not for writing.

* `Writes`: the four things that a write can do to a board.
* `Selects.access`: a write keeps the banks those that the registers have seen.
* `banks_exact`: so it is after any writes, on the board of any image.
-/

namespace NesMachine.Board

/-! ## Writes -/

/-- A write to a board: by the processor to the program space, or by the picture unit to the patterns. -/
inductive Access where
  | prg (addr : UInt16) (value : UInt8)
  | chr (addr : UInt16) (value : UInt8)

/-- Makes a write. -/
def access (b : Board) : Access → Except (Fault × Board) Board
  | .prg addr value => b.writePrg addr value
  | .chr addr value => b.writeChr addr value

/-- Makes any number of writes. -/
def accessAll (b : Board) (accesses : List Access) : Except (Fault × Board) Board :=
  accesses.foldlM access b

/-- What the registers of a board see of a write. -/
def Access.register? : Access → Option (UInt16 × UInt8)
  | .prg addr value => if 0x8000 ≤ addr.toNat then some (addr, value) else none
  | .chr _ _ => none

/-- What the registers of a board have seen of some writes, in order. -/
def registerWrites (accesses : List Access) : List (UInt16 × UInt8) :=
  accesses.filterMap Access.register?

/-- What a write does to a board. -/
inductive Writes (b : Board) : Access → Board → Prop where
  | register {addr : UInt16} (value : UInt8) : 0x8000 ≤ addr.toNat →
      Writes b (.prg addr value)
        { b with latch := b.latch.write (prgBanks b.image.prg) addr value }
  | workMemory {addr : UInt16} {memory : Digest.Bytes} (value : UInt8) :
      0x6000 ≤ addr.toNat → addr.toNat < 0x8000 → b.hasPrgRam = true →
      memory.size = b.image.prgRam.size →
      Writes b (.prg addr value) (b.withMemory memory .prgRam)
  | patterns {addr : UInt16} {memory : Digest.Bytes} (value : UInt8) :
      b.image.chrIsRam = true → memory.size = b.image.chr.size →
      Writes b (.chr addr value) (b.withMemory memory .chr)
  | ignored {a : Access} : a.register? = none → Writes b a b

variable {b b' : Board} {a : Access} {addr : UInt16}

theorem inPrgRam_iff : inPrgRam addr = true ↔ 0x6000 ≤ addr.toNat ∧ addr.toNat < 0x8000 := by
  unfold inPrgRam
  rw [Bool.and_eq_true, decide_eq_true_iff, decide_eq_true_iff, UInt16.le_iff_toNat_le,
    UInt16.lt_iff_toNat_lt]
  rfl

theorem register_iff : 0x8000 ≤ addr ↔ 0x8000 ≤ addr.toNat := UInt16.le_iff_toNat_le

theorem access_writes (h : b.access a = .ok b') : Writes b a b' := by
  cases a with
  | prg addr value =>
    change b.writePrg addr value = .ok b' at h
    rw [writePrg_eq] at h
    split_ifs at h with hregister hwindow
    · cases h
      exact .register value (register_iff.mp hregister)
    · obtain ⟨hin, hram⟩ := Bool.and_eq_true_iff.mp hwindow
      obtain ⟨hfirst, hlast⟩ := inPrgRam_iff.mp hin
      obtain ⟨memory, hsize, rfl⟩ := of_placed h
      exact .workMemory value hfirst hlast hram hsize
    · cases h
      exact .ignored (if_neg (mt register_iff.mpr hregister))
  | chr addr value =>
    change b.writeChr addr value = .ok b' at h
    rw [writeChr_eq] at h
    split_ifs at h with hram
    · obtain ⟨memory, hsize, rfl⟩ := of_placed h
      exact .patterns value hram hsize
    · cases h
      exact .ignored rfl

/-! ## The documented banks -/

/-- The value last written to the registers of a board; zero before the first. -/
def lastWritten (accesses : List Access) : Nat :=
  ((registerWrites accesses).getLast?.map fun write => write.2.toNat).getD 0

/-- The serial port behind some writes. -/
def portBehind (accesses : List Access) : Port :=
  Port.powerOn.writeAll (registerWrites accesses)

/-- The number of the last whole bank of 16 KB. -/
def lastBank (program : Digest.Bytes) : Nat := max (program.size / 0x4000) 1 - 1

/-- A bank and its size. -/
structure Window where
  bank : Nat
  size : Nat

/-- The offset of an address that a bank is shown at. -/
def Window.offset (w : Window) (addr : UInt16) : Nat := w.bank * w.size + addr.toNat % w.size

/-- The bank of the program at an address from `$8000` up. -/
def prgWindow (kind : Kind) (program : Digest.Bytes) (accesses : List Access) (addr : UInt16) :
    Window :=
  match kind with
  | .nrom | .cnrom => ⟨0, if 0x4000 < program.size then 0x8000 else 0x4000⟩
  | .uxrom =>
    ⟨if addr.toNat < 0xC000 then lastWritten accesses % 16 else lastBank program, 0x4000⟩
  | .axrom => ⟨lastWritten accesses % 8, 0x8000⟩
  | .mmc1 =>
    let banks := (portBehind accesses).prgBanks (lastBank program)
    ⟨if addr.toNat < 0xC000 then banks.1 else banks.2, 0x4000⟩

/-- The bank of the patterns at an address below `$2000`. -/
def chrWindow (kind : Kind) (accesses : List Access) (addr : UInt16) : Window :=
  match kind with
  | .cnrom => ⟨lastWritten accesses % 4, 0x2000⟩
  | .mmc1 =>
    let banks := (portBehind accesses).chrBanks
    ⟨if addr.toNat < 0x1000 then banks.1 else banks.2, 0x1000⟩
  | .nrom | .uxrom | .axrom => ⟨0, 0x2000⟩

/-- The boards that answer in the work memory window. -/
def HasWorkMemory (kind : Kind) (image : Rom.Image) : Prop :=
  match kind with
  | .nrom | .cnrom => image.prgRam.size ≠ 0
  | .mmc1 => True
  | .uxrom | .axrom => False

/-- The bytes of work memory on a board. -/
def workMemorySize (kind : Kind) (image : Rom.Image) : Nat :=
  match kind with
  | .mmc1 => max image.prgRam.size 0x2000
  | .nrom | .cnrom | .uxrom | .axrom => image.prgRam.size

/-- What a board remembers behind some writes. -/
def latchBehind (kind : Kind) (program : Digest.Bytes) (accesses : List Access) : Latch :=
  match kind with
  | .nrom => .nrom
  | .uxrom => .uxrom (lastWritten accesses % 16)
  | .cnrom => .cnrom (lastWritten accesses % 4)
  | .axrom =>
    .axrom (lastWritten accesses % 8)
      (if lastWritten accesses / 16 % 2 = 0 then .singleScreenA else .singleScreenB)
  | .mmc1 => .mmc1 ((portBehind accesses).view (lastBank program))

section Registers

variable {accesses : List Access}

theorem registerWrites_snoc (accesses : List Access) (a : Access) :
    registerWrites (accesses ++ [a]) = registerWrites accesses ++ a.register?.toList := by
  unfold registerWrites
  rw [List.filterMap_append]
  cases ha : a.register? <;> simp [ha]

theorem latchBehind_ignored (kind : Kind) (program : Digest.Bytes) (h : a.register? = none) :
    latchBehind kind program (accesses ++ [a]) = latchBehind kind program accesses := by
  have hsame : registerWrites (accesses ++ [a]) = registerWrites accesses := by
    rw [registerWrites_snoc, h, Option.toList_none, List.append_nil]
  unfold latchBehind lastWritten portBehind
  rw [hsame]

theorem lastWritten_register (value : UInt8) (h : 0x8000 ≤ addr.toNat) :
    lastWritten (accesses ++ [.prg addr value]) = value.toNat := by
  have hseen : (Access.prg addr value).register? = some (addr, value) := if_pos h
  unfold lastWritten
  rw [registerWrites_snoc, hseen, Option.toList_some, List.getLast?_concat]
  rfl

theorem portBehind_register (value : UInt8) (h : 0x8000 ≤ addr.toNat) :
    portBehind (accesses ++ [.prg addr value]) = (portBehind accesses).write addr value := by
  have hseen : (Access.prg addr value).register? = some (addr, value) := if_pos h
  unfold portBehind Port.writeAll
  rw [registerWrites_snoc, hseen, Option.toList_some, List.foldl_append]
  rfl

/-- The registers of every board take a write as documented. -/
theorem latchBehind_register (kind : Kind) (program : Digest.Bytes) (value : UInt8)
    (h : 0x8000 ≤ addr.toNat) :
    (latchBehind kind program accesses).write (prgBanks program) addr value =
      latchBehind kind program (accesses ++ [.prg addr value]) := by
  unfold latchBehind
  rw [lastWritten_register value h, portBehind_register value h]
  cases kind with
  | nrom => rfl
  | uxrom =>
    have hbank : (value &&& 0x0F).toNat = value.toNat % 16 := by
      rw [UInt8.toNat_and]
      exact Nat.and_two_pow_sub_one_eq_mod _ 4
    exact congrArg Latch.uxrom hbank
  | cnrom =>
    have hbank : (value &&& 0x03).toNat = value.toNat % 4 := by
      rw [UInt8.toNat_and]
      exact Nat.and_two_pow_sub_one_eq_mod _ 2
    exact congrArg Latch.cnrom hbank
  | axrom =>
    have hbank : (value &&& 0x07).toNat = value.toNat % 8 := by
      rw [UInt8.toNat_and]
      exact Nat.and_two_pow_sub_one_eq_mod _ 3
    have hscreen : value &&& 0x10 = 0 ↔ value.toNat / 16 % 2 = 0 := by
      have hbit := Cpu.Registers.bit_iff (show (0x10 : UInt8).toNat = 2 ^ 4 from rfl) value
      rw [← not_iff_not]
      exact hbit.trans (by omega)
    show Latch.axrom (value &&& 0x07).toNat _ = _
    simp only [hscreen, hbank]
  | mmc1 => exact congrArg Latch.mmc1 (Port.receive_view _ value _ h)

end Registers

/-! ## What a board selects -/

/-- A board of an image behind some writes: the banks are those that its registers have seen, and what
is not for writing is as it was. -/
structure Selects (kind : Kind) (image : Rom.Image) (accesses : List Access) (b : Board) : Prop where
  latch : b.latch = latchBehind kind image.prg accesses
  header : b.image.header = image.header
  program : b.image.prg = image.prg
  writable : b.image.chrIsRam = image.chrIsRam
  patterns : image.chrIsRam = false → b.image.chr = image.chr
  patternSize : b.image.chr.size = image.chr.size
  workMemory : b.image.prgRam.size = workMemorySize kind image

namespace Selects

variable {kind : Kind} {image : Rom.Image} {accesses : List Access}

theorem ofImage (kind : Kind) (image : Rom.Image) : Selects kind image [] (ofImage kind image) := by
  cases kind with
  | mmc1 =>
    refine ⟨?_, rfl, rfl, rfl, fun _ => rfl, rfl, ?_⟩
    · exact (Carries.ofImage image).latch
    · simp only [Board.ofImage, workMemorySize, Array.size_append, Array.size_replicate]
      omega
  | nrom | uxrom | cnrom | axrom => exact ⟨rfl, rfl, rfl, rfl, fun _ => rfl, rfl, rfl⟩

/-- **A write keeps it.** -/
theorem access (h : Selects kind image accesses b) (hwrites : Writes b a b') :
    Selects kind image (accesses ++ [a]) b' := by
  cases hwrites with
  | register value haddr =>
    refine ⟨?_, h.header, h.program, h.writable, h.patterns, h.patternSize, h.workMemory⟩
    rw [← latchBehind_register kind image.prg value haddr, ← h.latch, ← h.program]
  | workMemory value hfirst hlast _ hsize =>
    have hunseen : (Access.prg _ value).register? = none := if_neg (Nat.not_le.mpr hlast)
    exact ⟨h.latch.trans (latchBehind_ignored _ _ hunseen).symm, h.header, h.program, h.writable,
      h.patterns, h.patternSize, hsize.trans h.workMemory⟩
  | patterns value hram hsize =>
    refine ⟨h.latch.trans (latchBehind_ignored _ _ rfl).symm, h.header, h.program, h.writable,
      fun hrom => ?_, hsize.trans h.patternSize, h.workMemory⟩
    rw [h.writable, hrom] at hram
    exact absurd hram Bool.false_ne_true
  | ignored hunseen =>
    exact ⟨h.latch.trans (latchBehind_ignored _ _ hunseen).symm, h.header, h.program, h.writable,
      h.patterns, h.patternSize, h.workMemory⟩

theorem accessAll {before rest : List Access} (h : Selects kind image before b)
    (hrest : b.accessAll rest = .ok b') : Selects kind image (before ++ rest) b' := by
  induction rest generalizing before b with
  | nil =>
    cases hrest
    rwa [List.append_nil]
  | cons a rest ih =>
    unfold Board.accessAll at hrest
    rw [List.foldlM_cons] at hrest
    cases hfirst : b.access a with
    | error e =>
      rw [hfirst] at hrest
      cases hrest
    | ok b₁ =>
      rw [hfirst] at hrest
      have hall := ih (h.access (access_writes hfirst)) hrest
      rwa [List.append_assoc] at hall

theorem hasPrgRam_iff (h : Selects kind image accesses b) :
    b.hasPrgRam = true ↔ HasWorkMemory kind image := by
  have hsize := h.workMemory
  unfold hasPrgRam
  rw [h.latch]
  cases kind with
  | nrom | cnrom =>
    have hempty : b.image.prgRam = #[] ↔ image.prgRam.size = 0 := by
      rw [← Array.size_eq_zero_iff, hsize]
      rfl
    simp [latchBehind, HasWorkMemory, hempty]
  | mmc1 | uxrom | axrom => simp [latchBehind, HasWorkMemory]

/-- The program is read through the documented bank. -/
theorem prgOffset_eq (h : Selects kind image accesses b) (haddr : 0x8000 ≤ addr.toNat) :
    b.prgOffset addr = (prgWindow kind image.prg accesses addr).offset addr := by
  have hlt := addr.toNat_lt
  have hhalf : addr < 0xC000 ↔ addr.toNat < 0xC000 := UInt16.lt_iff_toNat_lt
  unfold prgOffset Window.offset prgWindow
  rw [h.latch, h.program]
  cases kind with
  | nrom | cnrom =>
    simp only [latchBehind, halfBank, gt_iff_lt]
    split_ifs <;> omega
  | uxrom =>
    simp only [latchBehind, halfBank, hhalf]
    rfl
  | axrom => rfl
  | mmc1 =>
    simp only [latchBehind, halfBank, hhalf]
    rfl

/-- The patterns are read through the documented bank. -/
theorem chrOffset_eq (h : Selects kind image accesses b) (haddr : addr.toNat < 0x2000) :
    b.chrOffset addr = (chrWindow kind accesses addr).offset addr := by
  unfold chrOffset Window.offset chrWindow
  rw [h.latch]
  cases kind with
  | nrom | uxrom | axrom => simp [latchBehind]
  | cnrom => rfl
  | mmc1 =>
    have htable : addr &&& 0x1000 = 0 ↔ addr.toNat < 0x1000 := by
      rw [← UInt16.toNat_inj, UInt16.toNat_and, show (0x1000 : UInt16).toNat = 2 ^ 12 from rfl,
        Nat.and_two_pow, Nat.testBit_eq_decide_div_mod_eq]
      simp
      omega
    simp only [latchBehind, htable]
    rfl

end Selects

/-! ## Reads -/

/-- A read that gives the byte at an offset of a memory, and is a fault exactly behind its end. -/
def Delivers (result : Except Fault UInt8) (memory : Digest.Bytes) (offset : Nat) : Prop :=
  (∀ value, result = .ok value ↔ memory[offset]? = some value) ∧
    ((∃ fault, result = .error fault) ↔ memory.size ≤ offset)

theorem fetch_delivers (kind : Kind) (region : Region) (memory : Digest.Bytes) (offset : Nat) :
    Delivers (fetch kind region memory offset) memory offset := by
  unfold fetch
  split_ifs with hlt
  · refine ⟨fun value => ?_, ?_⟩
    · rw [Array.getElem?_eq_getElem hlt]
      simp
    · simp [hlt]
  · refine ⟨fun value => ?_, ?_⟩
    · rw [Array.getElem?_eq_none (Nat.not_lt.mp hlt)]
      simp
    · simp [Nat.not_lt.mp hlt]

namespace Selects

variable {kind : Kind} {image : Rom.Image} {accesses : List Access}

theorem readPrg (h : Selects kind image accesses b) (haddr : 0x8000 ≤ addr.toNat) :
    Delivers (b.readPrg addr) image.prg ((prgWindow kind image.prg accesses addr).offset addr) := by
  unfold Board.readPrg
  rw [if_pos (register_iff.mpr haddr), h.prgOffset_eq haddr, h.program]
  exact fetch_delivers ..

theorem readChr (h : Selects kind image accesses b) (haddr : addr.toNat < 0x2000) :
    Delivers (b.readChr addr) b.image.chr ((chrWindow kind accesses addr).offset addr) := by
  unfold Board.readChr
  rw [h.chrOffset_eq haddr]
  exact fetch_delivers ..

theorem readPrg_elsewhere (h : Selects kind image accesses b) (haddr : addr.toNat < 0x8000)
    (hnone : ¬ (0x6000 ≤ addr.toNat ∧ HasWorkMemory kind image)) : b.readPrg addr = .ok 0 := by
  have hregister : ¬ 0x8000 ≤ addr := mt register_iff.mp (Nat.not_le.mpr haddr)
  have hwindow : ¬ (inPrgRam addr && b.hasPrgRam) = true := by
    rw [Bool.and_eq_true, inPrgRam_iff, h.hasPrgRam_iff]
    exact fun hin => hnone ⟨hin.1.1, hin.2⟩
  unfold Board.readPrg
  rw [if_neg hregister, if_neg hwindow]

/-- Which write can change which memory. -/
theorem changes (h : Selects kind image accesses b) (hwrites : Writes b a b') :
    (b'.image.prgRam ≠ b.image.prgRam → kind ∈ [Kind.nrom, .cnrom, .mmc1] ∧
      ∃ addr value, a = .prg addr value ∧ 0x6000 ≤ addr.toNat ∧ addr.toNat < 0x8000) ∧
    (b'.image.chr ≠ b.image.chr → ∃ addr value, a = .chr addr value) := by
  cases hwrites with
  | register | ignored => exact ⟨fun hne => absurd rfl hne, fun hne => absurd rfl hne⟩
  | workMemory value hfirst hlast hram _ =>
    have hkind : kind ∈ [Kind.nrom, .cnrom, .mmc1] := by
      have hhas := h.hasPrgRam_iff.mp hram
      cases kind with
      | nrom | cnrom | mmc1 => decide
      | uxrom | axrom => exact hhas.elim
    exact ⟨fun _ => ⟨hkind, _, value, rfl, hfirst, hlast⟩, fun hne => absurd rfl hne⟩
  | patterns value => exact ⟨fun hne => absurd rfl hne, fun _ => ⟨_, value, rfl⟩⟩

end Selects

/-- **The banks of a board are exact**, whatever was written to it. The header, the program and every
size are those of the image, and so are patterns that are not for writing; work memory changes only by
writes to its window on the boards that have one, and patterns only by the picture unit. A read gives the
byte at its place in the bank that the registers have seen selected, or is a fault where the memory ends
before that place. -/
theorem banks_exact (kind : Kind) (image : Rom.Image) (accesses : List Access)
    (h : (ofImage kind image).accessAll accesses = .ok b) :
    (b.image.header = image.header ∧ b.image.prg = image.prg ∧
      b.image.chrIsRam = image.chrIsRam ∧ (image.chrIsRam = false → b.image.chr = image.chr) ∧
      b.image.chr.size = image.chr.size ∧ b.image.prgRam.size = workMemorySize kind image) ∧
    (∀ a b', b.access a = .ok b' →
      (b'.image.prgRam ≠ b.image.prgRam → kind ∈ [Kind.nrom, .cnrom, .mmc1] ∧
        ∃ addr value, a = .prg addr value ∧ 0x6000 ≤ addr.toNat ∧ addr.toNat < 0x8000) ∧
      (b'.image.chr ≠ b.image.chr → ∃ addr value, a = .chr addr value)) ∧
    (∀ addr, 0x8000 ≤ addr.toNat → Delivers (b.readPrg addr) image.prg
      ((prgWindow kind image.prg accesses addr).offset addr)) ∧
    (∀ addr, addr.toNat < 0x2000 → Delivers (b.readChr addr) b.image.chr
      ((chrWindow kind accesses addr).offset addr)) ∧
    (∀ addr, addr.toNat < 0x8000 → ¬ (0x6000 ≤ addr.toNat ∧ HasWorkMemory kind image) →
      b.readPrg addr = .ok 0) := by
  have hb : Selects kind image accesses b := (Selects.ofImage kind image).accessAll h
  refine ⟨⟨hb.header, hb.program, hb.writable, hb.patterns, hb.patternSize, hb.workMemory⟩,
    fun a b' haccess => hb.changes (access_writes haccess), fun addr haddr => hb.readPrg haddr,
    fun addr haddr => hb.readChr haddr, fun addr haddr hnone => hb.readPrg_elsewhere haddr hnone⟩

/-- A game with a program of three bytes and two bytes of patterns that are for writing. -/
def threeBytes : Rom.Image where
  header := ⟨.nes2, 2, .vertical, false, false, .ntsc, 3, 0, 1⟩
  prg := #[6, 7, 8]
  chr := #[0, 0]
  chrIsRam := true
  prgRam := #[1]

/-- Bank 1 of it is missing, and is not read as the last bank. -/
theorem banks_exact_missing : ∃ b : Board,
    (ofImage .uxrom threeBytes).accessAll [.chr 1 5, .prg 0x7FFF 9, .prg 0x9000 0x31] = .ok b ∧
    b.image.prg = #[6, 7, 8] ∧ b.readPrg 0xC002 = .ok 8 ∧
    (∃ fault, b.readPrg 0x8000 = .error fault) ∧ b.readChr 1 = .ok 5 ∧ b.readPrg 0x7FFF = .ok 0 := by
  have h : (ofImage .uxrom threeBytes).accessAll
      [.chr 1 5, .prg 0x7FFF 9, .prg 0x9000 0x31] =
        .ok ⟨{ threeBytes with chr := #[0, 5] }, .uxrom 1⟩ := rfl
  obtain ⟨⟨-, hprogram, -⟩, -, hprg, hchr, helsewhere⟩ := banks_exact .uxrom threeBytes _ h
  have hlast := (hprg 0xC002 (by decide)).1 8
  have hmissing := (hprg 0x8000 (by decide)).2
  have hpattern := (hchr 1 (by decide)).1 5
  exact ⟨_, h, hprogram, hlast.mpr (by decide), hmissing.mpr (by decide), hpattern.mpr (by decide),
    helsewhere 0x7FFF (by decide) fun hhas => hhas.2⟩

end NesMachine.Board
