import Mathlib.Tactic.SplitIfs
import NesMachine.Board.Slot

/-!
# Accesses to a board

Inside of a memory an access is answered, and a write keeps the size of every memory. An access that
is not answered names a byte behind the end of a memory, and changes nothing.

* `writePrg_eq`, `writeChr_eq`: a write is a bank chosen, or a byte placed in one memory.
* `writePrg_ok`: what a processor write changes when the work memory has room for it.
* `Slot.Lacks`: what every fault of the game in a slot says.
-/

namespace NesMachine

namespace Board

variable {b : Board}

theorem fetch_ok {kind : Kind} {region : Region} {memory : Digest.Bytes} {offset : Nat}
    (h : offset < memory.size) : ∃ value, fetch kind region memory offset = .ok value :=
  ⟨memory[offset], dif_pos h⟩

theorem place_ok (kind : Kind) (region : Region) {memory : Digest.Bytes} {offset : Nat}
    (value : UInt8) (h : offset < memory.size) :
    ∃ memory', place kind region memory offset value = .ok memory' ∧
      memory'.size = memory.size :=
  ⟨memory.set offset value, dif_pos h, Array.size_set _⟩

/-! ## Memories -/

/-- A memory of a board. -/
def memory (b : Board) : Region → Digest.Bytes
  | .prg => b.image.prg
  | .prgRam => b.image.prgRam
  | .chr => b.image.chr

/-- A board with other bytes in one of its memories. -/
def withMemory (b : Board) (memory : Digest.Bytes) : Region → Board
  | .prg => { b with image := { b.image with prg := memory } }
  | .prgRam => { b with image := { b.image with prgRam := memory } }
  | .chr => { b with image := { b.image with chr := memory } }

theorem withMemory_memory (b : Board) (region : Region) :
    b.withMemory (b.memory region) region = b := by
  cases region <;> rfl

/-- A byte placed in a memory of a board. -/
def placed (b : Board) (region : Region) (offset : Nat) (value : UInt8) :
    Except (Fault × Board) Board :=
  match place b.kind region (b.memory region) offset value with
  | .ok memory => .ok (b.withMemory memory region)
  | .error (fault, memory) => .error (fault, b.withMemory memory region)

variable {region : Region} {offset : Nat} {value : UInt8} {b' : Board}

theorem placed_ok (region : Region) {offset : Nat} (value : UInt8)
    (h : offset < (b.memory region).size) :
    ∃ memory, memory.size = (b.memory region).size ∧
      b.placed region offset value = .ok (b.withMemory memory region) := by
  obtain ⟨memory, hplace, hsize⟩ := place_ok b.kind region value h
  refine ⟨memory, hsize, ?_⟩
  rw [placed, hplace]

/-- What a byte placed in a memory changes. -/
theorem of_placed (h : b.placed region offset value = .ok b') :
    ∃ memory, memory.size = (b.memory region).size ∧ b' = b.withMemory memory region := by
  unfold placed place at h
  split at h
  · rename_i hplace
    cases h
    split at hplace <;> cases hplace
    exact ⟨_, Array.size_set _, rfl⟩
  · cases h

/-- The offset is a variable here: to compare two of its kind, it would be computed in unary. -/
theorem placed_prgRam (b : Board) (offset : Nat) (value : UInt8) :
    (match b with
      | ⟨⟨header, prg, chr, chrIsRam, prgRam⟩, latch⟩ =>
        match place latch.kind .prgRam prgRam offset value with
        | .ok prgRam => .ok ⟨⟨header, prg, chr, chrIsRam, prgRam⟩, latch⟩
        | .error (fault, prgRam) => .error (fault, ⟨⟨header, prg, chr, chrIsRam, prgRam⟩, latch⟩)) =
      b.placed .prgRam offset value := by
  cases b
  rfl

theorem placed_chr (b : Board) (offset : Nat) (value : UInt8) :
    (match b with
      | ⟨⟨header, prg, chr, chrIsRam, prgRam⟩, latch⟩ =>
        match place latch.kind .chr chr offset value with
        | .ok chr => .ok ⟨⟨header, prg, chr, chrIsRam, prgRam⟩, latch⟩
        | .error (fault, chr) => .error (fault, ⟨⟨header, prg, chr, chrIsRam, prgRam⟩, latch⟩)) =
      b.placed .chr offset value := by
  cases b
  rfl

theorem writePrg_eq (b : Board) (addr : UInt16) (value : UInt8) :
    b.writePrg addr value =
      if 0x8000 ≤ addr then
        .ok { b with latch := b.latch.write (prgBanks b.image.prg) addr value }
      else if inPrgRam addr && b.hasPrgRam then b.placed .prgRam (b.prgRamOffset addr) value
      else .ok b := by
  unfold writePrg
  split_ifs
  · rfl
  · exact placed_prgRam b _ value
  · rfl

theorem writeChr_eq (b : Board) (addr : UInt16) (value : UInt8) :
    b.writeChr addr value =
      if b.image.chrIsRam then b.placed .chr (b.chrOffset addr) value else .ok b := by
  unfold writeChr
  split_ifs
  · exact placed_chr b _ value
  · rfl

/-- A processor write that the work memory has room for: the latch sees it from `$8000` up, and
nothing else changes but the bytes of the work memory. -/
theorem writePrg_ok {addr : UInt16} (value : UInt8)
    (h : b.prgRamOffset addr < b.image.prgRam.size) :
    ∃ prgRam, prgRam.size = b.image.prgRam.size ∧
      b.writePrg addr value = .ok
        { image := { b.image with prgRam }
          latch :=
            if 0x8000 ≤ addr then b.latch.write (prgBanks b.image.prg) addr value else b.latch } := by
  rw [writePrg_eq]
  split_ifs with hhigh hwindow
  · exact ⟨b.image.prgRam, rfl, rfl⟩
  · exact placed_ok .prgRam value h
  · exact ⟨b.image.prgRam, rfl, rfl⟩

/-! ## Faults -/

/-- A fault that names a byte behind the end of a memory of the board. -/
structure Lacks (b : Board) (fault : Fault) : Prop where
  board : fault.board = b.kind
  size : fault.size = (b.memory fault.region).size
  outside : fault.size ≤ fault.offset

variable {fault : Fault}

theorem fetch_lacks (region : Region) {offset : Nat}
    (h : fetch b.kind region (b.memory region) offset = .error fault) :
    b.Lacks fault ∧ fault.region = region := by
  unfold fetch at h
  split at h
  · cases h
  · rename_i hsize
    cases h
    exact ⟨⟨rfl, rfl, Nat.not_lt.mp hsize⟩, rfl⟩

theorem placed_lacks (h : b.placed region offset value = .error (fault, b')) :
    b' = b ∧ b.Lacks fault := by
  unfold placed place at h
  split at h
  · cases h
  · rename_i hplace
    cases h
    split at hplace
    · cases hplace
    · rename_i hsize
      cases hplace
      exact ⟨withMemory_memory b region, rfl, rfl, Nat.not_lt.mp hsize⟩

variable {addr : UInt16}

theorem readPrg_lacks (h : b.readPrg addr = .error fault) : b.Lacks fault := by
  unfold readPrg at h
  split_ifs at h
  · exact (fetch_lacks .prg h).1
  · exact (fetch_lacks .prgRam h).1

theorem writePrg_lacks (h : b.writePrg addr value = .error (fault, b')) : b' = b ∧ b.Lacks fault := by
  rw [writePrg_eq] at h
  split_ifs at h
  exact placed_lacks h

theorem writeChr_lacks (h : b.writeChr addr value = .error (fault, b')) : b' = b ∧ b.Lacks fault := by
  rw [writeChr_eq] at h
  split_ifs at h
  exact placed_lacks h

end Board

namespace Slot

open Board (Fault)

variable {slot slot' : Slot} {fault : Fault} {addr : UInt16} {value : UInt8}

/-- A fault of the game in a slot. -/
def Lacks (slot : Slot) (fault : Fault) : Prop := ∃ b, slot = some b ∧ b.Lacks fault

theorem readPrg_lacks (h : slot.readPrg addr = .error fault) : slot.Lacks fault := by
  cases slot with
  | none => cases h
  | some b => exact ⟨b, rfl, Board.readPrg_lacks h⟩

theorem readChr_lacks (h : slot.readChr addr = .error fault) :
    slot.Lacks fault ∧ fault.region = .chr := by
  cases slot with
  | none => cases h
  | some b =>
    obtain ⟨hlacks, hregion⟩ := Board.fetch_lacks .chr h
    exact ⟨⟨b, rfl, hlacks⟩, hregion⟩

theorem writePrg_lacks (h : slot.writePrg addr value = .error (fault, slot')) :
    slot'.Lacks fault := by
  cases slot with
  | none => cases h
  | some b =>
    unfold Slot.writePrg at h
    dsimp only at h
    split at h
    · cases h
    · rename_i hwrite
      cases h
      obtain ⟨rfl, hlacks⟩ := Board.writePrg_lacks hwrite
      exact ⟨_, rfl, hlacks⟩

theorem writeChr_lacks (h : slot.writeChr addr value = .error (fault, slot')) :
    slot'.Lacks fault := by
  cases slot with
  | none => cases h
  | some b =>
    unfold Slot.writeChr at h
    dsimp only at h
    split at h
    · cases h
    · rename_i hwrite
      cases h
      obtain ⟨rfl, hlacks⟩ := Board.writeChr_lacks hwrite
      exact ⟨_, rfl, hlacks⟩

end Slot

end NesMachine
