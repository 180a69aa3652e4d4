import Mathlib.Algebra.Group.Nat.Defs
import NesMachine.Board.Slot
import NesMachine.Proofs.Board.Access
import NesMachine.Proofs.Checked.Basic

/-!
# Boards, checked

A bank is multiplied by its size before anybody asks whether the game has it. The product fits a
machine word all the same, since a latch holds small numbers, or the last bank of the program.

* `Board.Bounded`: a board whose banks can be counted in bytes.
* `readPrg_eq`, `writePrg_eq`, `readChr_eq`, `writeChr_eq`: on such a board nothing panics but the
  access itself.
-/

namespace NesMachine

open Board (Fault Latch Mmc1 fetch prgBanks halfBank)

/-! ## Banks that can be counted -/

namespace Board

/-- The banks that a latch selects. -/
def Latch.banks : Latch → List Nat
  | .nrom => []
  | .uxrom bank | .cnrom bank | .axrom bank _ => [bank]
  | .mmc1 m => [m.prgWindows.1, m.prgWindows.2, m.chrWindows.1, m.chrWindows.2]

/-- A board whose banks can be counted in bytes. -/
structure Bounded (b : Board) : Prop where
  latch : ∀ bank ∈ b.latch.banks, bank < 2 ^ 49
  prg : b.image.prg.size < 2 ^ 63

theorem prgBanks_pos (prg : Digest.Bytes) : 1 ≤ prgBanks prg := Nat.le_max_right _ _

theorem prgBanks_le {prg : Digest.Bytes} (h : prg.size < 2 ^ 63) : prgBanks prg ≤ 2 ^ 49 := by
  unfold prgBanks halfBank
  omega

theorem toNat_and_lt (value mask : UInt8) (h : mask.toNat < 2 ^ 49) :
    (value &&& mask).toNat < 2 ^ 49 := by
  rw [UInt8.toNat_and]
  exact Nat.lt_of_le_of_lt Nat.and_le_right h

theorem byte_lt (value : UInt8) : value.toNat < 2 ^ 49 :=
  Nat.lt_trans value.toNat_lt (by decide)

theorem Mmc1.selectPrg_lt (control prg : UInt8) {banks : Nat} (h : banks ≤ 2 ^ 49) :
    (Mmc1.selectPrg control prg banks).1 < 2 ^ 49 ∧
      (Mmc1.selectPrg control prg banks).2 < 2 ^ 49 := by
  have hbank : (prg &&& 0x0F).toNat ≤ 15 := by
    rw [UInt8.toNat_and]
    exact Nat.and_le_right
  unfold Mmc1.selectPrg
  split <;> simp only <;> omega

theorem Mmc1.selectChr_lt (control chr0 chr1 : UInt8) :
    (Mmc1.selectChr control chr0 chr1).1 < 2 ^ 49 ∧
      (Mmc1.selectChr control chr0 chr1).2 < 2 ^ 49 := by
  have hbank : (chr0 &&& 0x1E).toNat ≤ 30 := by
    rw [UInt8.toNat_and]
    exact Nat.and_le_right
  unfold Mmc1.selectChr
  split
  · simp only
    omega
  · exact ⟨byte_lt chr0, byte_lt chr1⟩

theorem Mmc1.refresh_lt (m : Mmc1) {banks : Nat} (h : banks ≤ 2 ^ 49) :
    ∀ bank ∈ (Latch.mmc1 (m.refresh banks)).banks, bank < 2 ^ 49 := by
  obtain ⟨hlow, hhigh⟩ := selectPrg_lt m.control m.prg h
  obtain ⟨hleft, hright⟩ := selectChr_lt m.control m.chr0 m.chr1
  simp only [Latch.banks, refresh, List.forall_mem_cons]
  exact ⟨hlow, hhigh, hleft, hright, by simp⟩

/-- A latch takes a few bits of the value, or the number of the last bank. -/
theorem Latch.write_lt {latch : Latch} (hlatch : ∀ bank ∈ latch.banks, bank < 2 ^ 49) {banks : Nat}
    (h : banks ≤ 2 ^ 49) (addr : UInt16) (value : UInt8) :
    ∀ bank ∈ (latch.write banks addr value).banks, bank < 2 ^ 49 := by
  cases latch with
  | nrom => exact hlatch
  | uxrom | cnrom | axrom =>
    simp only [Latch.write, Latch.banks, List.mem_singleton, forall_eq]
    exact toNat_and_lt _ _ (by decide)
  | mmc1 m =>
    unfold Latch.write Mmc1.receive
    simp only
    split_ifs
    · exact Mmc1.refresh_lt _ h
    · exact hlatch
    · exact Mmc1.refresh_lt _ h

namespace Bounded

variable {b b' : Board} {addr : UInt16} {value : UInt8}

theorem writePrg (h : b.Bounded) (hwrite : b.writePrg addr value = .ok b') : b'.Bounded := by
  rw [writePrg_eq] at hwrite
  split_ifs at hwrite
  · cases hwrite
    exact ⟨Latch.write_lt h.latch (prgBanks_le h.prg) addr value, h.prg⟩
  · obtain ⟨memory, -, rfl⟩ := of_placed hwrite
    exact ⟨h.latch, h.prg⟩
  · cases hwrite
    exact h

theorem writeChr (h : b.Bounded) (hwrite : b.writeChr addr value = .ok b') : b'.Bounded := by
  rw [writeChr_eq] at hwrite
  split_ifs at hwrite
  · obtain ⟨memory, -, rfl⟩ := of_placed hwrite
    exact ⟨h.latch, h.prg⟩
  · cases hwrite
    exact h

theorem ofImage (kind : Kind) {image : Rom.Image} (h : image.prg.size < 2 ^ 63) :
    (Board.ofImage kind image).Bounded := by
  cases kind with
  | mmc1 => exact ⟨Mmc1.refresh_lt _ (prgBanks_le h), h⟩
  | nrom => exact ⟨by simp [Board.ofImage, Latch.banks], h⟩
  | uxrom | cnrom | axrom => exact ⟨by simp [Board.ofImage, Latch.banks], h⟩

end Bounded

end Board

/-- A slot without a game, or with one whose banks can be counted. -/
def Slot.Bounded (slot : Slot) : Prop := ∀ b, slot = some b → b.Bounded

namespace Slot.Bounded

variable {slot slot' : Slot} {addr : UInt16} {value : UInt8}

theorem writePrg (h : slot.Bounded) (hwrite : slot.writePrg addr value = .ok slot') :
    slot'.Bounded := by
  cases slot with
  | none =>
    cases hwrite
    exact h
  | some board =>
    unfold Slot.writePrg at hwrite
    dsimp only at hwrite
    split at hwrite
    · rename_i hboard
      cases hwrite
      rintro _ ⟨⟩
      exact (h board rfl).writePrg hboard
    · cases hwrite

theorem writeChr (h : slot.Bounded) (hwrite : slot.writeChr addr value = .ok slot') :
    slot'.Bounded := by
  cases slot with
  | none =>
    cases hwrite
    exact h
  | some board =>
    unfold Slot.writeChr at hwrite
    dsimp only at hwrite
    split at hwrite
    · rename_i hboard
      cases hwrite
      rintro _ ⟨⟩
      exact (h board rfl).writeChr hboard
    · cases hwrite

end Slot.Bounded

namespace Checked

variable {ε : Type} {b : Board} {slot : Slot}

/-! ## Offsets -/

/-- The offset of a byte in a bank. -/
def banked (bank size offset : Nat) : Except (Panic ε) Nat := do
  let start ← below (2 ^ 64) (bank * size)
  below (2 ^ 64) (start + offset)

/-- The last bank of a program. -/
def lastBank (prg : Digest.Bytes) : Except (Panic ε) Nat :=
  require (1 ≤ prgBanks prg) (prgBanks prg - 1)

def prgRamOffset (b : Board) (addr : UInt16) : Except (Panic ε) Nat := do
  let offset ← sub16 addr 0x6000
  return offset.toNat % b.prgRamPeriod

def prgOffset (b : Board) (addr : UInt16) : Except (Panic ε) Nat :=
  match b.latch with
  | .nrom | .cnrom _ => do
    let offset ← sub16 addr 0x8000
    return offset.toNat % if b.image.prg.size > halfBank then 2 * halfBank else halfBank
  | .uxrom bank => do
    let bank ← if addr < 0xC000 then .ok bank else lastBank b.image.prg
    banked bank halfBank (addr.toNat % halfBank)
  | .axrom bank _ => banked bank (2 * halfBank) (addr.toNat % (2 * halfBank))
  | .mmc1 m =>
    banked (if addr < 0xC000 then m.prgWindows.1 else m.prgWindows.2) halfBank
      (addr.toNat % halfBank)

def chrOffset (b : Board) (addr : UInt16) : Except (Panic ε) Nat :=
  match b.latch with
  | .cnrom bank => banked bank 0x2000 (addr.toNat % 0x2000)
  | .mmc1 m =>
    banked (if addr &&& 0x1000 = 0 then m.chrWindows.1 else m.chrWindows.2) 0x1000
      (addr.toNat % 0x1000)
  | _ => .ok (addr.toNat % 0x2000)

theorem banked_ok {bank size offset : Nat} (hbank : bank < 2 ^ 49) (hsize : size ≤ 2 ^ 14 * 2)
    (hoffset : offset < size) :
    (banked bank size offset : Except (Panic ε) Nat) = .ok (bank * size + offset) := by
  have hmul : (bank + 1) * size ≤ 2 ^ 49 * (2 ^ 14 * 2) := Nat.mul_le_mul hbank hsize
  rw [Nat.succ_mul] at hmul
  rw [banked, below_ok (by omega), ok_bind, below_ok (by omega)]

theorem lastBank_eq (prg : Digest.Bytes) :
    (lastBank prg : Except (Panic ε) Nat) = .ok (prgBanks prg - 1) :=
  require_ok (Board.prgBanks_pos prg) _

theorem prgRamOffset_eq {addr : UInt16} (h : Board.inPrgRam addr = true) :
    (prgRamOffset b addr : Except (Panic ε) Nat) = .ok (b.prgRamOffset addr) := by
  unfold Board.inPrgRam at h
  rw [Bool.and_eq_true, decide_eq_true_iff] at h
  have hle : (0x6000 : UInt16).toNat ≤ addr.toNat := UInt16.le_iff_toNat_le.mp h.1
  have hoffset : (addr - 0x6000).toNat = addr.toNat - 0x6000 := UInt16.toNat_sub_of_le _ _ h.1
  rw [prgRamOffset, sub16_ok hle, ok_bind, hoffset]
  rfl

theorem prgOffset_eq (h : b.Bounded) {addr : UInt16} (haddr : 0x8000 ≤ addr) :
    (prgOffset b addr : Except (Panic ε) Nat) = .ok (b.prgOffset addr) := by
  obtain ⟨hlatch, hprg⟩ := h
  have hle : (0x8000 : UInt16).toNat ≤ addr.toNat := UInt16.le_iff_toNat_le.mp haddr
  have hoffset : (addr - 0x8000).toNat = addr.toNat - 0x8000 := UInt16.toNat_sub_of_le _ _ haddr
  have hbanks := Board.prgBanks_le hprg
  unfold prgOffset Board.prgOffset
  cases hb : b.latch with
  | nrom | cnrom =>
    simp only [sub16_ok hle, ok_bind, hoffset]
    rfl
  | uxrom bank =>
    rw [hb] at hlatch
    simp only [lastBank_eq]
    split_ifs
    · exact banked_ok (hlatch bank (List.mem_singleton_self _)) (by decide)
        (Nat.mod_lt _ (by decide))
    · refine banked_ok ?_ (by decide) (Nat.mod_lt _ (by decide))
      have hpos := Board.prgBanks_pos b.image.prg
      omega
  | axrom bank screen =>
    rw [hb] at hlatch
    exact banked_ok (hlatch bank (List.mem_singleton_self _)) (by decide) (Nat.mod_lt _ (by decide))
  | mmc1 m =>
    rw [hb] at hlatch
    refine banked_ok ?_ (by decide) (Nat.mod_lt _ (by decide))
    split_ifs <;> exact hlatch _ (by simp [Board.Latch.banks])

theorem chrOffset_eq (h : b.Bounded) (addr : UInt16) :
    (chrOffset b addr : Except (Panic ε) Nat) = .ok (b.chrOffset addr) := by
  have hlatch := h.latch
  unfold chrOffset Board.chrOffset
  cases hb : b.latch with
  | nrom | uxrom | axrom => rfl
  | cnrom bank =>
    rw [hb] at hlatch
    exact banked_ok (hlatch bank (List.mem_singleton_self _)) (by decide) (Nat.mod_lt _ (by decide))
  | mmc1 m =>
    rw [hb] at hlatch
    refine banked_ok ?_ (by decide) (Nat.mod_lt _ (by decide))
    split_ifs <;> exact hlatch _ (by simp [Board.Latch.banks])

/-! ## Accesses -/

def readPrg (slot : Slot) (addr : UInt16) : Except (Panic Fault) UInt8 :=
  match slot with
  | none => .ok 0
  | some b =>
    if 0x8000 ≤ addr then do
      let offset ← prgOffset b addr
      lift (fetch b.kind .prg b.image.prg offset)
    else if Board.inPrgRam addr && b.hasPrgRam then do
      let offset ← prgRamOffset b addr
      lift (fetch b.kind .prgRam b.image.prgRam offset)
    else .ok 0

def readChr (slot : Slot) (addr : UInt16) : Except (Panic Fault) UInt8 :=
  match slot with
  | none => .ok 0
  | some b => do
    let offset ← chrOffset b addr
    lift (fetch b.kind .chr b.image.chr offset)

/-- What a processor write computes before the access: an offset, or the banks of an MMC1. -/
def writePlace (b : Board) (addr : UInt16) : Except (Panic ε) Nat :=
  if 0x8000 ≤ addr then
    match b.latch with
    | .mmc1 _ => lastBank b.image.prg
    | _ => .ok 0
  else if Board.inPrgRam addr && b.hasPrgRam then prgRamOffset b addr
  else .ok 0

def writePrg (slot : Slot) (addr : UInt16) (value : UInt8) :
    Except (Panic (Fault × Slot)) Slot :=
  match slot with
  | none => .ok none
  | some b => do
    let _ ← writePlace b addr
    lift (Slot.writePrg (some b) addr value)

def writeChr (slot : Slot) (addr : UInt16) (value : UInt8) :
    Except (Panic (Fault × Slot)) Slot :=
  match slot with
  | none => .ok none
  | some b => do
    let _ ← if b.image.chrIsRam then chrOffset b addr else .ok 0
    lift (Slot.writeChr (some b) addr value)

theorem readPrg_eq (h : slot.Bounded) (addr : UInt16) :
    readPrg slot addr = lift (slot.readPrg addr) := by
  cases slot with
  | none => rfl
  | some b =>
    unfold readPrg Slot.readPrg Board.readPrg
    simp only
    split_ifs with hhigh hwindow
    · rw [prgOffset_eq (h b rfl) hhigh, ok_bind]
    · rw [Bool.and_eq_true] at hwindow
      rw [prgRamOffset_eq hwindow.1, ok_bind]
    · rfl

theorem readChr_eq (h : slot.Bounded) (addr : UInt16) :
    readChr slot addr = lift (slot.readChr addr) := by
  cases slot with
  | none => rfl
  | some b =>
    unfold readChr
    simp only
    rw [chrOffset_eq (h b rfl), ok_bind]
    rfl

theorem writePlace_ok (b : Board) (addr : UInt16) :
    ∃ n, (writePlace b addr : Except (Panic ε) Nat) = .ok n := by
  unfold writePlace
  split_ifs with hhigh hwindow
  · split
    · exact ⟨_, lastBank_eq _⟩
    · exact ⟨0, rfl⟩
  · rw [Bool.and_eq_true] at hwindow
    exact ⟨_, prgRamOffset_eq hwindow.1⟩
  · exact ⟨0, rfl⟩

theorem writePrg_eq (slot : Slot) (addr : UInt16) (value : UInt8) :
    writePrg slot addr value = lift (slot.writePrg addr value) := by
  cases slot with
  | none => rfl
  | some b =>
    obtain ⟨n, hplace⟩ := writePlace_ok (ε := Fault × Slot) b addr
    unfold writePrg
    simp only
    rw [hplace]
    rfl

theorem writeChr_eq (h : slot.Bounded) (addr : UInt16) (value : UInt8) :
    writeChr slot addr value = lift (slot.writeChr addr value) := by
  cases slot with
  | none => rfl
  | some b =>
    unfold writeChr
    simp only
    rw [chrOffset_eq (h b rfl)]
    split_ifs <;> rfl

end Checked

end NesMachine
