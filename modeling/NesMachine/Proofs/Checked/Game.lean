import NesMachine.Proofs.Checked.Board
import NesMachine.Proofs.Console.Calls

/-!
# Games

The sizes that a header declares are so far below the limits of a machine word that every game can be
counted in bytes, on its board and with its save.

* `Slot.FromRom.bounded`: the banks of a game that was loaded can be counted.
-/

namespace NesMachine

open Digest (Bytes)

/-! ## Sizes -/

namespace Rom

/-- The largest size is seven times the largest power of two. -/
theorem extendedSize_le (low nibble : UInt8) {chunk : Nat} (hchunk : chunk ≤ 2 ^ 14) :
    Header.extendedSize low nibble chunk ≤ 7 * 2 ^ 60 := by
  have hlow := low.toNat_lt
  have hnibble := nibble.toNat_lt
  unfold Header.extendedSize
  split_ifs
  · have hpow : Nat.pow 2 (min (low.toNat / 4) 60) ≤ 2 ^ 60 :=
      Nat.pow_le_pow_right (by decide) (Nat.min_le_right _ _)
    have hodd : low.toNat % 4 * 2 + 1 ≤ 7 := by omega
    exact Nat.le_trans (Nat.mul_le_mul hpow hodd) (by decide)
  · have hcount : nibble.toNat * 256 + low.toNat ≤ 2 ^ 16 := by omega
    exact Nat.le_trans (Nat.mul_le_mul hcount hchunk) (by decide)

theorem sizes_le {bytes : Bytes} {header : Header} (h : Header.parse bytes = .ok header) :
    header.prgSize ≤ 7 * 2 ^ 60 ∧ header.chrSize ≤ 7 * 2 ^ 60 := by
  unfold Header.parse at h
  simp only at h
  split at h
  · cases h
  · split at h
    · cases h
    · cases h
      simp only
      split
      · exact ⟨Nat.le_trans (Nat.mul_le_mul_right _ (UInt8.toNat_lt _).le) (by decide),
          Nat.le_trans (Nat.mul_le_mul_right _ (UInt8.toNat_lt _).le) (by decide)⟩
      · exact ⟨extendedSize_le _ _ (by decide), extendedSize_le _ _ (by decide)⟩

theorem cut_size {bytes section_ : Bytes} {start length : Nat} {part : Part}
    (h : Image.cut bytes start length part = .ok section_) : section_.size ≤ length := by
  unfold Image.cut at h
  split_ifs at h
  cases h
  rw [Array.size_extract]
  omega

theorem prg_lt {bytes : Bytes} {image : Image} (h : Image.parse bytes = .ok image) :
    image.prg.size < 2 ^ 63 := by
  obtain ⟨header, hheader, h⟩ := bind_ok h
  obtain ⟨prg, hprg, h⟩ := bind_ok h
  have hdeclared : header.prgSize < 2 ^ 63 :=
    Nat.lt_of_le_of_lt (sizes_le (of_mapError_ok hheader)).1 (by decide)
  have hsize := Nat.lt_of_le_of_lt (cut_size hprg) hdeclared
  simp only at h
  split at h
  · cases h
  · split at h
    · cases h
      exact hsize
    · obtain ⟨chr, -, h⟩ := bind_ok h
      cases h
      exact hsize

end Rom

/-! ## Slots -/

theorem boardOf_bounded {bytes : Bytes} {board : Board} (h : Cartridge.boardOf bytes = .ok board) :
    board.Bounded := by
  obtain ⟨image, himage, h⟩ := bind_ok h
  have hprg := Rom.prg_lt (of_mapError_ok himage)
  split at h
  · cases h
    exact .ofImage _ hprg
  · cases h

/-- **The banks of every game can be counted.** -/
theorem Slot.FromRom.bounded {slot : Slot} (h : slot.FromRom) : slot.Bounded := by
  obtain ⟨bytes, board, hboard, rfl | ⟨saved, rfl⟩⟩ := h
  · rintro _ ⟨⟩
    exact boardOf_bounded hboard
  · rintro _ ⟨⟩
    have hbounded := boardOf_bounded hboard
    exact ⟨hbounded.latch, hbounded.prg⟩

end NesMachine
