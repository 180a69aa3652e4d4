import NesMachine.Cartridge
import NesMachine.Proofs.Board.Access
import NesMachine.Proofs.Outcome

/-!
# Work memory

A board comes with a work memory of zeros, and nothing that is written to the board changes its size. A
save file overwrites the memory from the front, as far as both go.

* `boardOf_prgRam`: the work memory that a game comes with.
* `overlay_replicate`, `overlay_self`: a save over zeros.
-/

namespace NesMachine

open Digest (Bytes)

namespace Board

/-- Boards with the same game, and as much work memory. -/
structure SameGame (b b' : Board) : Prop where
  header : b.image.header = b'.image.header
  size : b.image.prgRam.size = b'.image.prgRam.size

theorem SameGame.trans {b b₁ b' : Board} (h : b.SameGame b₁) (h' : b₁.SameGame b') :
    b.SameGame b' := ⟨h.header.trans h'.header, h.size.trans h'.size⟩

variable {b b' : Board} {addr : UInt16} {value : UInt8}

theorem writePrg_sameGame (h : b.writePrg addr value = .ok b') : b'.SameGame b := by
  rw [writePrg_eq] at h
  split_ifs at h
  · cases h
    exact ⟨rfl, rfl⟩
  · obtain ⟨prgRam, hsize, rfl⟩ := of_placed h
    exact ⟨rfl, hsize⟩
  · cases h
    exact ⟨rfl, rfl⟩

theorem writeChr_sameGame (h : b.writeChr addr value = .ok b') : b'.SameGame b := by
  rw [writeChr_eq] at h
  split_ifs at h
  · obtain ⟨chr, -, rfl⟩ := of_placed h
    exact ⟨rfl, rfl⟩
  · cases h
    exact ⟨rfl, rfl⟩

end Board

namespace Cartridge

variable {bytes : Bytes} {board : Board}

/-- The bytes of work memory that a board has. -/
def workSize (header : Rom.Header) : Nat :=
  if header.mapper = 1 then max header.prgRamSize 0x2000 else header.prgRamSize

theorem parse_prgRam {image : Rom.Image} (h : Rom.Image.parse bytes = .ok image) :
    image.prgRam = Array.replicate image.header.prgRamSize 0 := by
  obtain ⟨header, -, h⟩ := bind_ok h
  obtain ⟨prg, -, h⟩ := bind_ok h
  simp only at h
  split at h
  · cases h
  · split at h
    · cases h
      rfl
    · obtain ⟨chr, -, h⟩ := bind_ok h
      cases h
      rfl

theorem ofMapper?_eq_mmc1 {mapper : UInt8} (h : Board.Kind.ofMapper? mapper = some .mmc1) :
    mapper = 1 := by
  unfold Board.Kind.ofMapper? at h
  split at h
  case h_2 hmapper => exact UInt8.toNat_inj.mp hmapper
  all_goals cases h

theorem ofImage_prgRam {kind : Board.Kind} {image : Rom.Image}
    (hkind : Board.Kind.ofMapper? image.header.mapper = some kind)
    (h : image.prgRam = Array.replicate image.header.prgRamSize 0) :
    (Board.ofImage kind image).image.prgRam =
      Array.replicate (workSize (Board.ofImage kind image).image.header) 0 := by
  by_cases hmapper : image.header.mapper = 1
  · rw [hmapper] at hkind
    cases hkind
    have hsize : image.header.prgRamSize + (0x2000 - image.header.prgRamSize) =
        max image.header.prgRamSize 0x2000 := by omega
    unfold Board.ofImage workSize
    simp only [hmapper, if_true, h, Array.size_replicate, Array.replicate_append_replicate, hsize]
  · have hplain : (Board.ofImage kind image).image = image := by
      cases kind with
      | mmc1 => exact (hmapper (ofMapper?_eq_mmc1 hkind)).elim
      | nrom | uxrom | cnrom | axrom => rfl
    rw [hplain, h]
    unfold workSize
    rw [if_neg hmapper]

/-- Every game starts with all of its board's work memory, and all of it zero. -/
theorem boardOf_prgRam (h : boardOf bytes = .ok board) :
    board.image.prgRam = Array.replicate (workSize board.image.header) 0 := by
  obtain ⟨image, himage, h⟩ := bind_ok h
  have hprgRam := parse_prgRam (of_mapError_ok himage)
  split at h
  · rename_i kind hkind
    cases h
    exact ofImage_prgRam hkind hprgRam
  · cases h

theorem overlay_replicate (size : Nat) (saved : Bytes) :
    (overlay (Array.replicate size 0) saved).size = size ∧
      ∀ k < size, (overlay (Array.replicate size 0) saved).getD k 0 = saved.getD k 0 := by
  have hsize : (overlay (Array.replicate size 0) saved).size = size := by
    unfold overlay
    simp only [Array.size_append, Array.size_extract, Array.size_replicate]
    omega
  refine ⟨hsize, fun k hk => ?_⟩
  unfold overlay
  simp only [Array.getD_eq_getD_getElem?, Array.getElem?_append, Array.size_extract,
    Array.size_replicate, Array.getElem?_extract, Array.getElem?_replicate]
  by_cases hsaved : k < saved.size
  · rw [if_pos (by omega), if_pos (by omega), Nat.zero_add]
  · rw [if_neg (by omega), Array.getElem?_eq_none (Nat.not_lt.mp hsaved)]
    split_ifs <;> rfl

/-- Zeros under a save of their size are the save. -/
theorem overlay_self (saved : Bytes) :
    overlay (Array.replicate saved.size 0) saved = saved := by
  unfold overlay
  simp

end Cartridge

end NesMachine
