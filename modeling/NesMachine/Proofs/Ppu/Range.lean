import NesMachine.Proofs.Ppu.Position
import NesMachine.Proofs.Ppu.Renderer

/-!
# Ranges

The counters of the picture unit are wider than what they hold, and the address of the next fetch is
computed from them without a check. What keeps them in range is spread over the register writes and
the order of the dots.

* `Ppu.InRange`: the ranges, with the position of the beam.
* `InRange.step`, `InRange.read`, `InRange.write`, `InRange.reset`: whatever happens, they are kept.
-/

namespace NesMachine

/-! ## Counters -/

namespace Scroll

/-- Some low bits of a byte, shifted to the left. -/
theorem group_lt (value mask : UInt8) {shift : UInt16}
    (h : mask.toNat * 2 ^ (shift.toNat % 16) < 0x8000) :
    (value &&& mask).toUInt16 <<< shift < 0x8000 := by
  have hle : (value &&& mask).toNat ≤ mask.toNat := by
    rw [UInt8.toNat_and]
    exact Nat.and_le_right
  rw [UInt16.lt_iff_toNat_lt, UInt16.toNat_shiftLeft, UInt8.toNat_toUInt16, Nat.shiftLeft_eq]
  refine Nat.lt_of_le_of_lt (Nat.mod_le _ _) (Nat.lt_of_le_of_lt ?_ h)
  exact Nat.mul_le_mul_right _ hle

theorem toUInt16_lt (value : UInt8) : value.toUInt16 < 0x8000 := by
  rw [UInt16.lt_iff_toNat_lt, UInt8.toNat_toUInt16]
  exact Nat.lt_trans value.toNat_lt (by decide)

/-- Counters of fifteen bits and a column of three. -/
structure InRange (s : Scroll) : Prop where
  v : s.v < 0x8000
  t : s.t < 0x8000
  fineX : s.fineX ≤ 7

namespace InRange

variable {s : Scroll}

theorem zero : ({} : Scroll).InRange := ⟨by decide, by decide, by decide⟩

theorem afterAccess (h : s.InRange) (step : UInt16) : (s.afterAccess step).InRange :=
  ⟨and_lt_right _ (by decide), h.t, h.fineX⟩

theorem writeControl (h : s.InRange) (value : UInt8) : (s.writeControl value).InRange :=
  ⟨h.v, or_lt (and_lt_left _ h.t) (group_lt value 3 (by decide)), h.fineX⟩

theorem coarse_lt (value : UInt8) : (value >>> 3).toUInt16 <<< 5 < 0x8000 := by
  have hle : (value >>> 3).toNat ≤ value.toNat := by
    rw [UInt8.toNat_shiftRight, Nat.shiftRight_eq_div_pow]
    exact Nat.div_le_self _ _
  have hlt := value.toNat_lt
  rw [UInt16.lt_iff_toNat_lt, UInt16.toNat_shiftLeft, UInt8.toNat_toUInt16, Nat.shiftLeft_eq]
  show (value >>> 3).toNat * 32 % 65536 < 32768
  omega

theorem writeScroll (h : s.InRange) (value : UInt8) : (s.writeScroll value).InRange := by
  unfold Scroll.writeScroll
  simp only
  split
  · exact ⟨h.v, or_lt (and_lt_left _ h.t) (or_lt (group_lt value 7 (by decide)) (coarse_lt value)),
      h.fineX⟩
  · refine ⟨h.v, or_lt (and_lt_left _ h.t) (toUInt16_lt _), ?_⟩
    rw [UInt8.le_iff_toNat_le, UInt8.toNat_and]
    exact Nat.and_le_right

theorem writeAddress (h : s.InRange) (value : UInt8) : (s.writeAddress value).InRange := by
  unfold Scroll.writeAddress
  split
  · have ht : (s.t &&& 0x7F00) ||| value.toUInt16 < 0x8000 :=
      or_lt (and_lt_left _ h.t) (toUInt16_lt value)
    exact ⟨ht, ht, h.fineX⟩
  · exact ⟨h.v, or_lt (and_lt_left _ h.t) (group_lt value 0x3F (by decide)), h.fineX⟩

end InRange

/-! ## Addresses -/

theorem tileAddress_le (v : UInt16) : tileAddress v ≤ 0x2FFF := by
  obtain ⟨-, htableY, htableX, hcoarseY, hcoarseX⟩ := place_valid v
  rw [UInt16.le_iff_toNat_le, toNat_tileAddress]
  show _ ≤ 0x2FFF
  omega

theorem attributeAddress_le (v : UInt16) : attributeAddress v ≤ 0x2FFF := by
  obtain ⟨-, htableY, htableX, hcoarseY, hcoarseX⟩ := place_valid v
  rw [UInt16.le_iff_toNat_le, toNat_attributeAddress]
  show _ ≤ 0x2FFF
  omega

end Scroll

/-! ## The background unit -/

namespace Background

variable {e : Scenery} {line : Int} {dot : Nat} {b : Background} {address : UInt16}

/-- On the dots that fetch a row of a tile and point behind it, the address is that of the row. -/
def Aimed (dot : Nat) (address : UInt16) : Prop :=
  Fetches dot → dot % 8 = 6 ∨ dot % 8 = 7 → address ≤ 0x1FF7

theorem patternAddress_le (e : Scenery) (b : Background) : b.patternAddress e ≤ 0x1FF7 := by
  have htile := b.pipeline.tile.toNat_lt
  have hrow := Scroll.bits_lt 12 3 b.scroll.v
  have hfine : (Scroll.fineRow b.scroll.v).toNat = Scroll.bits 12 3 b.scroll.v :=
    Scroll.toNat_fineRow _
  have hbase : (if e.highTable then 0x1000 else 0 : UInt16).toNat ≤ 0x1000 := by
    split <;> decide
  rw [UInt16.le_iff_toNat_le, patternAddress, UInt16.toNat_add, UInt16.toNat_add, UInt16.toNat_mul,
    hfine, UInt8.toNat_toUInt16, show (16 : UInt16).toNat = 16 from rfl]
  show _ ≤ 0x1FF7
  omega

theorem next_address_le (h : b.pipeline.address ≤ 0x2FFF) (haimed : Aimed dot b.pipeline.address) :
    (b.next e line dot).pipeline.address ≤ 0x2FFF := by
  have hpattern {a : UInt16} (ha : a ≤ 0x1FF7) : a ≤ 0x2FFF := UInt16.le_trans ha (by decide)
  unfold next
  split_ifs with hfetches
  · unfold fetch
    split
    · exact Scroll.tileAddress_le _
    · exact h
    · exact Scroll.attributeAddress_le _
    · exact h
    · exact hpattern (patternAddress_le e _)
    · exact h
    · rename_i hphase
      have hrow : b.pipeline.address ≤ 0x1FF7 := haimed hfetches (.inr hphase)
      show b.pipeline.address + 8 ≤ 0x2FFF
      rw [UInt16.le_iff_toNat_le] at hrow ⊢
      rw [UInt16.toNat_add]
      exact Nat.le_trans (Nat.mod_le _ _) (Nat.le_trans (Nat.add_le_add_right hrow 8) (by decide))
    · exact h
  all_goals first | exact h | exact Scroll.tileAddress_le _

theorem next_aimed (haimed : Aimed dot b.pipeline.address) :
    Aimed (dot + 1) (b.next e line dot).pipeline.address := by
  intro hfetches hphase
  have hnow : Fetches dot := by
    unfold Fetches at *
    omega
  rw [next_fetch hnow]
  obtain hfive | hsix : dot % 8 = 5 ∨ dot % 8 = 6 := by omega
  · rw [hfive]
    exact patternAddress_le e _
  · rw [hsix]
    exact haimed hnow (.inl hsix)

end Background

/-! ## The picture unit -/

namespace Ppu

open Background (Aimed)

variable {p q : Ppu} {slot slot' : Slot} {addr : UInt16} {value : UInt8}

/-- What always holds of the counters, of the address of the next fetch and of the position. -/
structure InRange (p : Ppu) : Prop where
  scroll : p.scroll.InRange
  address : p.pipeline.address ≤ 0x2FFF
  aimed : p.beam.scanline < Beam.postRender → Aimed p.beam.dot p.pipeline.address
  beam : p.beam.InFrame

namespace InRange

/-- No row is being fetched when a line begins. -/
theorem start (hscroll : p.scroll = {}) (haddress : p.pipeline.address ≤ 0x2FFF)
    {tv : TvSystem} (hbeam : p.beam = { tv }) : p.InRange := by
  have hlines := tv.lines_ge
  refine ⟨hscroll ▸ .zero, haddress, fun _ hfetches => ?_, ?_⟩
  · rw [hbeam] at hfetches
    unfold Background.Fetches at hfetches
    simp only at hfetches
    omega
  · rw [hbeam]
    exact ⟨show (-1 : Int) ≤ 0 by omega, show (0 : Int) ≤ tv.lines - 2 by omega, Nat.zero_le _⟩

theorem powerOn (tv : TvSystem) : (({} : Ppu).setTv tv).InRange :=
  start rfl (show (0 : UInt16) ≤ 0x2FFF by decide) rfl

/-- A reset keeps the address, and nothing else that has a range. -/
theorem reset (haddress : p.pipeline.address ≤ 0x2FFF) : p.reset.InRange :=
  start rfl haddress rfl

/-- Only these three parts have ranges. -/
theorem congr (h : p.InRange) (hscroll : q.scroll.InRange) (hpipeline : q.pipeline = p.pipeline)
    (hbeam : q.beam = p.beam) : q.InRange := by
  obtain ⟨-, haddress, haimed, hin⟩ := h
  rw [← hpipeline, ← hbeam] at haimed
  rw [← hpipeline] at haddress
  rw [← hbeam] at hin
  exact ⟨hscroll, haddress, haimed, hin⟩

/-- The address is aimed on the next dot if it would be on the next dot of the line. -/
theorem aimed_advance {beam : Beam} (rendering : Bool) {address : UInt16} (hin : beam.InFrame)
    (h : Aimed (beam.dot + 1) address) : Aimed (beam.advance rendering).dot address := by
  rcases Beam.advance_cases rendering hin with ⟨-, -, hnext⟩ | ⟨-, -, hnext⟩ | ⟨-, -, hnext⟩
  · rw [hnext]
    exact h
  all_goals
    rw [hnext]
    intro hfetches
    unfold Background.Fetches at hfetches
    simp only at hfetches
    omega

theorem scroll_next {e : Scenery} {line : Int} {dot : Nat} {b : Background}
    (h : b.scroll.InRange) : (b.next e line dot).scroll.InRange := by
  have hv : (b.next e line dot).scroll.v < 0x8000 := Background.next_lt h.v
  rw [Background.next_scroll]
  exact ⟨hv, h.t, h.fineX⟩

/-- **A dot keeps the ranges.** -/
theorem step (h : p.InRange) (hstep : p.step slot = .ok q) : q.InRange := by
  have hbeam := (step_clock hstep).beam
  have hin : q.beam.InFrame := hbeam ▸ h.beam.advance _
  by_cases hline : p.beam.scanline < Beam.postRender
  · have haimed := h.aimed hline
    have hback := (step_picture hstep hline).background
    have hscroll : q.scroll = _ := congrArg Background.scroll hback
    have hpipeline : q.pipeline = _ := congrArg Background.pipeline hback
    refine ⟨?_, ?_, fun _ => ?_, hin⟩
    · rw [hscroll]
      exact scroll_next h.scroll
    · rw [hpipeline]
      exact Background.next_address_le h.address haimed
    · rw [hpipeline, hbeam]
      exact aimed_advance _ h.beam (Background.next_aimed haimed)
  · have hidle : q.scroll = p.scroll ∧ q.pipeline = p.pipeline := by
      rw [step_behind hstep (Int.not_lt.mp hline)]
      rcases idleDot_cases p with ⟨-, -, hidle⟩ | ⟨-, -, hidle⟩ | ⟨-, -, hidle⟩
      all_goals
        rw [hidle]
        exact ⟨rfl, rfl⟩
    obtain ⟨hscroll, hpipeline⟩ := hidle
    refine ⟨hscroll ▸ h.scroll, hpipeline ▸ h.address, fun hnext hfetches => ?_, hin⟩
    -- The line before the picture begins behind the last idle line.
    have hdot : q.beam.dot = 0 := by
      rw [hbeam] at hnext ⊢
      rcases Beam.advance_cases p.rendering h.beam with ⟨-, -, heq⟩ | ⟨-, -, heq⟩ | ⟨-, -, heq⟩
      · rw [heq] at hnext
        exact absurd hnext hline
      all_goals rw [heq]
    unfold Background.Fetches at hfetches
    omega

theorem readData_scroll {r : UInt8 × Ppu} (h : p.readData slot = .ok r) :
    r.2.scroll = p.scroll.afterAccess p.accessStep := by
  unfold readData at h
  simp only at h
  obtain ⟨byte, -, h⟩ := bind_ok h
  split at h
  · obtain ⟨beneath, -, h⟩ := bind_ok h
    cases h
    rfl
  · cases h
    rfl

/-- **A register read keeps the ranges.** -/
theorem read (h : p.InRange) (hread : p.readRegister slot addr = .ok (value, q)) : q.InRange := by
  have hframe := (readRegister_frame hread).1
  refine h.congr ?_ (by rw [hframe]) (by rw [hframe])
  unfold readRegister at hread
  simp only at hread
  split at hread
  all_goals
    obtain ⟨⟨byte, r⟩, hr, hread⟩ := bind_ok hread
    cases hread
  · cases hr
    exact ⟨h.scroll.v, h.scroll.t, h.scroll.fineX⟩
  · cases hr
    exact h.scroll
  · show r.scroll.InRange
    rw [readData_scroll hr]
    exact h.scroll.afterAccess _
  · cases hr
    exact h.scroll

/-- **A register write keeps the ranges.** -/
theorem write (h : p.InRange) (hwrite : p.writeRegister slot addr value = .ok (q, slot')) :
    q.InRange := by
  unfold writeRegister at hwrite
  simp only at hwrite
  split at hwrite
  case h_7 =>
    obtain ⟨⟨r, s⟩, hr, hwrite⟩ := bind_ok hwrite
    have hframe : r = _ := writeMemory_frame hr
    cases hwrite
    rw [hframe]
    exact h.congr (h.scroll.afterAccess _) rfl rfl
  all_goals cases hwrite
  · exact h.congr (h.scroll.writeControl value) rfl rfl
  · exact h.congr h.scroll rfl rfl
  · exact h.congr h.scroll rfl rfl
  · exact h.congr h.scroll rfl rfl
  · exact h.congr (h.scroll.writeScroll value) rfl rfl
  · exact h.congr (h.scroll.writeAddress value) rfl rfl
  · exact h.congr h.scroll rfl rfl

/-- Requests have no range. -/
theorem taken (h : p.InRange) (frameReady nmi : Bool) : { p with frameReady, nmi }.InRange :=
  h.congr h.scroll rfl rfl

end InRange

end Ppu

end NesMachine
