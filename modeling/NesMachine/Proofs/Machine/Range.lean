import NesMachine.Proofs.Checked.Machine

/-!
# Ranges in a run

Whatever a program does, and on every dot of it, the counters of the machine are in their ranges, and
so are the addresses and the offsets that are computed from them.

* `Machine.InBounds`: the ranges of a machine.
* `Acts.inBounds`: they hold behind every run of acts, and around every dot of it.
-/

namespace NesMachine

namespace Machine

variable {m m' : Machine}

/-- The coarse row of a counter, as it is counted. -/
def coarseRow (v : UInt16) : UInt16 := (v &&& 0x03E0) >>> 5

/-- The ranges of a machine. -/
structure InBounds (m : Machine) : Prop where
  v : m.ppu.scroll.v ≤ 0x7FFF
  t : m.ppu.scroll.t ≤ 0x7FFF
  fineX : m.ppu.scroll.fineX ≤ 7
  /-- A row that is counted up stays within its five bits. -/
  row : coarseRow m.ppu.scroll.v ≠ 31 → (coarseRow m.ppu.scroll.v).toNat + 1 < 32
  dot : m.ppu.beam.dot ≤ 340
  first : -1 ≤ m.ppu.beam.scanline
  last : m.ppu.beam.scanline ≤ m.ppu.beam.lastLine
  address : m.ppu.pipeline.address ≤ 0x2FFF
  /-- Where the address moves on to the high plane of a row, that is in the pattern tables. -/
  plane : m.ppu.beam.scanline < Beam.postRender → Background.Fetches m.ppu.beam.dot →
    m.ppu.beam.dot % 8 = 7 → m.ppu.pipeline.address.toNat + 8 ≤ 0x1FFF
  /-- Both planes of a sprite's row are in the pattern tables, whatever its slot holds. -/
  sprite : ∀ s : SpriteSlot, (s.patternAddress m.ppu.beam.scanline m.ppu.tallSprites
    m.ppu.spriteHighTable).toNat + 8 ≤ 0x1FFF
  /-- A dot that is drawn has its four bytes in the frame buffer. -/
  frame : 0 ≤ m.ppu.beam.scanline → m.ppu.beam.scanline < frameHeight → 2 ≤ m.ppu.beam.dot →
    m.ppu.beam.dot < frameWidth + 2 →
      Checked.frameOffset (m.ppu.beam.dot - 2) m.ppu.beam.scanline.toNat + 3 < 245760
  palPhase : m.cpu.palPhase < 5

/-- What keeps a machine in its ranges. -/
structure Ranged (m : Machine) : Prop where
  ppu : m.ppu.InRange
  palPhase : m.cpu.palPhase < 5

theorem Ranged.inBounds (h : Ranged m) : InBounds m := by
  obtain ⟨⟨hscroll, haddress, haimed, hbeam⟩, hphase⟩ := h
  refine ⟨Scroll.lt_iff_le.mp hscroll.v, Scroll.lt_iff_le.mp hscroll.t, hscroll.fineX,
    fun hrow => ?_, hbeam.dot, hbeam.first, ?_, haddress, fun hline hfetches hdot => ?_, fun s => ?_,
    fun hfirst hlast hleft hright => ?_, hphase⟩
  · have hlt : (coarseRow m.ppu.scroll.v).toNat < 32 := by
      rw [coarseRow, Scroll.coarse_eq]
      exact (Scroll.place_valid _).coarseY
    have hne : (coarseRow m.ppu.scroll.v).toNat ≠ 31 := fun h => hrow (UInt16.toNat_inj.mp h)
    omega
  · rw [Beam.lastLine_eq]
    exact hbeam.last
  · have hle := UInt16.le_iff_toNat_le.mp (haimed hline hfetches (.inr hdot))
    exact Nat.add_le_add_right hle 8
  · exact Nat.add_le_add_right (Checked.patternAddress_le s _ _ _) 8
  · refine Checked.frameOffset_lt (Nat.sub_lt_left_of_lt_add hleft ?_) (by omega)
    rwa [Nat.add_comm]

/-! ## Runs -/

theorem Ranged.dot (h : Ranged m) (hdot : m.dot = .ok m') : Ranged m' := by
  obtain ⟨q, hstep, rfl⟩ := dot_ok hdot
  exact ⟨(h.ppu.step hstep).taken _ _, h.palPhase⟩

/-- Before every dot and behind it. -/
def Around (P : Machine → Prop) (ds : List Dot) : Prop := ∀ d ∈ ds, P d.1 ∧ P d.2

theorem Dots.ranged {ds : List Dot} (h : Dots m ds m') (hm : Ranged m) :
    Ranged m' ∧ Around Ranged ds := by
  induction h with
  | nil => exact ⟨hm, by simp [Around]⟩
  | cons hdot _ ih =>
    have hnext := hm.dot hdot
    obtain ⟨hlast, haround⟩ := ih hnext
    exact ⟨hlast, List.forall_mem_cons.mpr ⟨⟨hm, hnext⟩, haround⟩⟩

theorem Act.ranged {e : Event} (h : Act m e m') (hm : Ranged m) :
    Ranged m' ∧ Around Ranged e.dots := by
  have hnone : Around Ranged [] := by simp [Around]
  cases h with
  | cycle hdots =>
    have hticked : Ranged { m with cpu := m.cpu.tick.2 } :=
      ⟨hm.ppu, (Checked.tick_parts hm.palPhase).2.1⟩
    exact hdots.ranged hticked
  | read hread =>
    obtain ⟨hread, hcpu, -, -, -⟩ := readPpu_ok hread
    exact ⟨⟨hm.ppu.read hread, by rw [hcpu]; exact hm.palPhase⟩, hnone⟩
  | write hwrite =>
    obtain ⟨hwrite, hcpu, -, -, -⟩ := writePpu_ok hwrite
    exact ⟨⟨hm.ppu.write hwrite, by rw [hcpu]; exact hm.palPhase⟩, hnone⟩
  | lower => exact ⟨⟨hm.ppu, hm.palPhase⟩, hnone⟩
  | report => exact ⟨⟨hm.ppu, hm.palPhase⟩, hnone⟩
  | hand => exact ⟨⟨hm.ppu, hm.palPhase⟩, hnone⟩
  | quiet hquiet =>
    exact ⟨⟨by rw [hquiet.ppu]; exact hm.ppu, by rw [hquiet.palPhase]; exact hm.palPhase⟩, hnone⟩

theorem Acts.ranged {es : List Event} (h : Acts m es m') (hm : Ranged m) :
    Ranged m' ∧ Around Ranged (dotsOf es) := by
  induction h with
  | nil => exact ⟨hm, by simp [Around, dotsOf]⟩
  | cons hact _ ih =>
    obtain ⟨hnext, hfirst⟩ := hact.ranged hm
    obtain ⟨hlast, hrest⟩ := ih hnext
    rw [dotsOf_cons]
    exact ⟨hlast, List.forall_mem_append.mpr ⟨hfirst, hrest⟩⟩

/-- **A machine stays in its ranges, dot by dot.** -/
theorem Acts.inBounds {es : List Event} (h : Acts m es m') (hm : Ranged m) :
    InBounds m' ∧ Around InBounds (dotsOf es) := by
  obtain ⟨hlast, haround⟩ := h.ranged hm
  refine ⟨hlast.inBounds, fun d hd => ?_⟩
  obtain ⟨hbefore, hbehind⟩ := haround d hd
  exact ⟨hbefore.inBounds, hbehind.inBounds⟩

end Machine

end NesMachine
