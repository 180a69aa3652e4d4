import NesMachine.Proofs.Ppu.Objects

/-!
# The picture

What a frame shows that is drawn with no register access in between.

* **`backdrop_exact`**: with sprites off, every dot of the picture is the dot of the large picture
  under the window.
* **`picture_exact`**: in general, every dot of the picture is the background that the pipeline
  supplies with the entry in front over it or behind it, and the two sprite flags say what the
  entries say.
-/

namespace NesMachine

namespace Ppu

variable {p q r : Ppu} {slot : Slot}

/-- The palette entry of a dot of the picture, from the background's. -/
def pictureEntry (p : Ppu) (slot : Slot) (background x y : Nat) : Nat :=
  match p.frontObject slot x y with
  | some i =>
    if background = 0 ∨ p.objectByte i 2 &&& 0x20 = 0 then
      0x10 + 4 * ((p.objectByte i 2).toNat % 4) + p.objectColour slot i x y
    else background
  | none => background

/-! ## Palette entries -/

/-- An entry that is not the backdrop of a sprite palette. -/
def Direct (entry : Nat) : Prop := entry < 32 ∧ (entry < 16 ∨ entry % 4 ≠ 0)

theorem shown_eq (p : Ppu) {entry : UInt8} (h : Direct entry.toNat) :
    colourOf (p.readPalette (0x3F00 + entry.toUInt16)) = p.shown entry.toNat := by
  obtain ⟨h32, hdirect⟩ := h
  have hcell : paletteCell (0x3F00 + entry.toUInt16) = Fin.ofNat _ entry.toNat := by
    have hindex : (0x3F00 + entry.toUInt16 : UInt16).toNat % 32 = entry.toNat := by
      rw [UInt16.toNat_add, UInt8.toNat_toUInt16, show (0x3F00 : UInt16).toNat = 0x3F00 from rfl]
      omega
    apply Fin.ext
    simp only [paletteCell, hindex, Fin.val_ofNat]
    rw [if_neg (by omega)]
    exact (Nat.mod_eq_of_lt h32).symm
  unfold readPalette shown greyscale
  rw [hcell]
  simp only [decide_eq_true_iff]
  rfl

theorem index_direct (c : Column) : c.index < 16 := by
  have h1 := Bool.toNat_le c.low
  have h2 := Bool.toNat_le c.high
  have h3 := Bool.toNat_le c.attrLow
  have h4 := Bool.toNat_le c.attrHigh
  unfold Column.index
  simp only
  split <;> omega

theorem backgroundAt_lt (p : Ppu) (slot : Slot) (x y : Nat) :
    (p.backgroundAt slot x y).toNat < 16 := by
  unfold backgroundAt
  split
  · have hlt := index_direct ((p.scenery slot).stream (p.rowCounter y) (x + p.scroll.fineX.toNat))
    rw [UInt8.toNat_ofNat']
    omega
  · exact Nat.zero_lt_of_lt (show 0 < 16 by omega)

theorem objectColour_le (p : Ppu) (slot : Slot) (i : Fin 64) (x y : Nat) :
    p.objectColour slot i x y ≤ 3 := by
  unfold objectColour bitOf
  split
  · omega
  · simp only
    omega

/-! ## One dot of the picture -/

theorem showsSpritesAt_eq (x : Nat) (hset : r.setting = p.setting) :
    r.showsSpritesAt x = decide (p.SpritesShown x) := by
  have hmask : r.mask = p.mask := congrArg Setting.mask hset
  rw [showsSpritesAt, hmask, Bool.eq_iff_iff, Bool.and_eq_true, Bool.or_eq_true,
    decide_eq_true_iff, decide_eq_true_iff, decide_eq_true_iff, decide_eq_true_iff]
  rfl

theorem spriteAt?_eq (x y : Nat) (hset : r.setting = p.setting)
    (hline : r.lineSprites = p.loadedOn slot (y - 1)) :
    r.spriteAt? x = (p.frontObject slot x y).map
      fun i => p.loaded slot (y - 1) (p.oam.entry i) := by
  unfold spriteAt? frontObject
  rw [showsSpritesAt_eq x hset, hline, front_loadedOn]
  by_cases hs : p.SpritesShown x
  · rw [if_pos (decide_eq_true hs), if_pos hs]
  · rw [if_neg (by rw [decide_eq_true_iff]; exact hs), if_neg hs]
    rfl

theorem frontObject_spec {i : Fin 64} {x y : Nat} (h : p.frontObject slot x y = some i) :
    i ∈ p.objects y ∧ p.objectColour slot i x y ≠ 0 := by
  unfold frontObject at h
  split at h
  · have hsolid := List.find?_some h
    exact ⟨List.mem_of_find?_eq_some h, of_decide_eq_true hsolid⟩
  · cases h

theorem toNat_compose (p : Ppu) (slot : Slot) {background : UInt8} (hb : background.toNat < 16) (x y : Nat) :
    (compose background ((p.frontObject slot x y).map
      fun i => p.loaded slot (y - 1) (p.oam.entry i)) x).toNat =
        p.pictureEntry slot background.toNat x y ∧
      Direct (p.pictureEntry slot background.toNat x y) := by
  unfold pictureEntry
  cases hfront : p.frontObject slot x y with
  | none => exact ⟨rfl, show background.toNat < 32 by omega, .inl hb⟩
  | some i =>
    obtain ⟨hmem, hsolid⟩ := frontObject_spec hfront
    have hcolour := p.objectColour_le slot i x y
    have hbehind : (background = 0 ∨
        (!(p.loaded slot (y - 1) (p.oam.entry i)).behindBackground) = true) ↔
        background.toNat = 0 ∨ p.objectByte i 2 &&& 0x20 = 0 := by
      have hflag : (p.loaded slot (y - 1) (p.oam.entry i)).behindBackground =
        decide (p.objectByte i 2 &&& 0x20 ≠ 0) := rfl
      rw [hflag, ← UInt8.toNat_inj]
      simp
    have hpalette : (p.loaded slot (y - 1) (p.oam.entry i)).palette.toNat =
        (p.objectByte i 2).toNat % 4 :=
      Nat.and_two_pow_sub_one_eq_mod (p.objectByte i 2).toNat 2
    simp only [Option.map_some, compose, hbehind]
    split
    · rw [UInt8.toNat_add, UInt8.toNat_add, UInt8.toNat_mul, colourAt_loaded hmem, hpalette,
        show (0x10 : UInt8).toNat = 16 from rfl, show (4 : UInt8).toNat = 4 from rfl]
      refine ⟨by omega, by omega, .inr (by omega)⟩
    · exact ⟨rfl, by omega, .inl hb⟩

/-- A frame is about to begin, with scroll counters of fifteen bits. -/
structure FrameStart (p : Ppu) : Prop extends AtPreRender p where
  v : p.scroll.v < 0x8000
  t : p.scroll.t < 0x8000
  fineX : p.scroll.fineX ≤ 7

theorem FrameStart.fineX_lt (hp : FrameStart p) : p.scroll.fineX.toNat < 8 :=
  Nat.lt_succ_of_le (UInt8.le_iff_toNat_le.mp hp.fineX)

theorem dotColour_after (h : slot.Readable) (hp : FrameStart p) (hr : p.rendering) {x y : Nat}
    (hx : x < 256) (hy : y < 240) :
    (p.after slot (p.lineStart y + (x + 2))).dotColour x =
      p.shown (p.pictureEntry slot (p.backgroundAt slot x y).toNat x y) := by
  have hstart := hp.toAtPreRender
  have hback := backgroundIndex_after h hstart hr hp.v hp.t hp.fineX_lt hx hy
  have hline := lineSprites_after h hstart hr hy (show x + 2 ≤ 321 by omega)
  have hbound := (runsAlong_picture (p := p) hy).bound
  have hset := (frame_after h hstart (show p.lineStart y + (x + 2) ≤ p.pictureEnd by omega)).1
  generalize p.after slot (p.lineStart y + (x + 2)) = r at *
  have hcompose := toNat_compose p slot (p.backgroundAt_lt slot x y) x y
  rw [← spriteAt?_eq x y hset hline] at hcompose
  obtain ⟨hentry, hdirect⟩ := hcompose
  rw [← hentry] at hdirect ⊢
  unfold dotColour
  simp only
  rw [rendering_congr hset, if_pos hr, hback, readPalette_congr hset, shown_eq p hdirect]

/-- The first object over an opaque background, on a dot of the picture. -/
theorem hitsNow_after (h : slot.Readable) (hp : FrameStart p) (hr : p.rendering) {x y : Nat}
    (hx : x < 256) (hy : y < 240) : (p.after slot (p.lineStart y + (x + 2))).hitsNow ↔
      x ≠ 255 ∧ 0 ∈ p.objects y ∧ p.objectColour slot 0 x y ≠ 0 ∧ p.SpritesShown x ∧
        p.backgroundAt slot x y ≠ 0 := by
  have hstart := hp.toAtPreRender
  have hback := backgroundIndex_after h hstart hr hp.v hp.t hp.fineX_lt hx hy
  have hsprites := lineSprites_after h hstart hr hy (show x + 2 ≤ 321 by omega)
  have hl := runsAlong_picture (p := p) hy
  have hbound := hl.bound
  obtain ⟨hline, hdot⟩ := hl.at h hstart (show x + 2 < 341 by omega)
  have hset := (frame_after h hstart (show p.lineStart y + (x + 2) ≤ p.pictureEnd by omega)).1
  generalize p.after slot (p.lineStart y + (x + 2)) = r at *
  have hdraws : r.draws := by
    unfold draws frameWidth
    rw [hline, hdot]
    omega
  unfold hitsNow hitsFirstObject
  rw [hdot, Nat.add_sub_cancel, hback, showsSpritesAt_eq x hset, hsprites, Bool.and_eq_true,
    Bool.and_eq_true, Bool.and_eq_true, bne_iff_ne, bne_iff_ne, decide_eq_true_iff,
    firstObject_loadedOn]
  constructor
  · rintro ⟨-, ⟨⟨hsolid, hedge⟩, hshown⟩, hmem, hcolour⟩
    exact ⟨hedge, hmem, hcolour, hshown, hsolid⟩
  · rintro ⟨hedge, hmem, hcolour, hshown, hsolid⟩
    exact ⟨hdraws, ⟨⟨hsolid, hedge⟩, hshown⟩, hmem, hcolour⟩

/-- The lines on which more than eight sprites are found. -/
theorem overflowsNow_after (h : slot.Readable) (hp : AtPreRender p) (hr : p.rendering) {n : Nat}
    (hn : n < p.pictureEnd) : (p.after slot n).overflowsNow ↔
      ∃ line < 240, n = p.lineStart line + 257 ∧ 8 < (p.objectsInRange line).length := by
  obtain ⟨hset, hbeam⟩ := frame_after h hp (le_of_lt hn)
  have hb := p.preRenderDots_bounds
  unfold overflowsNow
  rw [rendering_congr hset, oam_congr hset, spriteHeight_congr hset, hbeam, beamAfter]
  unfold lineStart
  unfold pictureEnd frameHeight at hn
  split
  · simp only [hp.scanline, inRange_preRender, List.length_nil]
    constructor
    · rintro ⟨-, -, hlength⟩
      omega
    · rintro ⟨line, -, hline, -⟩
      omega
  · simp only [inRange_eq, List.length_map]
    constructor
    · rintro ⟨hdot, -, hlength⟩
      exact ⟨_, by omega, by omega, hlength⟩
    · rintro ⟨line, hline, rfl, hlength⟩
      rw [Nat.add_assoc, Nat.add_sub_cancel_left]
      refine ⟨by omega, hr, ?_⟩
      rw [show (341 * line + 257) / 341 = line by omega]
      exact hlength

/-! ## A game to draw -/

end Ppu

namespace Slot

/-- A board without pattern banks is readable if it has all its patterns. -/
theorem readable_nrom (image : Rom.Image) (h : 0x2000 ≤ image.chr.size) :
    Readable (some ⟨image, .nrom⟩) := by
  intro addr _
  have hlt : Board.chrOffset ⟨image, .nrom⟩ addr < image.chr.size :=
    Nat.lt_of_lt_of_le (Nat.mod_lt _ (by omega)) h
  unfold readChr Board.readChr Board.fetch
  simp only
  rw [dif_pos hlt]
  exact ⟨_, rfl⟩

/-- A small game. -/
def small : Slot := some ⟨{
    header := ⟨.ines, 0, .vertical, false, false, .ntsc, 0x4000, 0x2000, 0⟩
    prg := Array.replicate 0x4000 0
    chr := Array.replicate 0x2000 0x5A
    chrIsRam := false
    prgRam := #[] }, .nrom⟩

theorem readable_small : small.Readable := readable_nrom _ Array.size_replicate.ge

end Slot

namespace Ppu

variable {p : Ppu} {slot : Slot}

/-- A frame is about to begin, scrolled, with the given mask. -/
def scrolled (mask : UInt8) : Ppu :=
  { ({} : Ppu) with
    mask
    scroll := { v := 0x7FFF, t := 0x6F2B, fineX := 5 }
    beam := { scanline := -1 } }

theorem frameStart_scrolled (mask : UInt8) : FrameStart (scrolled mask) :=
  ⟨⟨rfl, rfl⟩, show (0x7FFF : UInt16) < 0x8000 by decide, show (0x6F2B : UInt16) < 0x8000 by decide,
    show (5 : UInt8) ≤ 7 by decide⟩

/-! ## The whole picture -/

/-- **A frame with sprites.** The background is what the pipeline supplies on the dots of the
picture; `picture_exact` says what the sprites make of it, and what the flags tell. -/
theorem picture_exact (h : slot.Readable) (hp : FrameStart p) (hmask : p.mask &&& 0x18 ≠ 0) :
    ∃ q, ScansOut slot p q ∧
    (∀ r, Scanning slot p r → r.draws → r.backgroundIndex (r.beam.dot - 2) =
      p.backgroundAt slot (r.beam.dot - 2) r.beam.scanline.toNat) ∧
    (∀ x < 256, ∀ y < 240, q.frame[y * frameWidth + x]? =
      some (p.shown (p.pictureEntry slot (p.backgroundAt slot x y).toNat x y))) ∧
    (q.status &&& spriteZeroHit ≠ 0 ↔ ∃ x < 256, ∃ y < 240, x ≠ 255 ∧ 0 ∈ p.objects y ∧
      p.objectColour slot 0 x y ≠ 0 ∧ p.SpritesShown x ∧ p.backgroundAt slot x y ≠ 0) ∧
    (q.status &&& spriteOverflow ≠ 0 ↔ ∃ line < 240, 8 < (p.objectsInRange line).length) := by
  have hstart := hp.toAtPreRender
  have hr : p.rendering := decide_eq_true hmask
  refine ⟨p.after slot p.pictureEnd, scansOut_after h hstart, ?_, ?_, ?_, ?_⟩
  · intro r hscan hdraws
    obtain ⟨n, hn, rfl⟩ := (scanning_iff h hstart).mp hscan
    obtain ⟨x, hx, y, hy, rfl, hdot, hline⟩ := draws_after h hstart hn hdraws
    rw [hdot, hline, Nat.add_sub_cancel, Int.toNat_natCast]
    exact backgroundIndex_after h hstart hr hp.v hp.t hp.fineX_lt hx hy
  · intro x hx y hy
    have hbound := (runsAlong_picture (p := p) hy).bound
    rw [drawn_once h hstart hx hy (by omega) le_rfl, dotColour_after h hp hr hx hy]
  · rw [hit_after h hstart]
    constructor
    · rintro ⟨n, -, hn, hhit⟩
      obtain ⟨x, hx, y, hy, rfl, -, -⟩ := draws_after h hstart (le_of_lt hn) hhit.1
      exact ⟨x, hx, y, hy, (hitsNow_after h hp hr hx hy).mp hhit⟩
    · rintro ⟨x, hx, y, hy, hhit⟩
      have hbound := (runsAlong_picture (p := p) hy).bound
      exact ⟨_, by omega, by omega, (hitsNow_after h hp hr hx hy).mpr hhit⟩
  · rw [overflow_after h hstart]
    constructor
    · rintro ⟨n, -, hn, hover⟩
      obtain ⟨line, hline, -, hlength⟩ := (overflowsNow_after h hstart hr hn).mp hover
      exact ⟨line, hline, hlength⟩
    · rintro ⟨line, hline, hlength⟩
      have hbound := (runsAlong_picture (p := p) hline).bound
      have hn : p.lineStart line + 257 < p.pictureEnd := by omega
      exact ⟨_, by omega, hn,
        (overflowsNow_after h hstart hr hn).mpr ⟨line, hline, rfl, hlength⟩⟩

theorem picture_exact_small : (scrolled 0x1E).mask &&& 0x18 ≠ 0 ∧
    ∃ q, ScansOut Slot.small (scrolled 0x1E) q ∧
      (∀ r, Scanning Slot.small (scrolled 0x1E) r → r.draws →
        r.backgroundIndex (r.beam.dot - 2) = (scrolled 0x1E).backgroundAt Slot.small
          (r.beam.dot - 2) r.beam.scanline.toNat) ∧
      (q.status &&& spriteOverflow ≠ 0 ↔
        ∃ line < 240, 8 < ((scrolled 0x1E).objectsInRange line).length) := by
  obtain ⟨q, hq, hback, -, -, hover⟩ :=
    picture_exact Slot.readable_small (frameStart_scrolled 0x1E) (by decide)
  exact ⟨by decide, q, hq, hback, hover⟩

/-- **A frame without sprites.** -/
theorem backdrop_exact (h : slot.Readable) (hp : FrameStart p)
    (hrow : (Scroll.place p.scroll.t).coarseY ≤ 29) (hshown : p.mask &&& 0x08 ≠ 0)
    (hsprites : p.mask &&& 0x10 = 0) :
    ∃ q, ScansOut slot p q ∧ ∀ x < 256, ∀ y < 240,
      q.frame[y * frameWidth + x]? = some (p.shown (p.backdrop slot x y)) := by
  have hstart := hp.toAtPreRender
  have hr : p.rendering := by
    refine decide_eq_true fun hoff => hshown ?_
    rw [show (0x08 : UInt8) = 0x18 &&& 0x08 from rfl, ← UInt8.and_assoc, hoff, UInt8.zero_and]
  refine ⟨p.after slot p.pictureEnd, scansOut_after h hstart, fun x hx y hy => ?_⟩
  have hbound := (runsAlong_picture (p := p) hy).bound
  have hfront : p.frontObject slot x y = none := if_neg fun hon => hon.1 hsprites
  have hentry : (p.backgroundAt slot x y).toNat = p.backdrop slot x y := by
    rw [backgroundAt_eq hp.t hrow hshown, UInt8.toNat_ofNat']
    exact Nat.mod_eq_of_lt (Nat.lt_of_lt_of_le (p.backdrop_lt slot x y) (by omega))
  rw [drawn_once h hstart hx hy (by omega) le_rfl, dotColour_after h hp hr hx hy, pictureEntry,
    hfront, hentry]

theorem backdrop_exact_small : (scrolled 0x0A).mask &&& 0x10 = 0 ∧
    ∃ q, ScansOut Slot.small (scrolled 0x0A) q ∧ ∀ x < 256, ∀ y < 240,
      q.frame[y * frameWidth + x]? =
        some ((scrolled 0x0A).shown ((scrolled 0x0A).backdrop Slot.small x y)) :=
  ⟨rfl, backdrop_exact Slot.readable_small (frameStart_scrolled 0x0A) (by decide) (by decide) rfl⟩

end Ppu

end NesMachine
