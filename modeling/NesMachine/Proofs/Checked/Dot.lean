import NesMachine.Proofs.Checked.Background
import NesMachine.Proofs.Checked.Sprites

/-!
# A dot, checked

The place of a dot in the frame buffer, the counters of the beam, and the units put together.

* `frameOffset_lt`: every dot of the picture has its place in the frame buffer.
* `stepPpu_eq`: from a state in range, no dot panics.
-/

namespace NesMachine.Checked

open Board (Fault)

variable {ε : Type} {p q : Ppu} {slot : Slot}

/-! ## Drawing -/

/-- The bytes of the frame buffer, four to a dot. -/
def frameBytes : Nat := frameWidth * frameHeight * 4

/-- Where a dot of the picture is stored. -/
def frameOffset (x y : Nat) : Nat := (y * frameWidth + x) * 4

/-- Draws one dot. -/
def draw (frame : Frame) (x y : Nat) (colour : Rgba) : Except (Panic ε) Frame := do
  let offset ← below (2 ^ 64) (frameOffset x y)
  let stop ← below (2 ^ 64) (offset + 4)
  require (stop ≤ frameBytes) (frame.draw x y colour)

/-- The colour behind a colour number. -/
def colourOf (number : UInt8) : Except (Panic ε) Rgba :=
  match masterPalette[(number &&& 0x3F).toNat]? with
  | some colour => .ok colour
  | none => .error .arithmetic

/-- The sprite in front in a column, and whether the first object shows there. -/
def spriteAt (p : Ppu) (x : Nat) : Except (Panic ε) (Option SpriteSlot × Bool) :=
  if p.showsSpritesAt x then scan x p.lineSprites.toList else .ok (none, false)

def drawDot (p : Ppu) (x y : Nat) : Except (Panic ε) Ppu := do
  let background ← backgroundIndex p x
  let (front, first) ← spriteAt p x
  let index := if p.rendering then Ppu.compose background front x else 0
  let number ← readPalette p (← add16 0x3F00 index.toUInt16)
  let colour ← colourOf number
  let frame ← draw p.frame x y colour
  let hits := background != 0 && x != 255 && first
  return { p with status := if hits then p.status ||| Ppu.spriteZeroHit else p.status, frame }

def outputDot (p : Ppu) : Except (Panic ε) Ppu := do
  let x ← signed 32 (p.beam.dot - 2)
  let line := p.beam.scanline
  let p ← if (0 ≤ line ∧ line < frameHeight) ∧ (0 ≤ x ∧ x < frameWidth) then
    drawDot p x.toNat line.toNat else .ok p
  return { p with pipeline := p.pipeline.shift }

/-- **Every dot of the picture has its place in the frame buffer.** -/
theorem frameOffset_lt {x y : Nat} (hx : x < frameWidth) (hy : y < frameHeight) :
    frameOffset x y + 4 ≤ 245760 := by
  unfold frameOffset frameWidth frameHeight at *
  omega

theorem draw_eq (frame : Frame) {x y : Nat} (hx : x < frameWidth) (hy : y < frameHeight)
    (colour : Rgba) : (draw frame x y colour : Except (Panic ε) Frame) =
      .ok (frame.draw x y colour) := by
  have hplace := frameOffset_lt hx hy
  rw [draw, below_ok (by omega), ok_bind, below_ok (by omega), ok_bind, require_ok]
  exact hplace

theorem colourOf_eq (number : UInt8) :
    (colourOf number : Except (Panic ε) Rgba) = .ok (NesMachine.colourOf number) := by
  have hlt : (number &&& 0x3F).toNat < masterPalette.size := by
    rw [UInt8.toNat_and]
    exact Nat.lt_of_le_of_lt Nat.and_le_right (by decide)
  unfold colourOf NesMachine.colourOf
  rw [Array.getElem?_eq_getElem hlt, Array.getD, dif_pos hlt]
  rfl

theorem spriteAt_eq (p : Ppu) {x : Nat} (hx : x < frameWidth) :
    (spriteAt p x : Except (Panic ε) (Option SpriteSlot × Bool)) =
      .ok (p.spriteAt? x, p.showsSpritesAt x && p.lineSprites.firstObjectAt x) := by
  unfold spriteAt Ppu.spriteAt?
  split_ifs with hshown
  · have hfirst : (p.lineSprites.toList.any fun s => s.entry == some 0 && s.showsAt x) =
        p.lineSprites.firstObjectAt x := by
      rw [SpriteLine.firstObjectAt, ← Vector.any_toList]
    rw [scan_eq hx, hfirst, hshown, Bool.true_and, SpriteLine.front?, ← Array.find?_toList]
    rfl
  · rw [Bool.not_eq_true] at hshown
    rw [hshown]
    rfl

theorem drawDot_eq (hfine : p.scroll.fineX ≤ 7) {x y : Nat} (hx : x < frameWidth)
    (hy : y < frameHeight) : (drawDot p x y : Except (Panic ε) Ppu) = .ok (p.drawDot x y) := by
  have haddr (index : UInt8) : (add16 0x3F00 index.toUInt16 : Except (Panic ε) UInt16) =
      .ok (0x3F00 + index.toUInt16) := by
    have hlt := index.toNat_lt
    refine add16_ok ?_
    rw [UInt8.toNat_toUInt16, show (0x3F00 : UInt16).toNat = 0x3F00 from rfl]
    omega
  unfold drawDot Ppu.drawDot Ppu.hitsFirstObject
  rw [backgroundIndex_eq hfine, ok_bind, spriteAt_eq p hx, ok_bind]
  simp only [haddr, ok_bind, readPalette_eq, colourOf_eq, draw_eq _ hx hy, Bool.and_assoc]
  rfl

theorem outputDot_eq (hfine : p.scroll.fineX ≤ 7) (hdot : p.beam.dot ≤ 340)
    (hline : p.beam.scanline < Beam.postRender) :
    (outputDot p : Except (Panic ε) Ppu) = .ok p.outputDot := by
  have hheight : (frameHeight : Int) = Beam.postRender := rfl
  have hwidth : frameWidth = 256 := rfl
  rw [outputDot, signed32_ok (by omega), ok_bind]
  unfold Ppu.outputDot
  by_cases hdraws : 0 ≤ p.beam.scanline ∧ 2 ≤ p.beam.dot ∧ p.beam.dot < frameWidth + 2
  · have hx : ((p.beam.dot : Int) - 2).toNat = p.beam.dot - 2 := by omega
    simp only [if_pos hdraws]
    rw [if_pos (by omega), hx, drawDot_eq hfine (by omega) (by omega)]
    rfl
  · simp only [if_neg hdraws]
    rw [if_neg (by omega)]
    rfl

/-! ## A line -/

def spriteStep (p : Ppu) (slot : Slot) : Except (Panic Fault) Ppu :=
  match p.beam.dot with
  | 1 => .ok { p with
      foundSprites := .cleared
      status := if p.beam.scanline = Beam.preRender then p.status &&& 0x1F else p.status }
  | 257 => if p.rendering then evaluateSprites p else .ok p
  | 321 => loadSprites p slot
  | _ => .ok p

def backgroundStep (p : Ppu) (slot : Slot) : Except (Panic Fault) Ppu :=
  let dot := p.beam.dot
  if (2 ≤ dot ∧ dot ≤ 255) ∨ (322 ≤ dot ∧ dot ≤ 337) then do
    let p ← outputDot p
    fetchStep p slot dot
  else if dot = 256 then do
    let p ← outputDot p
    let p ← fetchPatternHigh p slot
    move p nextRow
  else if dot = 257 then do
    let p ← outputDot p
    return { p with
      pipeline := p.pipeline.reload
      scroll := if p.rendering then p.scroll.copyHorizontal else p.scroll }
  else if 280 ≤ dot ∧ dot ≤ 304 ∧ p.beam.scanline = Beam.preRender then
    .ok (if p.rendering then { p with scroll := p.scroll.copyVertical } else p)
  else if dot = 1 ∨ dot = 321 ∨ dot = 339 then .ok p.aimAtTile
  else if dot = 338 ∨ dot = 340 then fetchTile p slot
  else .ok p

def renderDot (p : Ppu) (slot : Slot) : Except (Panic Fault) Ppu := do
  let p ← spriteStep p slot
  backgroundStep p slot

def idleDot (p : Ppu) : Except (Panic ε) Ppu :=
  if p.beam.scanline = Beam.postRender then
    if p.beam.dot = 0 then do
      let frameCount ← below (2 ^ 64) (p.frameCount + 1)
      return { p with frameReady := true, frameCount }
    else .ok p
  else if p.beam.scanline = Beam.vblankStart ∧ p.beam.dot = 1 then
    .ok { p with status := p.status ||| Ppu.vblank, nmi := p.nmi || p.nmiEnabled }
  else .ok p

/-- The next dot: leaving out the last dot of a line means to be on it already. -/
def advance (beam : Beam) (rendering : Bool) : Except (Panic ε) Beam := do
  let dot := if beam.skipsDot rendering then Beam.lastDot else beam.dot
  let dot ← below (2 ^ 16) (dot + 1)
  if dot > Beam.lastDot then
    let scanline ← signed 16 (beam.scanline + 1)
    if scanline > beam.lastLine then
      return { beam with scanline := Beam.preRender, dot := 0, oddFrame := !beam.oddFrame }
    else return { beam with scanline, dot := 0 }
  else return { beam with dot }

/-- One dot. -/
def stepPpu (p : Ppu) (slot : Slot) : Except (Panic Fault) Ppu := do
  let p ← if p.beam.scanline < Beam.postRender then renderDot p slot else idleDot p
  let beam ← advance p.beam p.rendering
  return { p with beam }

theorem scanline_le (hin : p.beam.InFrame) : p.beam.scanline ≤ 310 := by
  have hlast := hin.last
  cases htv : p.beam.tv <;> rw [htv] at hlast <;> simp only [TvSystem.lines] at hlast <;> omega

theorem spriteStep_eq (hslot : slot.Bounded) (hin : p.beam.InFrame) :
    spriteStep p slot = lift (p.spriteStep slot) := by
  have hlast := scanline_le hin
  unfold spriteStep
  split
  · rename_i hdot
    simp only [Ppu.spriteStep, hdot, lift_ok]
  · rename_i hdot
    simp only [Ppu.spriteStep, hdot, lift_ok]
    rw [evaluateSprites_eq hin.first hlast]
    split_ifs <;> rfl
  · rename_i hdot
    simp only [Ppu.spriteStep, hdot]
    exact loadSprites_eq hslot hin.first hlast
  · have hrests : p.spriteStep slot = .ok p := by
      unfold Ppu.spriteStep
      split <;> first | contradiction | rfl
    rw [hrests, lift_ok]

theorem backgroundStep_eq (hslot : slot.Bounded) (h : p.InRange)
    (hline : p.beam.scanline < Beam.postRender) : backgroundStep p slot = lift (p.backgroundStep slot) := by
  have houtput : (outputDot p : Except (Panic Fault) Ppu) = .ok p.outputDot :=
    outputDot_eq (UInt8.le_iff_toNat_le.mpr h.scroll.fineX) h.beam.dot hline
  have hscroll := Ppu.outputDot_scroll p
  have haddress : p.outputDot.pipeline.address = p.pipeline.address := by
    rw [Ppu.outputDot_eq]
    rfl
  have hv : p.outputDot.scroll.v < 0x8000 := by
    rw [hscroll]
    exact h.scroll.v
  unfold backgroundStep Ppu.backgroundStep
  simp only [houtput, ok_bind]
  split_ifs
  · exact fetchStep_eq hslot hv (haddress ▸ h.address)
  · refine bind_eq_lift (fetchPatternHigh_eq hslot _) fun q hq => ?_
    rw [← fetchPatternHigh_scroll hq] at hv
    exact move_eq (nextRow_eq hv)
  all_goals first | rfl | exact fetchTile_eq hslot p

theorem renderDot_eq (hslot : slot.Bounded) (h : p.InRange)
    (hline : p.beam.scanline < Beam.postRender) : renderDot p slot = lift (p.renderDot slot) := by
  refine bind_eq_lift (spriteStep_eq hslot h.beam) fun q hq => ?_
  have hrest := (Ppu.spriteStep_ok hq).rest
  have hq : q.InRange := by
    rw [hrest]
    exact h.congr h.scroll rfl rfl
  exact backgroundStep_eq hslot hq (by rw [hrest]; exact hline)

theorem idleDot_eq (hframes : p.frameCount + 1 < 2 ^ 64) :
    (idleDot p : Except (Panic ε) Ppu) = .ok p.idleDot := by
  unfold idleDot Ppu.idleDot
  rw [below_ok hframes]
  split_ifs <;> rfl

theorem advance_eq {beam : Beam} (hin : beam.InFrame) (rendering : Bool) :
    (advance beam rendering : Except (Panic ε) Beam) = .ok (beam.advance rendering) := by
  have hcases := Beam.advance_cases rendering hin
  have hlines := beam.tv.lines_ge
  obtain ⟨hfirst, hlast, hdot⟩ := hin
  have hlast' : beam.tv.lines ≤ 312 := by cases beam.tv <;> decide
  have hscanline : (signed 16 (beam.scanline + 1) : Except (Panic ε) Int) =
      .ok (beam.scanline + 1) := by
    refine require_ok ?_ _
    constructor
    · show -32768 ≤ beam.scanline + 1
      omega
    · show beam.scanline + 1 < 32768
      omega
  unfold advance
  simp only [Beam.lastLine_eq, hscanline, ok_bind]
  rcases hcases with ⟨hd, hskip, hnext⟩ | ⟨hend, hline, hnext⟩ | ⟨hd, hline, hnext⟩
  · rw [hskip, if_neg Bool.false_ne_true, below_ok (by omega), ok_bind, if_neg, hnext]
    · rfl
    · unfold Beam.lastDot
      omega
  all_goals
    have hdot : (if beam.skipsDot rendering then Beam.lastDot else beam.dot) = 340 := by
      split_ifs with hskip
      · rfl
      · first | exact hd | exact hend.resolve_right hskip
    rw [hdot, below_ok (by omega), ok_bind, if_pos (by decide), hnext]
  · rw [if_neg (by omega)]
    rfl
  · rw [if_pos (by omega)]
    rfl

theorem renderDot_beam (h : p.renderDot slot = .ok q) : q.beam = p.beam := by
  obtain ⟨r, hr, hq⟩ := bind_ok h
  rw [(Ppu.backgroundStep_ok hq).rest, (Ppu.spriteStep_ok hr).rest]

theorem idleDot_beam (p : Ppu) : p.idleDot.beam = p.beam := by
  rcases Ppu.idleDot_cases p with ⟨-, -, hidle⟩ | ⟨-, -, hidle⟩ | ⟨-, -, hidle⟩ <;> rw [hidle]

/-- **No dot panics.** -/
theorem stepPpu_eq (hslot : slot.Bounded) (h : p.InRange)
    (hframes : p.frameCount + 1 < 2 ^ 64) : stepPpu p slot = lift (p.step slot) := by
  have hnext {q : Ppu} (hbeam : q.beam = p.beam) :
      (advance q.beam q.rendering : Except (Panic Fault) Beam) =
        .ok (q.beam.advance q.rendering) :=
    advance_eq (hbeam ▸ h.beam) _
  unfold stepPpu Ppu.step
  simp only
  split_ifs with hpicture
  · refine bind_eq_lift (renderDot_eq hslot h hpicture) fun q hq => ?_
    rw [hnext (renderDot_beam hq)]
    rfl
  · rw [idleDot_eq hframes, ok_bind, hnext (idleDot_beam p)]
    rfl

end NesMachine.Checked
