import NesMachine.Ppu.Dot
import NesMachine.Proofs.Outcome

/-!
# What one dot changes

`Ppu.step` read backwards: from a step that succeeded, everything it did.

* `Background.next` is the background unit alone: the scroll counter and the tile pipeline, fed from
  a fixed `Scenery`.
* `foundAfter`, `statusAfterSprites`, `frameAfter` are the other units' parts of a dot.
* `step_picture` says what a dot does on the lines of the picture and the line before them, as a
  `PictureDot`; `step_behind` says what it does on the others.
* `step_progress`: while every pattern read is answered (`Slot.Readable`) no dot faults.

Nothing here assumes anything of the state of the picture unit.
-/

namespace NesMachine

open Board (Fault)

/-! ## The background unit -/

/-- The part of the picture unit that fetches the background. -/
structure Background where
  scroll : Scroll
  pipeline : TilePipeline

/-- What the background unit goes by and does not change. -/
structure Scenery where
  /-- The byte behind an address. -/
  byte : UInt16 → UInt8
  highTable : Bool
  rendering : Bool

namespace Background

def moveTo (b : Background) (v : UInt16) : Background := { b with scroll := { b.scroll with v } }

def shift (b : Background) : Background := { b with pipeline := b.pipeline.shift }

def aim (b : Background) (address : UInt16) : Background :=
  { b with pipeline := { b.pipeline with address } }

def reload (b : Background) : Background := { b with pipeline := b.pipeline.reload }

def fetchTile (e : Scenery) (b : Background) : Background :=
  { b with pipeline := { b.pipeline with tile := e.byte b.pipeline.address } }

def fetchAttribute (e : Scenery) (b : Background) : Background :=
  { b with pipeline := { b.pipeline with
    attr := Scroll.attributeQuadrant b.scroll.v (e.byte b.pipeline.address) } }

def fetchLow (e : Scenery) (b : Background) : Background :=
  { b with pipeline := { b.pipeline with patternLow := e.byte b.pipeline.address } }

def fetchHigh (e : Scenery) (b : Background) : Background :=
  { b with pipeline := { b.pipeline with patternHigh := e.byte b.pipeline.address } }

def patternAddress (e : Scenery) (b : Background) : UInt16 :=
  (if e.highTable then 0x1000 else 0) + b.pipeline.tile.toUInt16 * 16 + Scroll.fineRow b.scroll.v

/-- One dot of the fetch cycle. -/
def fetch (e : Scenery) (phase : Nat) (b : Background) : Background :=
  match phase with
  | 1 => b.reload.aim (Scroll.tileAddress b.scroll.v)
  | 2 => b.fetchTile e
  | 3 => b.aim (Scroll.attributeAddress b.scroll.v)
  | 4 => b.fetchAttribute e
  | 5 => b.aim (b.patternAddress e)
  | 6 => b.fetchLow e
  | 7 => b.aim (b.pipeline.address + 8)
  | _ => (b.fetchHigh e).moveTo (if e.rendering then Scroll.nextColumn b.scroll.v else b.scroll.v)

/-- The dots on which tiles are fetched. -/
def Fetches (dot : Nat) : Prop := (2 ≤ dot ∧ dot ≤ 255) ∨ (322 ≤ dot ∧ dot ≤ 337)

instance (dot : Nat) : Decidable (Fetches dot) := by unfold Fetches; infer_instance

/-- One dot of a line. -/
def next (e : Scenery) (line : Int) (dot : Nat) (b : Background) : Background :=
  if Fetches dot then b.shift.fetch e (dot % 8)
  else if dot = 256 then
    (b.shift.fetchHigh e).moveTo (if e.rendering then Scroll.nextRow b.scroll.v else b.scroll.v)
  else if dot = 257 then
    b.shift.reload.moveTo (if e.rendering then b.scroll.copyHorizontal.v else b.scroll.v)
  else if 280 ≤ dot ∧ dot ≤ 304 ∧ line = Beam.preRender then
    b.moveTo (if e.rendering then b.scroll.copyVertical.v else b.scroll.v)
  else if dot = 1 ∨ dot = 321 ∨ dot = 339 then b.aim (Scroll.tileAddress b.scroll.v)
  else if dot = 338 ∨ dot = 340 then b.fetchTile e
  else b

section Next

variable {e : Scenery} {line : Int} {dot : Nat} {b : Background}

theorem next_fetch (h : Fetches dot) : b.next e line dot = b.shift.fetch e (dot % 8) := if_pos h

theorem next_256 : b.next e line 256 = (b.shift.fetchHigh e).moveTo
    (if e.rendering then Scroll.nextRow b.scroll.v else b.scroll.v) := rfl

theorem next_257 : b.next e line 257 = b.shift.reload.moveTo
    (if e.rendering then b.scroll.copyHorizontal.v else b.scroll.v) := rfl

theorem next_copy (hdot : 280 ≤ dot ∧ dot ≤ 304) (hline : line = Beam.preRender) :
    b.next e line dot =
      b.moveTo (if e.rendering then b.scroll.copyVertical.v else b.scroll.v) := by
  rw [next, if_neg (by unfold Fetches; omega), if_neg (by omega), if_neg (by omega),
    if_pos ⟨hdot.1, hdot.2, hline⟩]

theorem next_rest (hdot : dot = 0 ∨ (258 ≤ dot ∧ dot ≤ 320))
    (h : line = Beam.preRender → dot < 280 ∨ 304 < dot) : b.next e line dot = b := by
  rw [next, if_neg (by unfold Fetches; omega), if_neg (by omega), if_neg (by omega),
    if_neg (fun hc => by have := h hc.2.2; omega), if_neg (by omega), if_neg (by omega)]

theorem next_aim (h : dot = 1 ∨ dot = 321) :
    b.next e line dot = b.aim (Scroll.tileAddress b.scroll.v) := by
  rcases h with rfl | rfl <;> rfl

/-- The last dots of a line fetch what nothing draws. -/
theorem next_spare (h : 338 ≤ dot ∧ dot ≤ 340) : b.next e line dot = { b with
    pipeline.address := (b.next e line dot).pipeline.address
    pipeline.tile := (b.next e line dot).pipeline.tile } := by
  obtain rfl | rfl | rfl : dot = 338 ∨ dot = 339 ∨ dot = 340 := by omega
  all_goals rfl

end Next

end Background

namespace Ppu

variable {p q : Ppu} {slot : Slot}

def background (p : Ppu) : Background := ⟨p.scroll, p.pipeline⟩

/-- The byte that a read delivers; 0 where the read faults. -/
def byteAt (p : Ppu) (slot : Slot) (addr : UInt16) : UInt8 :=
  match p.readMemory slot addr with
  | .ok value => value
  | .error _ => 0

def scenery (p : Ppu) (slot : Slot) : Scenery :=
  ⟨p.byteAt slot, p.backgroundHighTable, p.rendering⟩

theorem byteAt_of_ok {addr : UInt16} {value : UInt8} (h : p.readMemory slot addr = .ok value) :
    p.byteAt slot addr = value := by
  simp [byteAt, h]

/-- What the fetch cycle does on a dot. -/
structure BackgroundDot (slot : Slot) (next : Background) (p q : Ppu) : Prop where
  frame : q = { p with scroll := q.scroll, pipeline := q.pipeline }
  background : q.background = next

theorem fetchTile_ok (h : p.fetchTile slot = .ok q) :
    BackgroundDot slot (p.background.fetchTile (p.scenery slot)) p q := by
  obtain ⟨v, hv, h⟩ := bind_ok h
  cases h
  exact ⟨rfl, by rw [← byteAt_of_ok hv]; rfl⟩

theorem moveWhenRendering_eq (p : Ppu) (v : UInt16) :
    (if p.rendering then { p with scroll := { p.scroll with v } } else p) =
      { p with scroll := { p.scroll with v := if p.rendering then v else p.scroll.v } } := by
  split <;> rfl

/-- The high plane, and the step to the next column or row that goes with it. -/
theorem fetchHigh_move_ok {move : UInt16 → UInt16} (h : (do
      let p ← p.fetchPatternHigh slot
      return if p.rendering then { p with scroll := { p.scroll with v := move p.scroll.v } }
        else p : Except Fault Ppu) = .ok q) :
    BackgroundDot slot ((p.background.fetchHigh (p.scenery slot)).moveTo
      (if p.rendering then move p.scroll.v else p.scroll.v)) p q := by
  obtain ⟨p', hp, h⟩ := bind_ok h
  obtain ⟨v, hv, hp⟩ := bind_ok hp
  cases hp
  rw [moveWhenRendering_eq] at h
  cases h
  exact ⟨rfl, by rw [← byteAt_of_ok hv]; rfl⟩

theorem fetchStep_ok {dot : Nat} (h : p.fetchStep slot dot = .ok q) :
    BackgroundDot slot (p.background.fetch (p.scenery slot) (dot % 8)) p q := by
  unfold fetchStep at h
  generalize dot % 8 = phase at h
  split at h
  · cases h; exact ⟨rfl, rfl⟩
  · exact fetchTile_ok h
  · cases h; exact ⟨rfl, rfl⟩
  · obtain ⟨v, hv, h⟩ := bind_ok h
    cases h
    exact ⟨rfl, by rw [← byteAt_of_ok hv]; rfl⟩
  · cases h; exact ⟨rfl, rfl⟩
  · obtain ⟨v, hv, h⟩ := bind_ok h
    cases h
    exact ⟨rfl, by rw [← byteAt_of_ok hv]; rfl⟩
  · cases h; exact ⟨rfl, rfl⟩
  · have hf : Background.fetch (p.scenery slot) phase p.background =
        (p.background.fetchHigh (p.scenery slot)).moveTo
          (if p.rendering then Scroll.nextColumn p.scroll.v else p.scroll.v) := by
      unfold Background.fetch
      split <;> first | contradiction | rfl
    rw [hf]
    exact fetchHigh_move_ok h

/-! ## Drawing -/

/-- Whether the beam is on a dot of the picture. -/
def draws (p : Ppu) : Prop :=
  0 ≤ p.beam.scanline ∧ 2 ≤ p.beam.dot ∧ p.beam.dot < frameWidth + 2

instance (p : Ppu) : Decidable p.draws := by unfold draws; infer_instance

/-- The colour that is drawn in a column. -/
def dotColour (p : Ppu) (x : Nat) : Rgba :=
  let index := if p.rendering then compose (p.backgroundIndex x) (p.spriteAt? x) x else 0
  colourOf (p.readPalette (0x3F00 + index.toUInt16))

/-- The picture after a dot. -/
def frameAfter (p : Ppu) : Frame :=
  if p.draws then p.frame.draw (p.beam.dot - 2) p.beam.scanline.toNat (p.dotColour (p.beam.dot - 2))
  else p.frame

/-- Whether the first object meets an opaque background on a dot. -/
def hitsNow (p : Ppu) : Prop :=
  p.draws ∧ p.hitsFirstObject (p.backgroundIndex (p.beam.dot - 2)) (p.beam.dot - 2)

instance (p : Ppu) : Decidable p.hitsNow := by unfold hitsNow; infer_instance

theorem drawn_eq (p : Ppu) :
    (if p.draws then p.drawDot (p.beam.dot - 2) p.beam.scanline.toNat else p) =
      { p with
        status := if p.hitsNow then p.status ||| spriteZeroHit else p.status
        frame := p.frameAfter } := by
  by_cases hd : p.draws
  · simp only [hitsNow, frameAfter, hd, if_true, true_and]
    rfl
  · simp only [hitsNow, frameAfter, hd, if_false, false_and]

theorem outputDot_eq (p : Ppu) : p.outputDot = { p with
    status := if p.hitsNow then p.status ||| spriteZeroHit else p.status
    frame := p.frameAfter
    pipeline := p.pipeline.shift } :=
  congrArg (fun d : Ppu => { d with pipeline := d.pipeline.shift }) (drawn_eq p)

/-- What the background unit does on a dot, drawing included. -/
structure BackgroundLineDot (slot : Slot) (p q : Ppu) : Prop where
  rest : q = { p with
    scroll := q.scroll, pipeline := q.pipeline, status := q.status, frame := q.frame }
  background : q.background = p.background.next (p.scenery slot) p.beam.scanline p.beam.dot
  status : q.status = if p.hitsNow then p.status ||| spriteZeroHit else p.status
  frame : q.frame = p.frameAfter

theorem BackgroundDot.after_output {b : Background} (h : BackgroundDot slot b p.outputDot q)
    (hb : b = p.background.next (p.scenery slot) p.beam.scanline p.beam.dot) :
    BackgroundLineDot slot p q := by
  obtain ⟨hrest, hback⟩ := h
  rw [outputDot_eq] at hrest
  refine ⟨?_, by rw [hback, hb], ?_, ?_⟩ <;> rw [hrest]

/-- A dot on which nothing is drawn. -/
theorem BackgroundDot.undrawn {b : Background} (h : BackgroundDot slot b p q) (hd : ¬ p.draws)
    (hb : b = p.background.next (p.scenery slot) p.beam.scanline p.beam.dot) :
    BackgroundLineDot slot p q := by
  obtain ⟨hrest, hback⟩ := h
  have hh : ¬ p.hitsNow := fun h => hd h.1
  refine ⟨?_, by rw [hback, hb], ?_, ?_⟩
  · rw [hrest]
  · rw [if_neg hh, hrest]
  · rw [frameAfter, if_neg hd, hrest]

theorem outputDot_background (p : Ppu) : p.outputDot.background = p.background.shift := by
  rw [outputDot_eq]; rfl

theorem outputDot_scenery (p : Ppu) (slot : Slot) : p.outputDot.scenery slot = p.scenery slot := by
  rw [outputDot_eq]; rfl

theorem outputDot_scroll (p : Ppu) : p.outputDot.scroll = p.scroll := by
  rw [outputDot_eq]

theorem outputDot_rendering (p : Ppu) : p.outputDot.rendering = p.rendering := by
  rw [outputDot_eq]; rfl

/-- The dots behind a row: nothing is drawn or shifted. -/
theorem backgroundStep_rest (h : p.backgroundStep slot = .ok q)
    (hfetch : ¬ Background.Fetches p.beam.dot) (h256 : p.beam.dot ≠ 256) (h257 : p.beam.dot ≠ 257) :
    BackgroundDot slot (p.background.next (p.scenery slot) p.beam.scanline p.beam.dot) p q := by
  rw [Background.next, if_neg hfetch, if_neg h256, if_neg h257]
  unfold Background.Fetches at hfetch
  rw [backgroundStep, if_neg hfetch, if_neg h256, if_neg h257] at h
  split at h
  · rename_i hc
    cases h
    rw [if_pos hc]
    refine ⟨?_, ?_⟩ <;> by_cases hr : p.rendering <;> simp only [scenery, hr, if_true] <;> rfl
  rename_i hcopy
  rw [if_neg hcopy]
  split at h
  · rename_i ha
    cases h
    rw [if_pos ha]
    exact ⟨rfl, rfl⟩
  rename_i haim
  rw [if_neg haim]
  split at h
  · rename_i hf
    rw [if_pos hf]
    exact fetchTile_ok h
  · rename_i hf
    cases h
    rw [if_neg hf]
    exact ⟨rfl, rfl⟩

theorem backgroundStep_ok (h : p.backgroundStep slot = .ok q) : BackgroundLineDot slot p q := by
  by_cases hfetch : Background.Fetches p.beam.dot
  · have hdots := hfetch
    unfold Background.Fetches at hdots
    rw [backgroundStep, if_pos hdots] at h
    refine (fetchStep_ok h).after_output ?_
    rw [Background.next, if_pos hfetch, outputDot_background, outputDot_scenery]
  have hdots := hfetch
  unfold Background.Fetches at hdots
  by_cases h256 : p.beam.dot = 256
  · rw [backgroundStep, if_neg hdots, if_pos h256] at h
    refine (fetchHigh_move_ok h).after_output ?_
    rw [Background.next, if_neg hfetch, if_pos h256, outputDot_background, outputDot_scenery,
      outputDot_rendering, outputDot_scroll]
    rfl
  by_cases h257 : p.beam.dot = 257
  · rw [backgroundStep, if_neg hdots, if_neg h256, if_pos h257] at h
    cases h
    refine BackgroundDot.after_output (b := p.outputDot.background.reload.moveTo
      (if p.rendering then p.scroll.copyHorizontal.v else p.scroll.v)) ⟨rfl, ?_⟩ ?_
    · rw [outputDot_rendering, outputDot_scroll]
      by_cases hr : p.rendering <;> simp only [hr, if_true] <;> rw [outputDot_eq] <;> rfl
    · rw [Background.next, if_neg hfetch, if_neg h256, if_pos h257, outputDot_background]
      rfl
  · have hd : ¬ p.draws := by
      rintro ⟨-, h2, h258⟩
      rw [frameWidth] at h258
      omega
    exact (backgroundStep_rest h hfetch h256 h257).undrawn hd rfl

/-! ## The sprite unit -/

/-- The slots for the next line after a dot. -/
def foundAfter (p : Ppu) : SpriteLine :=
  if p.beam.dot = 1 then .cleared
  else if p.beam.dot = 257 ∧ p.rendering then
    (p.foundSprites.evaluate p.oam p.beam.scanline p.spriteHeight).1
  else p.foundSprites

/-- The status flags after the sprite unit's part of a dot. -/
def statusAfterSprites (p : Ppu) : UInt8 :=
  if p.beam.dot = 1 ∧ p.beam.scanline = Beam.preRender then p.status &&& 0x1F
  else if p.beam.dot = 257 ∧ p.rendering ∧
      (p.foundSprites.evaluate p.oam p.beam.scanline p.spriteHeight).2 then
    p.status ||| spriteOverflow
  else p.status

/-- What the sprite unit does on a dot. -/
structure SpriteDot (slot : Slot) (p q : Ppu) : Prop where
  rest : q = { p with
    foundSprites := q.foundSprites, lineSprites := q.lineSprites, status := q.status }
  found : q.foundSprites = p.foundAfter
  status : q.status = p.statusAfterSprites
  line : p.beam.dot ≠ 321 → q.lineSprites = p.lineSprites
  load : p.beam.dot = 321 → p.foundSprites.mapM (p.loadSprite slot) = .ok q.lineSprites

theorem spriteStep_ok (h : p.spriteStep slot = .ok q) : SpriteDot slot p q := by
  unfold spriteStep at h
  split at h
  · rename_i hd
    cases h
    exact ⟨rfl, by simp [foundAfter, hd], by simp [statusAfterSprites, hd], fun _ => rfl,
      fun h => by omega⟩
  · rename_i hd
    cases h
    by_cases hr : p.rendering
    · refine ⟨?_, ?_, ?_, ?_, by omega⟩ <;>
        simp [foundAfter, statusAfterSprites, evaluateSprites, hd, hr]
    · refine ⟨?_, ?_, ?_, ?_, by omega⟩ <;>
        simp [foundAfter, statusAfterSprites, hd, hr]
  · rename_i hd
    obtain ⟨line, hline, h⟩ := bind_ok h
    cases h
    exact ⟨rfl, by simp [foundAfter, hd], by simp [statusAfterSprites, hd],
      fun h => absurd hd h, fun _ => hline⟩
  · rename_i h1 h257 h321
    cases h
    refine ⟨rfl, ?_, ?_, fun _ => rfl, fun h => absurd h h321⟩
    · rw [foundAfter, if_neg h1, if_neg fun h => h257 h.1]
    · rw [statusAfterSprites, if_neg fun h => h1 h.1, if_neg fun h => h257 h.1]

/-! ## The whole dot -/

/-- What a dot does on a line of the picture or the line before it. -/
structure PictureDot (slot : Slot) (p q : Ppu) : Prop where
  rest : q = { p with
    scroll := q.scroll, pipeline := q.pipeline, foundSprites := q.foundSprites,
    lineSprites := q.lineSprites, status := q.status, frame := q.frame,
    beam := p.beam.advance p.rendering }
  background : q.background = p.background.next (p.scenery slot) p.beam.scanline p.beam.dot
  found : q.foundSprites = p.foundAfter
  line : p.beam.dot ≠ 321 → q.lineSprites = p.lineSprites
  load : p.beam.dot = 321 → p.foundSprites.mapM (p.loadSprite slot) = .ok q.lineSprites
  status : q.status =
    if p.hitsNow then p.statusAfterSprites ||| spriteZeroHit else p.statusAfterSprites
  frame : q.frame = p.frameAfter

/-- Sprites are fetched behind the picture, so the sprite unit leaves the drawing of its dot
alone. -/
theorem SpriteDot.drawing (h : SpriteDot slot p q) :
    (q.hitsNow ↔ p.hitsNow) ∧ q.frameAfter = p.frameAfter := by
  obtain ⟨hrest, -, -, hline, -⟩ := h
  by_cases hd : p.beam.dot = 321
  · have hp : ¬ p.draws := by
      rintro ⟨-, -, h258⟩
      rw [frameWidth] at h258
      omega
    have hq : ¬ q.draws := by rw [hrest]; exact hp
    refine ⟨⟨fun h => absurd h.1 hq, fun h => absurd h.1 hp⟩, ?_⟩
    rw [frameAfter, frameAfter, if_neg hp, if_neg hq, hrest]
  · rw [hline hd] at hrest
    rw [hrest]
    exact ⟨Iff.rfl, rfl⟩

theorem step_picture (h : p.step slot = .ok q) (hs : p.beam.scanline < Beam.postRender) :
    PictureDot slot p q := by
  unfold step at h
  rw [if_pos hs] at h
  obtain ⟨r, hr, h⟩ := bind_ok h
  obtain ⟨s, hs, hr⟩ := bind_ok hr
  have hsprite := spriteStep_ok hs
  obtain ⟨hhits, hframe⟩ := hsprite.drawing
  obtain ⟨hsrest, hfound, hstatus, hline, hload⟩ := hsprite
  obtain ⟨hrest, hback, hrstatus, hrframe⟩ := backgroundStep_ok hr
  cases h
  refine ⟨?_, ?_, ?_, ?_, ?_, ?_, ?_⟩
  · simp only
    rw [hrest, hsrest]
    rfl
  · rw [hsrest] at hback
    exact hback
  · rw [← hfound, hrest]
  · rw [hrest]; exact hline
  · rw [hrest]; exact hload
  · show r.status = _
    rw [hrstatus, hstatus]
    simp only [hhits]
  · exact hrframe.trans hframe

theorem step_behind (h : p.step slot = .ok q) (hs : Beam.postRender ≤ p.beam.scanline) :
    q = { p.idleDot with beam := p.idleDot.beam.advance p.idleDot.rendering } := by
  unfold step at h
  rw [if_neg (by omega)] at h
  obtain ⟨r, hr, h⟩ := bind_ok h
  cases hr
  cases h
  rfl

/-! ## Progress -/

end Ppu

/-- Whether every pattern read is answered. -/
def Slot.Readable (slot : Slot) : Prop :=
  ∀ addr < 0x2000, ∃ value, slot.readChr addr = .ok value

namespace Ppu

variable {slot : Slot}

theorem readMemory_ok (h : slot.Readable) (p : Ppu) (addr : UInt16) :
    p.readMemory slot addr = .ok (p.byteAt slot addr) := by
  have hread : ∃ value, p.readMemory slot addr = .ok value := by
    unfold readMemory
    simp only
    split
    · rename_i hlt; exact h _ hlt
    · split <;> exact ⟨_, rfl⟩
  obtain ⟨v, hv⟩ := hread
  rw [hv, byteAt_of_ok hv]

/-- A slot with its pattern rows for the line after `line`. -/
def loaded (p : Ppu) (slot : Slot) (line : Int) (s : SpriteSlot) : SpriteSlot :=
  let addr := s.patternAddress line p.tallSprites p.spriteHighTable
  { s with patternLow := p.byteAt slot addr, patternHigh := p.byteAt slot (addr + 8) }

theorem loadSprite_ok (h : slot.Readable) (p : Ppu) (s : SpriteSlot) :
    p.loadSprite slot s = .ok (p.loaded slot p.beam.scanline s) := by
  unfold loadSprite
  simp only [readMemory_ok h]
  rfl

theorem mapM_loadSprite (h : slot.Readable) (p : Ppu) (line : SpriteLine) :
    line.mapM (p.loadSprite slot) = .ok (line.map (p.loaded slot p.beam.scanline)) := by
  rw [funext (loadSprite_ok h p)]
  exact Vector.mapM_pure (p.loaded slot p.beam.scanline)

theorem fetchStep_progress (h : slot.Readable) (p : Ppu) (dot : Nat) :
    ∃ q, p.fetchStep slot dot = .ok q := by
  unfold fetchStep fetchTile fetchAttribute fetchPatternLow fetchPatternHigh
  simp only [readMemory_ok h]
  split <;> exact ⟨_, rfl⟩

theorem spriteStep_progress (h : slot.Readable) (p : Ppu) : ∃ q, p.spriteStep slot = .ok q := by
  unfold spriteStep loadSprites
  rw [mapM_loadSprite h]
  split <;> exact ⟨_, rfl⟩

theorem backgroundStep_progress (h : slot.Readable) (p : Ppu) :
    ∃ q, p.backgroundStep slot = .ok q := by
  unfold backgroundStep fetchTile fetchPatternHigh
  simp only [readMemory_ok h]
  split
  · exact fetchStep_progress h _ _
  · repeat' split
    all_goals exact ⟨_, rfl⟩

/-- **No dot faults while every pattern read is answered.** -/
theorem step_progress (h : slot.Readable) (p : Ppu) : ∃ q, p.step slot = .ok q := by
  unfold step
  split
  · obtain ⟨s, hs⟩ := spriteStep_progress h p
    obtain ⟨r, hr⟩ := backgroundStep_progress h s
    unfold renderDot
    rw [hs]
    exact ⟨_, by rw [show (Except.ok s >>= fun q => q.backgroundStep slot) = .ok r from hr]; rfl⟩
  · exact ⟨_, rfl⟩

end Ppu

end NesMachine
