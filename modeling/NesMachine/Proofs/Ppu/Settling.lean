import NesMachine.Proofs.Cpu.Arithmetic
import NesMachine.Proofs.Ppu.Scan

/-!
# The picture unit behind a reset

A reset empties the shift registers and keeps the bytes that were being fetched and the attribute
latches. The latches feed the palettes of eight columns before the first fetch replaces them, and eight
more columns push these out again: two tiles leave nothing of what was kept.

* `Background.run_settles`: the background unit forgets what it kept over a reset within eighteen dots.
* `Ppu.Settling.step`, `Ppu.Settling.settled`: two picture units that were reset with the same memories
  run alike on these dots, and then they are the same.
-/

namespace NesMachine

namespace Background

variable {e : Scenery} {line : Int} {dot : Nat} {b b' : Background}

/-! ## Two tiles -/

/-- The background with other palettes in front. -/
def smeared (b : Background) (low high : UInt8) : Background :=
  { b with pipeline := { b.pipeline with attrShiftLow := low, attrShiftHigh := high } }

/-- A register that shifts a bit in eight times. -/
def filled (x : UInt8) (bit : Bool) : UInt8 := (fun x : UInt8 => (x <<< 1) ||| bit.toUInt8)^[8] x

/-- Nothing is left of what was in the register. -/
theorem filled_eq (x : UInt8) (bit : Bool) : filled x bit = if bit then 0xFF else 0 := by
  refine Cpu.Registers.forall_byte (p := fun x => filled x bit = if bit then 0xFF else 0) ?_ x
  cases bit <;> decide +kernel

/-- Backgrounds that differ in no more than the bytes being fetched and the palettes. -/
structure Level (b b' : Background) : Prop where
  scroll : b'.scroll = b.scroll
  address : b'.pipeline.address = b.pipeline.address
  shiftLow : b'.pipeline.shiftLow = b.pipeline.shiftLow
  shiftHigh : b'.pipeline.shiftHigh = b.pipeline.shiftHigh

theorem run_tile (e : Scenery) (line : Int) (b : Background) (hd : dot % 8 = 2)
    (h7 : Fetches (dot + 7)) : run e line dot 8 b = ((((((((b.shift.fetch e 2).shift.fetch e
      3).shift.fetch e 4).shift.fetch e 5).shift.fetch e 6).shift.fetch e 7).shift.fetch e
        0).shift.fetch e 1) := by
  unfold Fetches at h7
  rw [run_succ, run_succ, run_six e line b hd (by unfold Fetches; omega),
    next_fetch (by unfold Fetches; omega), next_fetch (by unfold Fetches; omega),
    show (dot + 6) % 8 = 0 by omega, show (dot + 7) % 8 = 1 by omega]

/-- A tile replaces every byte being fetched; of the latches, only the palettes in front are left. -/
theorem Level.tile (h : Level b b') (e : Scenery) (line : Int) (hd : dot % 8 = 2)
    (h7 : Fetches (dot + 7)) :
    run e line dot 8 b' = (run e line dot 8 b).smeared
      (filled b'.pipeline.attrShiftLow b'.pipeline.attrLatchLow)
      (filled b'.pipeline.attrShiftHigh b'.pipeline.attrLatchHigh) := by
  obtain ⟨hscroll, haddress, hlow, hhigh⟩ := h
  rw [run_tile e line b' hd h7, run_tile e line b hd h7]
  simp only [fetch, fetchTile, fetchAttribute, fetchLow, fetchHigh, patternAddress, shift, aim, moveTo,
    reload, TilePipeline.shift, TilePipeline.reload, smeared, hscroll, haddress, hlow, hhigh]
  rfl

theorem Level.two_tiles (h : Level b b') (hd : dot % 8 = 2) (h0 : Fetches dot)
    (h15 : Fetches (dot + 15)) : run e line dot 16 b' = run e line dot 16 b := by
  unfold Fetches at h0 h15
  have hd' : (dot + 8) % 8 = 2 := by omega
  have h7 : Fetches (dot + 7) := by unfold Fetches; omega
  have h7' : Fetches (dot + 8 + 7) := by unfold Fetches; omega
  rw [run_add 8 8, run_add 8 8, h.tile e line hd h7]
  generalize run e line dot 8 b = c
  have hkept : Level c c := ⟨rfl, rfl, rfl, rfl⟩
  have hlevel : Level c (c.smeared (filled b'.pipeline.attrShiftLow b'.pipeline.attrLatchLow)
      (filled b'.pipeline.attrShiftHigh b'.pipeline.attrLatchHigh)) := ⟨rfl, rfl, rfl, rfl⟩
  rw [hlevel.tile e line hd' h7', hkept.tile e line hd' h7']
  simp only [filled_eq, smeared]

/-- **Eighteen dots forget what was being fetched.** -/
theorem run_settles (s : Scroll) (t u : TilePipeline) {n : Nat} (hn : 18 ≤ n) :
    run e line 0 n ⟨s, u.cleared⟩ = run e line 0 n ⟨s, t.cleared⟩ := by
  have haim (t : TilePipeline) : run e line 0 2 ⟨s, t.cleared⟩ =
      (⟨s, t.cleared⟩ : Background).aim (Scroll.tileAddress s.v) := by
    rw [run_succ, run_succ, run_zero, next_rest (.inl rfl) fun _ => .inl (by omega),
      next_aim (.inl rfl)]
  have hlevel : Level (run e line 0 2 ⟨s, t.cleared⟩) (run e line 0 2 ⟨s, u.cleared⟩) := by
    rw [haim, haim]
    exact ⟨rfl, rfl, rfl, rfl⟩
  obtain ⟨k, rfl⟩ := Nat.exists_eq_add_of_le hn
  rw [run_add, run_add (2 + 16), run_add 2 16, run_add 2 16,
    hlevel.two_tiles rfl (by decide) (by decide)]

/-- What is in the pipeline does not steer the counters. -/
theorem next_scroll_congr (h : b'.scroll = b.scroll) :
    (b'.next e line dot).scroll = (b.next e line dot).scroll := by
  unfold next fetch
  repeat' split
  all_goals simp only [moveTo, shift, aim, reload, fetchTile, fetchAttribute, fetchLow, fetchHigh, h]

end Background

namespace Ppu

variable {slot : Slot} {n : Nat} {p p' q q' : Ppu}

/-! ## A dot with nothing switched on -/

/-- The same bytes in the memories of the picture unit. -/
structure SameMemories (p p' : Ppu) : Prop where
  nametables : p'.nametables = p.nametables
  palette : p'.palette = p.palette
  oam : p'.oam = p.oam

/-- The beam is on a dot of the first line, nothing is switched on, and there is nothing to report. -/
structure Dark (n : Nat) (p : Ppu) : Prop where
  mask : p.mask = 0
  scanline : p.beam.scanline = 0
  dot : p.beam.dot = n
  nmi : p.nmi = false
  ready : p.frameReady = false

theorem Dark.rendering (h : Dark n p) : p.rendering = false := by
  unfold Ppu.rendering
  rw [h.mask]
  rfl

/-- The first object meets nothing. -/
theorem Dark.not_hitsNow (h : Dark n p) : ¬ p.hitsNow := by
  rintro ⟨-, hhits⟩
  unfold hitsFirstObject showsSpritesAt at hhits
  rw [h.mask] at hhits
  simp at hhits

/-- The backdrop is drawn. -/
theorem Dark.frameAfter (h : Dark n p) (t : TilePipeline) :
    ({ p with pipeline := t } : Ppu).frameAfter = p.frameAfter := by
  have hrendering := h.rendering
  have hrendering' : ({ p with pipeline := t } : Ppu).rendering = false := hrendering
  unfold Ppu.frameAfter dotColour
  rw [hrendering, hrendering']
  rfl

/-- All that such a dot does. -/
theorem Dark.step (h : Dark n p) (hn : n < 320) (hq : p.step slot = .ok q) :
    q = { p with
      scroll := q.scroll
      pipeline := q.pipeline
      foundSprites := p.foundAfter
      status := p.statusAfterSprites
      frame := p.frameAfter
      beam := { p.beam with dot := n + 1 } } ∧
    q.background = p.background.next (p.scenery slot) 0 n := by
  have hline : p.beam.scanline < Beam.postRender := by
    rw [h.scanline]
    decide
  have hskip : p.beam.skipsDot p.rendering = false := by
    unfold Beam.skipsDot
    rw [h.rendering, Bool.and_false]
  have hdot := h.dot
  obtain ⟨hrest, hback, hfound, hsprites, -, hstatus, hframe⟩ := step_picture hq hline
  rw [if_neg h.not_hitsNow] at hstatus
  rw [hfound, hsprites (by omega), hstatus, hframe, advance_inner (by omega) hskip, hdot] at hrest
  rw [h.scanline, hdot] at hback
  exact ⟨hrest, hback⟩

theorem Dark.next (h : Dark n p) (hn : n < 320) (hq : p.step slot = .ok q) :
    Dark (n + 1) q ∧ SameMemories p q ∧ q.scenery slot = p.scenery slot := by
  obtain ⟨hrest, -⟩ := h.step hn hq
  rw [hrest]
  exact ⟨⟨h.mask, h.scanline, rfl, h.nmi, h.ready⟩, ⟨rfl, rfl, rfl⟩, rfl⟩

/-! ## Two picture units behind a reset -/

/-- Two picture units that were reset the same number of dots ago, with the same memories, and run on
the same game with nothing switched on. -/
structure Settling (slot : Slot) (n : Nat) (p p' : Ppu) : Prop where
  dark : Dark n p
  rest : p' = { p with pipeline := p'.pipeline }
  background : ∃ (s : Scroll) (t u : TilePipeline),
    p.background = Background.run (p.scenery slot) 0 0 n ⟨s, t.cleared⟩ ∧
      p'.background = Background.run (p.scenery slot) 0 0 n ⟨s, u.cleared⟩

theorem Settling.reset (h : SameMemories p p') (htv : p'.beam.tv = p.beam.tv) :
    Settling slot 0 p.reset p'.reset := by
  refine ⟨⟨rfl, rfl, rfl, rfl, rfl⟩, ?_, {}, p.pipeline, p'.pipeline, ?_, ?_⟩
  · unfold Ppu.reset
    rw [h.nametables, h.palette, h.oam, htv]
  · rw [Background.run_zero]
    rfl
  · rw [Background.run_zero]
    rfl

theorem Settling.dark' (h : Settling slot n p p') : Dark n p' := by
  obtain ⟨⟨hmask, hline, hdot, hnmi, hready⟩, hrest, -⟩ := h
  rw [hrest]
  exact ⟨hmask, hline, hdot, hnmi, hready⟩

/-- **Two picture units settle, dot by dot.** -/
theorem Settling.step (h : Settling slot n p p') (hn : n < 320) (hq : p.step slot = .ok q)
    (hq' : p'.step slot = .ok q') : Settling slot (n + 1) q q' := by
  have hdark' := h.dark'
  obtain ⟨hdark, hrest, s, t, u, hback, hback'⟩ := h
  have hscenery : p'.scenery slot = p.scenery slot := by
    rw [hrest]
    rfl
  have hscroll : p'.background.scroll = p.background.scroll := by
    rw [hrest]
    rfl
  obtain ⟨hq₁, hnext⟩ := hdark.step hn hq
  obtain ⟨hq₁', hnext'⟩ := hdark'.step hn hq'
  obtain ⟨hdark₁, -, hscenery₁⟩ := hdark.next hn hq
  rw [hscenery] at hnext'
  refine ⟨hdark₁, ?_, s, t, u, ?_, ?_⟩
  · have hscroll₁ : q'.scroll = q.scroll :=
      calc q'.scroll
        _ = (p'.background.next (p.scenery slot) 0 n).scroll := congrArg Background.scroll hnext'
        _ = (p.background.next (p.scenery slot) 0 n).scroll := Background.next_scroll_congr hscroll
        _ = q.scroll := congrArg Background.scroll hnext.symm
    refine hq₁'.trans ?_
    conv_rhs => rw [hq₁]
    rw [hscroll₁, hrest, hdark.frameAfter]
    rfl
  · rw [hnext, hback, hscenery₁, Background.run_succ, Nat.zero_add]
  · rw [hnext', hback', hscenery₁, Background.run_succ, Nat.zero_add]

/-- **Then they are the same.** -/
theorem Settling.settled (h : Settling slot n p p') (hn : 18 ≤ n) : p' = p := by
  obtain ⟨s, t, u, hback, hback'⟩ := h.background
  have hsame : p'.background = p.background :=
    hback'.trans ((Background.run_settles s t u hn).trans hback.symm)
  have hpipeline : p'.pipeline = p.pipeline := congrArg Background.pipeline hsame
  rw [h.rest, hpipeline]

end Ppu

end NesMachine
