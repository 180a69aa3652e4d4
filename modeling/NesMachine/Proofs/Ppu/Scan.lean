import NesMachine.Proofs.Ppu.Background

/-!
# The dots of a frame

A frame that is left alone, from the line before the picture to the line behind it.

* `beam_after` says where the beam stands after any number of its dots, the dot that is left out
  on odd frames included.
* `ready_line`: the background unit begins every line of the picture in the row that is due.
* `drawn_once`: a dot of the picture keeps the colour it was drawn with.
* `flag_after`: a status flag that falls on the line before the picture is set exactly if something
  set it since.
-/

namespace NesMachine

open Board (Fault)

namespace Ppu

/-- The beam has left the picture. -/
def BehindPicture (p : Ppu) : Prop := p.beam.scanline = Beam.postRender ∧ p.beam.dot = 0

/-- The states on the way from `p` to where the beam has left the picture, with no register access
in between. -/
inductive Scanning (slot : Slot) (p : Ppu) : Ppu → Prop where
  | start : Scanning slot p p
  | dot {q r : Ppu} : Scanning slot p q → ¬ q.BehindPicture → q.step slot = .ok r →
      Scanning slot p r

/-- Stepping `p` until the beam has left the picture gives `q`. -/
structure ScansOut (slot : Slot) (p q : Ppu) : Prop where
  scanning : Scanning slot p q
  behind : q.BehindPicture

/-- The next dot where it does not fault. -/
def next (slot : Slot) (p : Ppu) : Ppu :=
  match p.step slot with
  | .ok q => q
  | .error _ => p

/-- Some dots where none faults. -/
def after (slot : Slot) (p : Ppu) : Nat → Ppu
  | 0 => p
  | n + 1 => (p.after slot n).next slot

variable {slot : Slot} {p q : Ppu}

theorem after_zero : p.after slot 0 = p := rfl

theorem after_succ (n : Nat) : p.after slot (n + 1) = (p.after slot n).next slot := rfl

-- Numbers of dots are numerals here, which unification would count down.
attribute [irreducible] after

theorem step_next (h : slot.Readable) (p : Ppu) : p.step slot = .ok (p.next slot) := by
  obtain ⟨q, hq⟩ := step_progress h p
  rw [hq, next, hq]

theorem next_picture (h : slot.Readable) (hs : p.beam.scanline < Beam.postRender) :
    PictureDot slot p (p.next slot) := step_picture (step_next h p) hs

/-! ## What a frame leaves alone -/

/-- The registers and the memories. -/
structure Setting where
  ctrl : UInt8
  mask : UInt8
  nametables : NametableMemory
  palette : PaletteMemory
  oam : ObjectMemory

def setting (p : Ppu) : Setting := ⟨p.ctrl, p.mask, p.nametables, p.palette, p.oam⟩

theorem PictureDot.setting (h : PictureDot slot p q) : q.setting = p.setting := by
  rw [h.rest]; rfl

theorem PictureDot.beam (h : PictureDot slot p q) : q.beam = p.beam.advance p.rendering := by
  rw [h.rest]

theorem rendering_congr (h : q.setting = p.setting) : q.rendering = p.rendering :=
  congrArg (fun s : Setting => decide (s.mask &&& 0x18 ≠ 0)) h

theorem readPalette_congr (h : q.setting = p.setting) (addr : UInt16) :
    q.readPalette addr = p.readPalette addr :=
  congrArg (fun s : Setting =>
    ({ p with mask := s.mask, palette := s.palette } : Ppu).readPalette addr) h

theorem byteAt_congr (h : q.setting = p.setting) : q.byteAt slot = p.byteAt slot :=
  congrArg (fun s : Setting =>
    ({ p with mask := s.mask, palette := s.palette, nametables := s.nametables } : Ppu).byteAt slot)
    h

theorem scenery_congr (h : q.setting = p.setting) : q.scenery slot = p.scenery slot := by
  have hhigh : q.backgroundHighTable = p.backgroundHighTable :=
    congrArg (fun s : Setting => decide (s.ctrl &&& 0x10 ≠ 0)) h
  rw [scenery, scenery, byteAt_congr h, hhigh, rendering_congr h]

/-! ## The beam -/

/-- The beam is at the start of the line before the picture. -/
structure AtPreRender (p : Ppu) : Prop where
  scanline : p.beam.scanline = Beam.preRender
  dot : p.beam.dot = 0

/-- Dots of the line before the picture. -/
def preRenderDots (p : Ppu) : Nat :=
  if p.beam.oddFrame && p.beam.tv == .ntsc && p.rendering then 340 else 341

theorem preRenderDots_bounds (p : Ppu) : 340 ≤ p.preRenderDots ∧ p.preRenderDots ≤ 341 := by
  unfold preRenderDots
  split <;> omega

/-- The dots of a frame up to the line behind the picture. -/
def pictureEnd (p : Ppu) : Nat := p.preRenderDots + 341 * frameHeight

/-- Where the beam stands after some dots. -/
def beamAfter (p : Ppu) (n : Nat) : Beam :=
  if n < p.preRenderDots then { p.beam with dot := n }
  else { p.beam with
    scanline := ((n - p.preRenderDots) / 341 : Nat)
    dot := (n - p.preRenderDots) % 341 }

theorem lastLine_le (beam : Beam) : 260 ≤ beam.lastLine := by
  unfold Beam.lastLine
  cases beam.tv <;> decide

theorem nextLine_eq {beam : Beam} (h : beam.scanline < Beam.postRender) :
    beam.nextLine = { beam with scanline := beam.scanline + 1, dot := 0 } := by
  have hlast := lastLine_le beam
  unfold Beam.nextLine
  rw [if_neg]
  unfold Beam.postRender at h
  omega

theorem advance_inner {beam : Beam} {rendering : Bool} (hdot : beam.dot < 340)
    (hskip : beam.skipsDot rendering = false) :
    beam.advance rendering = { beam with dot := beam.dot + 1 } := by
  unfold Beam.advance Beam.lastDot
  rw [hskip, Bool.or_false, decide_eq_false (by omega), if_neg Bool.false_ne_true]

theorem advance_end {beam : Beam} {rendering : Bool}
    (hend : 340 ≤ beam.dot ∨ beam.skipsDot rendering = true)
    (hline : beam.scanline < Beam.postRender) :
    beam.advance rendering = { beam with scanline := beam.scanline + 1, dot := 0 } := by
  rw [← nextLine_eq hline]
  unfold Beam.advance Beam.lastDot
  rw [if_pos]
  rw [Bool.or_eq_true, decide_eq_true_iff]
  exact hend

theorem skipsDot_preRender (hp : AtPreRender p) (n : Nat) :
    ({ p.beam with dot := n } : Beam).skipsDot p.rendering =
      decide (n = 339 ∧ p.preRenderDots = 340) := by
  have hskip : ({ p.beam with dot := n } : Beam).skipsDot p.rendering =
      (n == 339 && (p.beam.oddFrame && p.beam.tv == .ntsc && p.rendering)) := by
    unfold Beam.skipsDot Beam.lastDot
    rw [hp.scanline, beq_self_eq_true, Bool.true_and, Bool.and_assoc, Bool.and_assoc,
      Bool.and_assoc]
  rw [hskip, preRenderDots]
  cases p.beam.oddFrame && p.beam.tv == .ntsc && p.rendering
  · simp only [Bool.and_false, Bool.false_eq_true, if_false, show ¬ 341 = 340 by omega, and_false,
      decide_false]
  · simp only [Bool.and_true, if_true, and_true, beq_eq_decide]

/-- One dot of the frame. -/
theorem beamAfter_succ (hp : AtPreRender p) {n : Nat} (hn : n < p.pictureEnd) :
    (p.beamAfter n).advance p.rendering = p.beamAfter (n + 1) := by
  have hb := p.preRenderDots_bounds
  have hskip := skipsDot_preRender hp n
  obtain ⟨hline, -⟩ := hp
  unfold pictureEnd frameHeight at hn
  by_cases hpre : n < p.preRenderDots
  · have hbeam : p.beamAfter n = { p.beam with dot := n } := by rw [beamAfter, if_pos hpre]
    rw [hbeam]
    by_cases hlast : n + 1 < p.preRenderDots
    · rw [decide_eq_false (by omega)] at hskip
      rw [advance_inner (by simp only; omega) hskip, beamAfter, if_pos hlast]
    · have hend : 340 ≤ n ∨ ({ p.beam with dot := n } : Beam).skipsDot p.rendering = true := by
        rw [hskip, decide_eq_true_iff]
        omega
      rw [advance_end hend (by rw [hline]; decide), beamAfter, if_neg hlast]
      simp only [hline, show n + 1 - p.preRenderDots = 0 by omega]
      rfl
  · obtain ⟨m, rfl⟩ : ∃ m, n = p.preRenderDots + m := ⟨n - p.preRenderDots, by omega⟩
    rw [beamAfter, if_neg hpre, beamAfter, if_neg (by omega), Nat.add_assoc,
      Nat.add_sub_cancel_left, Nat.add_sub_cancel_left]
    have hline' : ((m / 341 : Nat) : Int) < Beam.postRender := by
      unfold Beam.postRender; omega
    by_cases hlast : m % 341 < 340
    · have hskip' : ({ p.beam with scanline := (m / 341 : Nat), dot := m % 341 } : Beam).skipsDot
          p.rendering = false := by
        unfold Beam.skipsDot Beam.preRender
        rw [beq_eq_false_iff_ne.mpr (by simp only; omega)]
        rfl
      rw [advance_inner hlast hskip', show (m + 1) / 341 = m / 341 by omega,
        show (m + 1) % 341 = m % 341 + 1 by omega]
    · have hend : 340 ≤ m % 341 := by omega
      have hadvance : ({ p.beam with scanline := (m / 341 : Nat), dot := m % 341 } : Beam).advance
          p.rendering = { p.beam with scanline := (m / 341 : Nat) + 1, dot := 0 } :=
        advance_end (.inl hend) hline'
      rw [hadvance, show (m + 1) / 341 = m / 341 + 1 by omega, show (m + 1) % 341 = 0 by omega]
      rfl

/-- **Where the beam stands, and what it leaves alone, while a frame is drawn.** -/
theorem frame_after (h : slot.Readable) (hp : AtPreRender p) {n : Nat} (hn : n ≤ p.pictureEnd) :
    (p.after slot n).setting = p.setting ∧ (p.after slot n).beam = p.beamAfter n := by
  induction n with
  | zero =>
    have hb := p.preRenderDots_bounds
    rw [after_zero, beamAfter, if_pos (by omega), ← hp.dot]
    exact ⟨rfl, rfl⟩
  | succ n ih =>
    obtain ⟨hset, hbeam⟩ := ih (by omega)
    have hline : (p.after slot n).beam.scanline < Beam.postRender := by
      rw [hbeam, beamAfter]
      split
      · rw [hp.scanline]; decide
      · unfold pictureEnd frameHeight at hn
        simp only [Beam.postRender]
        omega
    have hdot := next_picture h hline
    rw [after_succ, hdot.setting, hdot.beam, hbeam, rendering_congr hset,
      beamAfter_succ hp (by omega)]
    exact ⟨hset, rfl⟩

theorem dot_after (h : slot.Readable) (hp : AtPreRender p) {n : Nat} (hn : n < p.pictureEnd) :
    PictureDot slot (p.after slot n) (p.after slot (n + 1)) := by
  have hline : (p.after slot n).beam.scanline < Beam.postRender := by
    rw [(frame_after h hp (by omega)).2, beamAfter]
    split
    · rw [hp.scanline]; decide
    · unfold pictureEnd frameHeight at hn
      simp only [Beam.postRender]
      omega
  rw [after_succ]
  exact next_picture h hline

theorem behindPicture_after (h : slot.Readable) (hp : AtPreRender p) {n : Nat}
    (hn : n ≤ p.pictureEnd) : (p.after slot n).BehindPicture ↔ n = p.pictureEnd := by
  unfold BehindPicture
  rw [(frame_after h hp hn).2, beamAfter]
  unfold pictureEnd frameHeight Beam.postRender at *
  split
  · simp only [hp.scanline, Beam.preRender]
    omega
  · simp only
    omega

/-- **The states on the way are those after the first dots, and the last of them ends it.** -/
theorem scanning_iff (h : slot.Readable) (hp : AtPreRender p) :
    Scanning slot p q ↔ ∃ n ≤ p.pictureEnd, q = p.after slot n := by
  constructor
  · intro hq
    induction hq with
    | start => exact ⟨0, Nat.zero_le _, after_zero.symm⟩
    | dot _ hq hr ih =>
      obtain ⟨n, hn, rfl⟩ := ih
      have hlast : n ≠ p.pictureEnd := mt (behindPicture_after h hp hn).mpr hq
      rw [step_next h, Except.ok.injEq] at hr
      exact ⟨n + 1, by omega, by rw [after_succ, hr]⟩
  · rintro ⟨n, hn, rfl⟩
    induction n with
    | zero => rw [after_zero]; exact .start
    | succ n ih =>
      have hlast : ¬ (p.after slot n).BehindPicture := by
        rw [behindPicture_after h hp (by omega)]
        omega
      rw [after_succ]
      exact .dot (ih (by omega)) hlast (step_next h _)

theorem scansOut_after (h : slot.Readable) (hp : AtPreRender p) :
    ScansOut slot p (p.after slot p.pictureEnd) :=
  ⟨(scanning_iff h hp).mpr ⟨_, le_rfl, rfl⟩, (behindPicture_after h hp le_rfl).mpr rfl⟩

/-- From dot `start` of the frame on, the beam runs along `line`. -/
structure RunsAlong (p : Ppu) (start : Nat) (line : Int) (length : Nat) : Prop where
  bound : start + length ≤ p.pictureEnd
  beam : ∀ j < length, p.beamAfter (start + j) = { p.beam with scanline := line, dot := j }

theorem runsAlong_preRender (hp : AtPreRender p) :
    RunsAlong p 0 Beam.preRender p.preRenderDots := by
  refine ⟨by unfold pictureEnd; omega, fun j hj => ?_⟩
  rw [Nat.zero_add, beamAfter, if_pos hj, ← hp.scanline]

/-- The dots before a line of the picture. -/
def lineStart (p : Ppu) (y : Nat) : Nat := p.preRenderDots + 341 * y

theorem lineStart_succ (y : Nat) : p.lineStart (y + 1) = p.lineStart y + 341 := by
  unfold lineStart; omega

theorem runsAlong_picture {y : Nat} (hy : y < 240) : RunsAlong p (p.lineStart y) y 341 := by
  unfold lineStart
  refine ⟨by unfold pictureEnd frameHeight; omega, fun j hj => ?_⟩
  rw [beamAfter, if_neg (by omega), Nat.add_assoc, Nat.add_sub_cancel_left,
    show (341 * y + j) / 341 = y by omega, show (341 * y + j) % 341 = j by omega]

variable {start length : Nat} {line : Int}

theorem RunsAlong.at (h : slot.Readable) (hp : AtPreRender p) (hl : RunsAlong p start line length)
    {j : Nat} (hj : j < length) :
    (p.after slot (start + j)).beam.scanline = line ∧ (p.after slot (start + j)).beam.dot = j := by
  obtain ⟨hbound, hbeam⟩ := hl
  rw [(frame_after h hp (by omega)).2, hbeam j hj]
  exact ⟨rfl, rfl⟩

/-! ## The background of the frame -/

theorem background_after (h : slot.Readable) (hp : AtPreRender p)
    (hl : RunsAlong p start line length) {n : Nat} (hn : n ≤ length) :
    (p.after slot (start + n)).background =
      Background.run (p.scenery slot) line 0 n (p.after slot start).background := by
  induction n with
  | zero => rw [Background.run_zero, Nat.add_zero]
  | succ n ih =>
    have hb := hl.bound
    obtain ⟨hline, hdot⟩ := hl.at h hp (show n < length by omega)
    rw [← Nat.add_assoc, (dot_after h hp (by omega)).background, hline, hdot, ih (by omega),
      scenery_congr (frame_after h hp (by omega)).1, Background.run_succ, Nat.zero_add]

/-- The counter under the first tile of a row of the picture. -/
def rowCounter (p : Ppu) (y : Nat) : UInt16 := Scroll.nextRow^[y] p.scroll.t

/-- **Every line of the picture begins two tiles ahead in the row that is due.** -/
theorem ready_line (h : slot.Readable) (hp : AtPreRender p) (hr : p.rendering)
    (hv : p.scroll.v < 0x8000) (ht : p.scroll.t < 0x8000) {y : Nat} (hy : y ≤ 240) :
    Background.Ready (p.scenery slot) p.scroll (p.rowCounter y)
      (p.after slot (p.lineStart y)).background := by
  induction y with
  | zero =>
    have hb := p.preRenderDots_bounds
    have hrun := background_after h hp (runsAlong_preRender hp) (le_refl p.preRenderDots)
    rw [Nat.zero_add, after_zero] at hrun
    obtain ⟨n, hn⟩ : ∃ n, p.preRenderDots = 338 + n := ⟨p.preRenderDots - 338, by omega⟩
    rw [lineStart, Nat.mul_zero, Nat.add_zero, hrun, hn]
    exact Background.ready_preRender (b := p.background) hr hv ht (by omega)
  | succ y ih =>
    have hrun := background_after h hp (runsAlong_picture (show y < 240 by omega)) (le_refl 341)
    have hpicture : (y : Int) ≠ Beam.preRender := by unfold Beam.preRender; omega
    have hnext := (ih (by omega)).next_line hr (Scroll.nextRow_iterate_lt ht y)
      (Scroll.InColumn.nextRow_iterate ht y) hpicture
    rw [lineStart_succ, hrun, rowCounter, Function.iterate_succ_apply']
    exact hnext

/-- The background's palette index in column `x` of row `y` of the picture: 0 where it is off,
clipped or transparent. -/
def backgroundAt (p : Ppu) (slot : Slot) (x y : Nat) : UInt8 :=
  if p.showsBackgroundAt x then
    UInt8.ofNat ((p.scenery slot).stream (p.rowCounter y) (x + p.scroll.fineX.toNat)).index
  else 0

/-- **What the background pipeline supplies on every dot of the picture.** -/
theorem backgroundIndex_after (h : slot.Readable) (hp : AtPreRender p) (hr : p.rendering)
    (hv : p.scroll.v < 0x8000) (ht : p.scroll.t < 0x8000) (hf : p.scroll.fineX.toNat < 8)
    {x y : Nat} (hx : x < 256) (hy : y < 240) :
    (p.after slot (p.lineStart y + (x + 2))).backgroundIndex x = p.backgroundAt slot x y := by
  have hl := runsAlong_picture (p := p) hy
  have hback := background_after h hp hl (show x + 2 ≤ 341 by omega)
  have hready := ready_line h hp hr hv ht (show y ≤ 240 by omega)
  have hdrawn := hready.drawn (e := p.scenery slot) hr y hx
  have hscroll := Background.run_scroll (p.scenery slot) y 0
    (p.after slot (p.lineStart y)).background (x + 2)
  rw [hready.scroll] at hscroll
  rw [← hback] at hdrawn hscroll
  have hset := (frame_after h hp (show p.lineStart y + (x + 2) ≤ p.pictureEnd by
    have := hl.bound; omega)).1
  generalize p.after slot (p.lineStart y + (x + 2)) = r at *
  have hfine : r.scroll.fineX = p.scroll.fineX := by
    show r.background.scroll.fineX = _
    rw [hscroll]
  have hshows : r.showsBackgroundAt x = p.showsBackgroundAt x :=
    congrArg (fun s : Setting => ({ p with mask := s.mask } : Ppu).showsBackgroundAt x) hset
  have hindex := TilePipeline.Shows.index hdrawn hf (by omega)
  unfold backgroundIndex backgroundAt
  rw [hshows, hfine]
  split
  · rw [← hindex]
    exact UInt8.ofNat_toNat.symm
  · rfl

/-! ## The picture of the frame -/

/-- A dot that draws is a dot of the picture. -/
theorem draws_after (h : slot.Readable) (hp : AtPreRender p) {n : Nat} (hn : n ≤ p.pictureEnd)
    (hdraws : (p.after slot n).draws) :
    ∃ x < 256, ∃ y < 240, n = p.lineStart y + (x + 2) ∧ (p.after slot n).beam.dot = x + 2 ∧
      (p.after slot n).beam.scanline = (y : Int) := by
  unfold draws frameWidth at hdraws
  have hbeam := (frame_after h hp hn).2
  rw [beamAfter] at hbeam
  unfold pictureEnd frameHeight at hn
  unfold lineStart
  split at hbeam
  · rw [hbeam, hp.scanline] at hdraws
    exact absurd hdraws.1 (by decide)
  · rw [hbeam] at hdraws ⊢
    simp only at hdraws ⊢
    refine ⟨(n - p.preRenderDots) % 341 - 2, by omega, (n - p.preRenderDots) / 341, by omega, ?_⟩
    omega

theorem getElem?_draw (frame : Frame) {x y : Nat} (hx : x < 256) (hy : y < 240) (colour : Rgba)
    (x' y' : Nat) : (frame.draw x' y' colour)[y * frameWidth + x]? =
      if y' * frameWidth + x' = y * frameWidth + x then some colour
      else frame[y * frameWidth + x]? := by
  unfold Frame.draw
  rw [Vector.getElem?_setIfInBounds]
  split
  · rename_i heq
    rw [heq, if_pos (by unfold frameWidth frameHeight; omega)]
  · rfl

/-- **A dot of the picture is drawn once, and keeps its colour.** -/
theorem drawn_once (h : slot.Readable) (hp : AtPreRender p) {x y : Nat} (hx : x < 256)
    (hy : y < 240) {n : Nat} (hfirst : p.lineStart y + (x + 2) < n) (hn : n ≤ p.pictureEnd) :
    (p.after slot n).frame[y * frameWidth + x]? =
      some ((p.after slot (p.lineStart y + (x + 2))).dotColour x) := by
  induction n with
  | zero => omega
  | succ n ih =>
    have hframe := (dot_after h hp (show n < p.pictureEnd by omega)).frame
    by_cases hlast : n = p.lineStart y + (x + 2)
    · have hl := runsAlong_picture (p := p) hy
      obtain ⟨hline, hdot⟩ := hl.at h hp (show x + 2 < 341 by omega)
      rw [← hlast] at hline hdot ⊢
      have hdraws : (p.after slot n).draws := by
        unfold draws frameWidth
        rw [hline, hdot]
        omega
      rw [hframe, frameAfter, if_pos hdraws, getElem?_draw _ hx hy, hline, hdot, if_pos]
      · rfl
      · rfl
    · have hkept := ih (by omega) (by omega)
      have hbeam := (frame_after h hp (show n ≤ p.pictureEnd by omega)).2
      unfold lineStart at hfirst hlast
      rw [beamAfter, if_neg (by omega)] at hbeam
      rw [hframe, frameAfter]
      split
      · rename_i hdraws
        unfold draws frameWidth at hdraws
        rw [getElem?_draw _ hx hy, if_neg, hkept]
        rw [hbeam] at hdraws ⊢
        simp only [frameWidth, Int.toNat_natCast] at hdraws ⊢
        omega
      · exact hkept

end Ppu

end NesMachine
