import NesMachine.Proofs.Ppu.Vblank

/-!
# The position of the picture

The beam's position, and how many frames were completed, are functions of one count: the dots since
a reset, with every dot that was left out counted as well.

* `After.step`: how a dot moves the count.
* `After.even_of_skips`: a dot is left out in every other frame at most.
-/

namespace NesMachine

/-- Scanlines of a frame. -/
def TvSystem.lines : TvSystem → Nat
  | ntsc => 262
  | pal => 312

theorem TvSystem.lines_ge (tv : TvSystem) : 262 ≤ tv.lines := by cases tv <;> decide

/-- Dots of a frame, none left out. -/
def TvSystem.frameDots (tv : TvSystem) : Nat := 341 * tv.lines

namespace Beam

/-- The number of a position, counted from the start of the picture. -/
def index (beam : Beam) : Nat := 341 * (beam.scanline % beam.tv.lines).toNat + beam.dot

/-- The position is one of the frame. -/
structure InFrame (beam : Beam) : Prop where
  first : -1 ≤ beam.scanline
  last : beam.scanline ≤ beam.tv.lines - 2
  dot : beam.dot ≤ 340

/-- Whether a beam is on the dot that may be left out. -/
def Passes (beam : Beam) : Prop := beam.scanline = preRender ∧ beam.dot = 339

instance (beam : Beam) : Decidable beam.Passes := by unfold Passes; infer_instance

variable {beam : Beam} {rendering : Bool}

theorem lastLine_eq (beam : Beam) : beam.lastLine = beam.tv.lines - 2 := by
  unfold lastLine
  cases beam.tv <;> rfl

theorem passes_of_skips (h : beam.skipsDot rendering = true) :
    beam.Passes ∧ beam.oddFrame = true := by
  unfold skipsDot lastDot at h
  simp only [Bool.and_eq_true, beq_iff_eq] at h
  obtain ⟨⟨⟨⟨hline, hdot⟩, hodd⟩, -⟩, -⟩ := h
  exact ⟨⟨hline, hdot⟩, hodd⟩

theorem not_skips_pal (h : beam.tv = .pal) : beam.skipsDot rendering = false := by
  unfold skipsDot
  rw [h]
  simp

/-- The three ways to the next position. -/
theorem advance_cases (rendering : Bool) (h : beam.InFrame) :
    (beam.dot < 340 ∧ beam.skipsDot rendering = false ∧
      beam.advance rendering = { beam with dot := beam.dot + 1 }) ∨
    ((beam.dot = 340 ∨ beam.skipsDot rendering = true) ∧ beam.scanline < beam.tv.lines - 2 ∧
      beam.advance rendering = { beam with scanline := beam.scanline + 1, dot := 0 }) ∨
    (beam.dot = 340 ∧ beam.scanline = beam.tv.lines - 2 ∧
      beam.advance rendering =
        { beam with scanline := preRender, dot := 0, oddFrame := !beam.oddFrame }) := by
  obtain ⟨hfirst, hlast, hdot⟩ := h
  have hlines := beam.tv.lines_ge
  unfold advance lastDot
  by_cases hend : beam.dot = 340 ∨ beam.skipsDot rendering = true
  · have hcond : (decide (beam.dot ≥ 340) || beam.skipsDot rendering) = true := by
      rw [Bool.or_eq_true, decide_eq_true_iff]
      rcases hend with hd | hs
      · exact .inl (by omega)
      · exact .inr hs
    rw [if_pos hcond, nextLine, lastLine_eq]
    by_cases hwrap : beam.scanline = beam.tv.lines - 2
    · have hd : beam.dot = 340 := by
        rcases hend with hd | hs
        · exact hd
        · have hline := (passes_of_skips hs).1.1
          unfold preRender at hline
          omega
      rw [if_pos (by omega)]
      exact .inr (.inr ⟨hd, hwrap, rfl⟩)
    · rw [if_neg (by omega)]
      exact .inr (.inl ⟨hend, by omega, rfl⟩)
  · rw [not_or, Bool.not_eq_true] at hend
    rw [hend.2, Bool.or_false, decide_eq_false (by omega), if_neg Bool.false_ne_true]
    exact .inl ⟨by omega, rfl, rfl⟩

theorem InFrame.advance (rendering : Bool) (h : beam.InFrame) : (beam.advance rendering).InFrame := by
  have hlines := beam.tv.lines_ge
  rcases advance_cases rendering h with ⟨hd, -, hnext⟩ | ⟨-, hline, hnext⟩ | ⟨-, -, hnext⟩
  all_goals
    obtain ⟨hfirst, hlast, hdot⟩ := h
    rw [hnext]
  · exact ⟨hfirst, hlast, hd⟩
  · exact ⟨by simp only; omega, by simp only; omega, Nat.zero_le _⟩
  · exact ⟨by simp only [preRender]; omega, by simp only [preRender]; omega, Nat.zero_le _⟩

theorem advance_tv : (beam.advance rendering).tv = beam.tv := by
  unfold Beam.advance nextLine
  split
  · split <;> rfl
  · rfl

theorem index_eq (h : beam.InFrame) : beam.index =
    (if beam.scanline = preRender then 341 * (beam.tv.lines - 1) else 341 * beam.scanline.toNat) +
      beam.dot := by
  have hlines := beam.tv.lines_ge
  obtain ⟨hfirst, hlast, hdot⟩ := h
  unfold index preRender
  split
  · rename_i hpre
    have hwrap : (-1 : Int) % beam.tv.lines = beam.tv.lines - 1 := by
      rw [← Int.add_emod_right, Int.emod_eq_of_lt (by omega) (by omega)]
      omega
    rw [hpre, hwrap]
    omega
  · rw [Int.emod_eq_of_lt (by omega) (by omega)]

/-- A dot that is left out counts as well. -/
theorem index_advance (h : beam.InFrame) : (beam.advance rendering).index =
    (beam.index + 1 + if beam.skipsDot rendering then 1 else 0) % beam.tv.frameDots := by
  have hlines := beam.tv.lines_ge
  have hnext := index_eq (h.advance rendering)
  rw [hnext, index_eq h, advance_tv, TvSystem.frameDots]
  clear hnext
  have hcases := advance_cases rendering h
  obtain ⟨hfirst, hlast, hdot⟩ := h
  have hdot_of_skips : beam.skipsDot rendering = true → beam.scanline = -1 ∧ beam.dot = 339 :=
    fun hs => (passes_of_skips hs).1
  unfold preRender
  rcases hcases with ⟨hd, hskip, hnext⟩ | ⟨hend, hline, hnext⟩ | ⟨hd, hline, hnext⟩
  · rw [hnext, hskip, Nat.mod_eq_of_lt]
    · rfl
    · simp only [Bool.false_eq_true, if_false]
      split <;> omega
  · by_cases hpre : beam.scanline = -1
    · have hwhole : 341 * (beam.tv.lines - 1) + beam.dot + 1 +
          (if beam.skipsDot rendering then 1 else 0) = 341 * beam.tv.lines := by
        rcases hend with hd | hs
        · rw [if_neg fun hs => by have := hdot_of_skips hs; omega]
          omega
        · rw [if_pos hs, (hdot_of_skips hs).2]
          omega
      rw [hnext, if_pos hpre, hwhole, Nat.mod_self]
      simp [hpre]
    · have hskip : ¬ beam.skipsDot rendering = true := fun hs => hpre (hdot_of_skips hs).1
      have hd : beam.dot = 340 := hend.resolve_right hskip
      rw [hnext, if_neg hpre, if_neg hskip, Nat.mod_eq_of_lt (by omega), if_neg (by simp only; omega)]
      simp only
      omega
  · have hskip : ¬ beam.skipsDot rendering = true := fun hs => by
      have := hdot_of_skips hs
      omega
    have hpre : ¬ beam.scanline = -1 := by omega
    have hlt : 341 * beam.scanline.toNat + beam.dot + 1 < 341 * beam.tv.lines := by omega
    rw [if_neg hpre, if_neg hskip, Nat.add_zero, Nat.mod_eq_of_lt hlt, hnext]
    simp only [preRender, if_true]
    omega

theorem advance_oddFrame (h : beam.InFrame) : (beam.advance rendering).oddFrame =
    if beam.index + 342 = beam.tv.frameDots then !beam.oddFrame else beam.oddFrame := by
  have hlines := beam.tv.lines_ge
  have hcases := advance_cases rendering h
  rw [index_eq h, TvSystem.frameDots]
  obtain ⟨hfirst, hlast, hdot⟩ := h
  have hdot_of_skips : beam.skipsDot rendering = true → beam.scanline = -1 ∧ beam.dot = 339 :=
    fun hs => (passes_of_skips hs).1
  unfold preRender
  rcases hcases with ⟨hd, -, hnext⟩ | ⟨hend, hline, hnext⟩ | ⟨hd, hline, hnext⟩
  · rw [hnext, if_neg]
    split <;> omega
  · rw [hnext, if_neg]
    rcases hend with hd | hs
    · split <;> omega
    · have hpass := hdot_of_skips hs
      rw [if_pos hpass.1]
      omega
  · have hpre : ¬ beam.scanline = -1 := by omega
    rw [hnext, if_neg hpre, if_pos (by omega)]

end Beam

/-! ## The count -/

namespace Ppu

variable {tv : TvSystem} {p q : Ppu} {count : Nat}

/-- The dot that is left out behind the one the beam is on, as a number. -/
def skipped (p : Ppu) : Nat := if p.beam.skipsDot p.rendering then 1 else 0

theorem skipped_le (p : Ppu) : p.skipped ≤ 1 := by
  unfold skipped
  split <;> omega

/-- Frames completed after a count of dots. -/
def framesAfter (tv : TvSystem) (count : Nat) : Nat :=
  (count + tv.frameDots - 81841) / tv.frameDots

/-- The position after a count of dots. -/
structure After (tv : TvSystem) (count : Nat) (p : Ppu) : Prop where
  system : p.beam.tv = tv
  inFrame : p.beam.InFrame
  index : p.beam.index = count % tv.frameDots
  frameCount : p.frameCount = framesAfter tv count
  oddFrame : p.beam.oddFrame = decide ((count + 341) / tv.frameDots % 2 = 1)

theorem After.start (h : p.beam = { tv }) (hframes : p.frameCount = 0) : After tv 0 p := by
  refine ⟨by rw [h], ?_, ?_, ?_, ?_⟩
  · have hlines := tv.lines_ge
    rw [h]
    exact ⟨show (-1 : Int) ≤ 0 by omega, show (0 : Int) ≤ tv.lines - 2 by omega, Nat.zero_le _⟩
  · rw [h]
    show 341 * (0 % (tv.lines : Int)).toNat + 0 = 0 % tv.frameDots
    rw [Int.zero_emod, Nat.zero_mod]
    rfl
  · rw [hframes]
    cases tv <;> rfl
  · rw [h]
    cases tv <;> rfl

theorem After.congr (h : After tv count p) (hbeam : q.beam = p.beam)
    (hframes : q.frameCount = p.frameCount) : After tv count q := by
  obtain ⟨htv, hin, hindex, hcount, hodd⟩ := h
  rw [← hbeam] at htv hin hindex hodd
  exact ⟨htv, hin, hindex, hframes.trans hcount, hodd⟩

/-- The line behind the picture begins at one index. -/
theorem behindPicture_iff (h : p.beam.InFrame) : p.BehindPicture ↔ p.beam.index = 81840 := by
  have hlines := p.beam.tv.lines_ge
  rw [Beam.index_eq h]
  obtain ⟨hfirst, hlast, hdot⟩ := h
  unfold BehindPicture Beam.postRender Beam.preRender
  split <;> omega

theorem index_of_skipped (h : p.beam.InFrame) (hskip : p.skipped ≠ 0) :
    p.beam.index = p.beam.tv.frameDots - 2 := by
  have hlines := p.beam.tv.lines_ge
  have hskips : p.beam.skipsDot p.rendering = true := by
    unfold skipped at hskip
    by_contra hno
    exact hskip (if_neg hno)
  obtain ⟨⟨hline, hdot⟩, -⟩ := Beam.passes_of_skips hskips
  rw [Beam.index_eq h, if_pos hline, hdot, TvSystem.frameDots]
  omega

theorem After.step (h : After tv count p) (hdot : ClockDot p q) :
    After tv (count + 1 + p.skipped) q := by
  obtain ⟨htv, hin, hindex, hframes, hodd⟩ := h
  have hpass := index_of_skipped hin
  have hle := p.skipped_le
  rw [hindex, htv] at hpass
  refine ⟨?_, ?_, ?_, ?_, ?_⟩
  · rw [hdot.beam, Beam.advance_tv, htv]
  · rw [hdot.beam]
    exact hin.advance _
  · rw [hdot.beam, Beam.index_advance hin, hindex, htv, Nat.add_assoc, Nat.mod_add_mod,
      Nat.add_assoc]
    rfl
  · rw [hdot.frameCount, hframes]
    simp only [behindPicture_iff hin, hindex]
    unfold framesAfter
    generalize p.skipped = skipped at hpass hle
    by_cases hbehind : count % tv.frameDots = 81840
    · rw [if_pos hbehind]
      cases tv <;> simp only [TvSystem.frameDots, TvSystem.lines] at * <;> omega
    · rw [if_neg hbehind]
      cases tv <;> simp only [TvSystem.frameDots, TvSystem.lines] at * <;> omega
  · rw [hdot.beam, Beam.advance_oddFrame hin, hindex, hodd, htv]
    generalize p.skipped = skipped at hpass hle
    by_cases hwrap : count % tv.frameDots + 342 = tv.frameDots
    · rw [if_pos hwrap, ← decide_not, decide_eq_decide]
      cases tv <;> simp only [TvSystem.frameDots, TvSystem.lines] at * <;> omega
    · rw [if_neg hwrap, decide_eq_decide]
      cases tv <;> simp only [TvSystem.frameDots, TvSystem.lines] at * <;> omega

/-- A dot is left out in every other frame at most. -/
theorem After.even_of_skips (h : After tv count p) (hskip : p.beam.skipsDot p.rendering = true) :
    count / tv.frameDots % 2 = 0 := by
  have hpass : p.beam.index = p.beam.tv.frameDots - 2 :=
    index_of_skipped h.inFrame (by rw [skipped, if_pos hskip]; decide)
  have hodd := (Beam.passes_of_skips hskip).2
  rw [h.oddFrame, decide_eq_true_iff] at hodd
  rw [h.index, h.system] at hpass
  cases tv <;> simp only [TvSystem.frameDots, TvSystem.lines] at * <;> omega

end Ppu

end NesMachine
