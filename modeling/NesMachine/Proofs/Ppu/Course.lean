import NesMachine.Proofs.Ppu.Holdings
import NesMachine.Proofs.Ppu.Position

/-!
# Courses of the picture unit

What happens to the picture unit between two of its states, moment by moment: dots, register accesses
and taken requests, in any order, with any cartridge in the slot at any time.

* `Course.indices`: up to the next start of the picture, the dots pass the positions in their order,
  none twice and none left out.
* `Lap.indices`: the same from one start of the picture on.
* `Course.last_lap`: behind a dot at the start of the picture, the course since the last of them.
-/

namespace NesMachine

theorem TvSystem.frameDots_ge (tv : TvSystem) : 89342 ≤ tv.frameDots := by cases tv <;> decide

theorem Beam.InFrame.index_lt {beam : Beam} (h : beam.InFrame) :
    beam.index < beam.tv.frameDots := by
  have hlines := beam.tv.lines_ge
  rw [index_eq h, TvSystem.frameDots]
  obtain ⟨hfirst, hlast, hdot⟩ := h
  split <;> omega

namespace Ppu

variable {p q r : Ppu}

/-! ## Moments -/

/-- What can happen to the picture unit. -/
inductive Happening where
  | dot
  | read (addr : UInt16)
  | write (addr : UInt16) (value : UInt8)
  | take
  deriving DecidableEq

/-- What it leads to. -/
inductive Happens : Ppu → Happening → Ppu → Prop where
  | dot {p q : Ppu} {slot : Slot} : p.step slot = .ok q → Happens p .dot q
  | read {p q : Ppu} {slot : Slot} {addr : UInt16} {value : UInt8} :
      p.readRegister slot addr = .ok (value, q) → Happens p (.read addr) q
  | write {p q : Ppu} {slot slot' : Slot} {addr : UInt16} {value : UInt8} :
      p.writeRegister slot addr value = .ok (q, slot') → Happens p (.write addr value) q
  | takeNmi {p : Ppu} : Happens p .take p.takeNmi.2
  | takeFrameReady {p : Ppu} : Happens p .take p.takeFrameReady.2

theorem Happens.reachable {what : Happening} (h : Happens p what q) (hp : Reachable p) :
    Reachable q := by
  cases h with
  | dot hstep => exact hp.step hstep
  | read hread => exact hp.read hread
  | write hwrite => exact hp.write hwrite
  | takeNmi => exact hp.takeNmi
  | takeFrameReady => exact hp.takeFrameReady

/-- Only dots move the beam. -/
theorem Happens.beam {what : Happening} (h : Happens p what q) (hwhat : what ≠ .dot) :
    q.beam = p.beam := by
  cases h with
  | dot => exact absurd rfl hwhat
  | read hread => rw [(readRegister_frame hread).1]
  | write hwrite => exact (writeRegister_frame hwrite).1.1
  | takeNmi => rfl
  | takeFrameReady => rfl

theorem Happens.clock (h : Happens p .dot q) : ClockDot p q := by
  cases h with
  | dot hstep => exact step_clock hstep

/-- Something that happened, with the states before and behind it. -/
structure Moment where
  what : Happening
  before : Ppu
  after : Ppu

/-- What happens on the way from one state to another. -/
inductive Course : Ppu → List Moment → Ppu → Prop where
  | nil (p : Ppu) : Course p [] p
  | cons {p q r : Ppu} {what : Happening} {rest : List Moment} :
      Happens p what r → Course r rest q → Course p (⟨what, p, r⟩ :: rest) q

variable {ms ms' : List Moment}

theorem Course.append (h : Course p ms r) (h' : Course r ms' q) : Course p (ms ++ ms') q := by
  induction h with
  | nil => exact h'
  | cons hfirst _ ih => exact .cons hfirst (ih h')

/-- **What every moment preserves, a course preserves.** -/
theorem Course.holds {P : Ppu → Prop}
    (hmoment : ∀ {p q : Ppu} {what : Happening}, Happens p what q → P p → P q)
    (h : Course p ms q) (hp : P p) : P q := by
  induction h with
  | nil => exact hp
  | cons hfirst _ ih => exact ih (hmoment hfirst hp)

theorem Course.reachable (h : Course p ms q) (hp : Reachable p) : Reachable q :=
  h.holds Happens.reachable hp

/-- Induction on a course by what comes first: a dot, or something that does not move the beam. -/
@[elab_as_elim]
theorem Course.dots_induction {motive : ∀ p ms q, Course p ms q → Prop}
    (nil : ∀ p, motive p [] p (.nil p))
    (dot : ∀ {p q r ms} (hdot : Happens p .dot r) (hrest : Course r ms q),
      motive r ms q hrest → motive p (⟨.dot, p, r⟩ :: ms) q (.cons hdot hrest))
    (other : ∀ {p q r what ms}, what ≠ .dot → ∀ (hfirst : Happens p what r)
      (hrest : Course r ms q),
      motive r ms q hrest → motive p (⟨what, p, r⟩ :: ms) q (.cons hfirst hrest))
    {p : Ppu} {ms : List Moment} {q : Ppu} (h : Course p ms q) : motive p ms q h := by
  induction h with
  | nil p => exact nil p
  | @cons p q r what rest hfirst hrest ih =>
    by_cases hwhat : what = .dot
    · subst hwhat
      exact dot hfirst hrest ih
    · exact other hwhat hfirst hrest ih

/-- The states that come of power-on and of a reset. -/
def Starts (p : Ppu) : Prop := (∃ tv, p = ({} : Ppu).setTv tv) ∨ ∃ r, p = Ppu.reset r

theorem Starts.reachable (h : Starts p) : Reachable p := by
  rcases h with ⟨tv, rfl⟩ | ⟨r, rfl⟩
  · exact .powerOn tv
  · exact .reset r

/-- The beam is at the start of the picture. -/
def AtStart (p : Ppu) : Prop := p.beam.scanline = 0 ∧ p.beam.dot = 0

instance (p : Ppu) : Decidable p.AtStart := by unfold AtStart; infer_instance

theorem Starts.atStart (h : Starts p) : p.AtStart := by
  rcases h with ⟨tv, rfl⟩ | ⟨r, rfl⟩ <;> exact ⟨rfl, rfl⟩

theorem AtStart.inFrame (h : p.AtStart) : p.beam.InFrame := by
  have hlines := p.beam.tv.lines_ge
  obtain ⟨hline, hdot⟩ := h
  exact ⟨by omega, by omega, by omega⟩

/-! ## Positions -/

/-- The index of the dot on which the vertical blank begins. -/
def vblankIndex : Nat := 341 * 241 + 1

theorem atStart_iff (h : p.beam.InFrame) : p.AtStart ↔ p.beam.index = 0 := by
  have hlines := p.beam.tv.lines_ge
  rw [Beam.index_eq h]
  obtain ⟨hfirst, hlast, hdot⟩ := h
  unfold AtStart Beam.preRender
  split <;> omega

theorem atVblank_iff (h : p.beam.InFrame) : p.AtVblank ↔ p.beam.index = vblankIndex := by
  have hlines := p.beam.tv.lines_ge
  rw [Beam.index_eq h]
  obtain ⟨hfirst, hlast, hdot⟩ := h
  unfold AtVblank Beam.vblankStart Beam.preRender vblankIndex
  split <;> omega

theorem ClockDot.inFrame (h : ClockDot p q) (hin : p.beam.InFrame) : q.beam.InFrame := by
  rw [h.beam]
  exact hin.advance _

/-- A dot leads to the next position, or from the last or the last but one to the first. -/
theorem ClockDot.index (h : ClockDot p q) (hin : p.beam.InFrame) :
    q.beam.index = p.beam.index + 1 ∨
      (q.beam.index = 0 ∧ p.beam.tv.frameDots ≤ p.beam.index + 2) := by
  have hlt := hin.index_lt
  have hdots := p.beam.tv.frameDots_ge
  have hskipped := index_of_skipped hin
  have hle := p.skipped_le
  have hnext : q.beam.index = (p.beam.index + 1 + p.skipped) % p.beam.tv.frameDots := by
    rw [h.beam]
    exact Beam.index_advance hin
  by_cases hend : p.beam.index + 1 + p.skipped < p.beam.tv.frameDots
  · rw [Nat.mod_eq_of_lt hend] at hnext
    exact .inl (by omega)
  · have hwrap : p.beam.index + 1 + p.skipped = p.beam.tv.frameDots := by omega
    rw [hwrap, Nat.mod_self] at hnext
    exact .inr ⟨hnext, by omega⟩

theorem Happens.inFrame {what : Happening} (h : Happens p what q) (hin : p.beam.InFrame) :
    q.beam.InFrame := by
  by_cases hwhat : what = .dot
  · subst hwhat
    exact h.clock.inFrame hin
  · rw [h.beam hwhat]
    exact hin

theorem Course.inFrame (h : Course p ms q) (hin : p.beam.InFrame) : q.beam.InFrame :=
  h.holds Happens.inFrame hin

theorem Course.inFrame_of_starts (h : Course p ms q) (hp : Starts p) : q.beam.InFrame :=
  h.inFrame hp.atStart.inFrame

/-! ## The dots of a course -/

/-- The states on which the dots of a course began. -/
def dotsOf (ms : List Moment) : List Ppu :=
  ms.filterMap fun m => if m.what = .dot then some m.before else none

@[simp] theorem dotsOf_dot (p q : Ppu) (ms : List Moment) :
    dotsOf (⟨.dot, p, q⟩ :: ms) = p :: dotsOf ms := rfl

theorem dotsOf_other {what : Happening} (hwhat : what ≠ .dot) (p q : Ppu) (ms : List Moment) :
    dotsOf (⟨what, p, q⟩ :: ms) = dotsOf ms :=
  List.filterMap_cons_none (if_neg hwhat)

/-- How often a course passes the start of the picture. -/
def starts (ms : List Moment) : Nat := (dotsOf ms).countP fun d => d.AtStart

theorem starts_dot (p q : Ppu) (ms : List Moment) :
    starts (⟨.dot, p, q⟩ :: ms) = starts ms + if p.AtStart then 1 else 0 := by
  unfold starts
  rw [dotsOf_dot, List.countP_cons]
  simp only [decide_eq_true_eq]

theorem starts_other {what : Happening} (hwhat : what ≠ .dot) (p q : Ppu) (ms : List Moment) :
    starts (⟨what, p, q⟩ :: ms) = starts ms := by
  rw [starts, dotsOf_other hwhat, starts]

/-- At the start of the picture, a course that does not pass it has no dot. -/
theorem Course.waits (h : Course p ms q) (hp : p.AtStart) (hstarts : starts ms = 0) :
    dotsOf ms = [] ∧ q.AtStart := by
  induction h using Course.dots_induction with
  | nil => exact ⟨rfl, hp⟩
  | dot =>
    rw [starts_dot, if_pos hp] at hstarts
    omega
  | other hwhat hfirst _ ih =>
    rw [starts_other hwhat] at hstarts
    rw [dotsOf_other hwhat]
    exact ih (by unfold AtStart; rw [hfirst.beam hwhat]; exact hp) hstarts

/-- **Up to the next start of the picture, no position is left out**, but for the last of a frame. -/
theorem Course.indices (h : Course p ms q) (hin : p.beam.InFrame) (hstarts : starts ms = 0) :
    (dotsOf ms).map (·.beam.index) = List.range' p.beam.index (dotsOf ms).length ∧
      (q.beam.index = p.beam.index + (dotsOf ms).length ∨
        (q.AtStart ∧ p.beam.tv.frameDots ≤ p.beam.index + (dotsOf ms).length + 1)) := by
  induction h using Course.dots_induction with
  | nil => exact ⟨rfl, .inl rfl⟩
  | @dot p q r rest hfirst hrest ih =>
    have hdot := hfirst.clock
    have hrin := hdot.inFrame hin
    have htv : r.beam.tv = p.beam.tv := by rw [hdot.beam, Beam.advance_tv]
    rw [starts_dot] at hstarts
    obtain ⟨hlist, hend⟩ := ih hrin (by omega)
    rw [dotsOf_dot, List.map_cons, List.length_cons, List.range'_succ, hlist]
    rw [htv] at hend
    rcases hdot.index hin with hnext | ⟨hwrap, hlast⟩
    · rw [hnext] at hend ⊢
      refine ⟨rfl, hend.imp (fun h => by omega) fun h => ⟨h.1, by omega⟩⟩
    · obtain ⟨hnone, hq⟩ := hrest.waits ((atStart_iff hrin).mpr hwrap) (by omega)
      rw [hnone]
      exact ⟨rfl, .inr ⟨hq, hlast⟩⟩
  | other hwhat hfirst _ ih =>
    have hbeam := hfirst.beam hwhat
    rw [starts_other hwhat] at hstarts
    have hlist := ih (by rw [hbeam]; exact hin) hstarts
    rw [hbeam] at hlist
    rwa [dotsOf_other hwhat]

/-! ## Laps -/

/-- A course from the start of the picture that does not pass it again. -/
structure Lap (p : Ppu) (ms : List Moment) (q : Ppu) : Prop where
  course : Course p ms q
  start : p.AtStart
  once : starts ms = 1

/-- **A lap passes the positions of a frame in their order.** -/
theorem Lap.indices (h : Lap p ms q) :
    (dotsOf ms).map (·.beam.index) = List.range (dotsOf ms).length ∧
      (q.beam.index = (dotsOf ms).length ∨
        (q.AtStart ∧ p.beam.tv.frameDots ≤ (dotsOf ms).length + 1)) := by
  obtain ⟨h, hstart, honce⟩ := h
  induction h using Course.dots_induction with
  | nil => exact absurd honce (by decide)
  | @dot p q r rest hfirst hrest _ =>
    have hin := hstart.inFrame
    have hzero := (atStart_iff hin).mp hstart
    have hdot := hfirst.clock
    have htv : r.beam.tv = p.beam.tv := by rw [hdot.beam, Beam.advance_tv]
    have hnext : r.beam.index = 1 := by
      have hdots := p.beam.tv.frameDots_ge
      rcases hdot.index hin with hnext | ⟨-, hlast⟩ <;> omega
    rw [starts_dot, if_pos hstart] at honce
    obtain ⟨hlist, hend⟩ := hrest.indices (hdot.inFrame hin) (by omega)
    rw [hnext] at hlist hend
    rw [htv] at hend
    rw [dotsOf_dot, List.map_cons, List.length_cons, hlist, hzero, List.range_eq_range',
      List.range'_succ]
    exact ⟨rfl, hend.imp (fun h => by omega) fun h => ⟨h.1, by omega⟩⟩
  | other hwhat hfirst _ ih =>
    have hbeam := hfirst.beam hwhat
    rw [starts_other hwhat] at honce
    have hlap := ih (by unfold AtStart; rw [hbeam]; exact hstart) honce
    rw [hbeam] at hlap
    rwa [dotsOf_other hwhat]

/-- A lap that is back at the start of the picture has passed every position but one at most. -/
theorem Lap.complete (h : Lap p ms q) (hq : q.AtStart) :
    p.beam.tv.frameDots ≤ (dotsOf ms).length + 1 := by
  rcases h.indices.2 with hend | ⟨-, hend⟩
  · have hzero := (atStart_iff (h.course.inFrame h.start.inFrame)).mp hq
    have hnone : dotsOf ms = [] := List.eq_nil_of_length_eq_zero (hend.symm.trans hzero)
    have honce := h.once
    rw [starts, hnone] at honce
    exact absurd honce (by decide)
  · exact hend

/-- **The last lap of a course.** -/
theorem Course.last_lap (h : Course p ms q) (hstarts : 0 < starts ms) :
    ∃ earlier r lap, ms = earlier ++ lap ∧ Course p earlier r ∧ Lap r lap q := by
  induction h using Course.dots_induction with
  | nil => exact absurd hstarts (by decide)
  | @dot p q r rest hfirst hrest ih =>
    by_cases hlater : 0 < starts rest
    · obtain ⟨earlier, s, lap, rfl, hearlier, hlap⟩ := ih hlater
      exact ⟨_, s, lap, rfl, .cons hfirst hearlier, hlap⟩
    · have hat : p.AtStart := by
        by_contra hat
        rw [starts_dot, if_neg hat] at hstarts
        exact hlater hstarts
      refine ⟨[], p, _, rfl, .nil p, .cons hfirst hrest, hat, ?_⟩
      rw [starts_dot, if_pos hat]
      omega
  | other hwhat hfirst _ ih =>
    rw [starts_other hwhat] at hstarts
    obtain ⟨earlier, s, lap, rfl, hearlier, hlap⟩ := ih hstarts
    exact ⟨_, s, lap, rfl, .cons hfirst hearlier, hlap⟩

/-- Away from the start of the picture, there is a last lap. -/
theorem Course.last_lap_of_starts (h : Course p ms q) (hp : Starts p) (hq : ¬ q.AtStart) :
    ∃ earlier r lap, ms = earlier ++ lap ∧ Course p earlier r ∧ Lap r lap q :=
  h.last_lap (Nat.pos_of_ne_zero fun hnone => hq (h.waits hp.atStart hnone).2)

theorem readable_none : Slot.Readable none := fun _ _ => ⟨0, rfl⟩

/-- With no cartridge, dots lead from the start of the picture to any position of the first frame.
They change neither object memory nor the mask. -/
theorem exists_course_from (hp : p.AtStart) {n : Nat} (hn : n < 89341) :
    ∃ ms q, Course p ms q ∧ q.beam.index = n ∧ q.oam = p.oam ∧ q.mask = p.mask := by
  induction n with
  | zero => exact ⟨[], p, .nil p, (atStart_iff hp.inFrame).mp hp, rfl, rfl⟩
  | succ n ih =>
    obtain ⟨ms, q, hcourse, hindex, hoam, hmask⟩ := ih (by omega)
    obtain ⟨r, hstep⟩ := step_progress readable_none q
    have hin := hcourse.inFrame hp.inFrame
    have hdots := q.beam.tv.frameDots_ge
    have hheld := step_holdings hstep
    refine ⟨_, r, hcourse.append (.cons (.dot hstep) (.nil r)), ?_,
      (congrArg Holdings.oam hheld).trans hoam, (congrArg Holdings.mask hheld).trans hmask⟩
    rcases (step_clock hstep).index hin with hnext | ⟨-, hlast⟩ <;> omega

/-- The same from power-on. -/
theorem exists_course {n : Nat} (hn : n < 89341) :
    ∃ ms q, Course (({} : Ppu).setTv .ntsc) ms q ∧ q.beam.index = n := by
  obtain ⟨ms, q, hcourse, hindex, -⟩ := exists_course_from (Starts.atStart (.inl ⟨.ntsc, rfl⟩)) hn
  exact ⟨ms, q, hcourse, hindex⟩

end Ppu

end NesMachine
