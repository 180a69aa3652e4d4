import NesMachine.Ppu.Register
import NesMachine.Proofs.Ppu.Sprites

/-!
# The vertical blank and its interrupt

The picture unit requests an interrupt when the vertical blank begins while it is enabled, and when
it is enabled within the vertical blank. Both are the rising edge of one condition, `requests`.

* `step_clock` is everything that a dot does to the position, the flags and the requests.
* `Reachable.vblank_start`: in a reachable state the flag is down when the vertical blank begins.
* `step_nmi`, `readRegister_nmi`, `writeRegister_nmi`: a request is made on rising edges only, and on
  every one of them.
-/

namespace NesMachine

namespace Ppu

variable {p q : Ppu} {slot slot' : Slot} {addr : UInt16} {value : UInt8}

/-! ## Every dot -/

/-- The dot on which the vertical blank begins. -/
def AtVblank (p : Ppu) : Prop := p.beam.scanline = Beam.vblankStart ∧ p.beam.dot = 1

instance (p : Ppu) : Decidable p.AtVblank := by unfold AtVblank; infer_instance

instance (p : Ppu) : Decidable p.BehindPicture := by unfold BehindPicture; infer_instance

instance (p : Ppu) : Decidable p.lowers := by unfold lowers; infer_instance

/-- What every dot does to the position, the vertical blank and the requests. -/
structure ClockDot (p q : Ppu) : Prop where
  beam : q.beam = p.beam.advance p.rendering
  ctrl : q.ctrl = p.ctrl
  mask : q.mask = p.mask
  frameCount : q.frameCount = p.frameCount + if p.BehindPicture then 1 else 0
  frameReady : q.frameReady = (p.frameReady || decide p.BehindPicture)
  nmi : q.nmi = (p.nmi || (decide p.AtVblank && p.nmiEnabled))
  inVblank : q.inVblank = ((p.inVblank && !decide p.lowers) || decide p.AtVblank)

theorem PictureDot.inVblank (h : PictureDot slot p q) :
    q.inVblank = (p.inVblank && !decide p.lowers) := by
  have hhit : q.status &&& vblank = p.statusAfterSprites &&& vblank := by
    rw [h.status]
    split
    · rw [or_and_flag, show spriteZeroHit &&& vblank = 0 from rfl, UInt8.or_zero]
    · rfl
  have hsprites : p.statusAfterSprites &&& vblank =
      if p.lowers then 0 else p.status &&& vblank := by
    by_cases hlow : p.lowers
    · have hpre : p.beam.dot = 1 ∧ p.beam.scanline = Beam.preRender := hlow
      rw [if_pos hlow, statusAfterSprites, if_pos hpre, UInt8.and_assoc,
        show (0x1F : UInt8) &&& vblank = 0 from rfl, UInt8.and_zero]
    · have hpre : ¬ (p.beam.dot = 1 ∧ p.beam.scanline = Beam.preRender) := hlow
      rw [if_neg hlow, statusAfterSprites, if_neg hpre]
      split
      · rw [or_and_flag, show spriteOverflow &&& vblank = 0 from rfl, UInt8.or_zero]
      · rfl
  unfold Ppu.inVblank
  rw [hhit, hsprites]
  by_cases hlow : p.lowers <;> simp [hlow]

/-- A dot on a line of the picture, or on the line before it. -/
theorem PictureDot.clock (h : PictureDot slot p q) (hline : p.beam.scanline < Beam.postRender) :
    ClockDot p q := by
  have hbehind : ¬ p.BehindPicture := by
    rintro ⟨hpost, -⟩
    omega
  have hvblank : ¬ p.AtVblank := by
    rintro ⟨hstart, -⟩
    rw [hstart] at hline
    exact absurd hline (by decide)
  constructor
  · exact h.beam
  · rw [h.rest]
  · rw [h.rest]
  · rw [h.rest, if_neg hbehind]
    rfl
  · rw [h.rest, decide_eq_false hbehind, Bool.or_false]
  · rw [h.rest, decide_eq_false hvblank, Bool.false_and, Bool.or_false]
  · rw [h.inVblank, decide_eq_false hvblank, Bool.or_false]

/-- On the other lines a dot ends the frame, begins the vertical blank or does nothing. -/
theorem idleDot_cases (p : Ppu) :
    (p.BehindPicture ∧ ¬ p.AtVblank ∧
      p.idleDot = { p with frameReady := true, frameCount := p.frameCount + 1 }) ∨
    (¬ p.BehindPicture ∧ p.AtVblank ∧
      p.idleDot = { p with status := p.status ||| vblank, nmi := p.nmi || p.nmiEnabled }) ∨
    (¬ p.BehindPicture ∧ ¬ p.AtVblank ∧ p.idleDot = p) := by
  unfold idleDot
  by_cases hpost : p.beam.scanline = Beam.postRender
  · have hvblank : ¬ p.AtVblank := by
      rintro ⟨hstart, -⟩
      rw [hstart] at hpost
      exact absurd hpost (by decide)
    rw [if_pos hpost]
    by_cases hdot : p.beam.dot = 0
    · exact .inl ⟨⟨hpost, hdot⟩, hvblank, if_pos hdot⟩
    · exact .inr (.inr ⟨fun h => hdot h.2, hvblank, if_neg hdot⟩)
  · have hbehind : ¬ p.BehindPicture := fun h => hpost h.1
    rw [if_neg hpost]
    by_cases hvblank : p.AtVblank
    · exact .inr (.inl ⟨hbehind, hvblank, if_pos hvblank⟩)
    · exact .inr (.inr ⟨hbehind, hvblank, if_neg hvblank⟩)

theorem idleDot_clock (p : Ppu) (hlow : ¬ p.lowers) :
    ClockDot p { p.idleDot with beam := p.idleDot.beam.advance p.idleDot.rendering } := by
  rcases idleDot_cases p with ⟨hbehind, hvblank, hidle⟩ | ⟨hbehind, hvblank, hidle⟩ |
    ⟨hbehind, hvblank, hidle⟩
  · rw [hidle]
    exact ⟨rfl, rfl, rfl, by simp [hbehind], by simp [hbehind], by simp [hvblank],
      by simp [hvblank, hlow, Ppu.inVblank]⟩
  · have hset : (p.status ||| vblank) &&& vblank ≠ 0 := by
      rw [or_and_flag]
      simp [show vblank &&& vblank = 0x80 from rfl]
    rw [hidle]
    exact ⟨rfl, rfl, rfl, by simp [hbehind], by simp [hbehind], by simp [hvblank],
      by simp [hvblank, Ppu.inVblank, hset]⟩
  · rw [hidle]
    exact ⟨rfl, rfl, rfl, by simp [hbehind], by simp [hbehind], by simp [hvblank],
      by simp [hvblank, hlow, Ppu.inVblank]⟩

theorem step_clock (h : p.step slot = .ok q) : ClockDot p q := by
  by_cases hline : p.beam.scanline < Beam.postRender
  · exact (step_picture h hline).clock hline
  · have hlow : ¬ p.lowers := by
      rintro ⟨-, hpre⟩
      rw [hpre] at hline
      exact hline (by decide)
    rw [step_behind h (by omega)]
    exact idleDot_clock p hlow

/-! ## Register accesses -/

theorem readData_frame {r : UInt8 × Ppu} (h : p.readData slot = .ok r) :
    r.2 = { p with readBuffer := r.2.readBuffer, scroll := r.2.scroll } := by
  unfold readData at h
  simp only at h
  obtain ⟨v, -, h⟩ := bind_ok h
  split at h
  · obtain ⟨w, -, h⟩ := bind_ok h
    cases h
    rfl
  · cases h
    rfl

/-- What a register read leaves alone. -/
theorem readRegister_frame (h : p.readRegister slot addr = .ok (value, q)) :
    q = { p with
      readBuffer := q.readBuffer, scroll := q.scroll, openBus := q.openBus, status := q.status } ∧
      (q.status = p.status ∨ q.status = p.status &&& 0x7F) := by
  unfold readRegister at h
  simp only at h
  split at h
  all_goals obtain ⟨⟨v, r⟩, hr, h⟩ := bind_ok h
  · cases hr
    cases h
    exact ⟨rfl, .inr rfl⟩
  · cases hr
    cases h
    exact ⟨rfl, .inl rfl⟩
  · cases h
    have hframe : r = _ := readData_frame hr
    rw [hframe]
    exact ⟨rfl, .inl rfl⟩
  · cases hr
    cases h
    exact ⟨rfl, .inl rfl⟩

theorem inVblank_congr (h : q.status = p.status) : q.inVblank = p.inVblank :=
  congrArg (fun status : UInt8 => decide (status &&& vblank ≠ 0)) h

theorem inVblank_of_status_zero (h : p.status = 0) : p.inVblank = false := by
  unfold Ppu.inVblank
  rw [h]
  decide

/-- A register read can only clear the vertical blank. -/
theorem readRegister_inVblank (h : p.readRegister slot addr = .ok (value, q)) :
    q.inVblank = true → p.inVblank = true := by
  rcases readRegister_frame h with ⟨-, hsame | hcleared⟩
  · rw [inVblank_congr hsame]
    exact id
  · intro hq
    unfold Ppu.inVblank at hq
    rw [hcleared, UInt8.and_assoc, show (0x7F : UInt8) &&& vblank = 0 from rfl,
      UInt8.and_zero] at hq
    exact absurd hq (by decide)

theorem writeMemory_frame {r : Ppu × Slot} (h : p.writeMemory slot addr value = .ok r) :
    r.1 = { p with nametables := r.1.nametables, palette := r.1.palette } := by
  unfold writeMemory at h
  simp only at h
  split at h
  · cases hchr : slot.writeChr (addr &&& 0x3FFF) value with
    | error e => rw [hchr] at h; cases h
    | ok slot' => rw [hchr] at h; cases h; rfl
  · split at h <;> cases h <;> rfl

/-- What a register write leaves alone. -/
theorem writeRegister_rest (h : p.writeRegister slot addr value = .ok (q, slot')) :
    q = { p with
      ctrl := q.ctrl, mask := q.mask, oamAddr := q.oamAddr, openBus := q.openBus
      scroll := q.scroll, nametables := q.nametables, palette := q.palette, oam := q.oam
      nmi := q.nmi } := by
  unfold writeRegister at h
  simp only at h
  split at h
  case h_7 =>
    obtain ⟨⟨r, s⟩, hr, h⟩ := bind_ok h
    have hframe : r = _ := writeMemory_frame hr
    cases h
    rw [hframe]
  all_goals
    cases h
    rfl

/-- Of the requests, only a write of the control register can make one. -/
theorem writeRegister_frame (h : p.writeRegister slot addr value = .ok (q, slot')) :
    (q.beam = p.beam ∧ q.status = p.status ∧ q.frameCount = p.frameCount ∧
      q.frameReady = p.frameReady) ∧
    if registerOf addr = 0 then
      q.ctrl = value ∧ q.nmi = (p.nmi || (!p.nmiEnabled && value &&& 0x80 ≠ 0 && p.inVblank))
    else q.ctrl = p.ctrl ∧ q.nmi = p.nmi := by
  refine ⟨by rw [writeRegister_rest h]; exact ⟨rfl, rfl, rfl, rfl⟩, ?_⟩
  unfold writeRegister at h
  simp only at h
  generalize registerOf addr = register at h ⊢
  split at h
  case h_7 =>
    obtain ⟨⟨r, s⟩, hr, h⟩ := bind_ok h
    have hframe : r = _ := writeMemory_frame hr
    cases h
    rw [hframe]
    exact ⟨rfl, rfl⟩
  case h_8 h0 _ _ _ _ _ _ =>
    cases h
    rw [if_neg h0]
    exact ⟨rfl, rfl⟩
  all_goals
    cases h
    exact ⟨rfl, rfl⟩

/-! ## Reachable states -/

/-- The states that come of power-on or a reset, by dots, register accesses and taken requests, with
any cartridge in the slot at any time. -/
inductive Reachable : Ppu → Prop where
  | powerOn (tv : TvSystem) : Reachable (({} : Ppu).setTv tv)
  | reset (p : Ppu) : Reachable p.reset
  | step {p q : Ppu} {slot : Slot} : Reachable p → p.step slot = .ok q → Reachable q
  | read {p q : Ppu} {slot : Slot} {addr : UInt16} {value : UInt8} :
      Reachable p → p.readRegister slot addr = .ok (value, q) → Reachable q
  | write {p q : Ppu} {slot slot' : Slot} {addr : UInt16} {value : UInt8} :
      Reachable p → p.writeRegister slot addr value = .ok (q, slot') → Reachable q
  | takeNmi {p : Ppu} : Reachable p → Reachable p.takeNmi.2
  | takeFrameReady {p : Ppu} : Reachable p → Reachable p.takeFrameReady.2

/-- The positions at which the vertical blank may be flagged: from behind its first dot to the dot on
which the flags fall. -/
def MayFlag (beam : Beam) : Prop :=
  (beam.scanline = Beam.vblankStart ∧ 2 ≤ beam.dot) ∨ Beam.vblankStart < beam.scanline ∨
    (beam.scanline = Beam.preRender ∧ beam.dot ≤ 1)

theorem mayFlag_advance {beam : Beam} (rendering : Bool)
    (h : MayFlag beam ∨ (beam.scanline = Beam.vblankStart ∧ beam.dot = 1))
    (hlow : ¬ (beam.dot = 1 ∧ beam.scanline = Beam.preRender)) :
    MayFlag (beam.advance rendering) := by
  unfold MayFlag Beam.vblankStart Beam.preRender at *
  unfold Beam.advance
  split
  · rename_i hend
    have hdot : 339 ≤ beam.dot := by
      unfold Beam.lastDot Beam.skipsDot Beam.lastDot at hend
      simp only [Bool.or_eq_true, decide_eq_true_iff, Bool.and_eq_true, beq_iff_eq] at hend
      omega
    unfold Beam.nextLine Beam.preRender
    split
    · exact .inr (.inr ⟨rfl, Nat.zero_le 1⟩)
    · exact .inr (.inl (by simp only; omega))
  · simp only
    omega

/-- **The vertical blank is flagged only between its first dot and the line before the picture.** -/
theorem Reachable.mayFlag (h : Reachable p) : p.inVblank → MayFlag p.beam := by
  induction h with
  | powerOn tv =>
    intro h
    have hdown : (({} : Ppu).setTv tv).inVblank = false := inVblank_of_status_zero rfl
    rw [hdown] at h
    exact absurd h Bool.false_ne_true
  | reset p =>
    intro h
    have hdown : p.reset.inVblank = false := inVblank_of_status_zero rfl
    rw [hdown] at h
    exact absurd h Bool.false_ne_true
  | step _ hstep ih =>
    intro h
    obtain ⟨hbeam, -, -, -, -, -, hvblank⟩ := step_clock hstep
    rw [hvblank, Bool.or_eq_true, Bool.and_eq_true, Bool.not_eq_true', decide_eq_true_iff,
      decide_eq_false_iff_not] at h
    rw [hbeam]
    rcases h with ⟨hbefore, hlow⟩ | hstart
    · exact mayFlag_advance _ (.inl (ih hbefore)) hlow
    · refine mayFlag_advance _ (.inr hstart) ?_
      rintro ⟨-, hpre⟩
      exact absurd (hstart.1.symm.trans hpre) (by decide)
  | @read p q _ _ _ _ hread ih =>
    intro h
    have hbeam : q.beam = p.beam := by rw [(readRegister_frame hread).1]
    rw [hbeam]
    exact ih (readRegister_inVblank hread h)
  | write _ hwrite ih =>
    intro h
    obtain ⟨⟨hbeam, hstatus, -, -⟩, -⟩ := writeRegister_frame hwrite
    rw [hbeam]
    exact ih ((inVblank_congr hstatus).symm.trans h)
  | takeNmi _ ih => exact ih
  | takeFrameReady _ ih => exact ih

theorem Reachable.vblank_start (h : Reachable p) (hstart : p.AtVblank) : p.inVblank = false := by
  obtain ⟨hline, hdot⟩ := hstart
  by_contra hset
  have hmay := h.mayFlag (Bool.of_not_eq_false hset)
  unfold MayFlag Beam.vblankStart Beam.preRender at hmay
  unfold Beam.vblankStart at hline
  omega

/-! ## Requests -/

/-- The condition whose rising edge is a request. -/
def requests (p : Ppu) : Bool := p.inVblank && p.nmiEnabled

/-- Between two states the condition rises. -/
def rises (p q : Ppu) : Bool := !p.requests && q.requests

theorem nmiEnabled_congr (h : q.ctrl = p.ctrl) : q.nmiEnabled = p.nmiEnabled :=
  congrArg (fun ctrl : UInt8 => decide (ctrl &&& 0x80 ≠ 0)) h

/-- **A dot makes a request exactly on a rising edge.** -/
theorem step_nmi (hp : Reachable p) (h : p.step slot = .ok q) : q.nmi = (p.nmi || rises p q) := by
  have hdot := step_clock h
  unfold rises requests
  rw [hdot.nmi, hdot.inVblank, nmiEnabled_congr hdot.ctrl]
  by_cases hstart : p.AtVblank
  · have hdown := hp.vblank_start hstart
    simp [hstart, hdown]
  · cases p.inVblank <;> cases p.nmiEnabled <;> simp [hstart]

/-- **A register read makes no request, and no edge rises.** -/
theorem readRegister_nmi (h : p.readRegister slot addr = .ok (value, q)) :
    q.nmi = (p.nmi || rises p q) ∧ rises p q = false := by
  have hframe := (readRegister_frame h).1
  have hctrl : q.ctrl = p.ctrl := by rw [hframe]
  have hnmi : q.nmi = p.nmi := by rw [hframe]
  have hflat : rises p q = false := by
    unfold rises requests
    rw [nmiEnabled_congr hctrl]
    cases hq : q.inVblank
    · simp
    · rw [readRegister_inVblank h hq]
      cases p.nmiEnabled <;> rfl
  rw [hflat, Bool.or_false]
  exact ⟨hnmi, rfl⟩

/-- **A register write makes a request exactly on a rising edge.** -/
theorem writeRegister_nmi (h : p.writeRegister slot addr value = .ok (q, slot')) :
    q.nmi = (p.nmi || rises p q) := by
  obtain ⟨⟨-, hstatus, -, -⟩, hctrl⟩ := writeRegister_frame h
  have hvblank := inVblank_congr hstatus
  unfold rises requests
  rw [hvblank]
  split at hctrl
  · obtain ⟨hctrl, hnmi⟩ := hctrl
    rw [hnmi, nmiEnabled, nmiEnabled, hctrl]
    cases p.inVblank <;> simp
  · obtain ⟨hctrl, hnmi⟩ := hctrl
    rw [hnmi, nmiEnabled_congr hctrl]
    cases p.inVblank <;> cases p.nmiEnabled <;> simp

end Ppu

end NesMachine
