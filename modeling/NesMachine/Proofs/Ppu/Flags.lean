import NesMachine.Proofs.Ppu.Course
import NesMachine.Proofs.Ppu.Objects

/-!
# The status flags

The status register holds three flags. Each rises on dots of its own, falls on the line before the
picture, and is up on some positions of the frame only; the vertical blank also falls when it is read.

* `step_sprite`, `Happens.vblank`: what a moment does to the flags.
* `Course.blanks_le`: the vertical blank begins once in a frame.
* `Course.vblank_between`: once it is down, it stays down until it begins again.
* `flags_in_window`: all of it, behind any course from power-on or a reset.
-/

namespace NesMachine.Ppu

variable {p q r : Ppu} {ms : List Moment} {slot : Slot} {flag : UInt8} {what : Happening}

/-! ## The flags of the sprites -/

/-- The two flags that sprites raise. -/
def SpriteFlag (flag : UInt8) : Prop := flag = spriteOverflow ∨ flag = spriteZeroHit

/-- The positions at which a flag of the sprites may be up: not from behind the dot on which they fall
until the first dot of the picture was drawn. -/
def MaySprite (beam : Beam) : Prop :=
  ¬ (beam.scanline = Beam.preRender ∧ 2 ≤ beam.dot) ∧ ¬ (beam.scanline = 0 ∧ beam.dot ≤ 2)

/-- The dots that may raise a flag of the sprites. -/
def MayRaise (beam : Beam) : Prop := 0 ≤ beam.scanline ∧ 2 ≤ beam.dot

theorem hitsNow_mayRaise (h : p.hitsNow) : MayRaise p.beam := ⟨h.1.1, h.1.2.1⟩

/-- On the line before the picture no sprite is in range, so too many are found on lines of the picture
only. -/
theorem overflowsNow_mayRaise (hin : p.beam.InFrame) (h : p.overflowsNow) : MayRaise p.beam := by
  obtain ⟨hdot, -, hmany⟩ := h
  refine ⟨?_, by omega⟩
  by_contra hline
  have hpre : p.beam.scanline = Beam.preRender := by
    have hfirst := hin.first
    unfold Beam.preRender
    omega
  rw [hpre, inRange_preRender] at hmany
  exact absurd hmany (by decide)

/-- On the lines behind the picture the flags of the sprites do not change. -/
theorem idleDot_sprite (p : Ppu) (hflag : SpriteFlag flag) :
    p.idleDot.status &&& flag = p.status &&& flag := by
  rcases idleDot_cases p with ⟨-, -, hidle⟩ | ⟨-, -, hidle⟩ | ⟨-, -, hidle⟩ <;> rw [hidle]
  have hother : vblank &&& flag = 0 := by rcases hflag with rfl | rfl <;> rfl
  rw [or_and_flag, hother, UInt8.or_zero]

/-- **What a dot does to a flag of the sprites**: it stays up but for the dot on which it falls, and
rises on dots of the picture. -/
theorem step_sprite (hflag : SpriteFlag flag) (hin : p.beam.InFrame) (h : p.step slot = .ok q) :
    (p.status &&& flag ≠ 0 → ¬ p.lowers → q.status &&& flag ≠ 0) ∧
      (q.status &&& flag ≠ 0 → (p.status &&& flag ≠ 0 ∧ ¬ p.lowers) ∨ MayRaise p.beam) := by
  by_cases hline : p.beam.scanline < Beam.postRender
  · have hdot := step_picture h hline
    have hiff : ∃ raises, (raises → MayRaise p.beam) ∧
        (q.status &&& flag ≠ 0 ↔ (p.status &&& flag ≠ 0 ∧ ¬ p.lowers) ∨ raises) := by
      rcases hflag with rfl | rfl
      · exact ⟨_, overflowsNow_mayRaise hin, hdot.overflow⟩
      · exact ⟨_, hitsNow_mayRaise, hdot.hit⟩
    obtain ⟨raises, hraises, hiff⟩ := hiff
    exact ⟨fun hset hlow => hiff.mpr (.inl ⟨hset, hlow⟩), fun hset => (hiff.mp hset).imp id hraises⟩
  · have hsame : q.status &&& flag = p.status &&& flag := by
      rw [step_behind h (by omega)]
      exact idleDot_sprite p hflag
    have hlow : ¬ p.lowers := by
      rintro ⟨-, hpre⟩
      rw [hpre] at hline
      exact hline (by decide)
    rw [hsame]
    exact ⟨fun hset _ => hset, fun hset => .inl ⟨hset, hlow⟩⟩

theorem MaySprite.advance {beam : Beam} (rendering : Bool) (hin : beam.InFrame)
    (h : (MaySprite beam ∧ ¬ (beam.dot = 1 ∧ beam.scanline = Beam.preRender)) ∨ MayRaise beam) :
    MaySprite (beam.advance rendering) := by
  have hlines := beam.tv.lines_ge
  have hskip : beam.skipsDot rendering = true → beam.scanline = -1 ∧ beam.dot = 339 :=
    fun hs => (Beam.passes_of_skips hs).1
  have hcases := Beam.advance_cases rendering hin
  obtain ⟨hfirst, hlast, hdot⟩ := hin
  unfold MaySprite MayRaise Beam.preRender at *
  rcases hcases with ⟨hd, -, hnext⟩ | ⟨hend, hline, hnext⟩ | ⟨hd, hline, hnext⟩
  · rw [hnext]
    simp only
    omega
  · rw [hnext]
    simp only
    rcases hend with hd | hs
    · omega
    · have hpass := hskip hs
      omega
  · rw [hnext]
    simp only
    omega

/-! ## What a moment does -/

/-- Accesses leave the flags of the sprites as they are. -/
theorem Happens.status_other (h : Happens p what q) (hwhat : what ≠ .dot) :
    q.status = p.status ∨ q.status = p.status &&& 0x7F := by
  cases h with
  | dot => exact absurd rfl hwhat
  | read hread => exact (readRegister_frame hread).2
  | write hwrite => exact .inl (writeRegister_frame hwrite).1.2.1
  | takeNmi => exact .inl rfl
  | takeFrameReady => exact .inl rfl

theorem Happens.sprite_other (hflag : SpriteFlag flag) (h : Happens p what q)
    (hwhat : what ≠ .dot) : q.status &&& flag = p.status &&& flag := by
  rcases h.status_other hwhat with hsame | hcleared
  · rw [hsame]
  · have hkept : (0x7F : UInt8) &&& flag = flag := by rcases hflag with rfl | rfl <;> rfl
    rw [hcleared, UInt8.and_assoc, hkept]

/-- A flag of the sprites that is up stays up, but for the dot on which it falls. -/
theorem Happens.sprite_kept (hflag : SpriteFlag flag) (hin : p.beam.InFrame) (h : Happens p what q)
    (hset : p.status &&& flag ≠ 0) (hlow : ¬ (what = .dot ∧ p.lowers)) : q.status &&& flag ≠ 0 := by
  by_cases hwhat : what = .dot
  · subst hwhat
    cases h with
    | dot hstep => exact (step_sprite hflag hin hstep).1 hset fun hlow' => hlow ⟨rfl, hlow'⟩
  · rw [h.sprite_other hflag hwhat]
    exact hset

theorem Happens.sprite_window (hflag : SpriteFlag flag) (hin : p.beam.InFrame) (h : Happens p what q)
    (hp : p.status &&& flag ≠ 0 → MaySprite p.beam) (hset : q.status &&& flag ≠ 0) :
    MaySprite q.beam := by
  by_cases hwhat : what = .dot
  · subst hwhat
    rw [h.clock.beam]
    cases h with
    | dot hstep =>
      refine MaySprite.advance _ hin (((step_sprite hflag hin hstep).2 hset).imp ?_ id)
      exact fun hbefore => ⟨hp hbefore.1, hbefore.2⟩
  · rw [h.beam hwhat]
    rw [h.sprite_other hflag hwhat] at hset
    exact hp hset

/-- The low bits of the status register stay clear. -/
theorem Happens.status_low (h : Happens p what q) (hlow : p.status &&& 0x1F = 0) :
    q.status &&& 0x1F = 0 := by
  have hmask (bits : UInt8) : (p.status &&& bits) &&& 0x1F = 0 := by
    rw [UInt8.and_assoc, UInt8.and_comm bits, ← UInt8.and_assoc, hlow, UInt8.zero_and]
  have hraise {status : UInt8} (set : UInt8) (hset : set &&& 0x1F = 0) (h : status &&& 0x1F = 0) :
      (status ||| set) &&& 0x1F = 0 := by
    rw [or_and_flag, h, hset, UInt8.or_zero]
  by_cases hwhat : what = .dot
  · subst hwhat
    cases h with
    | dot hstep =>
      by_cases hline : p.beam.scanline < Beam.postRender
      · have hsprites : p.statusAfterSprites &&& 0x1F = 0 := by
          unfold statusAfterSprites
          split_ifs
          · exact hmask 0x1F
          · exact hraise _ rfl hlow
          · exact hlow
        rw [(step_picture hstep hline).status]
        split_ifs
        · exact hraise _ rfl hsprites
        · exact hsprites
      · rw [step_behind hstep (by omega)]
        rcases idleDot_cases p with ⟨-, -, hidle⟩ | ⟨-, -, hidle⟩ | ⟨-, -, hidle⟩ <;> rw [hidle]
        · exact hlow
        · exact hraise _ rfl hlow
        · exact hlow
  · rcases h.status_other hwhat with hsame | hcleared
    · rw [hsame]
      exact hlow
    · rw [hcleared]
      exact hmask 0x7F

/-! ## The vertical blank -/

/-- The flag of the vertical blank rises on one dot of a frame only. -/
theorem Happens.vblank (h : Happens p what q) (hq : q.inVblank = true) :
    p.inVblank = true ∨ (what = .dot ∧ p.AtVblank) := by
  cases h with
  | dot hstep =>
    rw [(step_clock hstep).inVblank, Bool.or_eq_true, Bool.and_eq_true, decide_eq_true_iff] at hq
    exact hq.imp And.left fun hat => ⟨rfl, hat⟩
  | read hread => exact .inl (readRegister_inVblank hread hq)
  | write hwrite => exact .inl ((inVblank_congr (writeRegister_frame hwrite).1.2.1) ▸ hq)
  | takeNmi => exact .inl hq
  | takeFrameReady => exact .inl hq

/-- Reading the status register lowers the flag of the vertical blank. -/
theorem readStatus_lowers {addr : UInt16} {value : UInt8} (haddr : registerOf addr = 2)
    (h : p.readRegister slot addr = .ok (value, q)) : q.inVblank = false := by
  unfold readRegister at h
  rw [haddr] at h
  cases h
  unfold Ppu.inVblank
  rw [UInt8.and_assoc, show (0x7F : UInt8) &&& Ppu.vblank = 0 from rfl, UInt8.and_zero]
  decide

/-- A moment that raises the flag of the vertical blank. -/
def Moment.blanks (m : Moment) : Bool := !m.before.inVblank && m.after.inVblank

theorem Happens.blanks (h : Happens p what q) (hup : Moment.blanks ⟨what, p, q⟩ = true) :
    what = .dot ∧ p.AtVblank := by
  unfold Moment.blanks at hup
  rw [Bool.and_eq_true, Bool.not_eq_true'] at hup
  refine (h.vblank hup.2).resolve_left fun hbefore => ?_
  rw [hup.1] at hbefore
  cases hbefore

/-- How often a course raises the flag of the vertical blank. -/
def blanks (ms : List Moment) : Nat := ms.countP Moment.blanks

/-- How often the rest of the frame may raise it: once, up to the dot on which the vertical blank
begins. -/
def toBlank (p : Ppu) : Nat := if 0 < p.beam.index ∧ p.beam.index ≤ vblankIndex then 1 else 0

theorem blanks_dot (h : Happens p .dot q) (hin : p.beam.InFrame) :
    (if Moment.blanks ⟨.dot, p, q⟩ then 1 else 0) + q.toBlank ≤
      (if p.AtStart then 1 else 0) + p.toBlank := by
  have hnext := h.clock.index hin
  simp only [atStart_iff hin]
  by_cases hup : Moment.blanks ⟨.dot, p, q⟩ = true
  · have hat := (atVblank_iff hin).mp (h.blanks hup).2
    unfold toBlank vblankIndex at *
    rw [if_pos hup, if_neg (by omega), if_neg (by omega), if_pos (by omega)]
  · rw [if_neg hup]
    unfold toBlank vblankIndex
    split_ifs <;> omega

/-- **The vertical blank begins once in a frame.** -/
theorem Course.blanks_le (h : Course p ms q) (hin : p.beam.InFrame) :
    blanks ms + q.toBlank ≤ starts ms + p.toBlank := by
  induction h using Course.dots_induction with
  | nil => exact Nat.le_refl _
  | dot hfirst _ ih =>
    have hrest := ih (hfirst.inFrame hin)
    have hdot := blanks_dot hfirst hin
    unfold blanks at hrest ⊢
    rw [List.countP_cons, starts_dot]
    omega
  | @other p q r what rest hwhat hfirst _ ih =>
    have hrest := ih (hfirst.inFrame hin)
    have hsame : r.toBlank = p.toBlank := by unfold toBlank; rw [hfirst.beam hwhat]
    unfold blanks at hrest ⊢
    rw [List.countP_cons, if_neg fun hup => hwhat (hfirst.blanks hup).1, starts_other hwhat]
    omega

/-- **Between two states, the first without the flag and the second with it, the vertical blank
begins.** -/
theorem Course.vblank_between (h : Course p ms q) (hp : p.inVblank = false)
    (hq : q.inVblank = true) : ∃ earlier m later, ms = earlier ++ m :: later ∧
      Course p earlier m.before ∧ m.what = .dot ∧ m.before.AtVblank := by
  induction h with
  | nil =>
    rw [hp] at hq
    cases hq
  | @cons p q r what rest hfirst _ ih =>
    cases hr : r.inVblank with
    | true =>
      rcases hfirst.vblank hr with hup | ⟨hdot, hat⟩
      · rw [hp] at hup
        cases hup
      · exact ⟨[], _, rest, rfl, .nil p, hdot, hat⟩
    | false =>
      obtain ⟨earlier, m, later, rfl, hearlier, hm⟩ := ih hr hq
      exact ⟨_ :: earlier, m, later, rfl, .cons hfirst hearlier, hm⟩

/-- Within the vertical blank, the dot on which it begins again is one of the next frame. -/
theorem Course.starts_pos (h : Course p ms q) (hin : p.beam.InFrame) (hp : MayFlag p.beam)
    (hq : q.AtVblank) : 0 < starts ms := by
  have hbehind : vblankIndex < p.beam.index := by
    have hlines := p.beam.tv.lines_ge
    rw [Beam.index_eq hin]
    obtain ⟨hfirst, hlast, hdot⟩ := hin
    unfold MayFlag Beam.vblankStart Beam.preRender at hp
    unfold vblankIndex Beam.preRender
    split <;> omega
  by_contra hnone
  have hat := (atVblank_iff (h.inFrame hin)).mp hq
  rcases (h.indices hin (Nat.eq_zero_of_not_pos hnone)).2 with hend | ⟨hstart, -⟩
  · omega
  · have hzero := (atStart_iff (h.inFrame hin)).mp hstart
    rw [hat] at hzero
    exact absurd hzero (by decide)

/-! ## All flags -/

/-- The flags of the status register are up on their own positions only, and nothing else is. -/
structure FlagsPlaced (p : Ppu) : Prop where
  low : p.status &&& 0x1F = 0
  vblank : p.status &&& vblank ≠ 0 → MayFlag p.beam
  sprite : ∀ flag, SpriteFlag flag → p.status &&& flag ≠ 0 → MaySprite p.beam

theorem Starts.status (h : Starts p) : p.status = 0 := by
  rcases h with ⟨tv, rfl⟩ | ⟨r, rfl⟩ <;> rfl

theorem Course.flagsPlaced (h : Course p ms q) (hp : Starts p) : FlagsPlaced q := by
  have hinvariant : q.beam.InFrame ∧ q.status &&& 0x1F = 0 ∧
      ∀ flag, SpriteFlag flag → q.status &&& flag ≠ 0 → MaySprite q.beam := by
    refine h.holds (P := fun p => p.beam.InFrame ∧ p.status &&& 0x1F = 0 ∧
      ∀ flag, SpriteFlag flag → p.status &&& flag ≠ 0 → MaySprite p.beam) ?_ ?_
    · rintro p q what hwhat ⟨hin, hlow, hsprite⟩
      exact ⟨hwhat.inFrame hin, hwhat.status_low hlow,
        fun flag hflag => hwhat.sprite_window hflag hin (hsprite flag hflag)⟩
    · rw [hp.status]
      exact ⟨hp.atStart.inFrame, rfl, fun flag _ hset => absurd UInt8.zero_and hset⟩
  obtain ⟨-, hlow, hsprite⟩ := hinvariant
  refine ⟨hlow, fun hset => ?_, hsprite⟩
  exact (h.reachable hp.reachable).mayFlag (decide_eq_true hset)

theorem Course.sprite_kept (hflag : SpriteFlag flag) (h : Course p ms q) (hin : p.beam.InFrame)
    (hset : p.status &&& flag ≠ 0) (hnone : ∀ d ∈ dotsOf ms, ¬ d.lowers) :
    q.status &&& flag ≠ 0 := by
  induction h using Course.dots_induction with
  | nil => exact hset
  | dot hfirst _ ih =>
    rw [dotsOf_dot, List.forall_mem_cons] at hnone
    exact ih (hfirst.inFrame hin)
      (hfirst.sprite_kept hflag hin hset fun h => hnone.1 h.2) hnone.2
  | other hwhat hfirst _ ih =>
    rw [dotsOf_other hwhat] at hnone
    exact ih (hfirst.inFrame hin) (hfirst.sprite_kept hflag hin hset fun h => hwhat h.1) hnone

/-- **The status flags live in their windows.** Behind any course from power-on or a reset, the flags
are up on their positions only; behind it, the flag of the vertical blank rises once in a frame at most
and, read away, is down until the dot on which the vertical blank of the next frame begins, and a flag
of the sprites is up until the dot on which it falls. -/
theorem flags_in_window (hp : Starts p) (h : Course p ms q) :
    FlagsPlaced q ∧
    (∀ later r, Course q later r →
      blanks later ≤ starts later + 1 ∧ (q.AtStart → blanks later ≤ starts later)) ∧
    (∀ slot addr value r, registerOf addr = 2 → q.readRegister slot addr = .ok (value, r) →
      r.inVblank = false ∧ ∀ later s, Course r later s → s.inVblank = true →
        ∃ before m behind, later = before ++ m :: behind ∧ m.what = .dot ∧ m.before.AtVblank ∧
          (q.inVblank = true → 0 < starts before)) ∧
    (∀ flag, SpriteFlag flag → q.status &&& flag ≠ 0 → ∀ later r, Course q later r →
      (∀ d ∈ dotsOf later, ¬ d.lowers) → r.status &&& flag ≠ 0) := by
  have hin := h.inFrame_of_starts hp
  refine ⟨h.flagsPlaced hp, fun later r hlater => ?_, fun slot addr value r haddr hread => ?_,
    fun flag hflag hset later r hlater => hlater.sprite_kept hflag hin hset⟩
  · have hle := hlater.blanks_le hin
    refine ⟨?_, fun hstart => ?_⟩
    · have hmost : q.toBlank ≤ 1 := by unfold toBlank; split <;> omega
      omega
    · have hnone : q.toBlank = 0 := if_neg (by rw [(atStart_iff hin).mp hstart]; omega)
      omega
  · have hdown := readStatus_lowers haddr hread
    have hbeam := (Happens.read hread).beam (by intro h; cases h)
    refine ⟨hdown, fun later s hlater hs => ?_⟩
    obtain ⟨before, m, behind, hsplit, hbefore, hdot, hat⟩ := hlater.vblank_between hdown hs
    refine ⟨before, m, behind, hsplit, hdot, hat, fun hup => ?_⟩
    have hmay := (h.reachable hp.reachable).mayFlag hup
    rw [← hbeam] at hin hmay
    exact hbefore.starts_pos hin hmay hat

/-- With no cartridge, the first vertical blank since power-on, and a read of the status register
behind the dot on which it began. -/
theorem flags_in_window_first : ∃ ms q, Starts (({} : Ppu).setTv .ntsc) ∧
    Course (({} : Ppu).setTv .ntsc) ms q ∧ q.inVblank = true ∧ MayFlag q.beam ∧
    q.status &&& 0x1F = 0 ∧
    ∀ value r, q.readRegister none 0x2002 = .ok (value, r) → r.inVblank = false := by
  obtain ⟨ms, q, hcourse, hindex⟩ := exists_course (show vblankIndex < 89341 by decide)
  have hstart : Starts (({} : Ppu).setTv .ntsc) := .inl ⟨.ntsc, rfl⟩
  have hat := (atVblank_iff (hcourse.inFrame_of_starts hstart)).mpr hindex
  obtain ⟨r, hstep⟩ := step_progress readable_none q
  have hup : r.inVblank = true := by
    rw [(step_clock hstep).inVblank, decide_eq_true hat, Bool.or_true]
  have hbehind := hcourse.append (.cons (.dot hstep) (.nil r))
  obtain ⟨hplaced, -, hread, -⟩ := flags_in_window hstart hbehind
  exact ⟨_, r, hstart, hbehind, hup, hplaced.vblank (of_decide_eq_true hup), hplaced.low,
    fun value s hs => (hread none 0x2002 value s rfl hs).1⟩

end NesMachine.Ppu
