import NesMachine.Proofs.Ppu.Scan

/-!
# The sprites of a frame

The sprite unit works one line ahead: on the dots of a line it clears its slots, fills them from
object memory, and fetches their patterns.

* `fill_toList`, `fill_overflow`: what the slots hold after an evaluation, and when it overflows.
* `lineSprites_after`: the slots that a line of the picture is drawn from.
* `hit_after`, `overflow_after`: the two flags after any number of dots.
-/

namespace NesMachine

/-! ## Slots -/

namespace SpriteLine

theorem fill_toList (line : SpriteLine) (sprites : List SpriteSlot) {next : Nat} (hn : next ≤ 8) :
    (line.fill next sprites).1.toList =
      line.toList.take next ++ sprites.take (8 - next) ++
        line.toList.drop (next + sprites.length) := by
  induction sprites generalizing line next with
  | nil =>
    rw [fill, List.take_nil, List.append_nil, List.length_nil, Nat.add_zero,
      List.take_append_drop]
  | cons sprite rest ih =>
    rw [fill]
    split
    · rename_i hlt
      have hset : (line.set next sprite).toList =
          (line.toList.take next ++ [sprite]) ++ line.toList.drop (next + 1) := by
        rw [Vector.toList_set, List.set_eq_take_append_cons_drop,
          if_pos (by rw [Vector.length_toList]; exact hlt), List.append_assoc]
        rfl
      have hlength : (line.toList.take next ++ [sprite]).length = next + 1 := by
        rw [List.length_append, List.length_take, Vector.length_toList, List.length_singleton]
        omega
      have htake : (line.set next sprite).toList.take (next + 1) =
          line.toList.take next ++ [sprite] := by
        rw [hset, ← hlength, List.take_left]
      have hdrop (k : Nat) : (line.set next sprite).toList.drop (next + 1 + k) =
          line.toList.drop (next + 1 + k) := by
        rw [Vector.toList_set, List.drop_set_of_lt (by omega)]
      rw [ih _ (by omega), htake, hdrop, List.length_cons,
        show 8 - next = 8 - (next + 1) + 1 by omega, List.take_succ_cons, List.append_assoc, List.append_assoc, List.append_assoc,
        List.singleton_append, List.cons_append, Nat.add_assoc, Nat.add_comm 1]
    · have hlength : line.toList.length = 8 := Vector.length_toList
      obtain rfl : next = 8 := by omega
      rw [List.drop_eq_nil_of_le (by omega), List.append_nil, Nat.sub_self, List.take_zero,
        List.append_nil, List.take_of_length_le (by omega)]

theorem fill_overflow (line : SpriteLine) (sprites : List SpriteSlot) {next : Nat}
    (hn : next ≤ 8) : (line.fill next sprites).2 = decide (8 < next + sprites.length) := by
  induction sprites generalizing line next with
  | nil =>
    rw [fill, List.length_nil, decide_eq_false (by omega)]
  | cons sprite rest ih =>
    rw [fill, List.length_cons]
    split
    · rw [ih _ (by omega)]
      congr 1
      simp only [eq_iff_iff]
      omega
    · rw [decide_eq_true (by omega)]

/-- The slots after an evaluation: the sprites in range, and empty slots behind them. -/
theorem evaluate_toList (oam : ObjectMemory) (line : Int) (height : Nat) :
    (cleared.evaluate oam line height).1.toList =
      (inRange oam line height).take 8 ++
        List.replicate (8 - (inRange oam line height).length) .empty := by
  rw [evaluate, fill_toList _ _ (Nat.zero_le 8), List.take_zero, List.nil_append, Nat.sub_zero,
    Nat.zero_add, cleared, Vector.toList_replicate, List.drop_replicate]

/-- The sprites in range are entries, in their order. -/
theorem inRange_eq_map (oam : ObjectMemory) (scanline : Int) (height : Nat) :
    inRange oam scanline height = ((List.finRange 64).filter fun index =>
      ObjectMemory.covers scanline height (oam.read (UInt8.ofNat (4 * index.val)))).map
        oam.entry := by
  rw [inRange, ← List.filterMap_eq_map, List.filterMap_filter]
  rfl

theorem evaluate_overflow (line : SpriteLine) (oam : ObjectMemory) (scanline : Int)
    (height : Nat) :
    (line.evaluate oam scanline height).2 = true ↔ 8 < (inRange oam scanline height).length := by
  rw [evaluate, fill_overflow _ _ (Nat.zero_le 8), decide_eq_true_iff, Nat.zero_add]

end SpriteLine

namespace Ppu

variable {slot : Slot} {p q : Ppu} {start length : Nat} {line : Int}

theorem loaded_congr (h : q.setting = p.setting) : q.loaded slot = p.loaded slot := by
  have htall : q.tallSprites = p.tallSprites :=
    congrArg (fun s : Setting => decide (s.ctrl &&& 0x20 ≠ 0)) h
  have hhigh : q.spriteHighTable = p.spriteHighTable :=
    congrArg (fun s : Setting => decide (s.ctrl &&& 0x08 ≠ 0)) h
  funext line s
  unfold loaded
  rw [htall, hhigh, byteAt_congr h]

theorem spriteHeight_congr (h : q.setting = p.setting) : q.spriteHeight = p.spriteHeight :=
  congrArg (fun s : Setting => ({ p with ctrl := s.ctrl } : Ppu).spriteHeight) h

theorem oam_congr (h : q.setting = p.setting) : q.oam = p.oam := congrArg Setting.oam h

/-! ## From line to line -/

/-- The slots found on a line. -/
def foundOn (p : Ppu) (line : Int) : SpriteLine :=
  (SpriteLine.cleared.evaluate p.oam line p.spriteHeight).1

theorem found_cleared (h : slot.Readable) (hp : AtPreRender p)
    (hl : RunsAlong p start line length) {n : Nat} (h2 : 2 ≤ n) (h257 : n ≤ 257)
    (hn : n ≤ length) : (p.after slot (start + n)).foundSprites = .cleared := by
  induction n, h2 using Nat.le_induction with
  | base =>
    have hb := hl.bound
    obtain ⟨-, hdot⟩ := hl.at h hp (show 1 < length by omega)
    rw [show start + 2 = start + 1 + 1 from rfl, (dot_after h hp (by omega)).found, foundAfter,
      if_pos hdot]
  | succ n h2 ih =>
    have hb := hl.bound
    obtain ⟨-, hdot⟩ := hl.at h hp (show n < length by omega)
    rw [← Nat.add_assoc, (dot_after h hp (by omega)).found, foundAfter, if_neg (by omega),
      if_neg (by omega)]
    exact ih (by omega) (by omega)

theorem found_evaluated (h : slot.Readable) (hp : AtPreRender p) (hr : p.rendering)
    (hl : RunsAlong p start line length) {n : Nat} (h258 : 258 ≤ n) (hn : n ≤ length) :
    (p.after slot (start + n)).foundSprites = p.foundOn line := by
  have hb := hl.bound
  induction n, h258 using Nat.le_induction with
  | base =>
    obtain ⟨hline, hdot⟩ := hl.at h hp (show 257 < length by omega)
    have hset := (frame_after h hp (show start + 257 ≤ p.pictureEnd by omega)).1
    rw [show start + 258 = start + 257 + 1 from rfl, (dot_after h hp (by omega)).found, foundAfter,
      if_neg (by omega), if_pos ⟨hdot, by rw [rendering_congr hset]; exact hr⟩,
      found_cleared h hp hl (by omega) le_rfl (by omega), hline, oam_congr hset,
      spriteHeight_congr hset]
    rfl
  | succ n h258 ih =>
    obtain ⟨-, hdot⟩ := hl.at h hp (show n < length by omega)
    rw [← Nat.add_assoc, (dot_after h hp (by omega)).found, foundAfter, if_neg (by omega),
      if_neg (by omega)]
    exact ih (by omega)

theorem lineSprites_kept (h : slot.Readable) (hp : AtPreRender p)
    (hl : RunsAlong p start line length) {n : Nat} (h321 : n ≤ 321) (hn : n ≤ length) :
    (p.after slot (start + n)).lineSprites = (p.after slot start).lineSprites := by
  induction n with
  | zero => rw [Nat.add_zero]
  | succ n ih =>
    have hb := hl.bound
    obtain ⟨-, hdot⟩ := hl.at h hp (show n < length by omega)
    rw [← Nat.add_assoc, (dot_after h hp (by omega)).line (by omega), ih (by omega) (by omega)]

/-- The slots found on a line, with their patterns for the next. -/
def loadedOn (p : Ppu) (slot : Slot) (line : Int) : SpriteLine :=
  (p.foundOn line).map (p.loaded slot line)

theorem lineSprites_loaded (h : slot.Readable) (hp : AtPreRender p) (hr : p.rendering)
    (hl : RunsAlong p start line length) {n : Nat} (h322 : 322 ≤ n) (hn : n ≤ length) :
    (p.after slot (start + n)).lineSprites = p.loadedOn slot line := by
  have hb := hl.bound
  induction n, h322 using Nat.le_induction with
  | base =>
    obtain ⟨hline, hdot⟩ := hl.at h hp (show 321 < length by omega)
    have hset := (frame_after h hp (show start + 321 ≤ p.pictureEnd by omega)).1
    have hload := (dot_after h hp (show start + 321 < p.pictureEnd by omega)).load hdot
    rw [mapM_loadSprite h, found_evaluated h hp hr hl (by omega) (by omega), hline,
      loaded_congr hset] at hload
    exact (Except.ok.inj hload).symm
  | succ n h322 ih =>
    obtain ⟨-, hdot⟩ := hl.at h hp (show n < length by omega)
    rw [← Nat.add_assoc, (dot_after h hp (by omega)).line (by omega), ih (by omega)]

/-- **The slots that a line of the picture is drawn from were found on the line before.** -/
theorem lineSprites_after (h : slot.Readable) (hp : AtPreRender p) (hr : p.rendering) {y d : Nat}
    (hy : y < 240) (hd : d ≤ 321) :
    (p.after slot (p.lineStart y + d)).lineSprites = p.loadedOn slot (y - 1) := by
  rw [lineSprites_kept h hp (runsAlong_picture hy) hd (by omega)]
  cases y with
  | zero =>
    have hb := p.preRenderDots_bounds
    have hload := lineSprites_loaded h hp hr (runsAlong_preRender hp)
      (show 322 ≤ p.preRenderDots by omega) le_rfl
    rw [Nat.zero_add] at hload
    rw [lineStart, Nat.mul_zero, Nat.add_zero, hload]
    rfl
  | succ y =>
    rw [lineStart_succ, lineSprites_loaded h hp hr (runsAlong_picture (by omega)) (by omega) le_rfl,
      Int.natCast_succ, Int.add_sub_cancel]

/-! ## The two flags -/

theorem or_and_flag (status set flag : UInt8) :
    (status ||| set) &&& flag = (status &&& flag) ||| (set &&& flag) := by
  apply UInt8.toNat_inj.mp
  rw [UInt8.toNat_and, UInt8.toNat_or, UInt8.toNat_or, UInt8.toNat_and, UInt8.toNat_and,
    Nat.and_or_distrib_right]

/-- A dot on which the status flags fall. -/
def lowers (p : Ppu) : Prop := p.beam.dot = 1 ∧ p.beam.scanline = Beam.preRender

/-- A dot on which more than eight sprites are found. -/
def overflowsNow (p : Ppu) : Prop :=
  p.beam.dot = 257 ∧ p.rendering ∧
    8 < (SpriteLine.inRange p.oam p.beam.scanline p.spriteHeight).length

theorem PictureDot.hit (h : PictureDot slot p q) : q.status &&& spriteZeroHit ≠ 0 ↔
    (p.status &&& spriteZeroHit ≠ 0 ∧ ¬ p.lowers) ∨ p.hitsNow := by
  have hsprites : p.statusAfterSprites &&& spriteZeroHit ≠ 0 ↔
      p.status &&& spriteZeroHit ≠ 0 ∧ ¬ p.lowers := by
    unfold statusAfterSprites lowers
    split
    · rename_i hlow
      rw [UInt8.and_assoc]
      simp [hlow, show (0x1F : UInt8) &&& spriteZeroHit = 0 from rfl]
    · rename_i hlow
      split
      · simp [hlow, or_and_flag, show spriteOverflow &&& spriteZeroHit = 0 from rfl]
      · simp [hlow]
  rw [h.status]
  by_cases hhit : p.hitsNow
  · rw [if_pos hhit, or_and_flag]
    simp [hhit, show spriteZeroHit &&& spriteZeroHit = 0x40 from rfl]
  · rw [if_neg hhit, hsprites]
    simp [hhit]

theorem PictureDot.overflow (h : PictureDot slot p q) : q.status &&& spriteOverflow ≠ 0 ↔
    (p.status &&& spriteOverflow ≠ 0 ∧ ¬ p.lowers) ∨ p.overflowsNow := by
  have hsprites : q.status &&& spriteOverflow = p.statusAfterSprites &&& spriteOverflow := by
    rw [h.status]
    split
    · simp [or_and_flag, show spriteZeroHit &&& spriteOverflow = 0 from rfl]
    · rfl
  rw [hsprites, statusAfterSprites]
  unfold lowers overflowsNow
  rw [← SpriteLine.evaluate_overflow p.foundSprites]
  split
  · rename_i hlow
    have hover : ¬ p.beam.dot = 257 := by omega
    rw [UInt8.and_assoc]
    simp [hlow, show (0x1F : UInt8) &&& spriteOverflow = 0 from rfl]
  · rename_i hlow
    split
    · rename_i hover
      rw [or_and_flag]
      simp [hover, show spriteOverflow &&& spriteOverflow = 0x20 from rfl]
    · rename_i hover
      simp [hlow, hover]

/-- A flag that falls on one dot and rises on others, after some dots. -/
theorem flag_iff (flag rises : Nat → Prop) {bound : Nat}
    (hstep : ∀ n < bound, flag (n + 1) ↔ (flag n ∧ n ≠ 1) ∨ rises n) {n : Nat} (h2 : 2 ≤ n)
    (hn : n ≤ bound) : flag n ↔ ∃ k, 1 ≤ k ∧ k < n ∧ rises k := by
  induction n, h2 using Nat.le_induction with
  | base =>
    rw [hstep 1 (by omega)]
    constructor
    · rintro (⟨-, h⟩ | h)
      · exact absurd rfl h
      · exact ⟨1, le_rfl, by omega, h⟩
    · rintro ⟨k, h1, hk, h⟩
      obtain rfl : k = 1 := by omega
      exact .inr h
  | succ n h2 ih =>
    rw [hstep n (by omega), ih (by omega)]
    constructor
    · rintro (⟨⟨k, h1, hk, h⟩, -⟩ | h)
      · exact ⟨k, h1, by omega, h⟩
      · exact ⟨n, by omega, by omega, h⟩
    · rintro ⟨k, h1, hk, h⟩
      by_cases hlast : k = n
      · exact .inr (hlast ▸ h)
      · exact .inl ⟨⟨k, h1, by omega, h⟩, by omega⟩

theorem lowers_after (h : slot.Readable) (hp : AtPreRender p) {n : Nat} (hn : n < p.pictureEnd) :
    (p.after slot n).lowers ↔ n = 1 := by
  have hb := p.preRenderDots_bounds
  unfold lowers
  rw [(frame_after h hp (by omega)).2, beamAfter]
  split
  · simp only [hp.scanline, and_true]
  · simp only [Beam.preRender]
    omega

theorem hit_after (h : slot.Readable) (hp : AtPreRender p) :
    (p.after slot p.pictureEnd).status &&& spriteZeroHit ≠ 0 ↔
      ∃ k, 1 ≤ k ∧ k < p.pictureEnd ∧ (p.after slot k).hitsNow := by
  have hb := p.preRenderDots_bounds
  refine flag_iff (fun n => (p.after slot n).status &&& spriteZeroHit ≠ 0)
    (fun n => (p.after slot n).hitsNow) (fun n hn => ?_) (by unfold pictureEnd; omega) le_rfl
  rw [(dot_after h hp hn).hit, lowers_after h hp hn]

theorem overflow_after (h : slot.Readable) (hp : AtPreRender p) :
    (p.after slot p.pictureEnd).status &&& spriteOverflow ≠ 0 ↔
      ∃ k, 1 ≤ k ∧ k < p.pictureEnd ∧ (p.after slot k).overflowsNow := by
  have hb := p.preRenderDots_bounds
  refine flag_iff (fun n => (p.after slot n).status &&& spriteOverflow ≠ 0)
    (fun n => (p.after slot n).overflowsNow) (fun n hn => ?_) (by unfold pictureEnd; omega) le_rfl
  rw [(dot_after h hp hn).overflow, lowers_after h hp hn]

end Ppu

end NesMachine
