import Mathlib.Data.Nat.Bitwise
import NesMachine.Ppu.Dot

/-!
# The shift registers

The background pipeline holds two tiles in a pair of 16-bit registers, and their palettes in a pair
of 8-bit registers with a latch behind each. `TilePipeline.Shows` says that together they hold the
first columns of a row of columns:

* `Shows.shift` drops the column in front;
* `Shows.reload` appends the eight columns of the tile row that was fetched;
* `Shows.index` says which palette index the fine scroll taps.
-/

namespace NesMachine

/-! ## Bits of the shift registers -/

theorem testBit_shiftLeft_one (x : UInt16) {k : Nat} (hk : k < 16) :
    (x <<< 1).toNat.testBit k = (decide (1 ≤ k) && x.toNat.testBit (k - 1)) := by
  rw [UInt16.toNat_shiftLeft, show (1 : UInt16).toNat % 16 = 1 from rfl, Nat.testBit_mod_two_pow,
    Nat.testBit_shiftLeft]
  simp [hk]

theorem testBit_shiftLeft_or (x : UInt8) (b : Bool) {k : Nat} (hk : k < 8) :
    ((x <<< 1) ||| b.toUInt8).toNat.testBit k = if k = 0 then b else x.toNat.testBit (k - 1) := by
  rw [UInt8.toNat_or, UInt8.toNat_shiftLeft, show (1 : UInt8).toNat % 8 = 1 from rfl,
    Nat.testBit_or, Nat.testBit_mod_two_pow, Nat.testBit_shiftLeft]
  have hb : b.toUInt8.toNat = b.toNat := by cases b <;> rfl
  rw [hb]
  by_cases h : k = 0
  · subst h; cases b <;> rfl
  · have hhigh : b.toNat.testBit k = false := by
      rw [Nat.testBit_lt_two_pow]
      exact Nat.lt_of_le_of_lt b.toNat_le (Nat.one_lt_two_pow h)
    simp [h, hk, hhigh]
    omega

theorem shiftRight_and_one (x n : UInt16) (hn : n.toNat < 16) :
    ((x >>> n) &&& 1).toNat = (x.toNat.testBit n.toNat).toNat := by
  rw [UInt16.toNat_and, UInt16.toNat_shiftRight, Nat.mod_eq_of_lt hn,
    show (1 : UInt16).toNat = 1 from rfl, Nat.toNat_testBit, Nat.and_one_is_mod, Nat.shiftRight_eq_div_pow]

theorem shiftRight_and_one8 (x n : UInt8) (hn : n.toNat < 8) :
    ((x >>> n) &&& 1).toNat = (x.toNat.testBit n.toNat).toNat := by
  rw [UInt8.toNat_and, UInt8.toNat_shiftRight, Nat.mod_eq_of_lt hn,
    show (1 : UInt8).toNat = 1 from rfl, Nat.toNat_testBit, Nat.and_one_is_mod, Nat.shiftRight_eq_div_pow]

theorem toNat_colour (t : TilePipeline) {fineX : UInt8} (hf : fineX.toNat < 8) :
    (t.colour fineX).toNat = 2 * (t.shiftHigh.toNat.testBit (15 - fineX.toNat)).toNat +
      (t.shiftLow.toNat.testBit (15 - fineX.toNat)).toNat := by
  have hbit : (15 - fineX.toUInt16 : UInt16).toNat = 15 - fineX.toNat := by
    rw [UInt16.toNat_sub_of_le]
    · rfl
    · rw [UInt16.le_iff_toNat_le]; simp; omega
  have hlow := shiftRight_and_one t.shiftLow (15 - fineX.toUInt16) (by omega)
  have hhigh := shiftRight_and_one t.shiftHigh (15 - fineX.toUInt16) (by omega)
  rw [hbit] at hlow hhigh
  have h1 := Bool.toNat_le (t.shiftHigh.toNat.testBit (15 - fineX.toNat))
  have h2 := Bool.toNat_le (t.shiftLow.toNat.testBit (15 - fineX.toNat))
  unfold TilePipeline.colour
  simp only
  rw [UInt16.toNat_toUInt8, UInt16.toNat_add, UInt16.toNat_mul, hlow, hhigh,
    show (2 : UInt16).toNat = 2 from rfl]
  omega

theorem toNat_palette (t : TilePipeline) {fineX : UInt8} (hf : fineX.toNat < 8) :
    (t.palette fineX).toNat = 2 * (t.attrShiftHigh.toNat.testBit (7 - fineX.toNat)).toNat +
      (t.attrShiftLow.toNat.testBit (7 - fineX.toNat)).toNat := by
  have hbit : (7 - fineX : UInt8).toNat = 7 - fineX.toNat := by
    rw [UInt8.toNat_sub_of_le]
    · rfl
    · rw [UInt8.le_iff_toNat_le]; simp; omega
  have hlow := shiftRight_and_one8 t.attrShiftLow (7 - fineX) (by omega)
  have hhigh := shiftRight_and_one8 t.attrShiftHigh (7 - fineX) (by omega)
  rw [hbit] at hlow hhigh
  have h1 := Bool.toNat_le (t.attrShiftHigh.toNat.testBit (7 - fineX.toNat))
  have h2 := Bool.toNat_le (t.attrShiftLow.toNat.testBit (7 - fineX.toNat))
  unfold TilePipeline.palette
  simp only
  rw [UInt8.toNat_add, UInt8.toNat_mul, hlow, hhigh, show (2 : UInt8).toNat = 2 from rfl]
  omega

/-! ## Columns -/

/-- A column of a tile row: a bit of each plane, and the palette. -/
structure Column where
  low : Bool
  high : Bool
  attrLow : Bool
  attrHigh : Bool
  deriving DecidableEq

/-- The palette index of a column: 0 where it is transparent. -/
def Column.index (c : Column) : Nat :=
  let colour := 2 * c.high.toNat + c.low.toNat
  if colour = 0 then 0 else colour + 4 * (2 * c.attrHigh.toNat + c.attrLow.toNat)

/-- A row of a tile: its two planes, and its palette in the low bits of `attr`. -/
structure TileRow where
  low : UInt8
  high : UInt8
  attr : UInt8

/-- A column of a tile row, counted from the left. -/
def TileRow.column (r : TileRow) (n : Nat) : Column :=
  { low := r.low.toNat.testBit (7 - n)
    high := r.high.toNat.testBit (7 - n)
    attrLow := r.attr.toNat.testBit 0
    attrHigh := r.attr.toNat.testBit 1 }

namespace TilePipeline

/-- The tile row that was fetched. -/
def fetched (t : TilePipeline) : TileRow := ⟨t.patternLow, t.patternHigh, t.attr⟩

/-- The shift registers hold the first `count` of a row of columns. -/
structure Shows (columns : Nat → Column) (count : Nat) (t : TilePipeline) : Prop where
  low : ∀ n < count, t.shiftLow.toNat.testBit (15 - n) = (columns n).low
  high : ∀ n < count, t.shiftHigh.toNat.testBit (15 - n) = (columns n).high
  attrLow : ∀ n < count, n < 8 → t.attrShiftLow.toNat.testBit (7 - n) = (columns n).attrLow
  attrHigh : ∀ n < count, n < 8 → t.attrShiftHigh.toNat.testBit (7 - n) = (columns n).attrHigh
  latchLow : ∀ n < count, 8 ≤ n → t.attrLatchLow = (columns n).attrLow
  latchHigh : ∀ n < count, 8 ≤ n → t.attrLatchHigh = (columns n).attrHigh

variable {t : TilePipeline} {columns : Nat → Column} {count : Nat}

/-- Whatever the shift registers hold is a row of columns. -/
theorem exists_shows (t : TilePipeline) : ∃ columns, Shows columns 16 t := by
  refine ⟨fun n =>
    { low := t.shiftLow.toNat.testBit (15 - n)
      high := t.shiftHigh.toNat.testBit (15 - n)
      attrLow := if n < 8 then t.attrShiftLow.toNat.testBit (7 - n) else t.attrLatchLow
      attrHigh := if n < 8 then t.attrShiftHigh.toNat.testBit (7 - n) else t.attrLatchHigh },
    fun _ _ => rfl, fun _ _ => rfl, ?_, ?_, ?_, ?_⟩
  · intro n _ hn; simp only [hn, if_true]
  · intro n _ hn; simp only [hn, if_true]
  · intro n _ hn; simp only [Nat.not_lt.mpr hn, if_false]
  · intro n _ hn; simp only [Nat.not_lt.mpr hn, if_false]

theorem Shows.congr {columns' : Nat → Column} (h : Shows columns count t)
    (heq : ∀ n < count, columns n = columns' n) : Shows columns' count t := by
  refine ⟨?_, ?_, ?_, ?_, ?_, ?_⟩
  · intro n hn; rw [← heq n hn]; exact h.low n hn
  · intro n hn; rw [← heq n hn]; exact h.high n hn
  · intro n hn h8; rw [← heq n hn]; exact h.attrLow n hn h8
  · intro n hn h8; rw [← heq n hn]; exact h.attrHigh n hn h8
  · intro n hn h8; rw [← heq n hn]; exact h.latchLow n hn h8
  · intro n hn h8; rw [← heq n hn]; exact h.latchHigh n hn h8

theorem Shows.take (h : Shows columns count t) {fewer : Nat} (hf : fewer ≤ count) :
    Shows columns fewer t :=
  ⟨fun n hn => h.low n (by omega), fun n hn => h.high n (by omega),
    fun n hn => h.attrLow n (by omega), fun n hn => h.attrHigh n (by omega),
    fun n hn => h.latchLow n (by omega), fun n hn => h.latchHigh n (by omega)⟩

/-- Shifting drops the first column. -/
theorem Shows.shift (h : Shows columns (count + 1) t) (hc : count < 16) :
    Shows (fun n => columns (n + 1)) count t.shift := by
  refine ⟨?_, ?_, ?_, ?_, fun n hn h8 => h.latchLow (n + 1) (by omega) (by omega),
    fun n hn h8 => h.latchHigh (n + 1) (by omega) (by omega)⟩
  · intro n hn
    rw [← h.low (n + 1) (by omega), TilePipeline.shift, testBit_shiftLeft_one _ (by omega),
      decide_eq_true (by omega), Bool.true_and]
    congr 1
  · intro n hn
    rw [← h.high (n + 1) (by omega), TilePipeline.shift, testBit_shiftLeft_one _ (by omega),
      decide_eq_true (by omega), Bool.true_and]
    congr 1
  · intro n hn h8
    rw [TilePipeline.shift, testBit_shiftLeft_or _ _ (by omega)]
    split
    · exact h.latchLow (n + 1) (by omega) (by omega)
    · rw [← h.attrLow (n + 1) (by omega) (by omega)]
      congr 1
  · intro n hn h8
    rw [TilePipeline.shift, testBit_shiftLeft_or _ _ (by omega)]
    split
    · exact h.latchHigh (n + 1) (by omega) (by omega)
    · rw [← h.attrHigh (n + 1) (by omega) (by omega)]
      congr 1

theorem testBit_reload (x : UInt16) (row : UInt8) {k : Nat} (hk : k < 16) :
    ((x &&& 0xFF00) ||| row.toUInt16).toNat.testBit k =
      if k < 8 then row.toNat.testBit k else x.toNat.testBit k := by
  have hmask : ∀ k < 16, (0xFF00 : Nat).testBit k = decide (8 ≤ k) := by decide
  rw [UInt16.toNat_or, UInt16.toNat_and, Nat.testBit_or, Nat.testBit_and,
    show (0xFF00 : UInt16).toNat = 0xFF00 from rfl, hmask k hk, UInt8.toNat_toUInt16]
  split
  · rw [decide_eq_false (by omega), Bool.and_false, Bool.false_or]
  · have hrow : row.toNat.testBit k = false :=
      Nat.testBit_lt_two_pow (Nat.lt_of_lt_of_le row.toNat_lt (Nat.pow_le_pow_right (by omega)
        (show 8 ≤ k by omega)))
    rw [decide_eq_true (by omega), Bool.and_true, hrow, Bool.or_false]

theorem and_bit_ne_zero (x c : UInt8) (k : Nat) (hc : c.toNat = 2 ^ k) :
    decide (x &&& c ≠ 0) = x.toNat.testBit k := by
  have hand : (x &&& c).toNat = 2 ^ k * (x.toNat.testBit k).toNat := by
    rw [UInt8.toNat_and, hc, Nat.and_two_pow, Nat.mul_comm]
  rw [Bool.eq_iff_iff, decide_eq_true_iff, ne_eq, ← UInt8.toNat_inj, hand]
  cases x.toNat.testBit k
  · simp
  · simp

/-- Reloading puts the fetched row behind the eight columns that are left. -/
theorem Shows.reload (h : Shows columns 8 t) :
    Shows (fun n => if n < 8 then columns n else t.fetched.column (n - 8)) 16 t.reload := by
  refine ⟨?_, ?_, ?_, ?_, ?_, ?_⟩
  · intro n hn
    rw [TilePipeline.reload, testBit_reload _ _ (by omega)]
    by_cases h8 : n < 8
    · rw [if_neg (by omega), if_pos h8, h.low n h8]
    · rw [if_pos (by omega), if_neg h8]
      show _ = t.patternLow.toNat.testBit (7 - (n - 8))
      congr 1; omega
  · intro n hn
    rw [TilePipeline.reload, testBit_reload _ _ (by omega)]
    by_cases h8 : n < 8
    · rw [if_neg (by omega), if_pos h8, h.high n h8]
    · rw [if_pos (by omega), if_neg h8]
      show _ = t.patternHigh.toNat.testBit (7 - (n - 8))
      congr 1; omega
  · intro n _ h8
    rw [if_pos h8]
    exact h.attrLow n h8 h8
  · intro n _ h8
    rw [if_pos h8]
    exact h.attrHigh n h8 h8
  · intro n _ h8
    rw [if_neg (by omega)]
    exact and_bit_ne_zero _ _ 0 rfl
  · intro n _ h8
    rw [if_neg (by omega)]
    exact and_bit_ne_zero _ _ 1 rfl

/-- The colour and the palette in front are those of the column `fineX` in. -/
theorem Shows.index (h : Shows columns count t) {fineX : UInt8} (hf : fineX.toNat < 8)
    (hc : 8 ≤ count) :
    (if t.colour fineX = 0 then 0 else t.colour fineX + 4 * t.palette fineX).toNat =
      (columns fineX.toNat).index := by
  have hcolour := toNat_colour t hf
  have hpalette := toNat_palette t hf
  rw [h.low _ (by omega), h.high _ (by omega)] at hcolour
  rw [h.attrLow _ (by omega) hf, h.attrHigh _ (by omega) hf] at hpalette
  have h1 := Bool.toNat_le (columns fineX.toNat).high
  have h2 := Bool.toNat_le (columns fineX.toNat).low
  have h3 := Bool.toNat_le (columns fineX.toNat).attrHigh
  have h4 := Bool.toNat_le (columns fineX.toNat).attrLow
  unfold Column.index
  simp only [← UInt8.toNat_inj, hcolour, UInt8.reduceToNat]
  split
  · rfl
  · rw [UInt8.toNat_add, UInt8.toNat_mul, hcolour, hpalette, show (4 : UInt8).toNat = 4 from rfl]
    omega

end TilePipeline

end NesMachine
