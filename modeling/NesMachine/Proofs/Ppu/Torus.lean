import NesMachine.Ppu.Dot
import NesMachine.Proofs.Ppu.Scroll

/-!
# The torus

The picture unit moves its scroll counter by one column or one row at a time. `incrementColumn` and
`incrementRow` are these moves with the rest of the picture unit around them; `fetchStep_column` and
`backgroundStep_row` find them in the dots of a line.

* `Place.nextRow_iterate_attributes`: among the attribute bytes, a walk down goes on to their end.
* `Place.nextRow_iterate_leaves`: behind their end it starts over at the top of the nametable.
* **`walk_exact`**: any number of moves is addition on the torus of 64 columns and 480 rows.
-/

namespace NesMachine

namespace Scroll

namespace Place

variable {p q : Place}

/-! ## Rows of attribute bytes -/

/-- The rows from a place to the end of the 32 rows of tiles that a counter can name. -/
def rowsLeft (p : Place) : Nat := 256 - (8 * p.coarseY + p.fineY)

theorem nextRow_iterate_attributes (h : p.Valid) (hc : 30 ≤ p.coarseY) {n : Nat}
    (hn : n < p.rowsLeft) : Place.nextRow^[n] p =
      { p with fineY := (p.fineY + n) % 8, coarseY := p.coarseY + (p.fineY + n) / 8 } := by
  have hf := h.fineY
  unfold rowsLeft at hn
  induction n with
  | zero =>
    rw [Nat.add_zero, Nat.mod_eq_of_lt hf, Nat.div_eq_of_lt hf]
    rfl
  | succ n ih =>
    rw [Function.iterate_succ_apply', ih (by omega), Place.nextRow]
    simp only
    by_cases hlast : (p.fineY + n) % 8 = 7
    · -- The next row of tiles, which is not past the end yet.
      rw [if_neg (not_not.mpr hlast), if_neg (by omega), if_neg (by omega)]
      simp only [Place.mk.injEq, true_and, and_true]
      omega
    · rw [if_pos hlast]
      simp only [Place.mk.injEq, true_and, and_true]
      omega

/-- **Behind the last row of tiles the same nametable starts over.** -/
theorem nextRow_iterate_rowsLeft (h : p.Valid) (hc : 30 ≤ p.coarseY) :
    Place.nextRow^[p.rowsLeft] p = { p with fineY := 0, coarseY := 0 } := by
  have hf := h.fineY
  have hcoarse := h.coarseY
  have hleft : p.rowsLeft = p.rowsLeft - 1 + 1 := by unfold rowsLeft; omega
  rw [hleft, Function.iterate_succ_apply',
    nextRow_iterate_attributes h hc (show p.rowsLeft - 1 < p.rowsLeft by omega), Place.nextRow]
  unfold rowsLeft
  simp only
  rw [if_neg (by omega), if_neg (by omega), if_pos (by omega)]

theorem nextRow_iterate_leaves (h : p.Valid) (hc : 30 ≤ p.coarseY) {n : Nat}
    (hn : p.rowsLeft ≤ n) : (Place.nextRow^[n] p).coarseY ≤ 29 ∧
      (Place.nextRow^[n] p).line = (240 * p.tableY + (n - p.rowsLeft)) % 480 := by
  have htop : ({ p with fineY := 0, coarseY := 0 } : Place).Valid :=
    ⟨Nat.zero_lt_succ 7, h.tableY, h.tableX, Nat.zero_lt_succ 31, h.coarseX⟩
  obtain ⟨-, hcoarse, hline, -⟩ := nextRow_iterate htop (Nat.zero_le 29) (n - p.rowsLeft)
  rw [← nextRow_iterate_rowsLeft h hc, ← Function.iterate_add_apply, Nat.sub_add_cancel hn]
    at hcoarse hline
  refine ⟨hcoarse, hline.trans ?_⟩
  rw [nextRow_iterate_rowsLeft h hc]
  rfl

/-! ## What a walk leaves alone -/

theorem withColumn_nextRow (p q : Place) : q.withColumn p.nextRow = q.withColumn p := by
  unfold nextRow withColumn
  split_ifs <;> rfl

theorem withColumn_nextRow_iterate (p q : Place) (n : Nat) :
    q.withColumn (Place.nextRow^[n] p) = q.withColumn p := by
  induction n with
  | zero => rfl
  | succ n ih => rw [Function.iterate_succ_apply', withColumn_nextRow, ih]

end Place

/-- The place of the counter 0. -/
def Place.origin : Place := ⟨0, 0, 0, 0, 0⟩

theorem place_and_rest (v : UInt16) : place (v &&& 0xFBE0) = (place v).withColumn .origin := by
  simp only [place, Place.withColumn, Place.origin, Place.mk.injEq]
  exact ⟨bits_and_keep rfl, bits_and_keep rfl, bits_and_drop rfl, bits_and_keep rfl,
    bits_and_drop rfl⟩

theorem place_and_column (v : UInt16) : place (v &&& 0x841F) = Place.origin.withColumn (place v) := by
  simp only [place, Place.withColumn, Place.origin, Place.mk.injEq]
  exact ⟨bits_and_drop rfl, bits_and_drop rfl, bits_and_keep rfl, bits_and_drop rfl,
    bits_and_keep rfl⟩

theorem nextColumn_iterate_and {v : UInt16} (hv : v < 0x8000) (n : Nat) :
    nextColumn^[n] v &&& 0xFBE0 = v &&& 0xFBE0 := by
  apply eq_of_place_eq (and_lt_left _ (nextColumn_iterate_lt hv n)) (and_lt_left _ hv)
  rw [place_and_rest, place_and_rest, withColumn_nextColumn_iterate]

theorem nextRow_iterate_and {v : UInt16} (hv : v < 0x8000) (n : Nat) :
    nextRow^[n] v &&& 0x841F = v &&& 0x841F := by
  apply eq_of_place_eq (and_lt_left _ (nextRow_iterate_lt hv n)) (and_lt_left _ hv)
  rw [place_and_column, place_and_column, place_nextRow_iterate hv,
    Place.withColumn_nextRow_iterate]

end Scroll

namespace Ppu

variable {p : Ppu} {slot : Slot} {dot : Nat}

/-! ## The moves of the picture unit -/

/-- Where the counter in use stands. -/
def place (p : Ppu) : Scroll.Place := Scroll.place p.scroll.v

/-- The counter in use is moved, if rendering is on. -/
def moveCounter (move : UInt16 → UInt16) (p : Ppu) : Ppu :=
  if p.rendering then { p with scroll := { p.scroll with v := move p.scroll.v } } else p

/-- One tile to the right. -/
def incrementColumn (p : Ppu) : Ppu := p.moveCounter Scroll.nextColumn

/-- One row down. -/
def incrementRow (p : Ppu) : Ppu := p.moveCounter Scroll.nextRow

/-- Every eighth dot moves on to the next column. -/
theorem fetchStep_column (h : dot % 8 = 0) :
    p.fetchStep slot dot = (p.fetchPatternHigh slot).map incrementColumn := by
  unfold fetchStep
  simp only [h]
  cases p.fetchPatternHigh slot <;> rfl

/-- The last fetch for a row of the picture moves on to the next row. -/
theorem backgroundStep_row (h : p.beam.dot = 256) :
    p.backgroundStep slot = (p.outputDot.fetchPatternHigh slot).map incrementRow := by
  unfold backgroundStep
  simp only [h]
  cases p.outputDot.fetchPatternHigh slot <;> rfl

theorem moveCounter_iterate {move : UInt16 → UInt16} (h : p.rendering = true) (n : Nat) :
    (moveCounter move)^[n] p =
      { p with scroll := { p.scroll with v := move^[n] p.scroll.v } } := by
  induction n with
  | zero => rfl
  | succ n ih =>
    have hstill : ({ p with scroll.v := move^[n] p.scroll.v } : Ppu).rendering = true := h
    rw [Function.iterate_succ_apply', ih, moveCounter, if_pos hstill, Function.iterate_succ_apply']

/-- **Scroll counters walk a torus.** With rendering on, `n` moves to the right add `n` to the column
modulo 64, and `n` moves down add `n` to the row modulo 480 from any place above the attribute bytes.
From a place among these the walk down first goes on to the end of the last row of tiles, and then
starts over at the top of the same nametable. Nothing else changes, and the counter keeps to fifteen
bits. These are the moves that the dots of a line make. -/
theorem walk_exact (hrendering : p.rendering = true) (hv : p.scroll.v ≤ 0x7FFF) (n : Nat) :
    (∃ v ≤ 0x7FFF, incrementColumn^[n] p = { p with scroll := { p.scroll with v } } ∧
      v &&& 0xFBE0 = p.scroll.v &&& 0xFBE0 ∧
      (Scroll.place v).column = (p.place.column + n) % 64) ∧
    (∃ v ≤ 0x7FFF, incrementRow^[n] p = { p with scroll := { p.scroll with v } } ∧
      v &&& 0x841F = p.scroll.v &&& 0x841F ∧
      (p.place.coarseY ≤ 29 → (Scroll.place v).coarseY ≤ 29 ∧
        (Scroll.place v).line = (p.place.line + n) % 480) ∧
      (30 ≤ p.place.coarseY →
        (n < p.place.rowsLeft → Scroll.place v = { p.place with
          fineY := (p.place.fineY + n) % 8
          coarseY := p.place.coarseY + (p.place.fineY + n) / 8 }) ∧
        (n = p.place.rowsLeft → Scroll.place v = { p.place with fineY := 0, coarseY := 0 }) ∧
        (p.place.rowsLeft ≤ n → (Scroll.place v).coarseY ≤ 29 ∧
          (Scroll.place v).line = (240 * p.place.tableY + (n - p.place.rowsLeft)) % 480))) ∧
    (∀ slot dot, dot % 8 = 0 →
      p.fetchStep slot dot = (p.fetchPatternHigh slot).map incrementColumn) ∧
    ∀ slot, p.beam.dot = 256 →
      p.backgroundStep slot = (p.outputDot.fetchPatternHigh slot).map incrementRow := by
  have hlt := Scroll.lt_iff_le.mpr hv
  have hvalid : p.place.Valid := Scroll.place_valid p.scroll.v
  refine ⟨⟨Scroll.nextColumn^[n] p.scroll.v, ?_, ?_, ?_, ?_⟩,
    ⟨Scroll.nextRow^[n] p.scroll.v, ?_, ?_, ?_, ?_⟩, fun slot dot => fetchStep_column,
    fun slot => backgroundStep_row⟩
  · exact Scroll.lt_iff_le.mp (Scroll.nextColumn_iterate_lt hlt n)
  · exact moveCounter_iterate hrendering n
  · exact Scroll.nextColumn_iterate_and hlt n
  · rw [Scroll.place_nextColumn_iterate]
    exact (Scroll.Place.nextColumn_iterate hvalid n).2.1
  · exact Scroll.lt_iff_le.mp (Scroll.nextRow_iterate_lt hlt n)
  · exact moveCounter_iterate hrendering n
  · exact Scroll.nextRow_iterate_and hlt n
  · rw [Scroll.place_nextRow_iterate hlt]
    refine ⟨fun hcoarse => ?_, fun hcoarse => ⟨fun hn => ?_, fun hn => ?_, fun hn => ?_⟩⟩
    · obtain ⟨-, hstays, hline, -⟩ := Scroll.Place.nextRow_iterate hvalid hcoarse n
      exact ⟨hstays, hline⟩
    · exact Scroll.Place.nextRow_iterate_attributes hvalid hcoarse hn
    · rw [hn]
      exact Scroll.Place.nextRow_iterate_rowsLeft hvalid hcoarse
    · exact Scroll.Place.nextRow_iterate_leaves hvalid hcoarse hn

/-- A picture unit that shows the background, with its counter at a place. -/
def scrolledTo (v : UInt16) : Ppu := { mask := 0x08, scroll := { v } }

/-- Three moves from the last column, from the last row of the torus, and from the last row of the
attribute bytes. -/
theorem walk_exact_corner :
    ((scrolledTo 0x7FBF).rendering = true ∧ (0x7FBF : UInt16) ≤ 0x7FFF ∧
      (scrolledTo 0x7FBF).place = ⟨7, 1, 1, 29, 31⟩ ∧
      (∃ v, incrementColumn^[3] (scrolledTo 0x7FBF) = scrolledTo v ∧
        (Scroll.place v).column = 2) ∧
      ∃ v, incrementRow^[3] (scrolledTo 0x7FBF) = scrolledTo v ∧ (Scroll.place v).line = 2) ∧
    (scrolledTo 0x73E0).place = ⟨7, 0, 0, 31, 0⟩ ∧
    ∃ v, incrementRow^[3] (scrolledTo 0x73E0) = scrolledTo v ∧ (Scroll.place v).line = 2 := by
  have hcorner : (scrolledTo 0x7FBF).place = ⟨7, 1, 1, 29, 31⟩ := by decide
  have hattributes : (scrolledTo 0x73E0).place = ⟨7, 0, 0, 31, 0⟩ := by decide
  have hrendering (v : UInt16) : (scrolledTo v).rendering = true :=
    decide_eq_true (show (0x08 : UInt8) &&& 0x18 ≠ 0 by decide)
  have hv : (0x7FBF : UInt16) ≤ 0x7FFF := by decide
  obtain ⟨⟨v, -, hright, -, hcolumn⟩, ⟨w, -, hdown, -, hline, -⟩, -⟩ :=
    walk_exact (hrendering 0x7FBF) hv 3
  obtain ⟨-, ⟨u, -, hout, -, -, hleft⟩, -⟩ :=
    walk_exact (hrendering 0x73E0) (show (0x73E0 : UInt16) ≤ 0x7FFF by decide) 3
  rw [hcorner] at hcolumn hline
  rw [hattributes] at hleft
  exact ⟨⟨hrendering _, hv, hcorner, ⟨v, hright, hcolumn⟩, w, hdown, (hline (by decide)).2⟩, hattributes, u,
    hout, ((hleft (by decide)).2.2 (by decide)).2⟩

end Ppu

end NesMachine
