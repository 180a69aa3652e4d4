import Mathlib.Algebra.Group.Nat.Defs
import Mathlib.Logic.Function.Iterate
import Mathlib.Tactic.SplitIfs
import NesMachine.Ppu.Scroll

/-!
# Walking the nametables

A scroll counter packs five numbers. `Place` unpacks them, and each operation on counters becomes an
operation on places (`place_nextColumn`, `place_nextRow`, `place_copyHorizontal`,
`place_copyVertical`).

The four nametables are a torus of 64 columns and 480 rows. `Place.nextColumn_iterate` and
`Place.nextRow_iterate` say that walking right and down is addition modulo its sides, the latter for
places above the attribute bytes.
-/

namespace NesMachine

namespace Scroll

/-! ## Groups of bits -/

/-- A group of bits of a counter. -/
def bits (low width : Nat) (v : UInt16) : Nat := v.toNat / 2 ^ low % 2 ^ width

section Bits
variable (low width : Nat) (v w : UInt16)

theorem bits_lt : bits low width v < 2 ^ width := Nat.mod_lt _ (Nat.two_pow_pos width)

theorem bits_and : bits low width (v &&& w) = bits low width v &&& bits low width w := by
  rw [bits, UInt16.toNat_and, Nat.and_div_two_pow, Nat.and_mod_two_pow]; rfl

theorem bits_or : bits low width (v ||| w) = bits low width v ||| bits low width w := by
  rw [bits, UInt16.toNat_or, Nat.or_div_two_pow, Nat.or_mod_two_pow]; rfl

theorem bits_xor : bits low width (v ^^^ w) = bits low width v ^^^ bits low width w := by
  rw [bits, UInt16.toNat_xor, Nat.xor_div_two_pow, Nat.xor_mod_two_pow]; rfl

variable {low width v w}

theorem bits_and_keep (h : bits low width w = 2 ^ width - 1) :
    bits low width (v &&& w) = bits low width v := by
  rw [bits_and, h, Nat.and_two_pow_sub_one_of_lt_two_pow (bits_lt ..)]

theorem bits_and_drop (h : bits low width w = 0) : bits low width (v &&& w) = 0 := by
  rw [bits_and, h, Nat.and_zero]

end Bits

/-! ## Places -/

/-- A scroll counter read as a place in the nametables. -/
structure Place where
  fineY : Nat
  tableY : Nat
  tableX : Nat
  coarseY : Nat
  coarseX : Nat
  deriving DecidableEq

def place (v : UInt16) : Place := ⟨bits 12 3 v, bits 11 1 v, bits 10 1 v, bits 5 5 v, bits 0 5 v⟩

theorem eq_of_place_eq {v w : UInt16} (hv : v < 0x8000) (hw : w < 0x8000) (h : place v = place w) :
    v = w := by
  simp only [place, bits, Place.mk.injEq] at h
  rw [UInt16.lt_iff_toNat_lt] at hv hw
  apply UInt16.toNat_inj.mp
  simp at hv hw
  omega

theorem place_copyHorizontal (s : Scroll) : place s.copyHorizontal.v =
    { place s.v with tableX := (place s.t).tableX, coarseX := (place s.t).coarseX } := by
  simp only [copyHorizontal, place, bits_or, Place.mk.injEq]
  refine ⟨?_, ?_, ?_, ?_, ?_⟩
  · rw [bits_and_keep rfl, bits_and_drop rfl, Nat.or_zero]
  · rw [bits_and_keep rfl, bits_and_drop rfl, Nat.or_zero]
  · rw [bits_and_drop rfl, bits_and_keep rfl, Nat.zero_or]
  · rw [bits_and_keep rfl, bits_and_drop rfl, Nat.or_zero]
  · rw [bits_and_drop rfl, bits_and_keep rfl, Nat.zero_or]

theorem place_copyVertical (s : Scroll) : place s.copyVertical.v =
    { place s.t with tableX := (place s.v).tableX, coarseX := (place s.v).coarseX } := by
  simp only [copyVertical, place, bits_or, Place.mk.injEq]
  refine ⟨?_, ?_, ?_, ?_, ?_⟩
  · rw [bits_and_drop rfl, bits_and_keep rfl, Nat.zero_or]
  · rw [bits_and_drop rfl, bits_and_keep rfl, Nat.zero_or]
  · rw [bits_and_keep rfl, bits_and_drop rfl, Nat.or_zero]
  · rw [bits_and_drop rfl, bits_and_keep rfl, Nat.zero_or]
  · rw [bits_and_keep rfl, bits_and_drop rfl, Nat.or_zero]

/-- Toggling a one-bit group. -/
theorem bits_flip {low : Nat} {v w : UInt16} (hw : bits low 1 w = 1) :
    bits low 1 (v ^^^ w) = 1 - bits low 1 v := by
  have h := bits_lt low 1 v
  rw [bits_xor, hw]
  obtain h | h : bits low 1 v = 0 ∨ bits low 1 v = 1 := by omega
  · rw [h]; rfl
  · rw [h]; rfl

theorem bits_xor_keep {low width : Nat} {v w : UInt16} (hw : bits low width w = 0) :
    bits low width (v ^^^ w) = bits low width v := by
  rw [bits_xor, hw, Nat.xor_zero]

/-- One tile to the right. -/
def Place.nextColumn (p : Place) : Place :=
  if p.coarseX = 31 then { p with tableX := 1 - p.tableX, coarseX := 0 }
  else { p with coarseX := p.coarseX + 1 }

/-- One row down. -/
def Place.nextRow (p : Place) : Place :=
  if p.fineY ≠ 7 then { p with fineY := p.fineY + 1 }
  else if p.coarseY = 29 then { p with fineY := 0, coarseY := 0, tableY := 1 - p.tableY }
  else if p.coarseY = 31 then { p with fineY := 0, coarseY := 0 }
  else { p with fineY := 0, coarseY := p.coarseY + 1 }

/-- A mask that covers one group cuts it out. -/
theorem toNat_and_group (low width : Nat) {v c : UInt16}
    (hc : c.toNat = (2 ^ width - 1) * 2 ^ low) :
    (v &&& c).toNat = bits low width v * 2 ^ low := by
  have hdiv : (v &&& c).toNat / 2 ^ low = bits low width v := by
    rw [UInt16.toNat_and, Nat.and_div_two_pow, hc, Nat.mul_div_cancel _ (Nat.two_pow_pos low),
      Nat.and_two_pow_sub_one_eq_mod]
    rfl
  have hmod : (v &&& c).toNat % 2 ^ low = 0 := by
    rw [UInt16.toNat_and, Nat.and_mod_two_pow, hc, Nat.mul_mod_left, Nat.and_zero]
  rw [← hdiv, Nat.div_mul_cancel (Nat.dvd_of_mod_eq_zero hmod)]

theorem and_group_eq_iff (low width : Nat) {v c : UInt16}
    (hc : c.toNat = (2 ^ width - 1) * 2 ^ low) :
    v &&& c = c ↔ bits low width v = 2 ^ width - 1 := by
  rw [← UInt16.toNat_inj, toNat_and_group low width hc, hc]
  exact Nat.mul_left_inj (Nat.ne_of_gt (Nat.two_pow_pos low))

theorem place_nextColumn (v : UInt16) : place (nextColumn v) = (place v).nextColumn := by
  have hc : v &&& 0x001F = 31 ↔ (place v).coarseX = 31 := and_group_eq_iff 0 5 rfl
  unfold nextColumn Place.nextColumn
  by_cases h : (place v).coarseX = 31
  · rw [if_pos (hc.mpr h), if_pos h]
    simp only [place, Place.mk.injEq] at h ⊢
    refine ⟨bits_xor_keep rfl, bits_xor_keep rfl, bits_flip rfl, bits_xor_keep rfl, ?_⟩
    rw [bits_xor, h]; rfl
  · rw [if_neg (mt hc.mp h), if_neg h]
    have hv := v.toNat_lt
    simp only [place, bits, UInt16.toNat_add, UInt16.reduceToNat, Place.mk.injEq] at h ⊢
    refine ⟨?_, ?_, ?_, ?_, ?_⟩ <;> omega

/-- A counter with its fine and coarse rows cleared. -/
theorem place_and_rows (v : UInt16) :
    place (v &&& 0x8C1F) = { place v with fineY := 0, coarseY := 0 } := by
  simp only [place, Place.mk.injEq]
  exact ⟨bits_and_drop rfl, bits_and_keep rfl, bits_and_keep rfl, bits_and_drop rfl,
    bits_and_keep rfl⟩

theorem toNat_shift_five {c : UInt16} (hc : c.toNat ≤ 32) : (c <<< 5).toNat = c.toNat * 32 := by
  rw [UInt16.toNat_shiftLeft, show (5 : UInt16).toNat % 16 = 5 from rfl, Nat.shiftLeft_eq]
  omega

theorem place_or_coarse {v c : UInt16} (hv : (place v).coarseY = 0) (hc : c.toNat < 32) :
    place (v ||| c <<< 5) = { place v with coarseY := c.toNat } := by
  have hbits (low width : Nat) : bits low width (c <<< 5) = c.toNat * 32 / 2 ^ low % 2 ^ width := by
    rw [bits, toNat_shift_five (by omega)]
  simp only [place, Place.mk.injEq] at hv ⊢
  refine ⟨?_, ?_, ?_, ?_, ?_⟩
  · rw [bits_or, hbits, show c.toNat * 32 / 2 ^ 12 % 2 ^ 3 = 0 by omega, Nat.or_zero]
  · rw [bits_or, hbits, show c.toNat * 32 / 2 ^ 11 % 2 ^ 1 = 0 by omega, Nat.or_zero]
  · rw [bits_or, hbits, show c.toNat * 32 / 2 ^ 10 % 2 ^ 1 = 0 by omega, Nat.or_zero]
  · rw [bits_or, hbits, hv, show c.toNat * 32 / 2 ^ 5 % 2 ^ 5 = c.toNat by omega, Nat.zero_or]
  · rw [bits_or, hbits, show c.toNat * 32 / 2 ^ 0 % 2 ^ 5 = 0 by omega, Nat.or_zero]

theorem coarse_eq (v : UInt16) : ((v &&& 0x03E0) >>> 5).toNat = (place v).coarseY := by
  rw [UInt16.toNat_shiftRight, toNat_and_group 5 5 rfl, show (5 : UInt16).toNat % 16 = 5 from rfl,
    Nat.shiftRight_eq_div_pow]
  exact Nat.mul_div_cancel _ (Nat.two_pow_pos 5)

theorem coarse_succ (v : UInt16) :
    ((v &&& 0x03E0) >>> 5 + 1).toNat = (place v).coarseY + 1 := by
  have hlt : (place v).coarseY < 32 := bits_lt 5 5 v
  rw [UInt16.toNat_add, coarse_eq, show (1 : UInt16).toNat = 1 from rfl]
  omega

theorem place_nextRow {v : UInt16} (hv : v < 0x8000) :
    place (nextRow v) = (place v).nextRow := by
  have hf : v &&& 0x7000 = 0x7000 ↔ (place v).fineY = 7 := and_group_eq_iff 12 3 rfl
  have hlt : (place v).coarseY < 32 := bits_lt 5 5 v
  unfold nextRow Place.nextRow
  by_cases h : (place v).fineY = 7
  · rw [if_neg (not_not.mpr (hf.mpr h)), if_neg (not_not.mpr h)]
    simp only [← UInt16.toNat_inj, coarse_eq, UInt16.reduceToNat]
    split
    · have hr := place_and_rows v
      simp only [place, Place.mk.injEq] at hr ⊢
      obtain ⟨h12, h11, h10, h5, h0⟩ := hr
      refine ⟨(bits_xor_keep rfl).trans h12, ?_, (bits_xor_keep rfl).trans h10,
        (bits_xor_keep rfl).trans h5, (bits_xor_keep rfl).trans h0⟩
      rw [bits_flip rfl, h11]
    split
    · exact place_and_rows v
    · rw [place_or_coarse, place_and_rows, coarse_succ]
      · rw [place_and_rows]
      · rw [coarse_succ]; omega
  · rw [if_pos (mt hf.mp h), if_pos h]
    rw [UInt16.lt_iff_toNat_lt] at hv
    simp only [place, bits, UInt16.toNat_add, UInt16.reduceToNat, Place.mk.injEq] at h hv ⊢
    refine ⟨?_, ?_, ?_, ?_, ?_⟩ <;> omega

/-! ## Counters of fifteen bits -/

theorem lt_iff_le {v : UInt16} : v < 0x8000 ↔ v ≤ 0x7FFF := by
  rw [UInt16.lt_iff_toNat_lt, UInt16.le_iff_toNat_le]
  exact Nat.lt_succ_iff

theorem or_lt {a b : UInt16} (ha : a < 0x8000) (hb : b < 0x8000) : a ||| b < 0x8000 := by
  rw [UInt16.lt_iff_toNat_lt] at *
  rw [UInt16.toNat_or]
  exact Nat.or_lt_two_pow (n := 15) ha hb

theorem and_lt_left {a : UInt16} (mask : UInt16) (ha : a < 0x8000) : a &&& mask < 0x8000 := by
  rw [UInt16.lt_iff_toNat_lt] at *
  rw [UInt16.toNat_and]
  exact Nat.lt_of_le_of_lt Nat.and_le_left ha

theorem and_lt_right (a : UInt16) {mask : UInt16} (hmask : mask < 0x8000) : a &&& mask < 0x8000 := by
  rw [UInt16.lt_iff_toNat_lt] at *
  rw [UInt16.toNat_and]
  exact Nat.lt_of_le_of_lt Nat.and_le_right hmask

theorem lt_iff_bits {v : UInt16} : v < 0x8000 ↔ bits 15 1 v = 0 := by
  have := v.toNat_lt
  rw [UInt16.lt_iff_toNat_lt, bits, show (0x8000 : UInt16).toNat = 0x8000 from rfl]
  omega

theorem nextColumn_lt {v : UInt16} (hv : v < 0x8000) : nextColumn v < 0x8000 := by
  rw [lt_iff_bits] at hv ⊢
  unfold nextColumn
  split
  · rw [bits_xor_keep rfl, hv]
  · rename_i h
    rw [show (31 : UInt16) = 0x001F from rfl, and_group_eq_iff 0 5 rfl] at h
    have hlt := v.toNat_lt
    simp only [bits, UInt16.toNat_add, UInt16.reduceToNat] at h hv ⊢
    omega

theorem copyHorizontal_lt {s : Scroll} (hv : s.v < 0x8000) : s.copyHorizontal.v < 0x8000 := by
  rw [lt_iff_bits] at hv ⊢
  rw [copyHorizontal, bits_or, bits_and_keep rfl, bits_and_drop rfl, Nat.or_zero, hv]

theorem copyVertical_lt {s : Scroll} (hv : s.v < 0x8000) : s.copyVertical.v < 0x8000 := by
  rw [lt_iff_bits] at hv ⊢
  rw [copyVertical, bits_or, bits_and_keep rfl, bits_and_drop rfl, Nat.or_zero, hv]

theorem nextRow_lt {v : UInt16} (hv : v < 0x8000) : nextRow v < 0x8000 := by
  rw [lt_iff_bits] at hv ⊢
  unfold nextRow
  have hrest : bits 15 1 (v &&& 0x8C1F) = 0 := by rw [bits_and_keep rfl, hv]
  split
  · rename_i h
    rw [ne_eq, and_group_eq_iff 12 3 rfl] at h
    have hlt := v.toNat_lt
    simp only [bits, UInt16.toNat_add, UInt16.reduceToNat] at h hv ⊢
    omega
  · simp only
    split
    · rw [bits_xor_keep rfl, hrest]
    split
    · exact hrest
    · have hlt : (place v).coarseY < 32 := bits_lt 5 5 v
      rw [bits_or, hrest, Nat.zero_or, bits, toNat_shift_five, coarse_succ]
      · omega
      · rw [coarse_succ]; omega

/-! ## Walking -/

namespace Place

/-- A place with the column of another. -/
def withColumn (p q : Place) : Place := { p with tableX := q.tableX, coarseX := q.coarseX }

theorem nextColumn_withColumn (p q : Place) : p.nextColumn.withColumn q = p.withColumn q := by
  unfold nextColumn withColumn
  split <;> rfl

theorem nextRow_withColumn (p q : Place) : p.nextRow.withColumn q = (p.withColumn q).nextRow := by
  unfold nextRow withColumn
  split_ifs <;> simp_all

/-- The numbers of a place are in range. -/
structure Valid (p : Place) : Prop where
  fineY : p.fineY < 8
  tableY : p.tableY < 2
  tableX : p.tableX < 2
  coarseY : p.coarseY < 32
  coarseX : p.coarseX < 32

theorem Valid.nextColumn {p : Place} (h : p.Valid) : p.nextColumn.Valid := by
  obtain ⟨hf, hty, htx, hcy, hcx⟩ := h
  unfold Place.nextColumn
  split
  · exact ⟨hf, hty, by simp only; omega, hcy, by simp only; omega⟩
  · exact ⟨hf, hty, htx, hcy, by simp only; omega⟩

theorem Valid.nextRow {p : Place} (h : p.Valid) : p.nextRow.Valid := by
  obtain ⟨hf, hty, htx, hcy, hcx⟩ := h
  unfold Place.nextRow
  split_ifs <;> refine ⟨?_, ?_, htx, ?_, hcx⟩ <;> simp only <;> omega

/-- The column on the torus, in tiles. -/
def column (p : Place) : Nat := 32 * p.tableX + p.coarseX

/-- The row on the torus, in dots. -/
def line (p : Place) : Nat := 240 * p.tableY + 8 * p.coarseY + p.fineY

/-- The place at a column and a row of the torus. -/
def ofTorus (column line : Nat) : Place :=
  ⟨line % 8, line / 240, column / 32, line % 240 / 8, column % 32⟩

theorem eq_ofTorus {p : Place} (h : p.Valid) (hc : p.coarseY ≤ 29) :
    p = ofTorus p.column p.line := by
  obtain ⟨fineY, tableY, tableX, coarseY, coarseX⟩ := p
  obtain ⟨hf, hty, htx, hcy, hcx⟩ := h
  simp only [ofTorus, column, line, mk.injEq] at *
  refine ⟨?_, ?_, ?_, ?_, ?_⟩ <;> omega

theorem nextColumn_iterate {p : Place} (h : p.Valid) (n : Nat) :
    (Place.nextColumn^[n] p).Valid ∧ (Place.nextColumn^[n] p).column = (p.column + n) % 64 ∧
      (Place.nextColumn^[n] p).line = p.line ∧
      (Place.nextColumn^[n] p).coarseY = p.coarseY := by
  induction n with
  | zero =>
    obtain ⟨-, -, htx, -, hcx⟩ := id h
    refine ⟨h, ?_, rfl, rfl⟩
    simp only [Function.iterate_zero, id, column]
    omega
  | succ n ih =>
    obtain ⟨hv, hc, hl, hcy⟩ := ih
    rw [Function.iterate_succ_apply']
    generalize Place.nextColumn^[n] p = q at hv hc hl hcy
    obtain ⟨-, -, htx, -, hcx⟩ := id hv
    refine ⟨hv.nextColumn, ?_, ?_, ?_⟩
    · unfold Place.nextColumn
      unfold column at hc ⊢
      split <;> simp only <;> omega
    · rw [← hl]
      unfold Place.nextColumn
      split <;> rfl
    · rw [← hcy]
      unfold Place.nextColumn
      split <;> rfl

theorem nextRow_iterate {p : Place} (h : p.Valid) (hc : p.coarseY ≤ 29) (n : Nat) :
    (Place.nextRow^[n] p).Valid ∧ (Place.nextRow^[n] p).coarseY ≤ 29 ∧
      (Place.nextRow^[n] p).line = (p.line + n) % 480 ∧
      (Place.nextRow^[n] p).column = p.column := by
  induction n with
  | zero =>
    obtain ⟨hf, hty, -, -, -⟩ := id h
    refine ⟨h, hc, ?_, rfl⟩
    simp only [Function.iterate_zero, id, line]
    omega
  | succ n ih =>
    obtain ⟨hv, hcy, hl, hcol⟩ := ih
    rw [Function.iterate_succ_apply']
    generalize Place.nextRow^[n] p = q at hv hcy hl hcol
    obtain ⟨hf, hty, -, -, -⟩ := id hv
    refine ⟨hv.nextRow, ?_, ?_, ?_⟩
    · unfold Place.nextRow
      split_ifs <;> simp only <;> omega
    · unfold Place.nextRow
      unfold line at hl ⊢
      split_ifs <;> simp only <;> omega
    · rw [← hcol]
      unfold Place.nextRow
      split_ifs <;> rfl

end Place

theorem place_valid (v : UInt16) : (place v).Valid :=
  ⟨bits_lt 12 3 v, bits_lt 11 1 v, bits_lt 10 1 v, bits_lt 5 5 v, bits_lt 0 5 v⟩

theorem nextColumn_iterate_lt {v : UInt16} (hv : v < 0x8000) (n : Nat) :
    nextColumn^[n] v < 0x8000 := by
  induction n with
  | zero => exact hv
  | succ n ih => rw [Function.iterate_succ_apply']; exact nextColumn_lt ih

theorem nextRow_iterate_lt {v : UInt16} (hv : v < 0x8000) (n : Nat) : nextRow^[n] v < 0x8000 := by
  induction n with
  | zero => exact hv
  | succ n ih => rw [Function.iterate_succ_apply']; exact nextRow_lt ih

theorem place_nextColumn_iterate (v : UInt16) (n : Nat) :
    place (nextColumn^[n] v) = Place.nextColumn^[n] (place v) :=
  Function.Semiconj.iterate_right place_nextColumn n v

theorem place_nextRow_iterate {v : UInt16} (hv : v < 0x8000) (n : Nat) :
    place (nextRow^[n] v) = Place.nextRow^[n] (place v) := by
  induction n with
  | zero => rfl
  | succ n ih =>
    rw [Function.iterate_succ_apply', Function.iterate_succ_apply',
      place_nextRow (nextRow_iterate_lt hv n), ih]

/-! ## Between two lines -/

/-- The counter `v` stands in the column of `t`. -/
def InColumn (t v : UInt16) : Prop := (place v).withColumn (place t) = place v

theorem InColumn.nextRow {t v : UInt16} (h : InColumn t v) (hv : v < 0x8000) :
    InColumn t (nextRow v) := by
  unfold InColumn at h ⊢
  rw [place_nextRow hv, Place.nextRow_withColumn, h]

theorem InColumn.nextRow_iterate {t : UInt16} (ht : t < 0x8000) (n : Nat) :
    InColumn t (Scroll.nextRow^[n] t) := by
  induction n with
  | zero => rfl
  | succ n ih =>
    rw [Function.iterate_succ_apply']
    exact ih.nextRow (nextRow_iterate_lt ht n)

theorem inColumn_copyHorizontal (s : Scroll) : InColumn s.t s.copyHorizontal.v := by
  unfold InColumn
  rw [place_copyHorizontal]
  rfl

theorem withColumn_nextColumn_iterate (v : UInt16) (n : Nat) (q : Place) :
    (place (nextColumn^[n] v)).withColumn q = (place v).withColumn q := by
  induction n with
  | zero => rfl
  | succ n ih =>
    rw [Function.iterate_succ_apply', place_nextColumn, Place.nextColumn_withColumn, ih]

/-- **However far a line was walked, its end and the return to the column of `t` make one row
down.** -/
theorem copyHorizontal_nextRow {s : Scroll} {w : UInt16} (hw : w < 0x8000) (hcol : InColumn s.t w)
    (n : Nat) (hv : s.v = nextRow (nextColumn^[n] w)) : s.copyHorizontal.v = nextRow w := by
  have hn : nextColumn^[n] w < 0x8000 := nextColumn_iterate_lt hw n
  have hs : s.v < 0x8000 := by rw [hv]; exact nextRow_lt hn
  apply eq_of_place_eq (copyHorizontal_lt hs) (nextRow_lt hw)
  calc place s.copyHorizontal.v
      = (place s.v).withColumn (place s.t) := place_copyHorizontal s
    _ = ((place (nextColumn^[n] w)).withColumn (place s.t)).nextRow := by
        rw [hv, place_nextRow hn, Place.nextRow_withColumn]
    _ = (place w).nextRow := by rw [withColumn_nextColumn_iterate, hcol]
    _ = place (nextRow w) := (place_nextRow hw).symm

theorem copyVertical_eq {s : Scroll} (hv : s.v < 0x8000) (ht : s.t < 0x8000)
    (hcol : InColumn s.t s.v) : s.copyVertical.v = s.t := by
  apply eq_of_place_eq (copyVertical_lt hv) ht
  unfold InColumn at hcol
  rw [place_copyVertical, ← hcol]
  rfl

end Scroll

end NesMachine
