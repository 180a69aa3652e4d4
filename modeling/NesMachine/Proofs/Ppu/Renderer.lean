import NesMachine.Proofs.Ppu.Scan

/-!
# The background as a picture

The four nametables are one large picture of 512 columns and 480 rows, of which a frame shows a
window. `backdrop` reads a dot of the window straight from memory: no counters, no pipeline.

* `tileRow_eq`: a scroll counter's tile row, read from the place it stands for.
* `backgroundAt_eq`: what the pipeline supplies is the dot of the large picture under the window.
-/

namespace NesMachine

open Scroll (bits Place place)

/-- A byte of the patterns; 0 where the read faults. -/
def Slot.pattern (slot : Slot) (addr : Nat) : UInt8 :=
  match slot.readChr (UInt16.ofNat addr) with
  | .ok value => value
  | .error _ => 0

/-- A bit of a byte, as a number. -/
def bitOf (byte : UInt8) (k : Nat) : Nat := byte.toNat / 2 ^ k % 2

namespace Ppu

/-! ## The large picture -/

/-- A byte of a logical nametable. -/
def nametableByte (p : Ppu) (slot : Slot) (table offset : Nat) : UInt8 :=
  p.nametables.get (Fin.ofNat _ (physicalTable slot.mirroring table * 0x400 + offset))

/-- The nametable under a dot. -/
def tableAt (column row : Nat) : Nat := 2 * (row / 240) + column / 256

/-- The tile under a dot. -/
def tileAt (p : Ppu) (slot : Slot) (column row : Nat) : UInt8 :=
  p.nametableByte slot (tableAt column row) (32 * (row % 240 / 8) + column % 256 / 8)

/-- The palette of the quadrant under a dot. -/
def paletteAt (p : Ppu) (slot : Slot) (column row : Nat) : Nat :=
  let byte := p.nametableByte slot (tableAt column row)
    (0x3C0 + 8 * (row % 240 / 32) + column % 256 / 32)
  let shift := 4 * (row % 240 / 16 % 2) + 2 * (column % 256 / 16 % 2)
  2 * bitOf byte (shift + 1) + bitOf byte shift

/-- The row under a dot, in the low plane of its tile. -/
def patternAt (p : Ppu) (slot : Slot) (column row : Nat) : Nat :=
  (if p.backgroundHighTable then 0x1000 else 0) + 16 * (p.tileAt slot column row).toNat + row % 8

/-- The colour of the tile under a dot. -/
def colourAt (p : Ppu) (slot : Slot) (column row : Nat) : Nat :=
  let address := p.patternAt slot column row
  2 * bitOf (slot.pattern (address + 8)) (7 - column % 8) +
    bitOf (slot.pattern address) (7 - column % 8)

/-- The column of the large picture that column `x` of the window shows. -/
def windowColumn (p : Ppu) (x : Nat) : Nat :=
  let t := place p.scroll.t
  (256 * t.tableX + 8 * t.coarseX + p.scroll.fineX.toNat + x) % 512

/-- The row of the large picture that row `y` of the window shows. -/
def windowRow (p : Ppu) (y : Nat) : Nat :=
  let t := place p.scroll.t
  (240 * t.tableY + 8 * t.coarseY + t.fineY + y) % 480

/-- The palette entry under a dot: entry 0 where the tile is transparent. -/
def entryAt (p : Ppu) (slot : Slot) (column row : Nat) : Nat :=
  let colour := p.colourAt slot column row
  if colour = 0 then 0 else 4 * p.paletteAt slot column row + colour

/-- The palette entry of a dot of the window, whose left edge may be clipped. -/
def backdrop (p : Ppu) (slot : Slot) (x y : Nat) : Nat :=
  if x < 8 ∧ p.mask &&& 0x02 = 0 then 0 else p.entryAt slot (p.windowColumn x) (p.windowRow y)

theorem backdrop_lt (p : Ppu) (slot : Slot) (x y : Nat) : p.backdrop slot x y < 16 := by
  unfold backdrop entryAt colourAt paletteAt bitOf
  simp only
  split
  · omega
  · split <;> omega

/-- The colour that a palette entry shows. -/
def shown (p : Ppu) (entry : Nat) : Rgba :=
  let value := p.palette[entry % 32]
  colourOf (if p.mask &&& 0x01 ≠ 0 then value &&& 0x30 else value)

end Ppu

/-! ## Addresses -/

namespace Scroll

theorem bits_shiftRight {low width : Nat} (v : UInt16) {k : UInt16} (hk : k.toNat < 16) :
    bits low width (v >>> k) = bits (k.toNat + low) width v := by
  rw [bits, UInt16.toNat_shiftRight, Nat.mod_eq_of_lt hk, Nat.shiftRight_eq_div_pow,
    Nat.div_div_eq_div_mul, ← Nat.pow_add]
  rfl

theorem toNat_tileAddress (v : UInt16) : (tileAddress v).toNat =
    0x2000 + 0x400 * (2 * (place v).tableY + (place v).tableX) + 32 * (place v).coarseY +
      (place v).coarseX := by
  have hhigh : bits 12 4 (tileAddress v) = 2 := by
    rw [tileAddress, bits_or, bits_and_drop rfl]
    rfl
  have hlow : bits 0 12 (tileAddress v) = bits 0 12 v := by
    rw [tileAddress, bits_or, bits_and_keep rfl, show bits 0 12 0x2000 = 0 from rfl, Nat.zero_or]
  have hlt := (tileAddress v).toNat_lt
  simp only [place, bits] at hhigh hlow ⊢
  omega

theorem toNat_attributeAddress (v : UInt16) : (attributeAddress v).toNat =
    0x23C0 + 0x400 * (2 * (place v).tableY + (place v).tableX) + 8 * ((place v).coarseY / 4) +
      (place v).coarseX / 4 := by
  have h12 : bits 12 4 (attributeAddress v) = 2 := by
    simp only [attributeAddress, bits_or]
    rw [bits_and_drop rfl, bits_and_drop rfl, bits_and_drop rfl]
    rfl
  have h10 : bits 10 2 (attributeAddress v) = bits 10 2 v := by
    simp only [attributeAddress, bits_or]
    rw [bits_and_keep rfl, bits_and_drop rfl, bits_and_drop rfl]
    show 0 ||| _ ||| 0 ||| 0 = _
    rw [Nat.zero_or, Nat.or_zero, Nat.or_zero]
  have h6 : bits 6 4 (attributeAddress v) = 15 := by
    simp only [attributeAddress, bits_or]
    rw [bits_and_drop rfl, bits_and_drop rfl, bits_and_drop rfl]
    rfl
  have h3 : bits 3 3 (attributeAddress v) = bits 7 3 v := by
    simp only [attributeAddress, bits_or]
    rw [bits_and_drop rfl, bits_and_keep rfl, bits_and_drop rfl, bits_shiftRight v (by decide)]
    show 0 ||| 0 ||| _ ||| 0 = _
    rw [Nat.or_zero, Nat.zero_or, Nat.zero_or]
    rfl
  have h0 : bits 0 3 (attributeAddress v) = bits 2 3 v := by
    simp only [attributeAddress, bits_or]
    rw [bits_and_drop rfl, bits_and_drop rfl, bits_and_keep rfl, bits_shiftRight v (by decide)]
    show 0 ||| 0 ||| 0 ||| _ = _
    rw [Nat.zero_or, Nat.zero_or, Nat.zero_or]
    rfl
  have htable : bits 10 2 v = 2 * (place v).tableY + (place v).tableX := by
    simp only [place, bits]; omega
  have hrow : bits 7 3 v = (place v).coarseY / 4 := by
    simp only [place, bits]; omega
  have hcolumn : bits 2 3 v = (place v).coarseX / 4 := by
    simp only [place, bits]; omega
  rw [← htable, ← hrow, ← hcolumn, ← h10, ← h3, ← h0]
  have hlt := (attributeAddress v).toNat_lt
  simp only [bits] at h12 h6 ⊢
  omega

theorem toNat_fineRow (v : UInt16) : (fineRow v).toNat = (place v).fineY := by
  have h := toNat_and_group 0 3 (v := v >>> 12) (c := 0x07) rfl
  rw [bits_shiftRight v (by decide)] at h
  rw [fineRow, h]
  exact Nat.mul_one _

end Scroll

/-! ## From a counter to the large picture -/

namespace Ppu

variable {p : Ppu} {slot : Slot} {addr v : UInt16}

theorem and_memory_mask (h : addr.toNat < 0x4000) : addr &&& 0x3FFF = addr := by
  apply UInt16.toNat_inj.mp
  rw [UInt16.toNat_and, show (0x3FFF : UInt16).toNat = 2 ^ 14 - 1 from rfl,
    Nat.and_two_pow_sub_one_of_lt_two_pow h]

theorem byteAt_pattern (p : Ppu) (slot : Slot) (h : addr.toNat < 0x2000) :
    p.byteAt slot addr = slot.pattern addr.toNat := by
  have hlt : addr < 0x2000 := by rw [UInt16.lt_iff_toNat_lt]; exact h
  have hread : p.readMemory slot addr = slot.readChr addr := by
    show (if addr &&& 0x3FFF < 0x2000 then slot.readChr (addr &&& 0x3FFF) else _) = _
    rw [and_memory_mask (show addr.toNat < 0x4000 by omega), if_pos hlt]
  unfold byteAt Slot.pattern
  cases hvalue : slot.readChr addr with
  | ok value => simp only [hread, UInt16.ofNat_toNat, hvalue]
  | error fault => simp only [hread, UInt16.ofNat_toNat, hvalue]

theorem byteAt_nametable (p : Ppu) (slot : Slot) {table offset : Nat} (ht : table < 4)
    (ho : offset < 0x400) (h : addr.toNat = 0x2000 + 0x400 * table + offset) :
    p.byteAt slot addr = p.nametableByte slot table offset := by
  have hlow : ¬ addr < 0x2000 := by
    rw [UInt16.lt_iff_toNat_lt, show (0x2000 : UInt16).toNat = 0x2000 from rfl]; omega
  have hhigh : addr < 0x3F00 := by
    rw [UInt16.lt_iff_toNat_lt, show (0x3F00 : UInt16).toNat = 0x3F00 from rfl]; omega
  have hcell : nametableCell addr slot.mirroring =
      Fin.ofNat _ (physicalTable slot.mirroring table * 0x400 + offset) := by
    have hindex : (addr.toNat - 0x2000) % 0x1000 = 0x400 * table + offset := by omega
    have htable : (0x400 * table + offset) / 0x400 = table := by omega
    have hoffset : (0x400 * table + offset) % 0x400 = offset := by omega
    apply Fin.ext
    simp only [nametableCell, hindex, htable, hoffset, Fin.val_ofNat]
    cases slot.mirroring <;> simp only [physicalTable] <;> omega
  unfold byteAt readMemory nametableByte
  simp only [and_memory_mask (show addr.toNat < 0x4000 by omega), if_neg hlow, if_pos hhigh, hcell]

theorem testBit_eq_bitOf (byte : UInt8) (k : Nat) : (byte.toNat.testBit k).toNat = bitOf byte k :=
  Nat.toNat_testBit ..

theorem and_bit_eq_zero_iff (low : Nat) {c : UInt16} (hc : c.toNat = 2 ^ low) :
    v &&& c = 0 ↔ bits low 1 v = 0 := by
  rw [← UInt16.toNat_inj, Scroll.toNat_and_group low 1 (by rw [hc]; omega)]
  have hpos := Nat.two_pow_pos low
  exact Nat.mul_eq_zero.trans (or_iff_left (by omega))

/-- A shift that a bit of a counter switches on. -/
theorem toNat_shift_if (byte c : UInt8) {bit : Nat} (hbit : bit < 2) (hc : c.toNat < 8) :
    (if bit = 0 then byte else byte >>> c).toNat = byte.toNat / 2 ^ (c.toNat * bit) := by
  obtain rfl | rfl : bit = 0 ∨ bit = 1 := by omega
  · rw [if_pos rfl, Nat.mul_zero, Nat.pow_zero, Nat.div_one]
  · rw [if_neg one_ne_zero, Nat.mul_one, UInt8.toNat_shiftRight, Nat.mod_eq_of_lt hc,
      Nat.shiftRight_eq_div_pow]

/-- The quadrant is shifted into the two low bits. -/
theorem toNat_attributeQuadrant (v : UInt16) (byte : UInt8) :
    (Scroll.attributeQuadrant v byte).toNat = byte.toNat /
      2 ^ (4 * ((place v).coarseY / 2 % 2) + 2 * ((place v).coarseX / 2 % 2)) := by
  have hrow : bits 6 1 v = (place v).coarseY / 2 % 2 := by simp only [place, bits]; omega
  have hcolumn : bits 1 1 v = (place v).coarseX / 2 % 2 := by simp only [place, bits]; omega
  unfold Scroll.attributeQuadrant
  simp only [and_bit_eq_zero_iff 6 (c := 0x0040) rfl, and_bit_eq_zero_iff 1 (c := 0x0002) rfl, hrow,
    hcolumn]
  rw [toNat_shift_if _ 2 (by omega) (by decide), toNat_shift_if _ 4 (by omega) (by decide),
    Nat.div_div_eq_div_mul, Nat.pow_add]
  rfl

/-- The tile byte under a counter. -/
theorem byteAt_tile (p : Ppu) (slot : Slot) {column row : Nat} (hc : column < 512) (hr : row < 480)
    (hv : place v = Place.ofTorus (column / 8) row) :
    p.byteAt slot (Scroll.tileAddress v) = p.tileAt slot column row := by
  have haddr := Scroll.toNat_tileAddress v
  rw [hv] at haddr
  unfold tileAt tableAt
  refine byteAt_nametable p slot (by omega) (by omega) (haddr.trans ?_)
  simp only [Place.ofTorus]
  omega

theorem byteAt_attribute (p : Ppu) (slot : Slot) {column row : Nat} (hc : column < 512)
    (hr : row < 480) (hv : place v = Place.ofTorus (column / 8) row) :
    p.byteAt slot (Scroll.attributeAddress v) = p.nametableByte slot (tableAt column row)
      (0x3C0 + 8 * (row % 240 / 32) + column % 256 / 32) := by
  have haddr := Scroll.toNat_attributeAddress v
  rw [hv] at haddr
  unfold tableAt
  refine byteAt_nametable p slot (by omega) (by omega) (haddr.trans ?_)
  simp only [Place.ofTorus]
  omega

theorem bitOf_div (byte : UInt8) (shift k : Nat) (shifted : UInt8)
    (h : shifted.toNat = byte.toNat / 2 ^ shift) : bitOf shifted k = bitOf byte (shift + k) := by
  rw [bitOf, bitOf, h, Nat.div_div_eq_div_mul, Nat.pow_add]

theorem patternAt_lt (p : Ppu) (slot : Slot) (column row : Nat) :
    p.patternAt slot column row + 8 < 0x2000 := by
  have hlt := (p.tileAt slot column row).toNat_lt
  unfold patternAt
  split <;> omega

theorem toNat_rowAddress (p : Ppu) (slot : Slot) {column row : Nat} (hc : column < 512)
    (hr : row < 480) (hv : place v = Place.ofTorus (column / 8) row) :
    ((p.scenery slot).rowAddress v).toNat = p.patternAt slot column row := by
  have htile : (p.scenery slot).byte (Scroll.tileAddress v) = p.tileAt slot column row :=
    byteAt_tile p slot hc hr hv
  have hfine : (Scroll.fineRow v).toNat = row % 8 := by rw [Scroll.toNat_fineRow, hv]; rfl
  have hbase : (if (p.scenery slot).highTable then 0x1000 else 0 : UInt16).toNat =
      if p.backgroundHighTable then 0x1000 else 0 := by
    show (if p.backgroundHighTable then (0x1000 : UInt16) else 0).toNat = _
    cases p.backgroundHighTable <;> rfl
  have hbound := p.patternAt_lt slot column row
  rw [Scenery.rowAddress, htile, UInt16.toNat_add, UInt16.toNat_add, UInt16.toNat_mul,
    hbase, hfine, UInt8.toNat_toUInt16, show (16 : UInt16).toNat = 16 from rfl]
  unfold patternAt at hbound ⊢
  omega

/-- **The tile row under a counter, read from the place it stands for.** -/
theorem tileRow_index (p : Ppu) (slot : Slot) {column row : Nat} (hc : column < 512)
    (hr : row < 480) (hv : place v = Place.ofTorus (column / 8) row) :
    (((p.scenery slot).tileRow v).column (column % 8)).index = p.entryAt slot column row := by
  have haddr := toNat_rowAddress p slot hc hr hv
  have hbound := p.patternAt_lt slot column row
  have haddr8 : ((p.scenery slot).rowAddress v + 8).toNat = p.patternAt slot column row + 8 := by
    rw [UInt16.toNat_add, haddr, show (8 : UInt16).toNat = 8 from rfl]
    omega
  have hlow : (p.scenery slot).byte ((p.scenery slot).rowAddress v) =
      slot.pattern (p.patternAt slot column row) := by
    rw [← haddr]
    exact byteAt_pattern p slot (by omega)
  have hhigh : (p.scenery slot).byte ((p.scenery slot).rowAddress v + 8) =
      slot.pattern (p.patternAt slot column row + 8) := by
    rw [← haddr8]
    exact byteAt_pattern p slot (by omega)
  have hattr := toNat_attributeQuadrant v (p.byteAt slot (Scroll.attributeAddress v))
  have hshift : 4 * ((Place.ofTorus (column / 8) row).coarseY / 2 % 2) +
      2 * ((Place.ofTorus (column / 8) row).coarseX / 2 % 2) =
      4 * (row % 240 / 16 % 2) + 2 * (column % 256 / 16 % 2) := by
    simp only [Place.ofTorus]; omega
  rw [hv, hshift] at hattr
  have hbyte : (p.scenery slot).byte (Scroll.attributeAddress v) = _ :=
    byteAt_attribute p slot hc hr hv
  unfold Scenery.tileRow entryAt colourAt paletteAt TileRow.column Column.index
  simp only [hlow, hhigh, hbyte, testBit_eq_bitOf]
  rw [byteAt_attribute p slot hc hr hv] at hattr
  rw [bitOf_div _ _ 0 _ hattr, bitOf_div _ _ 1 _ hattr, Nat.add_zero]
  split
  · rfl
  · exact Nat.add_comm _ _

/-- The tile under a column of a row of the window. -/
theorem place_window (ht : p.scroll.t < 0x8000) (hrow : (place p.scroll.t).coarseY ≤ 29)
    (x y : Nat) :
    place (Scroll.nextColumn^[(x + p.scroll.fineX.toNat) / 8] (p.rowCounter y)) =
      Place.ofTorus (p.windowColumn x / 8) (p.windowRow y) := by
  have hvalid := Scroll.place_valid p.scroll.t
  obtain ⟨hyvalid, hycoarse, hyline, hycolumn⟩ := Place.nextRow_iterate hvalid hrow y
  obtain ⟨hxvalid, hxcolumn, hxline, hxcoarse⟩ :=
    Place.nextColumn_iterate hyvalid ((x + p.scroll.fineX.toNat) / 8)
  rw [Scroll.place_nextColumn_iterate, rowCounter, Scroll.place_nextRow_iterate ht,
    Place.eq_ofTorus hxvalid (by omega), hxcolumn, hxline, hyline, hycolumn]
  unfold windowColumn windowRow Place.column Place.line
  congr 1
  simp only
  omega

/-- **What the pipeline supplies is the dot of the large picture under the window.** -/
theorem backgroundAt_eq (ht : p.scroll.t < 0x8000) (hrow : (place p.scroll.t).coarseY ≤ 29)
    (hbg : p.mask &&& 0x08 ≠ 0) (x y : Nat) :
    p.backgroundAt slot x y = UInt8.ofNat (p.backdrop slot x y) := by
  have hindex := tileRow_index p slot (show p.windowColumn x < 512 from Nat.mod_lt _ (by omega))
    (show p.windowRow y < 480 from Nat.mod_lt _ (by omega)) (place_window ht hrow x y)
  have hcolumn : (x + p.scroll.fineX.toNat) % 8 = p.windowColumn x % 8 := by
    unfold windowColumn
    simp only
    omega
  unfold backgroundAt backdrop showsBackgroundAt
  rw [Scenery.stream, hcolumn, hindex]
  by_cases hclip : x < 8 ∧ p.mask &&& 0x02 = 0
  · rw [if_pos hclip]
    simp [hclip]
  · rw [if_neg hclip]
    have hshown : 8 ≤ x ∨ p.mask &&& 0x02 ≠ 0 := by
      by_cases hx : x < 8
      · exact .inr fun h => hclip ⟨hx, h⟩
      · exact .inl (by omega)
    simp [hbg, hshown]

end Ppu

end NesMachine
