import NesMachine.Proofs.Ppu.Renderer
import NesMachine.Proofs.Ppu.Sprites

/-!
# The objects as a picture

What object memory and the patterns say a frame shows, with no slots and no line ahead: `objects`
are the entries that a row of the picture has room for, `objectColour` is the colour of an entry
in a dot, and `frontObject` is the entry in front.

`front_loadedOn`, `firstObject_loadedOn` and `inRange_length` read the slots of a line as these.
-/

namespace NesMachine

namespace Ppu

/-! ## Entries -/

/-- A byte of an entry of object memory: its top, its tile, its attributes, its left edge. -/
def objectByte (p : Ppu) (i : Fin 64) (k : Nat) : UInt8 := p.oam.get (Fin.ofNat _ (4 * i.val + k))

/-- The row of the picture above an entry's first. -/
def objectTop (p : Ppu) (i : Fin 64) : Nat := (p.objectByte i 0).toNat

def objectLeft (p : Ppu) (i : Fin 64) : Nat := (p.objectByte i 3).toNat

/-- The entries in range of a line. -/
def objectsInRange (p : Ppu) (line : Nat) : List (Fin 64) :=
  (List.finRange 64).filter fun i =>
    p.objectTop i ≤ line ∧ line < p.objectTop i + p.spriteHeight

/-- The entries of a row of the picture: the first eight in range of the line before it. -/
def objects (p : Ppu) : Nat → List (Fin 64)
  | 0 => []
  | line + 1 => (p.objectsInRange line).take 8

/-- The row of an entry's pattern that row `y` of the picture shows. -/
def objectRow (p : Ppu) (i : Fin 64) (y : Nat) : Nat :=
  let row := y - 1 - p.objectTop i
  if p.objectByte i 2 &&& 0x80 ≠ 0 then p.spriteHeight - 1 - row else row

/-- The column of an entry's pattern that column `x` of the picture shows. -/
def objectColumn (p : Ppu) (i : Fin 64) (x : Nat) : Nat :=
  let column := x - p.objectLeft i
  if p.objectByte i 2 &&& 0x40 ≠ 0 then 7 - column else column

/-- The tile with a row of an entry's pattern, among the 512 of the two tables. A tall entry names
the table by the lowest bit of its tile, and its lower half is in the next tile. -/
def objectTile (p : Ppu) (i : Fin 64) (row : Nat) : Nat :=
  let tile := (p.objectByte i 1).toNat
  if p.tallSprites then 256 * (tile % 2) + (tile / 2 * 2 + row / 8)
  else (if p.spriteHighTable then 256 else 0) + tile

/-- The colour of an entry in a dot of the picture: 0 where it is transparent or elsewhere. -/
def objectColour (p : Ppu) (slot : Slot) (i : Fin 64) (x y : Nat) : Nat :=
  if x < p.objectLeft i ∨ p.objectLeft i + 8 ≤ x then 0
  else
    let row := p.objectRow i y
    let address := 16 * p.objectTile i row + row % 8
    2 * bitOf (slot.pattern (address + 8)) (7 - p.objectColumn i x) +
      bitOf (slot.pattern address) (7 - p.objectColumn i x)

/-- Sprites are on and not clipped in a column. -/
def SpritesShown (p : Ppu) (x : Nat) : Prop :=
  p.mask &&& 0x10 ≠ 0 ∧ (8 ≤ x ∨ p.mask &&& 0x04 ≠ 0)

instance (p : Ppu) (x : Nat) : Decidable (p.SpritesShown x) := by
  unfold SpritesShown; infer_instance

/-- The entry in front in a dot of the picture. -/
def frontObject (p : Ppu) (slot : Slot) (x y : Nat) : Option (Fin 64) :=
  if p.SpritesShown x then (p.objects y).find? fun i => p.objectColour slot i x y ≠ 0 else none

/-! ## Slots that hold entries -/

variable {p : Ppu} {slot : Slot} {i : Fin 64} {line x : Nat}

theorem covers_iff (p : Ppu) (line : Nat) (y : UInt8) :
    ObjectMemory.covers line p.spriteHeight y = true ↔
      y.toNat ≤ line ∧ line < y.toNat + p.spriteHeight := by
  unfold ObjectMemory.covers
  rw [Bool.and_eq_true, decide_eq_true_iff, decide_eq_true_iff]
  omega

theorem inRange_eq (p : Ppu) (line : Nat) :
    SpriteLine.inRange p.oam line p.spriteHeight = (p.objectsInRange line).map p.oam.entry := by
  rw [SpriteLine.inRange_eq_map]
  congr 1
  refine List.filter_congr fun i _ => Bool.eq_iff_iff.mpr ?_
  rw [decide_eq_true_iff]
  exact covers_iff p line _

theorem inRange_preRender (p : Ppu) :
    SpriteLine.inRange p.oam Beam.preRender p.spriteHeight = [] := by
  unfold SpriteLine.inRange
  rw [List.filterMap_eq_nil_iff]
  intro i _
  rw [if_neg]
  unfold ObjectMemory.covers Beam.preRender
  rw [Bool.and_eq_true, decide_eq_true_iff]
  omega

/-- The slots of a row of the picture. -/
theorem loadedOn_toList (p : Ppu) (slot : Slot) (y : Nat) :
    ∃ count, (p.loadedOn slot (y - 1)).toList =
      (p.objects y).map (fun i => p.loaded slot (y - 1) (p.oam.entry i)) ++
        List.replicate count (p.loaded slot (y - 1) .empty) := by
  cases y with
  | zero =>
    refine ⟨8, ?_⟩
    rw [loadedOn, foundOn, Vector.toList_map, SpriteLine.evaluate_toList,
      show ((0 : Nat) : Int) - 1 = Beam.preRender from rfl, inRange_preRender]
    rfl
  | succ line =>
    refine ⟨8 - (p.objectsInRange line).length, ?_⟩
    rw [loadedOn, foundOn, Vector.toList_map, SpriteLine.evaluate_toList, Int.natCast_succ,
      Int.add_sub_cancel, inRange_eq, ← List.map_take, List.map_append, List.map_map,
      List.map_replicate, List.length_map]
    rfl

theorem find?_congr_mem {α : Type} {f g : α → Bool} {l : List α} (h : ∀ a ∈ l, f a = g a) :
    l.find? f = l.find? g := by
  induction l with
  | nil => rfl
  | cons a rest ih =>
    rw [List.find?_cons, List.find?_cons, h a List.mem_cons_self,
      ih fun b hb => h b (List.mem_cons_of_mem a hb)]

theorem mem_objects {y : Nat} (h : i ∈ p.objects y) :
    1 ≤ y ∧ p.objectTop i ≤ y - 1 ∧ y - 1 < p.objectTop i + p.spriteHeight := by
  cases y with
  | zero => exact absurd h List.not_mem_nil
  | succ line =>
    have hmem := List.mem_of_mem_take h
    rw [objectsInRange, List.mem_filter, decide_eq_true_iff] at hmem
    exact ⟨by omega, hmem.2⟩

theorem row_entry {y : Nat} (h : i ∈ p.objects y) :
    (p.oam.entry i).row (y - 1) p.spriteHeight = p.objectRow i y := by
  obtain ⟨h1, htop, hbottom⟩ := mem_objects h
  have hrow : (((y : Int) - 1 - (p.oam.entry i).y.toNat) % (p.spriteHeight : Int)).toNat =
      y - 1 - p.objectTop i := by
    have hy : ((p.oam.entry i).y.toNat : Int) = (p.objectTop i : Int) := rfl
    rw [hy, Int.emod_eq_of_lt (by omega) (by omega)]
    omega
  unfold SpriteSlot.row objectRow
  simp only [hrow, SpriteSlot.flipsRows, decide_eq_true_iff]
  rfl

theorem spriteHeight_eq (p : Ppu) : (if p.tallSprites then 16 else 8) = p.spriteHeight := rfl

theorem toNat_patternAddress {y : Nat} (h : i ∈ p.objects y) :
    ((p.oam.entry i).patternAddress (y - 1) p.tallSprites p.spriteHighTable).toNat =
      16 * p.objectTile i (p.objectRow i y) + p.objectRow i y % 8 ∧
    16 * p.objectTile i (p.objectRow i y) + p.objectRow i y % 8 + 8 < 0x2000 := by
  obtain ⟨h1, htop, hbottom⟩ := mem_objects h
  have hrow : p.objectRow i y < p.spriteHeight := by
    unfold objectRow
    simp only
    split <;> omega
  have htile : (p.oam.entry i).tile = p.objectByte i 1 := rfl
  have hlt := (p.objectByte i 1).toNat_lt
  unfold SpriteSlot.patternAddress
  simp only
  rw [spriteHeight_eq, row_entry h, htile]
  unfold spriteHeight at hrow
  unfold objectTile
  rw [UInt16.toNat_ofNat']
  by_cases htall : p.tallSprites
  · simp only [htall, if_true] at hrow ⊢
    omega
  · simp only [htall] at hrow ⊢
    by_cases hhigh : p.spriteHighTable
    · simp only [hhigh, if_true, Bool.false_eq_true, if_false] at hrow ⊢
      omega
    · simp only [hhigh, Bool.false_eq_true, if_false] at hrow ⊢
      omega

/-- The planes that a slot with an entry is loaded with. -/
theorem planes_loaded {y : Nat} (slot : Slot) (h : i ∈ p.objects y) :
    let s := p.loaded slot (y - 1) (p.oam.entry i)
    let address := 16 * p.objectTile i (p.objectRow i y) + p.objectRow i y % 8
    s.patternLow = slot.pattern address ∧ s.patternHigh = slot.pattern (address + 8) := by
  intro s address
  obtain ⟨haddr, hbound⟩ := toNat_patternAddress h
  constructor
  · rw [show address = _ from haddr.symm]
    exact byteAt_pattern p slot (by omega)
  · have haddr8 : ((p.oam.entry i).patternAddress (y - 1) p.tallSprites p.spriteHighTable +
        8).toNat = address + 8 := by
      rw [UInt16.toNat_add, haddr, show (8 : UInt16).toNat = 8 from rfl]
      omega
    rw [← haddr8]
    exact byteAt_pattern p slot (by omega)

/-- The bit of the planes that a column of the picture shows. -/
theorem toNat_columnBit (p : Ppu) (i : Fin 64) (hx : x < p.objectLeft i + 8) :
    (if (p.oam.entry i).flipsColumns then UInt8.ofNat (x - p.objectLeft i)
      else 7 - UInt8.ofNat (x - p.objectLeft i)).toNat = 7 - p.objectColumn i x := by
  have hcolumn : (UInt8.ofNat (x - p.objectLeft i)).toNat = x - p.objectLeft i := by
    rw [UInt8.toNat_ofNat']
    omega
  have hflipped : (7 - UInt8.ofNat (x - p.objectLeft i)).toNat = 7 - (x - p.objectLeft i) := by
    rw [UInt8.toNat_sub_of_le, hcolumn]
    · rfl
    · rw [UInt8.le_iff_toNat_le, hcolumn, show (7 : UInt8).toNat = 7 from rfl]
      omega
  have hflips : (p.oam.entry i).flipsColumns = decide (p.objectByte i 2 &&& 0x40 ≠ 0) := rfl
  unfold objectColumn
  rw [hflips]
  by_cases hattr : p.objectByte i 2 &&& 0x40 ≠ 0
  · rw [if_pos (decide_eq_true hattr), if_pos hattr, hcolumn]
    omega
  · rw [if_neg (by rw [decide_eq_true_iff]; exact hattr), if_neg hattr, hflipped]

/-- **The colour that an entry's slot shows.** -/
theorem colourAt_loaded {y : Nat} (h : i ∈ p.objects y) (x : Nat) :
    ((p.loaded slot (y - 1) (p.oam.entry i)).colourAt x).toNat = p.objectColour slot i x y := by
  have hx : (p.loaded slot (y - 1) (p.oam.entry i)).x.toNat = p.objectLeft i := rfl
  have hflips : (p.loaded slot (y - 1) (p.oam.entry i)).flipsColumns =
      (p.oam.entry i).flipsColumns := rfl
  obtain ⟨hlow, hhigh⟩ := planes_loaded slot h
  unfold SpriteSlot.colourAt objectColour
  rw [hx]
  split
  · rfl
  · rename_i hin
    have hbit := toNat_columnBit p i (show x < p.objectLeft i + 8 by omega)
    simp only [hlow, hhigh, hflips]
    generalize (if (p.oam.entry i).flipsColumns then UInt8.ofNat (x - p.objectLeft i)
      else 7 - UInt8.ofNat (x - p.objectLeft i)) = bit at hbit ⊢
    have hlt : bit.toNat < 8 := by omega
    rw [UInt8.toNat_add, UInt8.toNat_mul, shiftRight_and_one8 _ _ hlt, shiftRight_and_one8 _ _ hlt,
      testBit_eq_bitOf, testBit_eq_bitOf, hbit, show (2 : UInt8).toNat = 2 from rfl]
    unfold bitOf
    omega

theorem showsAt_loaded {y : Nat} (h : i ∈ p.objects y) (x : Nat) :
    (p.loaded slot (y - 1) (p.oam.entry i)).showsAt x = decide (p.objectColour slot i x y ≠ 0) := by
  rw [← colourAt_loaded h]
  show (true && (p.loaded slot (y - 1) (p.oam.entry i)).colourAt x != 0) = _
  rw [Bool.true_and, Bool.eq_iff_iff, bne_iff_ne, decide_eq_true_iff, ne_eq, ← UInt8.toNat_inj]
  rfl

theorem showsAt_empty (p : Ppu) (slot : Slot) (line : Int) (x : Nat) :
    (p.loaded slot line .empty).showsAt x = false := rfl

/-- **The slot in front holds the entry in front.** -/
theorem front_loadedOn (p : Ppu) (slot : Slot) (x y : Nat) :
    (p.loadedOn slot (y - 1)).front? x =
      ((p.objects y).find? fun i => p.objectColour slot i x y ≠ 0).map
        fun i => p.loaded slot (y - 1) (p.oam.entry i) := by
  obtain ⟨count, hlist⟩ := loadedOn_toList p slot y
  have hempty : (List.replicate count (p.loaded slot (y - 1) .empty)).find? (·.showsAt x) =
      none := by
    rw [List.find?_eq_none]
    intro s hs
    rw [List.eq_of_mem_replicate hs, showsAt_empty]
    exact Bool.false_ne_true
  rw [SpriteLine.front?, ← Array.find?_toList, ← Vector.toList, hlist, List.find?_append, hempty,
    Option.or_none, List.find?_map]
  congr 1
  exact find?_congr_mem fun i hi => showsAt_loaded hi x

/-- **A slot holds the first entry and shows it.** -/
theorem firstObject_loadedOn (p : Ppu) (slot : Slot) (x y : Nat) :
    (p.loadedOn slot (y - 1)).firstObjectAt x = true ↔
      0 ∈ p.objects y ∧ p.objectColour slot 0 x y ≠ 0 := by
  obtain ⟨count, hlist⟩ := loadedOn_toList p slot y
  rw [SpriteLine.firstObjectAt, ← Vector.any_toArray, ← Array.any_toList, ← Vector.toList, hlist,
    List.any_append, Bool.or_eq_true, List.any_eq_true, List.any_eq_true]
  constructor
  · rintro (⟨s, hs, hshows⟩ | ⟨s, hs, hshows⟩)
    · obtain ⟨i, hi, rfl⟩ := List.mem_map.mp hs
      rw [showsAt_loaded hi, Bool.and_eq_true, decide_eq_true_iff, beq_iff_eq] at hshows
      obtain ⟨hentry, hcolour⟩ := hshows
      obtain rfl : i = 0 := Option.some.inj hentry
      exact ⟨hi, hcolour⟩
    · rw [List.eq_of_mem_replicate hs, showsAt_empty, Bool.and_false] at hshows
      exact absurd hshows Bool.false_ne_true
  · rintro ⟨hmem, hcolour⟩
    refine .inl ⟨_, List.mem_map_of_mem hmem, ?_⟩
    rw [showsAt_loaded hmem, Bool.and_eq_true, decide_eq_true_iff]
    exact ⟨beq_self_eq_true _, hcolour⟩

end Ppu

end NesMachine
