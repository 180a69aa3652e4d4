import NesMachine.Proofs.Checked.Memory

/-!
# The sprite unit, checked

The rows of the sprites on the next line, the addresses of their patterns, and the search of the slots
for a sprite in front.

* `patternAddress_le`: a sprite's pattern is in the pattern tables, whatever its slot holds.
* `evaluateSprites_eq`, `loadSprites_eq`: on a line of the frame nothing panics.
* `scan_eq`: nor does the search for the sprite in front, in a column of the picture.
-/

namespace NesMachine.Checked

open Board (Fault)

variable {ε : Type} {p : Ppu} {slot : Slot} {s : SpriteSlot} {scanline : Int} {height : Nat}

/-! ## Looking for sprites -/

/-- The row that a sprite shows on the next line, if it reaches it. -/
def rowAbove (scanline : Int) (y : UInt8) : Except (Panic ε) Int :=
  signed 16 (scanline - y.toNat)

/-- Puts the entries that cover the next line into the slots from `found` on. -/
def evaluate (oam : ObjectMemory) (scanline : Int) (height : Nat) :
    List (Fin 64) → SpriteLine → Nat → Except (Panic ε) (SpriteLine × Bool)
  | [], line, _ => .ok (line, false)
  | index :: rest, line, found => do
    let y ← get oam (4 * index.val)
    let row ← rowAbove scanline y
    if 0 ≤ row ∧ row < height then
      if found = 8 then return (line, true)
      else
        let line ← set line found (oam.entry index)
        let found ← below (2 ^ 64) (found + 1)
        evaluate oam scanline height rest line found
    else evaluate oam scanline height rest line found

def evaluateSprites (p : Ppu) : Except (Panic ε) Ppu := do
  let (foundSprites, overflow) ←
    evaluate p.oam p.beam.scanline p.spriteHeight (List.finRange 64) p.foundSprites 0
  return { p with
    foundSprites, status := if overflow then p.status ||| Ppu.spriteOverflow else p.status }

theorem rowAbove_ok {y : UInt8} (hfirst : -1 ≤ scanline) (hlast : scanline ≤ 310) :
    (rowAbove scanline y : Except (Panic ε) Int) = .ok (scanline - y.toNat) := by
  have hy := y.toNat_lt
  refine require_ok ?_ _
  constructor
  · show -32768 ≤ scanline - y.toNat
    omega
  · show scanline - y.toNat < 32768
    omega

theorem readTop_eq (oam : ObjectMemory) (index : Fin 64) :
    (get oam (4 * index.val) : Except (Panic ε) UInt8) =
      .ok (oam.read (UInt8.ofNat (4 * index.val))) := by
  have hlt : 4 * index.val < 256 := by omega
  have hcell : (UInt8.ofNat (4 * index.val)).toFin.val = 4 * index.val := Nat.mod_eq_of_lt hlt
  have hget := get_fin (ε := ε) oam (UInt8.ofNat (4 * index.val)).toFin
  rwa [hcell] at hget

/-- The search fills the slots with what is in range. -/
theorem evaluate_eq (oam : ObjectMemory) (hfirst : -1 ≤ scanline) (hlast : scanline ≤ 310)
    (indices : List (Fin 64)) (line : SpriteLine) {found : Nat} (hfound : found ≤ 8) :
    (evaluate oam scanline height indices line found : Except (Panic ε) (SpriteLine × Bool)) =
      .ok (line.fill found (indices.filterMap fun index =>
        if ObjectMemory.covers scanline height (oam.read (UInt8.ofNat (4 * index.val))) then
          some (oam.entry index)
        else none)) := by
  induction indices generalizing line found with
  | nil => rfl
  | cons index rest ih =>
    have hcovers : ObjectMemory.covers scanline height
        (oam.read (UInt8.ofNat (4 * index.val))) = true ↔
        0 ≤ scanline - (oam.read (UInt8.ofNat (4 * index.val))).toNat ∧
          scanline - (oam.read (UInt8.ofNat (4 * index.val))).toNat < height := by
      unfold ObjectMemory.covers
      rw [Bool.and_eq_true, decide_eq_true_iff, decide_eq_true_iff]
    rw [evaluate, readTop_eq, ok_bind, rowAbove_ok hfirst hlast, ok_bind, List.filterMap_cons]
    by_cases hrow : 0 ≤ scanline - (oam.read (UInt8.ofNat (4 * index.val))).toNat ∧
        scanline - (oam.read (UInt8.ofNat (4 * index.val))).toNat < height
    · rw [if_pos hrow, if_pos (hcovers.mpr hrow)]
      simp only [SpriteLine.fill]
      by_cases hfull : found = 8
      · rw [if_pos hfull, dif_neg (by omega)]
        rfl
      · have hset : (set line found (oam.entry index) : Except (Panic ε) SpriteLine) =
            .ok (line.set found (oam.entry index)) := set_fin line ⟨found, by omega⟩ _
        rw [if_neg hfull, dif_pos (by omega), hset, ok_bind, below_ok (by omega), ok_bind,
          ih _ (by omega)]
    · rw [if_neg hrow, if_neg (mt hcovers.mp hrow), ih line hfound]

theorem evaluateSprites_eq (hfirst : -1 ≤ p.beam.scanline) (hlast : p.beam.scanline ≤ 310) :
    (evaluateSprites p : Except (Panic ε) Ppu) = .ok p.evaluateSprites := by
  rw [evaluateSprites, evaluate_eq p.oam hfirst hlast _ _ (Nat.zero_le 8)]
  rfl

/-! ## Patterns -/

/-- Where the first row of a sprite's pattern is stored. -/
def spriteTile (s : SpriteSlot) (tall highTable : Bool) : Except (Panic ε) UInt16 :=
  if tall then do
    let table ← mul16 (s.tile &&& 0x01).toUInt16 0x1000
    let tile ← mul16 (s.tile &&& 0xFE).toUInt16 16
    add16 table tile
  else do
    let tile ← mul16 s.tile.toUInt16 16
    add16 (if highTable then 0x1000 else 0) tile

/-- The row of a pattern that the next line shows, for sprites of eight or sixteen rows. -/
def spriteRow (s : SpriteSlot) (scanline : Int) (height : Nat) : Except (Panic ε) UInt16 := do
  let above ← rowAbove scanline s.y
  let row := UInt16.ofNat (above % (height : Int)).toNat
  return if s.flipsRows then row ^^^ UInt16.ofNat (height - 1) else row

/-- Where the low plane of a sprite row is stored. -/
def spriteAddress (s : SpriteSlot) (scanline : Int) (tall highTable : Bool) :
    Except (Panic ε) UInt16 := do
  let tile ← spriteTile s tall highTable
  let row ← spriteRow s scanline (if tall then 16 else 8)
  let offset ← add16 row (row &&& 0x08)
  add16 tile offset

def loadSprite (p : Ppu) (slot : Slot) (s : SpriteSlot) : Except (Panic Fault) SpriteSlot := do
  let addr ← spriteAddress s p.beam.scanline p.tallSprites p.spriteHighTable
  let patternLow ← readMemory p slot addr
  let patternHigh ← readMemory p slot (← add16 addr 8)
  return { s with patternLow, patternHigh }

def loadSprites (p : Ppu) (slot : Slot) : Except (Panic Fault) Ppu := do
  let lineSprites ← p.foundSprites.mapM (loadSprite p slot)
  return { p with lineSprites }

/-- A sprite's tile, as the place of its first row. -/
def tilePlace (s : SpriteSlot) (tall highTable : Bool) : Nat :=
  if tall then s.tile.toNat % 2 * 0x1000 + s.tile.toNat / 2 * 2 * 16
  else (if highTable then 0x1000 else 0) + s.tile.toNat * 16

theorem spriteTile_eq (s : SpriteSlot) (tall highTable : Bool) :
    ∃ tile : UInt16, (spriteTile s tall highTable : Except (Panic ε) UInt16) = .ok tile ∧
      tile.toNat = tilePlace s tall highTable := by
  have htile := s.tile.toNat_lt
  have hmask : ∀ n < 256, n &&& 0xFE = n / 2 * 2 := by decide +kernel
  have hlow : (s.tile &&& 0x01).toUInt16.toNat = s.tile.toNat % 2 := by
    rw [UInt8.toNat_toUInt16, UInt8.toNat_and]
    exact Nat.and_one_is_mod _
  have hhigh : (s.tile &&& 0xFE).toUInt16.toNat = s.tile.toNat / 2 * 2 := by
    rw [UInt8.toNat_toUInt16, UInt8.toNat_and]
    exact hmask _ htile
  have h16 : (16 : UInt16).toNat = 16 := rfl
  have h4096 : (0x1000 : UInt16).toNat = 0x1000 := rfl
  cases tall with
  | true =>
    have htable : ((s.tile &&& 0x01).toUInt16 * 0x1000).toNat = s.tile.toNat % 2 * 0x1000 := by
      rw [UInt16.toNat_mul, hlow, h4096]
      omega
    have hrows : ((s.tile &&& 0xFE).toUInt16 * 16).toNat = s.tile.toNat / 2 * 2 * 16 := by
      rw [UInt16.toNat_mul, hhigh, h16]
      omega
    refine ⟨(s.tile &&& 0x01).toUInt16 * 0x1000 + (s.tile &&& 0xFE).toUInt16 * 16, ?_, ?_⟩
    · rw [spriteTile, if_pos rfl, mul16_ok (by rw [hlow, h4096]; omega), ok_bind,
        mul16_ok (by rw [hhigh, h16]; omega), ok_bind, add16_ok (by omega)]
    · rw [UInt16.toNat_add, htable, hrows, tilePlace, if_pos rfl]
      omega
  | false =>
    have hrows : (s.tile.toUInt16 * 16).toNat = s.tile.toNat * 16 := by
      rw [UInt16.toNat_mul, UInt8.toNat_toUInt16, h16]
      omega
    have htable : (if highTable then 0x1000 else 0 : UInt16).toNat =
        if highTable then 0x1000 else 0 := by
      cases highTable <;> rfl
    have hle : (if highTable then 0x1000 else 0) ≤ 0x1000 := by split <;> decide
    refine ⟨(if highTable then 0x1000 else 0) + s.tile.toUInt16 * 16, ?_, ?_⟩
    · rw [spriteTile, if_neg Bool.false_ne_true, mul16_ok, ok_bind, add16_ok (by omega)]
      rw [UInt8.toNat_toUInt16, h16]
      omega
    · rw [UInt16.toNat_add, htable, hrows, tilePlace, if_neg Bool.false_ne_true]
      omega

theorem row_lt (s : SpriteSlot) (scanline : Int) (hheight : 0 < height) :
    s.row scanline height < height := by
  have hpos := Int.emod_nonneg (scanline - s.y.toNat) (show (height : Int) ≠ 0 by omega)
  have hlt := Int.emod_lt_of_pos (scanline - s.y.toNat) (show (0 : Int) < height by omega)
  unfold SpriteSlot.row
  simp only
  split <;> omega

theorem spriteRow_eq (hfirst : -1 ≤ scanline) (hlast : scanline ≤ 310) (s : SpriteSlot)
    (hheight : height = 8 ∨ height = 16) :
    ∃ row : UInt16, (spriteRow s scanline height : Except (Panic ε) UInt16) = .ok row ∧
      row.toNat = s.row scanline height := by
  have hpos := Int.emod_nonneg (scanline - s.y.toNat) (show (height : Int) ≠ 0 by omega)
  have hlt := Int.emod_lt_of_pos (scanline - s.y.toNat) (show (0 : Int) < height by omega)
  have hflip : ∀ n < 16, (n < 8 → n ^^^ 7 = 7 - n) ∧ n ^^^ 15 = 15 - n := by decide
  have hrow : (UInt16.ofNat ((scanline - s.y.toNat) % (height : Int)).toNat).toNat =
      ((scanline - s.y.toNat) % (height : Int)).toNat := by
    rw [UInt16.toNat_ofNat']
    omega
  rw [spriteRow, rowAbove_ok hfirst hlast, ok_bind]
  refine ⟨_, rfl, ?_⟩
  unfold SpriteSlot.row
  simp only
  split
  · rw [UInt16.toNat_xor, hrow]
    rcases hheight with rfl | rfl
    · exact (hflip _ (by omega)).1 (by omega)
    · exact (hflip _ (by omega)).2
  · exact hrow

theorem rowPlace_le (s : SpriteSlot) (scanline : Int) (tall highTable : Bool) :
    tilePlace s tall highTable + s.row scanline (if tall then 16 else 8) +
      s.row scanline (if tall then 16 else 8) / 8 * 8 ≤ 0x1FF7 := by
  have htile := s.tile.toNat_lt
  have hpair : s.tile.toNat / 2 ≤ 127 := by omega
  have hrow := row_lt s scanline (show 0 < if tall then 16 else 8 by split <;> decide)
  unfold tilePlace
  cases tall with
  | true =>
    rw [if_pos rfl] at hrow ⊢
    rw [if_pos rfl]
    omega
  | false =>
    rw [if_neg Bool.false_ne_true] at hrow ⊢
    rw [if_neg Bool.false_ne_true]
    split <;> omega

/-- **The pattern of a sprite is in the pattern tables, whatever its slot holds.** -/
theorem patternAddress_le (s : SpriteSlot) (scanline : Int) (tall highTable : Bool) :
    (s.patternAddress scanline tall highTable).toNat ≤ 0x1FF7 := by
  unfold SpriteSlot.patternAddress
  simp only
  rw [UInt16.toNat_ofNat']
  exact Nat.le_trans (Nat.mod_le _ _) (rowPlace_le s scanline tall highTable)

theorem spriteAddress_eq (hfirst : -1 ≤ scanline) (hlast : scanline ≤ 310) (s : SpriteSlot)
    (tall highTable : Bool) :
    (spriteAddress s scanline tall highTable : Except (Panic ε) UInt16) =
      .ok (s.patternAddress scanline tall highTable) := by
  have hheight : (if tall then 16 else 8) = 8 ∨ (if tall then 16 else 8) = 16 := by
    cases tall
    · exact .inl rfl
    · exact .inr rfl
  have hupper : ∀ n < 16, n &&& 8 = n / 8 * 8 := by decide
  have hbound := row_lt s scanline (show 0 < if tall then 16 else 8 by omega)
  have hplace := rowPlace_le s scanline tall highTable
  obtain ⟨tile, htile, htileNat⟩ := spriteTile_eq (ε := ε) s tall highTable
  obtain ⟨row, hrow, hrowNat⟩ := spriteRow_eq (ε := ε) hfirst hlast s hheight
  have hlower : (row &&& 0x08).toNat = row.toNat / 8 * 8 := by
    rw [UInt16.toNat_and]
    exact hupper _ (by omega)
  have hoffset : (row + (row &&& 0x08)).toNat = row.toNat + row.toNat / 8 * 8 := by
    rw [UInt16.toNat_add, hlower]
    omega
  have haddress : tile + (row + (row &&& 0x08)) = s.patternAddress scanline tall highTable := by
    apply UInt16.toNat_inj.mp
    rw [UInt16.toNat_add, hoffset, htileNat, hrowNat, ← Nat.add_assoc]
    exact UInt16.toNat_ofNat'.symm
  rw [spriteAddress, htile, ok_bind, hrow, ok_bind, add16_ok (by omega), ok_bind,
    add16_ok (by omega), haddress]

theorem loadSprite_eq (hslot : slot.Bounded) (hfirst : -1 ≤ p.beam.scanline)
    (hlast : p.beam.scanline ≤ 310) (s : SpriteSlot) :
    loadSprite p slot s = lift (p.loadSprite slot s) := by
  have hplace := patternAddress_le s p.beam.scanline p.tallSprites p.spriteHighTable
  have hplane : (add16 (s.patternAddress p.beam.scanline p.tallSprites p.spriteHighTable) 8 :
      Except (Panic Fault) UInt16) = .ok (_ + 8) :=
    add16_ok (Nat.lt_of_le_of_lt (Nat.add_le_add_right hplace 8) (by decide))
  rw [loadSprite, spriteAddress_eq hfirst hlast, ok_bind, hplane]
  exact bind_eq_lift (readMemory_eq hslot _) fun low _ =>
    bind_eq_lift (readMemory_eq hslot _) fun high _ => rfl

theorem loadSprites_eq (hslot : slot.Bounded) (hfirst : -1 ≤ p.beam.scanline)
    (hlast : p.beam.scanline ≤ 310) : loadSprites p slot = lift (p.loadSprites slot) := by
  have hload : loadSprite p slot = fun s => lift (p.loadSprite slot s) :=
    funext (loadSprite_eq hslot hfirst hlast)
  unfold loadSprites
  rw [hload]
  exact bind_eq_lift (mapM_lift _ _) fun line _ => rfl

/-! ## Drawing -/

/-- A shift by a number of a signed type. -/
def shrBy (a : UInt8) (bit : Int) : Except (Panic ε) UInt8 :=
  require (0 ≤ bit ∧ bit < 8) (a >>> UInt8.ofNat bit.toNat)

/-- The sprite's colour in a column of the picture: 0 where it is transparent or absent. -/
def colourAt (s : SpriteSlot) (x : Nat) : Except (Panic ε) UInt8 := do
  let column ← signed 32 (x - s.x.toNat)
  if 0 ≤ column ∧ column < 8 then
    let column : Int := if s.flipsColumns then (column.toNat ^^^ 7 : Nat) else column
    let bit ← signed 32 (7 - column)
    let high ← shrBy s.patternHigh bit
    let low ← shrBy s.patternLow bit
    return 2 * (high &&& 1) + (low &&& 1)
  else return 0

/-- Goes through the slots from the last to the first: the slot in front, and whether the first
object is among those that show. -/
def scan (x : Nat) : List SpriteSlot → Except (Panic ε) (Option SpriteSlot × Bool)
  | [] => .ok (none, false)
  | s :: rest => do
    let (front, first) ← scan x rest
    if s.entry.isNone then return (front, first)
    else
      let colour ← colourAt s x
      if colour = 0 then return (front, first)
      else return (some s, first || s.entry.any (·.val == 0))

theorem shrBy_ok (a : UInt8) {n : Nat} (h : n < 8) :
    (shrBy a n : Except (Panic ε) UInt8) = .ok (a >>> UInt8.ofNat n) := by
  rw [shrBy, require_ok (by omega), Int.toNat_natCast]

theorem signed32_ok {n : Int} (h : -1000 ≤ n ∧ n ≤ 1000) :
    (signed 32 n : Except (Panic ε) Int) = .ok n := by
  refine require_ok ?_ _
  constructor
  · show -2147483648 ≤ n
    omega
  · show n < 2147483648
    omega

theorem colourAt_eq (s : SpriteSlot) {x : Nat} (hx : x < 256) :
    (colourAt s x : Except (Panic ε) UInt8) = .ok (s.colourAt x) := by
  have hleft := s.x.toNat_lt
  rw [colourAt, signed32_ok (by omega), ok_bind]
  unfold SpriteSlot.colourAt
  by_cases hin : x < s.x.toNat ∨ s.x.toNat + 8 ≤ x
  · rw [if_neg (by omega), if_pos hin]
    rfl
  · rw [if_pos (by omega), if_neg hin]
    obtain ⟨column, hcolumn, hlt⟩ : ∃ column, x - s.x.toNat = column ∧ column < 8 :=
      ⟨_, rfl, by omega⟩
    have hdiff : (x : Int) - s.x.toNat = column := by omega
    have hflip : ∀ n < 8, 7 - ((n ^^^ 7 : Nat) : Int) = n ∧ (n ^^^ 7) < 8 := by decide
    have hbit : ∀ n < 8, UInt8.ofNat (7 - n) = 7 - UInt8.ofNat n := by decide
    simp only [hdiff, hcolumn, Int.toNat_natCast]
    cases s.flipsColumns with
    | true =>
      obtain ⟨hflipped, hsmall⟩ := hflip column hlt
      simp only [if_true]
      rw [signed32_ok (by omega), ok_bind, hflipped, shrBy_ok _ hlt, ok_bind, shrBy_ok _ hlt]
      rfl
    | false =>
      have hsub : (7 : Int) - column = (7 - column : Nat) := by omega
      have hsmall : 7 - column < 8 := by omega
      simp only [Bool.false_eq_true, if_false]
      rw [signed32_ok (by omega), ok_bind, hsub, shrBy_ok _ hsmall, ok_bind, shrBy_ok _ hsmall,
        hbit column hlt]
      rfl

theorem entry_any_eq (entry : Option (Fin 64)) : entry.any (·.val == 0) = (entry == some 0) := by
  cases entry with
  | none => rfl
  | some i =>
    rw [Bool.eq_iff_iff, Option.any_some, beq_iff_eq, beq_iff_eq, Option.some_inj]
    exact (Fin.ext_iff (b := 0)).symm

theorem scan_eq {x : Nat} (hx : x < 256) (slots : List SpriteSlot) :
    (scan x slots : Except (Panic ε) (Option SpriteSlot × Bool)) =
      .ok (slots.find? (·.showsAt x), slots.any fun s => s.entry == some 0 && s.showsAt x) := by
  induction slots with
  | nil => rfl
  | cons s rest ih =>
    rw [scan, ih, ok_bind, List.find?_cons, List.any_cons, entry_any_eq]
    simp only [colourAt_eq s hx, ok_bind]
    by_cases hshows : s.showsAt x = true
    · obtain ⟨hentry, hcolour⟩ := Bool.and_eq_true_iff.mp hshows
      have hsome : ¬ s.entry.isNone = true := by
        rw [Option.isNone_iff_eq_none]
        intro hnone
        rw [hnone] at hentry
        cases hentry
      rw [if_neg hsome, if_neg (bne_iff_ne.mp hcolour), hshows, Bool.and_true, Bool.or_comm]
      rfl
    · rw [Bool.not_eq_true] at hshows
      rw [hshows, Bool.and_false, Bool.false_or]
      split_ifs with hnone hcolour
      · rfl
      · rfl
      · have hsome : s.entry.isSome = true := by
          rwa [Option.isSome_iff_ne_none, ne_eq, ← Option.isNone_iff_eq_none]
        have hsolid : s.showsAt x = true :=
          Bool.and_eq_true_iff.mpr ⟨hsome, bne_iff_ne.mpr hcolour⟩
        rw [hsolid] at hshows
        cases hshows

end NesMachine.Checked
