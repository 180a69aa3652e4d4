import NesMachine.Proofs.Checked.Memory

/-!
# The background unit, checked

The bits taken out of the shift registers, the addresses of tile rows and the steps of the scroll
counter. Combining bits and shifting by a constant cannot fail.

* `backgroundIndex_eq`, `fetchStep_eq`: from a state in range nothing panics.
-/

namespace NesMachine.Checked

open Board (Fault)

variable {ε : Type} {p : Ppu} {slot : Slot}

/-! ## The background -/

/-- The colour in front of the pipeline. -/
def colour (t : TilePipeline) (fineX : UInt8) : Except (Panic ε) UInt8 := do
  let bit ← sub16 15 fineX.toUInt16
  let high ← shr16 t.shiftHigh bit
  let low ← shr16 t.shiftLow bit
  return (2 * (high &&& 1) + (low &&& 1)).toUInt8

/-- The palette in front of the pipeline. -/
def palette (t : TilePipeline) (fineX : UInt8) : Except (Panic ε) UInt8 := do
  let bit ← sub8 7 fineX
  let high ← shr8 t.attrShiftHigh bit
  let low ← shr8 t.attrShiftLow bit
  return 2 * (high &&& 1) + (low &&& 1)

def backgroundIndex (p : Ppu) (x : Nat) : Except (Panic ε) UInt8 :=
  if p.showsBackgroundAt x then do
    let colour ← colour p.pipeline p.scroll.fineX
    if colour = 0 then return 0
    else
      let palette ← palette p.pipeline p.scroll.fineX
      return colour + 4 * palette
  else .ok 0

/-- Where the low plane of the tile row being fetched is stored. -/
def patternAddress (p : Ppu) : Except (Panic ε) UInt16 := do
  let tile ← mul16 p.pipeline.tile.toUInt16 16
  let base ← add16 (if p.backgroundHighTable then 0x1000 else 0) tile
  add16 base (Scroll.fineRow p.scroll.v)

def fetchTile (p : Ppu) (slot : Slot) : Except (Panic Fault) Ppu := do
  let tile ← readMemory p slot p.pipeline.address
  return { p with pipeline := { p.pipeline with tile } }

def fetchPatternHigh (p : Ppu) (slot : Slot) : Except (Panic Fault) Ppu := do
  let patternHigh ← readMemory p slot p.pipeline.address
  return { p with pipeline := { p.pipeline with patternHigh } }

/-- A step of the scroll counter that only rendering makes. -/
def move (p : Ppu) (next : UInt16 → Except (Panic ε) UInt16) : Except (Panic ε) Ppu :=
  if p.rendering then do
    let v ← next p.scroll.v
    return { p with scroll := { p.scroll with v } }
  else .ok p

def fetchStep (p : Ppu) (slot : Slot) (dot : Nat) : Except (Panic Fault) Ppu :=
  match dot % 8 with
  | 1 => .ok { p with
      pipeline := { p.pipeline.reload with address := Scroll.tileAddress p.scroll.v } }
  | 2 => fetchTile p slot
  | 3 => .ok { p with
      pipeline := { p.pipeline with address := Scroll.attributeAddress p.scroll.v } }
  | 4 => do
    let byte ← readMemory p slot p.pipeline.address
    return { p with
      pipeline := { p.pipeline with attr := Scroll.attributeQuadrant p.scroll.v byte } }
  | 5 => do
    let address ← patternAddress p
    return { p with pipeline := { p.pipeline with address } }
  | 6 => do
    let patternLow ← readMemory p slot p.pipeline.address
    return { p with pipeline := { p.pipeline with patternLow } }
  | 7 => do
    let address ← add16 p.pipeline.address 8
    return { p with pipeline := { p.pipeline with address } }
  | _ => do
    let p ← fetchPatternHigh p slot
    move p nextColumn

theorem colour_eq (t : TilePipeline) {fineX : UInt8} (h : fineX ≤ 7) :
    (colour t fineX : Except (Panic ε) UInt8) = .ok (t.colour fineX) := by
  rw [UInt8.le_iff_toNat_le] at h
  have hle : fineX.toUInt16.toNat ≤ (15 : UInt16).toNat := Nat.le_trans h (by decide)
  have hbit : (15 - fineX.toUInt16).toNat < 16 := by
    rw [UInt16.toNat_sub_of_le _ _ (UInt16.le_iff_toNat_le.mpr hle)]
    exact Nat.lt_of_le_of_lt (Nat.sub_le _ _) (by decide)
  rw [colour, sub16_ok hle, ok_bind, shr16_ok _ hbit, ok_bind, shr16_ok _ hbit]
  rfl

theorem palette_eq (t : TilePipeline) {fineX : UInt8} (h : fineX ≤ 7) :
    (palette t fineX : Except (Panic ε) UInt8) = .ok (t.palette fineX) := by
  have hle : fineX.toNat ≤ (7 : UInt8).toNat := UInt8.le_iff_toNat_le.mp h
  have hbit : (7 - fineX).toNat < 8 := by
    rw [UInt8.toNat_sub_of_le _ _ h]
    exact Nat.lt_of_le_of_lt (Nat.sub_le _ _) (by decide)
  rw [palette, sub8_ok hle, ok_bind, shr8_ok _ hbit, ok_bind, shr8_ok _ hbit]
  rfl

theorem backgroundIndex_eq (h : p.scroll.fineX ≤ 7) (x : Nat) :
    (backgroundIndex p x : Except (Panic ε) UInt8) = .ok (p.backgroundIndex x) := by
  unfold backgroundIndex Ppu.backgroundIndex
  simp only [colour_eq _ h, palette_eq _ h, ok_bind]
  split_ifs <;> rfl

theorem patternAddress_eq (p : Ppu) :
    (patternAddress p : Except (Panic ε) UInt16) = .ok p.patternAddress := by
  have htile := p.pipeline.tile.toNat_lt
  have hbase : (if p.backgroundHighTable then 0x1000 else 0 : UInt16).toNat ≤ 0x1000 := by
    split <;> decide
  have hrow : (Scroll.fineRow p.scroll.v).toNat < 8 := by
    rw [Scroll.toNat_fineRow]
    exact Scroll.bits_lt 12 3 _
  have hproduct : p.pipeline.tile.toUInt16.toNat * (16 : UInt16).toNat < 65536 := by
    rw [UInt8.toNat_toUInt16, show (16 : UInt16).toNat = 16 from rfl]
    omega
  have hrows : (p.pipeline.tile.toUInt16 * 16).toNat ≤ 0xFF0 := by
    rw [UInt16.toNat_mul, UInt8.toNat_toUInt16, show (16 : UInt16).toNat = 16 from rfl]
    omega
  rw [patternAddress, mul16_ok hproduct, ok_bind, add16_ok (by omega), ok_bind, add16_ok]
  · rfl
  · rw [UInt16.toNat_add]
    omega

theorem fetchTile_eq (hslot : slot.Bounded) (p : Ppu) :
    fetchTile p slot = lift (p.fetchTile slot) :=
  bind_eq_lift (readMemory_eq hslot _) fun _ _ => rfl

theorem fetchPatternHigh_eq (hslot : slot.Bounded) (p : Ppu) :
    fetchPatternHigh p slot = lift (p.fetchPatternHigh slot) :=
  bind_eq_lift (readMemory_eq hslot _) fun _ _ => rfl

theorem move_eq {next : UInt16 → Except (Panic Fault) UInt16} {next' : UInt16 → UInt16}
    (h : next p.scroll.v = .ok (next' p.scroll.v)) :
    move p next = lift (.ok (if p.rendering then
      { p with scroll := { p.scroll with v := next' p.scroll.v } } else p)) := by
  unfold move
  rw [h]
  split_ifs <;> rfl

/-- The high plane is fetched before the counter moves. -/
theorem fetchPatternHigh_scroll {q : Ppu} (h : p.fetchPatternHigh slot = .ok q) :
    q.scroll = p.scroll := by
  obtain ⟨byte, -, h⟩ := bind_ok h
  cases h
  rfl

theorem fetchStep_eq (hslot : slot.Bounded) {dot : Nat} (hv : p.scroll.v < 0x8000)
    (haddress : p.pipeline.address ≤ 0x2FFF) :
    fetchStep p slot dot = lift (p.fetchStep slot dot) := by
  unfold fetchStep Ppu.fetchStep
  generalize dot % 8 = phase
  match phase with
  | 1 | 3 => rfl
  | 2 => exact fetchTile_eq hslot p
  | 4 | 6 => exact bind_eq_lift (readMemory_eq hslot _) fun _ _ => rfl
  | 5 =>
    simp only [patternAddress_eq]
    rfl
  | 7 =>
    have hle : p.pipeline.address.toNat ≤ 0x2FFF := UInt16.le_iff_toNat_le.mp haddress
    have hsum : p.pipeline.address.toNat + (8 : UInt16).toNat < 65536 :=
      Nat.lt_of_le_of_lt (Nat.add_le_add_right hle 8) (by decide)
    simp only [add16_ok hsum]
    rfl
  | 0 | _ + 8 =>
    refine bind_eq_lift (fetchPatternHigh_eq hslot p) fun q hq => ?_
    rw [← fetchPatternHigh_scroll hq] at hv
    exact move_eq (nextColumn_eq hv)

end NesMachine.Checked
