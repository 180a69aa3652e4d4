import NesMachine.Proofs.Checked.Board
import NesMachine.Proofs.Ppu.Range

/-!
# The memory and the registers of the picture unit, checked

* `readRegister_eq`, `writeRegister_eq`: an access from counters of fifteen bits does not panic.
-/

namespace NesMachine.Checked

open Board (Fault)

variable {ε : Type} {p : Ppu} {slot : Slot} {s : Scroll} {v : UInt16}

/-! ## Scroll counters -/

/-- One tile to the right. -/
def nextColumn (v : UInt16) : Except (Panic ε) UInt16 :=
  if v &&& 0x001F = 31 then .ok (v ^^^ 0x041F) else add16 v 1

/-- One row down. -/
def nextRow (v : UInt16) : Except (Panic ε) UInt16 :=
  if v &&& 0x7000 ≠ 0x7000 then add16 v 0x1000
  else
    let coarse := (v &&& 0x03E0) >>> 5
    let rest := v &&& 0x8C1F
    if coarse = 29 then .ok (rest ^^^ 0x0800)
    else if coarse = 31 then .ok rest
    else do
      -- The coarse row has to stay within its five bits.
      let next ← require (coarse.toNat + 1 < 32) (coarse + 1)
      return rest ||| (next <<< 5)

/-- The counter after an access through the data register. -/
def afterAccess (s : Scroll) (step : UInt16) : Except (Panic ε) Scroll := do
  let v ← add16 s.v step
  return { s with v := v &&& 0x7FFF }

theorem nextColumn_eq (hv : v < 0x8000) :
    (nextColumn v : Except (Panic ε) UInt16) = .ok (Scroll.nextColumn v) := by
  rw [UInt16.lt_iff_toNat_lt] at hv
  unfold nextColumn Scroll.nextColumn
  split_ifs with hlast
  · rfl
  · exact add16_ok (Nat.lt_of_lt_of_le (Nat.add_lt_add_right hv 1) (by decide))

theorem nextRow_eq (hv : v < 0x8000) :
    (nextRow v : Except (Panic ε) UInt16) = .ok (Scroll.nextRow v) := by
  rw [UInt16.lt_iff_toNat_lt] at hv
  have hcoarse : ((v &&& 0x03E0) >>> 5).toNat < 32 := by
    rw [Scroll.coarse_eq]
    exact (Scroll.place_valid v).coarseY
  unfold nextRow Scroll.nextRow
  simp only
  split_ifs with hfine hedge hlast
  · exact add16_ok (Nat.lt_of_lt_of_le (Nat.add_lt_add_right hv 0x1000) (by decide))
  · rfl
  · rfl
  · have hne : ((v &&& 0x03E0) >>> 5).toNat ≠ 31 := fun h => hlast (UInt16.toNat_inj.mp h)
    rw [require_ok (by omega)]
    rfl

theorem afterAccess_eq (hv : s.v < 0x8000) {step : UInt16} (hstep : step.toNat ≤ 32) :
    (afterAccess s step : Except (Panic ε) Scroll) = .ok (s.afterAccess step) := by
  rw [UInt16.lt_iff_toNat_lt] at hv
  have hsum : s.v.toNat + step.toNat < 65536 := by
    have hlt : s.v.toNat < 32768 := hv
    omega
  rw [afterAccess, add16_ok hsum]
  rfl

theorem toNat_accessStep (p : Ppu) : p.accessStep.toNat ≤ 32 := by
  unfold Ppu.accessStep
  split <;> decide

/-! ## Memory -/

/-- The place of a colour in palette memory. -/
def paletteIndex (addr : UInt16) : Nat :=
  let index := addr.toNat % 32
  if 16 ≤ index ∧ index % 4 = 0 then index - 16 else index

/-- The place in nametable memory of an address, as far as it is behind the first nametable. -/
def nametableIndex (offset : UInt16) (mirroring : Mirroring) : Nat :=
  let index := offset.toNat % 0x1000
  Ppu.physicalTable mirroring (index / 0x400) * 0x400 + index % 0x400

def readPalette (p : Ppu) (addr : UInt16) : Except (Panic ε) UInt8 := do
  let value ← get p.palette (paletteIndex addr)
  return if p.greyscale then value &&& 0x30 else value

def readMemory (p : Ppu) (slot : Slot) (addr : UInt16) : Except (Panic Fault) UInt8 :=
  let addr := addr &&& 0x3FFF
  if addr < 0x2000 then readChr slot addr
  else if addr < 0x3F00 then do
    let offset ← sub16 addr 0x2000
    get p.nametables (nametableIndex offset slot.mirroring)
  else readPalette p addr

def writeMemory (p : Ppu) (slot : Slot) (addr : UInt16) (value : UInt8) :
    Except (Panic (Fault × Slot)) (Ppu × Slot) :=
  let addr := addr &&& 0x3FFF
  if addr < 0x2000 then do
    let slot ← writeChr slot addr value
    return (p, slot)
  else if addr < 0x3F00 then do
    let offset ← sub16 addr 0x2000
    let nametables ← set p.nametables (nametableIndex offset slot.mirroring) value
    return ({ p with nametables }, slot)
  else do
    let palette ← set p.palette (paletteIndex addr) value
    return ({ p with palette }, slot)

theorem paletteIndex_eq (addr : UInt16) : paletteIndex addr = (Ppu.paletteCell addr).val := by
  unfold paletteIndex Ppu.paletteCell
  simp only
  split_ifs <;> rfl

theorem nametableIndex_eq {addr : UInt16} (h : ¬addr < 0x2000) (mirroring : Mirroring) :
    nametableIndex (addr - 0x2000) mirroring = (Ppu.nametableCell addr mirroring).val := by
  have hle : 0x2000 ≤ addr := UInt16.not_lt.mp h
  have hsub : (addr - 0x2000).toNat = addr.toNat - 0x2000 := UInt16.toNat_sub_of_le _ _ hle
  rw [nametableIndex, hsub]
  rfl

theorem readPalette_eq (addr : UInt16) :
    (readPalette p addr : Except (Panic ε) UInt8) = .ok (p.readPalette addr) := by
  rw [readPalette, paletteIndex_eq, get_fin]
  rfl

theorem offset_eq {addr : UInt16} (h : ¬addr < 0x2000) :
    (sub16 addr 0x2000 : Except (Panic ε) UInt16) = .ok (addr - 0x2000) := by
  rw [UInt16.lt_iff_toNat_lt] at h
  exact sub16_ok (Nat.not_lt.mp h)

/-- **The memory is read without a panic.** -/
theorem readMemory_eq (hslot : slot.Bounded) (addr : UInt16) :
    readMemory p slot addr = lift (p.readMemory slot addr) := by
  unfold readMemory Ppu.readMemory
  simp only
  split_ifs with hpattern hname
  · exact readChr_eq hslot _
  · rw [offset_eq hpattern, ok_bind, nametableIndex_eq hpattern, get_fin]
    rfl
  · rw [readPalette_eq]
    rfl

theorem writeMemory_eq (hslot : slot.Bounded) (addr : UInt16) (value : UInt8) :
    writeMemory p slot addr value = lift (p.writeMemory slot addr value) := by
  unfold writeMemory Ppu.writeMemory
  simp only
  split_ifs with hpattern hname
  · rw [writeChr_eq hslot]
    cases slot.writeChr (addr &&& 0x3FFF) value <;> rfl
  · rw [offset_eq hpattern, ok_bind, nametableIndex_eq hpattern, set_fin]
    rfl
  · rw [paletteIndex_eq, set_fin]
    rfl

/-! ## Registers -/

def readData (p : Ppu) (slot : Slot) : Except (Panic Fault) (UInt8 × Ppu) := do
  let addr := p.scroll.v &&& 0x3FFF
  let value ← readMemory p slot addr
  if 0x3F00 ≤ addr then
    let beneath ← readMemory p slot (← sub16 addr 0x1000)
    let scroll ← afterAccess p.scroll p.accessStep
    return (value, { p with readBuffer := beneath, scroll })
  else
    let scroll ← afterAccess p.scroll p.accessStep
    return (p.readBuffer, { p with readBuffer := value, scroll })

def readRegister (p : Ppu) (slot : Slot) (addr : UInt16) :
    Except (Panic Fault) (UInt8 × Ppu) := do
  let (value, p) ← match Ppu.registerOf addr with
    | 2 => pure (p.statusByte,
        { p with status := p.status &&& 0x7F, scroll := { p.scroll with secondWrite := false } })
    | 4 => do
      let value ← get p.oam p.oamAddr.toNat
      pure (value, p)
    | 7 => readData p slot
    | _ => pure (p.openBus, p)
  return (value, { p with openBus := value })

def peekRegister (p : Ppu) (addr : UInt16) : Except (Panic ε) UInt8 :=
  match Ppu.registerOf addr with
  | 2 => .ok p.statusByte
  | 4 => get p.oam p.oamAddr.toNat
  | 7 => .ok p.readBuffer
  | _ => .ok p.openBus

def writeOam (p : Ppu) (value : UInt8) : Except (Panic ε) Ppu := do
  let oam ← set p.oam p.oamAddr.toNat value
  return { p with oam, oamAddr := p.oamAddr + 1 }

def writeData (p : Ppu) (slot : Slot) (value : UInt8) :
    Except (Panic (Fault × Slot)) (Ppu × Slot) := do
  let (p, slot) ← writeMemory p slot (p.scroll.v &&& 0x3FFF) value
  let scroll ← afterAccess p.scroll p.accessStep
  return ({ p with scroll }, slot)

def writeRegister (p : Ppu) (slot : Slot) (addr : UInt16) (value : UInt8) :
    Except (Panic (Fault × Slot)) (Ppu × Slot) :=
  let p := { p with openBus := value }
  match Ppu.registerOf addr with
  | 0 => .ok (p.writeCtrl value, slot)
  | 1 => .ok ({ p with mask := value }, slot)
  | 3 => .ok ({ p with oamAddr := value }, slot)
  | 4 => do
    let p ← writeOam p value
    return (p, slot)
  | 5 => .ok ({ p with scroll := p.scroll.writeScroll value }, slot)
  | 6 => .ok ({ p with scroll := p.scroll.writeAddress value }, slot)
  | 7 => writeData p slot value
  | _ => .ok (p, slot)

theorem readOam_eq (p : Ppu) :
    (get p.oam p.oamAddr.toNat : Except (Panic ε) UInt8) = .ok (p.oam.read p.oamAddr) :=
  get_fin p.oam p.oamAddr.toFin

theorem readData_eq (hslot : slot.Bounded) (hv : p.scroll.v < 0x8000) :
    readData p slot = lift (p.readData slot) := by
  have hscroll : (afterAccess p.scroll p.accessStep : Except (Panic Fault) Scroll) =
      .ok (p.scroll.afterAccess p.accessStep) := afterAccess_eq hv (toNat_accessStep p)
  unfold readData Ppu.readData
  simp only [hscroll, ok_bind]
  refine bind_eq_lift (readMemory_eq hslot _) fun value _ => ?_
  split_ifs with hpalette
  · have hunder : (sub16 (p.scroll.v &&& 0x3FFF) 0x1000 : Except (Panic Fault) UInt16) =
        .ok ((p.scroll.v &&& 0x3FFF) - 0x1000) := by
      rw [UInt16.le_iff_toNat_le] at hpalette
      exact sub16_ok (Nat.le_trans (by decide) hpalette)
    rw [hunder, ok_bind]
    exact bind_eq_lift (readMemory_eq hslot _) fun beneath _ => rfl
  · rfl

theorem peekRegister_eq (p : Ppu) (addr : UInt16) :
    (peekRegister p addr : Except (Panic ε) UInt8) = .ok (p.peek addr) := by
  unfold peekRegister Ppu.peek
  generalize Ppu.registerOf addr = register
  match register with
  | 4 => exact readOam_eq p
  | 0 | 1 | 2 | 3 | 5 | 6 | 7 => rfl
  | _ + 8 => rfl

/-- **A register is read without a panic.** -/
theorem readRegister_eq (hslot : slot.Bounded) (hv : p.scroll.v < 0x8000) (addr : UInt16) :
    readRegister p slot addr = lift (p.readRegister slot addr) := by
  unfold readRegister Ppu.readRegister
  generalize Ppu.registerOf addr = register
  match register with
  | 4 =>
    simp only [readOam_eq]
    rfl
  | 7 => exact bind_eq_lift (readData_eq hslot hv) fun _ _ => rfl
  | 0 | 1 | 2 | 3 | 5 | 6 => rfl
  | _ + 8 => rfl

theorem writeOam_eq (p : Ppu) (value : UInt8) :
    (writeOam p value : Except (Panic ε) Ppu) = .ok (p.writeOam value) := by
  have hset : (set p.oam p.oamAddr.toNat value : Except (Panic ε) ObjectMemory) =
      .ok (p.oam.write p.oamAddr value) := set_fin p.oam p.oamAddr.toFin value
  rw [writeOam, hset]
  rfl

theorem writeData_eq (hslot : slot.Bounded) (hv : p.scroll.v < 0x8000) (value : UInt8) :
    writeData p slot value = lift (p.writeData slot value) := by
  refine bind_eq_lift (writeMemory_eq hslot _ _) fun r hr => ?_
  have hscroll : r.1.scroll = p.scroll := by rw [Ppu.writeMemory_frame hr]
  have hnext : (afterAccess r.1.scroll r.1.accessStep : Except (Panic (Fault × Slot)) Scroll) =
      .ok (r.1.scroll.afterAccess r.1.accessStep) :=
    afterAccess_eq (by rwa [hscroll]) (toNat_accessStep r.1)
  simp only [hnext]
  rfl

/-- **A register is written without a panic.** -/
theorem writeRegister_eq (hslot : slot.Bounded) (hv : p.scroll.v < 0x8000) (addr : UInt16)
    (value : UInt8) : writeRegister p slot addr value = lift (p.writeRegister slot addr value) := by
  unfold writeRegister Ppu.writeRegister
  generalize Ppu.registerOf addr = register
  match register with
  | 4 =>
    simp only [writeOam_eq]
    rfl
  | 7 => exact writeData_eq (p := { p with openBus := value }) hslot hv value
  | 0 | 1 | 2 | 3 | 5 | 6 => rfl
  | _ + 8 => rfl

end NesMachine.Checked
