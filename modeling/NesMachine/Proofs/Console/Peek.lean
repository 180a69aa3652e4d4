import NesMachine.Console.Basic
import NesMachine.Proofs.Machine.Acts
import NesMachine.Proofs.Machine.Progress
import NesMachine.Proofs.Ppu.DataPort

/-!
# Looking at the address space

A look at an address takes no cycle and changes nothing. It shows what a read would deliver, but for
the data register: a read there delivers the colour if the address behind it is a palette's, and may
fault on a pattern, while a look always shows the read buffer.

* `Ppu.readRegister_value`: what a register read delivers, in terms of what a look shows.
* `peek_exact`: looks and reads compared at every address.
-/

namespace NesMachine

open Board (Fault)

namespace Ppu

variable {p q : Ppu} {slot : Slot} {addr : UInt16} {value : UInt8} {fault : Fault}

/-- The address behind the data register. -/
def dataAddress (p : Ppu) : UInt16 := p.scroll.v &&& 0x3FFF

/-- A read of the register delivers a colour, which does not go through the read buffer. -/
def DeliversColour (p : Ppu) (addr : UInt16) : Prop :=
  registerOf addr = 7 ∧ 0x3F00 ≤ p.dataAddress

theorem readMemory_palette (slot : Slot) (h : 0x3F00 ≤ p.dataAddress) :
    p.readMemory slot p.dataAddress = .ok (p.readPalette p.dataAddress) :=
  readMemory_colour slot h (masked_lt p.scroll.v)

/-- What the data register delivers: a colour, or what the buffer held before the read. -/
theorem readData_value (h : p.readData slot = .ok (value, q)) :
    value = if 0x3F00 ≤ p.dataAddress then p.readPalette p.dataAddress else p.readBuffer := by
  obtain ⟨byte, hbyte, h⟩ := bind_ok h
  split at h
  · rename_i hpalette
    obtain ⟨beneath, -, h⟩ := bind_ok h
    have hcolour := hbyte.symm.trans (readMemory_palette slot hpalette)
    cases h
    cases hcolour
    exact (if_pos hpalette).symm
  · rename_i hbuffered
    cases h
    exact (if_neg hbuffered).symm

/-- **What a register read delivers.** -/
theorem readRegister_value (h : p.readRegister slot addr = .ok (value, q)) :
    (p.DeliversColour addr → value = p.readPalette p.dataAddress) ∧
      (¬ p.DeliversColour addr → value = p.peek addr) := by
  unfold readRegister at h
  simp only at h
  split at h
  all_goals
    rename_i hregister
    obtain ⟨⟨byte, r⟩, hbyte, h⟩ := bind_ok h
    cases h
  · cases hbyte
    simp [DeliversColour, peek, hregister]
  · cases hbyte
    simp [DeliversColour, peek, hregister]
  · rw [readData_value hbyte]
    simp only [DeliversColour, peek, hregister, true_and]
    exact ⟨fun hpalette => if_pos hpalette, fun hbuffered => if_neg hbuffered⟩
  · cases hbyte
    exact ⟨fun hcolour => (hregister hcolour.1).elim, fun _ => by simp [peek, *]⟩

/-- Only the data register can fault, and a look at it shows the buffer. -/
theorem readRegister_fault (h : p.readRegister slot addr = .error fault) :
    registerOf addr = 7 ∧ p.peek addr = p.readBuffer := by
  unfold readRegister at h
  simp only at h
  split at h
  · cases h
  · cases h
  · rename_i hregister
    exact ⟨hregister, by simp [peek, hregister]⟩
  · cases h

end Ppu

theorem Pad.read_value (pad : Pad) : pad.read.1 = pad.peek := by
  unfold Pad.read Pad.peek
  split_ifs <;> rfl

namespace Machine

variable {m m' : Machine} {addr : UInt16} {value : UInt8} {crash : Crash}

/-- A copy of the data register. -/
def IsData (addr : UInt16) : Prop := 0x2000 ≤ addr ∧ addr < 0x4000 ∧ Ppu.registerOf addr = 7

/-- A read at an address delivers a colour. -/
def DeliversColour (m : Machine) (addr : UInt16) : Prop :=
  IsData addr ∧ 0x3F00 ≤ m.ppu.dataAddress

theorem deliversColour_iff (hlow : ¬ addr < 0x2000) (hhigh : addr < 0x4000) :
    m.DeliversColour addr ↔ m.ppu.DeliversColour addr := by
  unfold DeliversColour Ppu.DeliversColour IsData
  simp [UInt16.not_lt.mp hlow, hhigh]

theorem not_deliversColour (h : addr < 0x2000 ∨ ¬ addr < 0x4000) : ¬ m.DeliversColour addr := by
  rintro ⟨⟨hlow, hhigh, -⟩, -⟩
  rcases h with h | h
  · exact UInt16.not_le.mpr h hlow
  · exact h hhigh

/-- **What a read delivers**, region by region. -/
theorem fetchBus_value (h : fetchBus addr m = .ok (value, m')) :
    (¬ m.DeliversColour addr → m.peek addr = .ok value) ∧
      (m.DeliversColour addr → value = m.ppu.readPalette m.ppu.dataAddress ∧
        m.peek addr = .ok m.ppu.readBuffer) := by
  unfold fetchBus at h
  unfold peek
  split_ifs at h ⊢ with hram hppu hpad hunwired
  · cases h
    exact ⟨fun _ => rfl, fun hcolour => (not_deliversColour (.inl hram) hcolour).elim⟩
  · rw [deliversColour_iff hram hppu]
    obtain ⟨hcolour, hother⟩ := Ppu.readRegister_value (readPpu_ok h).1
    refine ⟨fun hnot => by rw [hother hnot], fun hdelivers => ⟨hcolour hdelivers, ?_⟩⟩
    simp [Ppu.peek, hdelivers.1]
  · cases h
    exact ⟨fun _ => congrArg Except.ok (Pad.read_value m.pad).symm, fun hcolour =>
      (not_deliversColour (.inr hppu) hcolour).elim⟩
  · cases h
    exact ⟨fun _ => rfl, fun hcolour => (not_deliversColour (.inr hppu) hcolour).elim⟩
  · unfold readCartridge at h
    split at h
    · rename_i hread
      cases h
      exact ⟨fun _ => hread, fun hcolour => (not_deliversColour (.inr hppu) hcolour).elim⟩
    · cases h

/-- A read faults on the cartridge, and a look with it; or on a pattern behind the data register. -/
theorem fetchBus_fault (h : fetchBus addr m = .error crash) :
    (IsData addr ∧ m.peek addr = .ok m.ppu.readBuffer) ∨ m.peek addr = .error crash.fault := by
  unfold fetchBus at h
  unfold peek
  split_ifs at h ⊢ with hram hppu hpad hunwired
  · cases h
  · unfold readPpu at h
    simp only at h
    split at h
    · cases h
    · rename_i hread
      obtain ⟨hregister, hbuffer⟩ := Ppu.readRegister_fault hread
      exact .inl ⟨⟨UInt16.not_lt.mp hram, hppu, hregister⟩, by rw [hbuffer]⟩
  · cases h
  · cases h
  · unfold readCartridge at h
    split at h
    · cases h
    · rename_i hread
      cases h
      exact .inr hread

end Machine

namespace Console

open Machine (fetchBus storeBus)

/-- **Looks and reads compared.** A look shows the byte that a read delivers, or the fault it ends
with, at every address but the copies of the data register. There it shows the read buffer, which is
what a read delivers unless the address behind the register is a palette's or faults. -/
theorem peek_exact (c : Console) (addr : UInt16) :
    (∀ value m', fetchBus addr c.machine = .ok (value, m') →
      (¬ c.machine.DeliversColour addr → c.peek addr = .ok value) ∧
      (c.machine.DeliversColour addr →
        value = c.machine.ppu.readPalette c.machine.ppu.dataAddress ∧
          c.peek addr = .ok c.machine.ppu.readBuffer)) ∧
    (∀ crash, fetchBus addr c.machine = .error crash →
      (Machine.IsData addr ∧ c.peek addr = .ok c.machine.ppu.readBuffer) ∨
        c.peek addr = .error ⟨.board crash.fault, c.cartridge⟩) := by
  unfold peek
  constructor
  · intro value m' h
    obtain ⟨hother, hcolour⟩ := Machine.fetchBus_value h
    refine ⟨fun hnot => by rw [hother hnot]; rfl, fun hdelivers => ?_⟩
    obtain ⟨hvalue, hbuffer⟩ := hcolour hdelivers
    exact ⟨hvalue, by rw [hbuffer]; rfl⟩
  · intro crash h
    rcases Machine.fetchBus_fault h with ⟨hdata, hbuffer⟩ | hfault
    · exact .inl ⟨hdata, by rw [hbuffer]; rfl⟩
    · exact .inr (by rw [hfault]; rfl)

/-- Colour `$2A` is written to the first cell of the palettes, and the address is set back to it. -/
def paintCell : Machine.Run Unit := do
  storeBus 0x2006 0x3F
  storeBus 0x2006 0x00
  storeBus 0x2007 0x2A
  storeBus 0x2006 0x3F
  storeBus 0x2006 0x00

/-- Behind these writes, a look at `$3FFF` on a copy of the data register, and one at the status
register next to the first copy. -/
theorem peek_exact_painted : ∃ m m₁ m₂ : Machine, ∃ value : UInt8,
    paintCell Machine.zeros = .ok ((), m) ∧
    fetchBus 0x3FFF m = .ok (0x2A, m₁) ∧ m.DeliversColour 0x3FFF ∧
    ({ machine := m } : Console).peek 0x3FFF = .ok m.ppu.readBuffer ∧
    fetchBus 0x2002 m = .ok (value, m₂) ∧ ¬ m.DeliversColour 0x2002 ∧
    ({ machine := m } : Console).peek 0x2002 = .ok value := by
  refine ⟨_, _, _, _, rfl, rfl, ?_, ?_, rfl, ?_, ?_⟩
  · exact ⟨⟨by decide, by decide, by decide⟩, by decide⟩
  · exact (((peek_exact _ 0x3FFF).1 _ _ rfl).2
      ⟨⟨by decide, by decide, by decide⟩, by decide⟩).2
  · exact fun hcolour => absurd hcolour.1.2.2 (by decide)
  · exact ((peek_exact _ 0x2002).1 _ _ rfl).1 fun hcolour => absurd hcolour.1.2.2 (by decide)

/-- **A look at the data register is not what a read delivers.** -/
theorem peek_ne_read : ∃ m : Machine, paintCell Machine.zeros = .ok ((), m) ∧
    (∃ m', fetchBus 0x2007 m = .ok (0x2A, m')) ∧
    ({ machine := m } : Console).peek 0x2007 = .ok 0 :=
  ⟨_, rfl, ⟨_, rfl⟩, rfl⟩

end Console

end NesMachine
