import NesMachine.Proofs.Board.Access
import NesMachine.Proofs.Machine.Parts
import NesMachine.Proofs.Ppu.Dot

/-!
# Progress

A game whose memories fill the windows they are seen through answers every access, so nothing that
runs on it can fault.

* `Part.progress`: on such a game every run comes to its end.
-/

namespace NesMachine

open Board (Fault fetch place fetch_ok place_ok)

variable {slot : Slot}

/-- A game without banks, whose memories fill their windows. -/
structure Board.Whole (b : Board) : Prop where
  latch : b.latch = .nrom
  prg : b.image.prg.size = 0x4000
  chr : b.image.chr.size = 0x2000
  prgRam : b.image.prgRam.size = 0x2000

/-- A slot with such a game. -/
def Slot.Whole (slot : Slot) : Prop := ∃ board, slot = some board ∧ board.Whole

namespace Board.Whole

variable {b : Board}

theorem chrOffset_lt (h : b.Whole) (addr : UInt16) : b.chrOffset addr < b.image.chr.size := by
  rw [chrOffset, h.latch, h.chr]
  exact Nat.mod_lt _ (by decide)

theorem prgRamOffset_lt (h : b.Whole) (addr : UInt16) :
    b.prgRamOffset addr < b.image.prgRam.size := by
  have hlt : (addr.toNat - 0x6000) % 0x800 < 0x800 := Nat.mod_lt _ (by decide)
  rw [prgRamOffset, prgRamPeriod, h.latch, h.prgRam]
  exact Nat.lt_trans hlt (by decide)

theorem prgOffset_lt (h : b.Whole) (addr : UInt16) : b.prgOffset addr < b.image.prg.size := by
  rw [prgOffset, h.latch, h.prg]
  exact Nat.mod_lt _ (by decide)

theorem readPrg (h : b.Whole) (addr : UInt16) : ∃ value, b.readPrg addr = .ok value := by
  unfold Board.readPrg
  split_ifs
  · exact fetch_ok (h.prgOffset_lt addr)
  · exact fetch_ok (h.prgRamOffset_lt addr)
  · exact ⟨0, rfl⟩

theorem writeChr (h : b.Whole) (addr : UInt16) (value : UInt8) :
    ∃ b', b.writeChr addr value = .ok b' ∧ b'.Whole := by
  obtain ⟨chr', hplace, hsize⟩ := place_ok b.latch.kind .chr value (h.chrOffset_lt addr)
  obtain ⟨hlatch, hprg, hchr, hram⟩ := h
  cases b with
  | mk image latch =>
  unfold Board.writeChr
  split_ifs
  · refine ⟨⟨{ image with chr := chr' }, latch⟩, ?_, hlatch, hprg, hsize.trans hchr, hram⟩
    dsimp only at hplace ⊢
    rw [hplace]
  · exact ⟨_, rfl, hlatch, hprg, hchr, hram⟩

theorem writePrg (h : b.Whole) (addr : UInt16) (value : UInt8) :
    ∃ b', b.writePrg addr value = .ok b' ∧ b'.Whole := by
  obtain ⟨prgRam', hsize, hwrite⟩ := writePrg_ok value (h.prgRamOffset_lt addr)
  obtain ⟨hlatch, hprg, hchr, hram⟩ := h
  refine ⟨_, hwrite, ?_, hprg, hchr, hsize.trans hram⟩
  rw [hlatch]
  exact ite_self _

end Board.Whole

namespace Slot.Whole

theorem readChr (h : slot.Whole) (addr : UInt16) : ∃ value, slot.readChr addr = .ok value := by
  obtain ⟨board, rfl, hboard⟩ := h
  exact fetch_ok (hboard.chrOffset_lt addr)

theorem readable (h : slot.Whole) : slot.Readable := fun addr _ => h.readChr addr

theorem readPrg (h : slot.Whole) (addr : UInt16) : ∃ value, slot.readPrg addr = .ok value := by
  obtain ⟨board, rfl, hboard⟩ := h
  exact hboard.readPrg addr

theorem writeChr (h : slot.Whole) (addr : UInt16) (value : UInt8) :
    ∃ slot', slot.writeChr addr value = .ok slot' ∧ slot'.Whole := by
  obtain ⟨board, rfl, hboard⟩ := h
  obtain ⟨board', hwrite, hwhole⟩ := hboard.writeChr addr value
  refine ⟨some board', ?_, board', rfl, hwhole⟩
  unfold Slot.writeChr
  simp only [hwrite]

theorem writePrg (h : slot.Whole) (addr : UInt16) (value : UInt8) :
    ∃ slot', slot.writePrg addr value = .ok slot' ∧ slot'.Whole := by
  obtain ⟨board, rfl, hboard⟩ := h
  obtain ⟨board', hwrite, hwhole⟩ := hboard.writePrg addr value
  refine ⟨some board', ?_, board', rfl, hwhole⟩
  unfold Slot.writePrg
  simp only [hwrite]

end Slot.Whole

/-! ## Runs -/

namespace Ppu

variable {p : Ppu}

theorem readRegister_progress (h : slot.Whole) (p : Ppu) (addr : UInt16) :
    ∃ r, p.readRegister slot addr = .ok r := by
  unfold readRegister readData
  simp only [readMemory_ok h.readable]
  split
  · exact ⟨_, rfl⟩
  · exact ⟨_, rfl⟩
  · split <;> exact ⟨_, rfl⟩
  · exact ⟨_, rfl⟩

theorem writeMemory_progress (h : slot.Whole) (p : Ppu) (addr : UInt16) (value : UInt8) :
    ∃ q slot', p.writeMemory slot addr value = .ok (q, slot') ∧ slot'.Whole := by
  unfold writeMemory
  simp only
  split_ifs
  · obtain ⟨slot', hwrite, hwhole⟩ := h.writeChr (addr &&& 0x3FFF) value
    exact ⟨p, slot', by rw [hwrite]; rfl, hwhole⟩
  · exact ⟨_, slot, rfl, h⟩
  · exact ⟨_, slot, rfl, h⟩

theorem writeRegister_progress (h : slot.Whole) (p : Ppu) (addr : UInt16) (value : UInt8) :
    ∃ q slot', p.writeRegister slot addr value = .ok (q, slot') ∧ slot'.Whole := by
  unfold writeRegister
  simp only
  split
  case h_7 =>
    unfold writeData
    obtain ⟨q, slot', hwrite, hwhole⟩ := writeMemory_progress h { p with openBus := value }
      (p.scroll.v &&& 0x3FFF) value
    exact ⟨_, slot', by rw [hwrite]; rfl, hwhole⟩
  all_goals exact ⟨_, slot, rfl, h⟩

end Ppu

namespace Machine

variable {α β : Type} {m m₁ m' : Machine} {x : Run α} {f : α → Run β}

theorem writePpu_progress (addr : UInt16) (value : UInt8) (h : m.slot.Whole) :
    ∃ a m', m.writePpu addr value = .ok (a, m') ∧ m'.slot.Whole := by
  obtain ⟨q, slot', hwrite, hwhole⟩ := Ppu.writeRegister_progress h m.ppu addr value
  unfold writePpu
  simp only
  rw [hwrite]
  exact ⟨(), _, rfl, hwhole⟩

theorem dots_progress (n : Nat) (h : m.slot.Readable) :
    ∃ m', dots n m = .ok m' ∧ m'.slot = m.slot := by
  induction n generalizing m with
  | zero => exact ⟨m, rfl, rfl⟩
  | succ n ih =>
    obtain ⟨q, hstep⟩ := Ppu.step_progress h m.ppu
    have hdot : ∃ m₁, m.dot = .ok m₁ ∧ m₁.slot = m.slot := by
      unfold dot
      simp only
      rw [hstep]
      exact ⟨_, rfl, rfl⟩
    obtain ⟨m₁, hdot, hslot⟩ := hdot
    rw [← hslot] at h
    obtain ⟨m', hdots, hslot'⟩ := ih h
    exact ⟨m', by unfold dots; rw [hdot]; exact hdots, hslot'.trans hslot⟩

/-- A cycle passes while every pattern read is answered. -/
theorem cycle_progress (h : m.slot.Readable) : ∃ m', cycle m = .ok ((), m') ∧ m'.slot = m.slot := by
  obtain ⟨m', hdots, hslot⟩ := dots_progress m.cpu.tick.1
    (show { m with cpu := m.cpu.tick.2 }.slot.Readable from h)
  refine ⟨m', ?_, hslot⟩
  unfold cycle
  simp only
  rw [hdots]

theorem Plain.progress (hx : Plain x) (h : m.slot.Whole) :
    ∃ a m', x m = .ok (a, m') ∧ m'.slot.Whole := by
  induction hx generalizing m with
  | pure a => exact ⟨a, m, rfl, h⟩
  | bind _ _ ihx ihf =>
    obtain ⟨a, m₁, hx, hwhole⟩ := ihx h
    obtain ⟨b, m', hf, hwhole'⟩ := ihf a hwhole
    exact ⟨b, m', (run_eq hx).trans hf, hwhole'⟩
  | getCpu => exact ⟨m.cpu, m, rfl, h⟩
  | modifyRegisters f => exact ⟨(), _, rfl, h⟩
  | writeRam addr value => exact ⟨(), _, rfl, h⟩
  | cycle =>
    obtain ⟨m', hcycle, hslot⟩ := cycle_progress h.readable
    exact ⟨(), m', hcycle, by rw [hslot]; exact h⟩
  | readPpu addr =>
    obtain ⟨⟨value, q⟩, hread⟩ := Ppu.readRegister_progress h m.ppu addr
    unfold Machine.readPpu
    simp only
    rw [hread]
    exact ⟨value, _, rfl, h⟩
  | writePpu value _ => exact writePpu_progress _ value h
  | readPad => exact ⟨_, _, rfl, h⟩
  | writeStrobe value => exact ⟨(), _, rfl, h⟩
  | readCartridge addr =>
    obtain ⟨value, hread⟩ := h.readPrg addr
    unfold Machine.readCartridge
    rw [hread]
    exact ⟨value, m, rfl, h⟩
  | writeCartridge addr value =>
    obtain ⟨slot', hwrite, hwhole⟩ := h.writePrg addr value
    unfold Machine.writeCartridge
    simp only
    rw [hwrite]
    exact ⟨(), _, rfl, hwhole⟩

theorem Ending.progress (hx : Ending x) (h : m.slot.Whole) :
    ∃ a m', x m = .ok (a, m') ∧ m'.slot.Whole := by
  induction hx generalizing m with
  | plain hx => exact hx.progress h
  | bind hx _ ih =>
    obtain ⟨a, m₁, hx, hwhole⟩ := hx.progress h
    obtain ⟨b, m', hf, hwhole'⟩ := ih a hwhole
    exact ⟨b, m', (run_eq hx).trans hf, hwhole'⟩
  | writePpu addr value => exact writePpu_progress addr value h

/-- **A game that answers every access runs without a fault, whatever its program is.** -/
theorem Part.progress (hx : Part x) (h : m.slot.Whole) :
    ∃ a m', x m = .ok (a, m') ∧ m'.slot.Whole := by
  induction hx generalizing m with
  | ending hx => exact hx.progress h
  | bind _ _ ihx ihf =>
    obtain ⟨a, m₁, hx, hwhole⟩ := ihx h
    obtain ⟨b, m', hf, hwhole'⟩ := ihf a hwhole
    exact ⟨b, m', (run_eq hx).trans hf, hwhole'⟩
  | lower => exact ⟨(), _, rfl, h⟩
  | report notice => exact ⟨(), _, rfl, h⟩
  | allot => exact ⟨(), _, rfl, h⟩

/-- A machine with a game of nothing but zeros. -/
def zeros : Machine :=
  { slot := some {
      image := {
        header := {
          format := .ines
          mapper := 0
          mirroring := .vertical
          hasBattery := false
          hasTrainer := false
          tv := .ntsc
          prgSize := 0x4000
          chrSize := 0
          prgRamSize := 0x2000 }
        prg := Array.replicate 0x4000 0
        chr := Array.replicate 0x2000 0
        chrIsRam := true
        prgRam := Array.replicate 0x2000 0 }
      latch := .nrom } }

theorem zeros_whole : zeros.slot.Whole :=
  ⟨_, rfl, rfl, Array.size_replicate, Array.size_replicate, Array.size_replicate⟩

end Machine

end NesMachine
