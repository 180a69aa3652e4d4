import NesMachine.Proofs.Machine.Memory
import NesMachine.Proofs.Machine.Progress
import NesMachine.Proofs.Ppu.Holdings

/-!
# The transfer of object memory

A write at `$4014` copies a page into object memory, byte by byte over the bus, while the picture unit
runs along and reads the memory that is being filled.

* `Reaches`: what a run comes to, unless the picture unit cannot read a pattern.
* `Copied.write`, `Copied.transferBytes`: one byte more, and all that are left.
* `Acts.passing`: the dots of a run are those of its cycles.
* **`transfer_exact`**: what a transfer copies, what it leaves alone and how long it takes.
-/

namespace NesMachine

/-! ## Dots in a number of cycles -/

/-- The dots that pass in the next cycles. -/
def Cpu.passing : Nat → Cpu → Nat
  | 0, _ => 0
  | n + 1, c => c.tick.1 + passing n c.tick.2

/-- They depend on the television system and on its extra dots. -/
theorem Cpu.passing_congr {c c' : Cpu} (htv : c'.tv = c.tv) (hpal : c'.palPhase = c.palPhase)
    (n : Nat) : c'.passing n = c.passing n := by
  induction n generalizing c c' with
  | zero => rfl
  | succ n ih =>
    have htick : c'.tick.1 = c.tick.1 ∧ c'.tick.2.tv = c.tick.2.tv ∧
        c'.tick.2.palPhase = c.tick.2.palPhase := by
      unfold tick
      rw [htv, hpal]
      cases c.tv <;> exact ⟨rfl, rfl, rfl⟩
    obtain ⟨hdots, htv', hpal'⟩ := htick
    rw [passing, passing, hdots, ih htv' hpal']

/-! ## Object memory -/

namespace ObjectMemory

variable (oam : ObjectMemory) (value : UInt8) {addr addr' : UInt8}

theorem read_write : (oam.write addr value).read addr = value :=
  Vector.getElem_set_self addr.toNat_lt

theorem read_write_other (h : addr ≠ addr') :
    (oam.write addr value).read addr' = oam.read addr' := by
  have hne : addr.toNat ≠ addr'.toNat := fun heq => h (UInt8.toNat_inj.mp heq)
  exact Vector.getElem_set_ne addr.toNat_lt addr'.toNat_lt hne

end ObjectMemory

namespace Machine

variable {α β : Type} {m m' m₀ : Machine} {x : Run α} {f : α → Run β} {slot : Slot}

theorem Acts.passing {es : List Event} (h : Acts m es m') : ∃ n,
    m'.cpu.cycles = m.cpu.cycles + n ∧ (dotsOf es).length = m.cpu.passing n := by
  induction h with
  | nil => exact ⟨0, rfl, rfl⟩
  | @cons m m₁ m' e es hact _ ih =>
    obtain ⟨n, hcycles, hlength⟩ := ih
    rw [dotsOf_cons, List.length_append, hlength, hcycles]
    have hsame (hdots : e.dots = []) (hcpu : m₁.cpu.cycles = m.cpu.cycles ∧
        m₁.cpu.tv = m.cpu.tv ∧ m₁.cpu.palPhase = m.cpu.palPhase) :
        ∃ k, m₁.cpu.cycles + n = m.cpu.cycles + k ∧
          e.dots.length + m₁.cpu.passing n = m.cpu.passing k :=
      ⟨n, by rw [hcpu.1], by
        rw [hdots, Cpu.passing_congr hcpu.2.1 hcpu.2.2, List.length_nil, Nat.zero_add]⟩
    cases hact with
    | cycle hdots hticks =>
      have hcpu := hdots.cpu.1
      have htick : m.cpu.tick.2.cycles = m.cpu.cycles + 1 := by
        unfold Cpu.tick
        cases m.cpu.tv <;> rfl
      refine ⟨n + 1, ?_, ?_⟩
      · rw [hcpu]
        show m.cpu.tick.2.cycles + n = _
        omega
      · have hpassing : m₁.cpu.passing n = m.cpu.tick.2.passing n := by
          rw [hcpu]
          refine Cpu.passing_congr ?_ ?_ n <;> rfl
        rw [hpassing, Cpu.passing, ← hticks]
        rfl
    | read hread => exact hsame rfl (by simp [(readPpu_ok hread).2.cpu])
    | write hwrite => exact hsame rfl (by simp [(writePpu_ok hwrite).2.cpu])
    | lower => exact hsame rfl ⟨rfl, rfl, rfl⟩
    | report => exact hsame rfl ⟨rfl, rfl, rfl⟩
    | hand => exact hsame rfl ⟨rfl, rfl, rfl⟩
    | quiet hquiet => exact hsame rfl ⟨hquiet.cycles, hquiet.tv, hquiet.palPhase⟩

/-! ## Runs that reach a state -/

/-- Unless the picture unit cannot read a pattern, a run comes to an end that has a property. -/
def Reaches (slot : Slot) (x : Run α) (m : Machine) (P : α → Machine → Prop) : Prop :=
  (¬ slot.Readable ∧ PatternFault x m) ∨ ∃ a m', x m = .ok (a, m') ∧ P a m'

namespace Reaches

variable {P : α → Machine → Prop} {Q : β → Machine → Prop}

theorem pure {a : α} (h : P a m) : Reaches slot (Pure.pure a) m P := .inr ⟨a, m, rfl, h⟩

theorem imp {P' : α → Machine → Prop} (h : Reaches slot x m P) (hP : ∀ a m', P a m' → P' a m') :
    Reaches slot x m P' :=
  h.imp_right fun ⟨a, m', hrun, ha⟩ => ⟨a, m', hrun, hP a m' ha⟩

theorem bind (hx : Reaches slot x m P) (hf : ∀ a m', P a m' → Reaches slot (f a) m' Q) :
    Reaches slot (x >>= f) m Q := by
  rcases hx with ⟨hslot, crash, hcrash, hregion⟩ | ⟨a, m₁, hrun, hP⟩
  · exact .inl ⟨hslot, crash, run_error hcrash, hregion⟩
  · rcases hf a m₁ hP with ⟨hslot, crash, hcrash, hregion⟩ | ⟨b, m', hrest, hQ⟩
    · exact .inl ⟨hslot, crash, (run_eq hrun).trans hcrash, hregion⟩
    · exact .inr ⟨b, m', (run_eq hrun).trans hrest, hQ⟩

end Reaches

/-- Only a game with a pattern missing ends a cycle. -/
theorem cycle_unreadable (h : PatternFault cycle m) : ¬ m.slot.Readable := by
  intro hreadable
  obtain ⟨crash, hcrash, -⟩ := h
  obtain ⟨m', hcycle, -⟩ := cycle_progress hreadable
  rw [hcycle] at hcrash
  cases hcrash

/-! ## What a cycle leaves alone -/

theorem dot_held (h : m.dot = .ok m') : m'.slot = m.slot ∧ m'.pad = m.pad ∧
    m'.ppu.holdings = { m.ppu.holdings with scroll.v := m'.ppu.scroll.v } := by
  obtain ⟨q, hstep, rfl⟩ := dot_ok h
  have hheld := Ppu.step_holdings hstep
  exact ⟨rfl, rfl, hheld⟩

theorem Dots.held {ds : List Dot} (h : Dots m ds m') : m'.slot = m.slot ∧ m'.pad = m.pad ∧
    m'.ppu.holdings = { m.ppu.holdings with scroll.v := m'.ppu.scroll.v } := by
  induction h with
  | nil => exact ⟨rfl, rfl, rfl⟩
  | cons hdot _ ih =>
    obtain ⟨hslot, hpad, hheld⟩ := dot_held hdot
    obtain ⟨hslot', hpad', hheld'⟩ := ih
    refine ⟨hslot'.trans hslot, hpad'.trans hpad, ?_⟩
    rw [hheld', hheld]

/-- While a page is copied: the memories of the processor and the pad are as they were, and of what
the picture unit holds nothing changes but the counter and object memory, into which the first bytes
are copied. -/
structure Copied (m₀ : Machine) (byte : Nat → UInt8) (k : Nat) (m : Machine) : Prop where
  store : m.store = m₀.store
  pad : m.pad = m₀.pad
  held : m.ppu.holdings = { m₀.ppu.holdings with
    scroll.v := m.ppu.scroll.v
    oamAddr := m₀.ppu.oamAddr + UInt8.ofNat k
    oam := m.ppu.oam }
  copied : ∀ i < k, m.ppu.oam.read (m₀.ppu.oamAddr + UInt8.ofNat i) = byte i

namespace Copied

variable {byte : Nat → UInt8} {k : Nat} {page : UInt8}

theorem none (m : Machine) (byte : Nat → UInt8) : Copied m byte 0 m :=
  ⟨rfl, rfl, by simp [Ppu.holdings], fun i hi => absurd hi (Nat.not_lt_zero i)⟩

theorem cycle (h : Copied m₀ byte k m) :
    Reaches m₀.slot Machine.cycle m fun _ m' => Copied m₀ byte k m' := by
  have hslot : m.slot = m₀.slot := congrArg Prod.snd h.store
  rcases cycle_calm m with hfault | ⟨m', hcycle, hstore, -, -⟩
  · exact .inl ⟨hslot ▸ cycle_unreadable hfault, hfault⟩
  · refine .inr ⟨(), m', hcycle, ?_⟩
    obtain ⟨ds, hact⟩ := cycle_ok hcycle
    cases hact with
    | cycle hdots _ =>
      obtain ⟨-, hpad, hheld⟩ := hdots.held
      have hoam : m'.ppu.oam = m.ppu.oam := congrArg Ppu.Holdings.oam hheld
      refine ⟨hstore.trans h.store, hpad.trans h.pad, ?_, fun i hi => ?_⟩
      · rw [hheld, hoam]
        show { m.ppu.holdings with scroll.v := m'.ppu.scroll.v } = _
        rw [h.held]
      · rw [hoam]
        exact h.copied i hi

theorem idle (n : Nat) (h : Copied m₀ byte k m) :
    Reaches m₀.slot (Machine.idle n) m fun _ m' => Copied m₀ byte k m' := by
  induction n generalizing m with
  | zero => exact .pure h
  | succ n ih => exact h.cycle.bind fun _ _ h => ih h

/-- A read of the page delivers what it delivered before. -/
theorem read {addr : UInt16} {value : UInt8} (h : Copied m₀ byte k m)
    (hholds : Store.holds addr.toNat) (hread : m₀.store.read addr = .ok value) :
    Reaches m₀.slot (Machine.read addr) m fun a m' => a = value ∧ Copied m₀ byte k m' := by
  refine h.cycle.bind fun _ m₁ h₁ => .inr ⟨value, m₁, ?_, rfl, h₁⟩
  rw [← h₁.store] at hread
  exact fetchBus_calm hholds hread

/-- A byte goes where the address of object memory points, and moves it on. -/
theorem write (h : Copied m₀ byte k m) (hk : k < 256) :
    Reaches m₀.slot (writePpu 4 (byte k)) m fun _ m' => Copied m₀ byte (k + 1) m' := by
  have hwrite : m.ppu.writeRegister m.slot 4 (byte k) =
      .ok ({ m.ppu with openBus := byte k }.writeOam (byte k), m.slot) :=
    Ppu.writeRegister_objects (by decide)
  have haddr : m.ppu.oamAddr = m₀.ppu.oamAddr + UInt8.ofNat k := congrArg Ppu.Holdings.oamAddr h.held
  have hnext : m.ppu.oamAddr + 1 = m₀.ppu.oamAddr + UInt8.ofNat (k + 1) := by
    rw [haddr, UInt8.add_assoc, UInt8.ofNat_add]
    rfl
  refine .inr ⟨(), { m with ppu := { m.ppu with openBus := byte k }.writeOam (byte k) }, ?_,
    h.store, h.pad, ?_, fun i hi => ?_⟩
  · unfold writePpu
    simp only [hwrite]
  · show { m.ppu.holdings with
        oamAddr := m.ppu.oamAddr + 1, oam := m.ppu.oam.write m.ppu.oamAddr (byte k) } = _
    rw [hnext, h.held]
    rfl
  · show (m.ppu.oam.write m.ppu.oamAddr (byte k)).read _ = _
    by_cases hlast : i = k
    · subst hlast
      rw [haddr, ObjectMemory.read_write]
    · have hother : m.ppu.oamAddr ≠ m₀.ppu.oamAddr + UInt8.ofNat i := by
        rw [haddr, ne_eq, UInt8.add_right_inj, ← UInt8.toNat_inj, UInt8.toNat_ofNat',
          UInt8.toNat_ofNat']
        omega
      rw [ObjectMemory.read_write_other _ _ hother]
      exact h.copied i (by omega)

/-- The bytes that are left follow one by one. -/
theorem transferBytes (count : Nat) (h : Copied m₀ byte k m) (hk : k + count = 256)
    (hholds : ∀ i < 256, Store.holds (transferSource page i).toNat)
    (hread : ∀ i < 256, m₀.store.read (transferSource page i) = .ok (byte i)) :
    Reaches m₀.slot (Machine.transferBytes page k count) m fun _ m' => Copied m₀ byte 256 m' := by
  -- on the bytes that are left: `Copied` says what those before them have come to
  induction count generalizing k m with
  | zero =>
    obtain rfl : k = 256 := hk
    exact .pure h
  | succ count ih =>
    have hlt : k < 256 := by omega
    refine (h.read (hholds k hlt) (hread k hlt)).bind fun value m₁ ⟨hvalue, h₁⟩ => ?_
    subst hvalue
    exact h₁.cycle.bind fun _ _ h₂ => (h₂.write hlt).bind fun _ _ h₃ => ih h₃ (by omega)

/-- A whole transfer, with the cycles it waits for. -/
theorem transferObjects (h : Copied m₀ byte 0 m)
    (hholds : ∀ i < 256, Store.holds (transferSource page i).toNat)
    (hread : ∀ i < 256, m₀.store.read (transferSource page i) = .ok (byte i)) :
    Reaches m₀.slot (Machine.transferObjects page) m fun _ m' => Copied m₀ byte 256 m' :=
  (h.idle (if m.cpu.cycles % 2 = 1 then 2 else 1)).bind fun _ _ h₁ =>
    h₁.transferBytes 256 rfl hholds hread

end Copied

/-! ## The transfer -/

theorem transferSource_eq (page : UInt8) (i : Nat) :
    transferSource page i = UInt16.ofNat (256 * page.toNat + i) := by
  unfold transferSource
  rw [UInt16.ofNat_add, UInt16.ofNat_mul, UInt16.mul_comm]
  simp

theorem transferSource_holds {page : UInt8} {i : Nat} (hpage : page < 0x20 ∨ 0x41 ≤ page)
    (hi : i < 256) : Store.holds (transferSource page i).toNat := by
  have hlt := page.toNat_lt
  rw [UInt8.lt_iff_toNat_lt, UInt8.le_iff_toNat_le] at hpage
  simp only [UInt8.reduceToNat] at hpage
  rw [transferSource_eq, UInt16.toNat_ofNat']
  unfold Store.holds
  omega

/-- What a transfer does: it copies the page, from the address of object memory on; nothing else that
is stored or held changes, but for the counter of the picture unit; and the picture unit does the dots
of the cycles it takes. -/
structure Transferred (byte : Nat → UInt8) (m m' : Machine) : Prop where
  copied : ∀ i < 256, m'.ppu.oam.read (m.ppu.oamAddr + UInt8.ofNat i) = byte i
  held : m'.ppu.holdings =
    { m.ppu.holdings with scroll.v := m'.ppu.scroll.v, oam := m'.ppu.oam }
  ram : m'.cpu.ram = m.cpu.ram
  slot : m'.slot = m.slot
  pad : m'.pad = m.pad
  registers : m'.cpu.registers = m.cpu.registers
  cycles : m'.cpu.cycles = m.cpu.cycles + 1 + if m.cpu.cycles % 2 = 1 then 513 else 514
  dots : ∃ es, Acts m es m' ∧
    (dotsOf es).length = m.cpu.passing (1 + if m.cpu.cycles % 2 = 1 then 513 else 514)

/-- **A transfer is exact**, unless the picture unit cannot read a pattern on the way. The page may be
any of work memory or of the cartridge, if all its bytes can be read. -/
theorem transfer_exact {page : UInt8} {byte : Nat → UInt8} (hpage : page < 0x20 ∨ 0x41 ≤ page)
    (hbyte : ∀ i < 256,
      (fetchBus (UInt16.ofNat (256 * page.toNat + i)) m).map Prod.fst = .ok (byte i)) :
    (¬ m.slot.Readable ∧ PatternFault (write 0x4014 page) m) ∨
      ∃ m', write 0x4014 page m = .ok ((), m') ∧ Transferred byte m m' := by
  have hholds := fun i (hi : i < 256) => transferSource_holds hpage hi
  have hread : ∀ i < 256, m.store.read (transferSource page i) = .ok (byte i) := fun i hi =>
    store_read (hholds i hi) (by rw [transferSource_eq]; exact hbyte i hi)
  have hrun : Reaches m.slot (write 0x4014 page) m fun _ m' => Copied m byte 256 m' :=
    (Copied.none m byte).cycle.bind fun _ _ h => h.transferObjects hholds hread
  refine hrun.imp_right fun ⟨_, m', hwrite, hdone⟩ => ⟨m', hwrite, ?_⟩
  obtain ⟨hcycles, hregisters⟩ := Code.write_ok hwrite
  obtain ⟨es, hacts, -⟩ := (Ending.write 0x4014 page).acts hwrite
  obtain ⟨n, hn, hdots⟩ := hacts.passing
  have hcount : m'.cpu.cycles =
      m.cpu.cycles + 1 + if m.cpu.cycles % 2 = 1 then 513 else 514 := by
    rw [hcycles, Code.counted, if_pos rfl]
    split <;> omega
  refine ⟨hdone.copied, ?_, congrArg Prod.fst hdone.store, congrArg Prod.snd hdone.store,
    hdone.pad, hregisters, hcount, es, hacts, ?_⟩
  · have hround : m.ppu.oamAddr + UInt8.ofNat 256 = m.ppu.oamAddr := UInt8.add_zero _
    rw [hdone.held, hround]
    rfl
  · rw [hdots]
    congr 1
    omega

/-- A machine whose work memory counts up. -/
def ramp : Machine :=
  { zeros with cpu.ram := Vector.ofFn fun i => UInt8.ofNat i.val }

/-- The third page of that memory, copied at power-on. -/
theorem transfer_exact_ramp : ∃ m', write 0x4014 2 ramp = .ok ((), m') ∧
    m'.ppu.oam.read 0x41 = 0x41 ∧ m'.cpu.cycles = 515 := by
  have hbyte : ∀ i < 256, (fetchBus (UInt16.ofNat (256 * (2 : UInt8).toNat + i)) ramp).map
      Prod.fst = .ok (UInt8.ofNat i) := by
    intro i hi
    generalize haddr : UInt16.ofNat (256 * (2 : UInt8).toNat + i) = addr
    have hnat : addr.toNat = 512 + i := by
      rw [← haddr, UInt16.toNat_ofNat']
      exact Nat.mod_eq_of_lt (show 512 + i < 65536 by omega)
    have hram : addr < 0x2000 := by
      rw [UInt16.lt_iff_toNat_lt, hnat]
      exact show 512 + i < 8192 by omega
    have hcell : UInt8.ofNat (addr.toNat % 0x800) = UInt8.ofNat i := by
      rw [hnat, ← UInt8.toNat_inj, UInt8.toNat_ofNat', UInt8.toNat_ofNat']
      omega
    unfold fetchBus
    rw [if_pos hram, ← hcell]
    exact congrArg Except.ok (Vector.getElem_ofFn (Cpu.ramCell addr).isLt)
  rcases transfer_exact (.inl (by decide)) hbyte with ⟨hslot, -⟩ | ⟨m', hwrite, hdone⟩
  · exact absurd zeros_whole.readable hslot
  · exact ⟨m', hwrite, hdone.copied 0x41 (by decide), hdone.cycles⟩

end Machine

end NesMachine
