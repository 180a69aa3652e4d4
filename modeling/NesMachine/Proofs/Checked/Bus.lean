import NesMachine.Proofs.Checked.Machine

/-!
# The bus, checked

Every access of the processor takes a cycle and then reaches a memory, a register or the game; one
write starts a transfer of 512 accesses more.

* `Safe.read`, `Safe.write`: the accesses are exact.
* `peek_eq`: so is a look without a cycle.
-/

namespace NesMachine.Checked

open Board (Fault)

variable {ε : Type} {m m' : Machine} {total : Int}

/-! ## The bus -/

/-- The first of the copies of a register of the picture unit. -/
def busRegister (addr : UInt16) : Except (Panic ε) UInt16 := add16 0x2000 (addr % 8)

def fetchBus (addr : UInt16) : Run UInt8 := fun m =>
  if addr < 0x2000 then do
    let value ← check (crashOf m) (get m.cpu.ram (addr.toNat % 0x800))
    return (value, m)
  else if addr < 0x4000 then do
    let register ← check (crashOf m) (busRegister addr)
    let (value, ppu) ← check (crashOf m) (readRegister m.ppu m.slot register)
    return (value, { m with ppu })
  else if addr = 0x4016 then
    let (value, pad) := m.pad.read
    .ok (value, { m with pad })
  else if addr < 0x4020 then .ok (0, m)
  else do
    let value ← check (crashOf m) (readPrg m.slot addr)
    return (value, m)

def read (addr : UInt16) : Run UInt8 := do
  cycle
  fetchBus addr

def writePpu (addr : UInt16) (value : UInt8) : Run Unit := fun m => do
  let register ← check (crashOf m) (busRegister addr)
  let (ppu, slot) ← check (crashOfWrite m) (writeRegister m.ppu m.slot register value)
  return ((), { m with ppu, slot })

def transferSource (page : UInt8) (k : Nat) : Run UInt16 := fun m => do
  let source ← check (crashOf m) (add16 (page.toUInt16 * 256) (UInt16.ofNat k))
  return (source, m)

def transferBytes (page : UInt8) (k : Nat) : Nat → Run Unit
  | 0 => pure ()
  | count + 1 => do
    let value ← read (← transferSource page k)
    cycle
    writePpu 4 value
    transferBytes page (k + 1) count

def transferObjects (page : UInt8) : Run Unit := do
  idle (if (← MonadState.get).cpu.cycles % 2 = 1 then 2 else 1)
  transferBytes page 0 256

def storeBus (addr : UInt16) (value : UInt8) : Run Unit :=
  if addr < 0x2000 then fun m => do
    let ram ← check (crashOf m) (set m.cpu.ram (addr.toNat % 0x800) value)
    return ((), { m with cpu := { m.cpu with ram } })
  else if addr < 0x4000 then writePpu addr value
  else if addr = 0x4014 then transferObjects value
  else if addr = 0x4016 then modify fun m => { m with pad := m.pad.writeStrobe value }
  else if addr < 0x4020 then pure ()
  else fun m => do
    let slot ← check (crashOfWrite m) (writePrg m.slot addr value)
    return ((), { m with slot })

def write (addr : UInt16) (value : UInt8) : Run Unit := do
  cycle
  storeBus addr value

def peek (m : Machine) (addr : UInt16) : Except (Panic Fault) UInt8 :=
  if addr < 0x2000 then get m.cpu.ram (addr.toNat % 0x800)
  else if addr < 0x4000 then peekRegister m.ppu addr
  else if addr = 0x4016 then .ok m.pad.peek
  else if addr < 0x4020 then .ok 0
  else readPrg m.slot addr

/-! ## Accesses -/

/-- Besides the clock, only the picture unit and the slot matter. -/
theorem Fit.congr (h : Fit total m) (hcpu : m'.cpu = { m.cpu with
      registers := m'.cpu.registers, ram := m'.cpu.ram, nmi := m'.cpu.nmi, irq := m'.cpu.irq })
    (hppu : m'.ppu.InRange) (hslot : m'.slot.Bounded) (hbeam : m'.ppu.beam = m.ppu.beam)
    (hframes : m'.ppu.frameCount = m.ppu.frameCount) :
    Fit total m' ∧ m'.cpu.cycles = m.cpu.cycles := by
  obtain ⟨count, hcount, hafter⟩ := h.count
  refine ⟨⟨hppu, hslot, ?_, ?_, ⟨count, ?_, ?_⟩, h.granted, ?_, ?_⟩, by rw [hcpu]⟩
  all_goals rw [hcpu]
  · exact h.clock
  · exact h.phase
  · exact hcount
  · exact hafter.congr hbeam hframes
  · exact h.budget
  · exact h.remaining

/-- A change that the clock, the picture unit and the slot do not notice. -/
theorem safe_update {change : Machine → Machine}
    (hcpu : ∀ m, (change m).cpu = { m.cpu with
      registers := (change m).cpu.registers, ram := (change m).cpu.ram
      nmi := (change m).cpu.nmi, irq := (change m).cpu.irq })
    (hppu : ∀ m, (change m).ppu = m.ppu) (hslot : ∀ m, (change m).slot = m.slot) :
    Safe (Fit total) (modify change : Machine.Run Unit) (modify change : Run Unit) := by
  refine .modify (fun m hm => ?_) fun m => by rw [hcpu]
  have hkeeps : Fit total (change m) ∧ _ :=
    hm.congr (hcpu m) (by rw [hppu]; exact hm.ppu) (by rw [hslot]; exact hm.slot) (by rw [hppu])
      (by rw [hppu])
  exact hkeeps.1

theorem busRegister_eq (addr : UInt16) :
    (busRegister addr : Except (Panic ε) UInt16) = .ok (0x2000 + addr % 8) := by
  refine add16_ok ?_
  rw [UInt16.toNat_mod]
  show 0x2000 + addr.toNat % 8 < 65536
  omega

theorem registerOf_bus (addr : UInt16) :
    Ppu.registerOf (0x2000 + addr % 8) = Ppu.registerOf addr := by
  have hmask (n : Nat) : n &&& 7 = n % 8 := Nat.and_two_pow_sub_one_eq_mod n 3
  unfold Ppu.registerOf
  rw [UInt16.toNat_and, UInt16.toNat_and, UInt16.toNat_add, UInt16.toNat_mod]
  show ((0x2000 + addr.toNat % 8) % 65536) &&& 7 = addr.toNat &&& 7
  rw [hmask, hmask]
  omega

theorem fetchBus_eq (h : Fit total m) (addr : UInt16) :
    fetchBus addr m = (Machine.fetchBus addr m).mapError .crash := by
  unfold fetchBus Machine.fetchBus
  split_ifs
  · have hram : (get m.cpu.ram (addr.toNat % 0x800) : Except (Panic Fault) UInt8) =
        .ok (m.cpu.readRam addr) := get_fin m.cpu.ram (Cpu.ramCell addr)
    rw [hram]
    rfl
  · have hregister : readRegister m.ppu m.slot (0x2000 + addr % 8) =
        readRegister m.ppu m.slot addr := by
      unfold readRegister
      rw [registerOf_bus]
    rw [busRegister_eq, check_ok, ok_bind, hregister, readRegister_eq h.slot h.ppu.scroll.v,
      check_lift]
    unfold Machine.readPpu
    simp only
    cases m.ppu.readRegister m.slot addr <;> rfl
  · rfl
  · rfl
  · rw [readPrg_eq h.slot, check_lift]
    unfold Machine.readCartridge
    cases m.slot.readPrg addr <;> rfl

theorem Fit.fetchBus {addr : UInt16} {value : UInt8} (h : Fit total m)
    (hrun : Machine.fetchBus addr m = .ok (value, m')) :
    Fit total m' ∧ m'.cpu.cycles = m.cpu.cycles := by
  unfold Machine.fetchBus at hrun
  split_ifs at hrun
  · cases hrun
    exact ⟨h, rfl⟩
  · unfold Machine.readPpu at hrun
    simp only at hrun
    split at hrun
    · rename_i q hread
      have hframe := (Ppu.readRegister_frame hread).1
      cases hrun
      exact h.congr rfl (h.ppu.read hread) h.slot (by rw [hframe]) (by rw [hframe])
    · cases hrun
  · cases hrun
    exact h.congr rfl h.ppu h.slot rfl rfl
  · cases hrun
    exact ⟨h, rfl⟩
  · unfold Machine.readCartridge at hrun
    split at hrun <;> cases hrun
    exact ⟨h, rfl⟩

theorem Safe.read (addr : UInt16) : Safe (Fit total) (Machine.read addr) (read addr) :=
  .bind .cycle fun _ => .of_eq (fun _ hm _ => fetchBus_eq hm addr) fun _ _ _ hm h => hm.fetchBus h

theorem writePpu_eq (h : Fit total m) (addr : UInt16) (value : UInt8) :
    writePpu addr value m = (Machine.writePpu addr value m).mapError .crash := by
  have hregister : writeRegister m.ppu m.slot (0x2000 + addr % 8) value =
      writeRegister m.ppu m.slot addr value := by
    unfold writeRegister
    rw [registerOf_bus]
  unfold writePpu Machine.writePpu
  rw [busRegister_eq, check_ok, ok_bind, hregister, writeRegister_eq h.slot h.ppu.scroll.v,
    check_lift]
  simp only
  cases m.ppu.writeRegister m.slot addr value <;> rfl

/-- A register write reaches the slot through the data register only. -/
theorem writeRegister_bounded {p q : Ppu} {slot slot' : Slot} {addr : UInt16} {value : UInt8}
    (hslot : slot.Bounded) (h : p.writeRegister slot addr value = .ok (q, slot')) :
    slot'.Bounded := by
  have hmemory {r r' : Ppu} {addr : UInt16}
      (hr : r.writeMemory slot addr value = .ok (r', slot')) : slot'.Bounded := by
    unfold Ppu.writeMemory at hr
    simp only at hr
    split_ifs at hr
    · cases hwrite : slot.writeChr (addr &&& 0x3FFF) value with
      | ok s =>
        rw [hwrite] at hr
        cases hr
        exact hslot.writeChr hwrite
      | error e =>
        rw [hwrite] at hr
        cases hr
    · cases hr
      exact hslot
    · cases hr
      exact hslot
  unfold Ppu.writeRegister at h
  simp only at h
  split at h
  case h_7 =>
    obtain ⟨⟨r, s⟩, hr, h⟩ := bind_ok h
    cases h
    exact hmemory hr
  all_goals
    cases h
    exact hslot

theorem Fit.writePpu {addr : UInt16} {value : UInt8} (h : Fit total m)
    (hrun : Machine.writePpu addr value m = .ok ((), m')) :
    Fit total m' ∧ m'.cpu.cycles = m.cpu.cycles := by
  obtain ⟨hwrite, hcpu, -, -, -⟩ := Machine.writePpu_ok hrun
  obtain ⟨⟨hbeam, -, hframes, -⟩, -⟩ := Ppu.writeRegister_frame hwrite
  exact h.congr (by rw [hcpu]) (h.ppu.write hwrite) (writeRegister_bounded h.slot hwrite) hbeam
    hframes

theorem Safe.writePpu (addr : UInt16) (value : UInt8) :
    Safe (Fit total) (Machine.writePpu addr value) (writePpu addr value) :=
  .of_eq (fun _ hm _ => writePpu_eq hm addr value) fun _ _ _ hm h => hm.writePpu h

/-! ## Transfers -/

theorem transferSource_eq (page : UInt8) {k : Nat} (hk : k < 256) (m : Machine) :
    transferSource page k m = .ok (Machine.transferSource page k, m) := by
  have hpage := page.toNat_lt
  have hsum : (page.toUInt16 * 256).toNat + (UInt16.ofNat k).toNat < 65536 := by
    rw [UInt16.toNat_mul, UInt8.toNat_toUInt16, UInt16.toNat_ofNat']
    show page.toNat * 256 % 65536 + k % 65536 < 65536
    omega
  unfold transferSource
  rw [add16_ok hsum]
  rfl

theorem Safe.transferBytes (page : UInt8) (k count : Nat) (hk : k + count ≤ 256) :
    Safe (Fit total) (Machine.transferBytes page k count) (transferBytes page k count) := by
  induction count generalizing k with
  | zero => exact .pure ()
  | succ count ih =>
    have hsource : Safe (Fit total) (Pure.pure (Machine.transferSource page k))
        (transferSource page k) := by
      have hlt : k < 256 := by omega
      refine .of_eq (fun m _ _ => transferSource_eq page hlt m) fun m a m' hm h => ?_
      cases h
      exact ⟨hm, rfl⟩
    have hstep := Safe.bind hsource fun source => Safe.bind (Safe.read source) fun value =>
      Safe.bind Safe.cycle fun _ => Safe.bind (Safe.writePpu 4 value) fun _ => ih (k + 1) (by omega)
    exact hstep

theorem Safe.transferObjects (page : UInt8) :
    Safe (Fit total) (Machine.transferObjects page) (transferObjects page) :=
  .bind .get fun _ => .bind (.idle _) fun _ => .transferBytes page 0 256 (by decide)

/-! ## Writes -/

theorem Safe.storeBus (addr : UInt16) (value : UInt8) :
    Safe (Fit total) (Machine.storeBus addr value) (storeBus addr value) := by
  unfold Machine.storeBus Checked.storeBus
  split_ifs
  · refine .of_eq (fun m _ _ => ?_) fun m a m' hm h => ?_
    · have hram : (set m.cpu.ram (addr.toNat % 0x800) value : Except (Panic Fault) WorkMemory) =
          .ok (m.cpu.writeRam addr value).ram := set_fin m.cpu.ram (Cpu.ramCell addr) value
      rw [hram]
      rfl
    · cases h
      exact hm.congr rfl hm.ppu hm.slot rfl rfl
  · exact .writePpu addr value
  · exact .transferObjects value
  · exact safe_update (fun _ => rfl) (fun _ => rfl) fun _ => rfl
  · exact .pure ()
  · refine .of_eq (fun m _ _ => ?_) fun m a m' hm h => ?_
    · rw [writePrg_eq, check_lift]
      unfold Machine.writeCartridge
      simp only
      cases m.slot.writePrg addr value <;> rfl
    · unfold Machine.writeCartridge at h
      simp only at h
      split at h
      · rename_i hwrite
        cases h
        exact hm.congr rfl hm.ppu (hm.slot.writePrg hwrite) rfl rfl
      · cases h

/-- **A write is exact, with the transfer that it may start.** -/
theorem Safe.write (addr : UInt16) (value : UInt8) :
    Safe (Fit total) (Machine.write addr value) (write addr value) :=
  .bind .cycle fun _ => .storeBus addr value

theorem peek_eq (h : m.slot.Bounded) (addr : UInt16) : peek m addr = lift (m.peek addr) := by
  unfold peek Machine.peek
  split_ifs
  · exact get_fin m.cpu.ram (Cpu.ramCell addr)
  · exact peekRegister_eq m.ppu addr
  · rfl
  · rfl
  · exact readPrg_eq h addr

end NesMachine.Checked
