import NesMachine.Proofs.Machine.Memory
import NesMachine.Proofs.Machine.Status
import NesMachine.Proofs.Machine.Timing

/-!
# Interrupt handlers

An interrupt leaves three bytes on the stack, and the return from it takes them back. The stack is a
page of work memory that the pointer wraps around in.

* `Code.stores`, `Code.reads_slot`: what a run leaves in memory and reads of the cartridge, from its log.
* `service_ok`, `softwareInterrupt_ok`: what an interrupt leaves on the stack.
* `returns`: a handler that does nothing but return is not noticed.
-/

namespace NesMachine.Machine

open Cpu (Registers Flag)

variable {α : Type} {m m' m₁ : Machine} {x : Run α}

/-! ## The stack -/

/-- The byte of the stack that a pointer points at. -/
def stackByte (ram : WorkMemory) (sp : UInt8) : UInt8 := ram.get (Cpu.ramCell (stackAddress sp))

/-- Work memory with such a byte replaced. -/
def setStackByte (ram : WorkMemory) (sp value : UInt8) : WorkMemory :=
  ram.set (Cpu.ramCell (stackAddress sp)).val value (Cpu.ramCell (stackAddress sp)).isLt

section Stack

variable (ram : WorkMemory) (value : UInt8) {sp sp' : UInt8} {i : Fin 0x800}

theorem val_stackCell (sp : UInt8) : (Cpu.ramCell (stackAddress sp)).val = 256 + sp.toNat := by
  have hlt := sp.toNat_lt
  show (stackAddress sp).toNat % 0x800 = _
  rw [toNat_stackAddress]
  omega

theorem get_setStackByte_other (h : i.val ≠ 256 + sp.toNat) :
    (setStackByte ram sp value).get i = ram.get i := by
  show (ram.set _ value _)[i.val] = ram[i.val]
  rw [← val_stackCell] at h
  simp [h.symm]

theorem stackByte_setStackByte : stackByte (setStackByte ram sp value) sp = value := by
  show (ram.set _ value _)[(Cpu.ramCell (stackAddress sp)).val] = value
  simp

theorem stackByte_setStackByte_other (h : sp' ≠ sp) :
    stackByte (setStackByte ram sp value) sp' = stackByte ram sp' := by
  refine get_setStackByte_other ram value fun heq => h ?_
  rw [val_stackCell] at heq
  exact UInt8.toNat_inj.mp (by omega)

end Stack

/-- Work memory behind an interrupt: the program counter and the status register on the stack. -/
def interrupted (ram : WorkMemory) (sp : UInt8) (pc : UInt16) (status : UInt8) : WorkMemory :=
  setStackByte (setStackByte (setStackByte ram sp (pc >>> 8).toUInt8) (sp - 1) pc.toUInt8)
    (sp - 1 - 1) status

section Interrupted

variable (ram : WorkMemory) (sp : UInt8) (pc : UInt16) (status : UInt8)

theorem interrupted_status : stackByte (interrupted ram sp pc status) (sp - 1 - 1) = status :=
  stackByte_setStackByte _ _

theorem interrupted_low : stackByte (interrupted ram sp pc status) (sp - 1) = pc.toUInt8 := by
  unfold interrupted
  rw [stackByte_setStackByte_other _ _ (by grind), stackByte_setStackByte]

theorem interrupted_high :
    stackByte (interrupted ram sp pc status) sp = (pc >>> 8).toUInt8 := by
  unfold interrupted
  rw [stackByte_setStackByte_other _ _ (by grind), stackByte_setStackByte_other _ _ (by grind),
    stackByte_setStackByte]

theorem interrupted_other {i : Fin 0x800} (h : i.val ≠ 256 + sp.toNat)
    (h1 : i.val ≠ 256 + (sp - 1).toNat) (h2 : i.val ≠ 256 + (sp - 2).toNat) :
    (interrupted ram sp pc status).get i = ram.get i := by
  have hlast : sp - 1 - 1 = sp - 2 := by grind
  unfold interrupted
  rw [hlast, get_setStackByte_other _ _ h2, get_setStackByte_other _ _ h1,
    get_setStackByte_other _ _ h]

end Interrupted

/-- The two bytes of a word, put together again. -/
theorem word_halves (pc : UInt16) : word pc.toUInt8 (pc >>> 8).toUInt8 = pc := by
  have hlt := pc.toNat_lt
  rw [← UInt16.toNat_inj, toNat_word, Manual.word]
  simp [Nat.shiftRight_eq_div_pow]
  omega

/-! ## What a run stores -/

theorem cycle_kept (h : cycle m = .ok ((), m')) :
    m'.store = m.store ∧ m'.cpu.registers = m.cpu.registers := by
  rcases cycle_calm m with ⟨crash, hcrash, -⟩ | ⟨m₁, hcycle, hstore, hregisters, -⟩
  · rw [h] at hcrash
    cases hcrash
  · rw [h] at hcycle
    cases hcycle
    exact ⟨hstore, hregisters⟩

/-- A read stores nothing, wherever it is. -/
theorem fetchBus_kept {addr : UInt16} {value : UInt8} (h : fetchBus addr m = .ok (value, m')) :
    m'.store = m.store := by
  unfold fetchBus at h
  split_ifs at h
  · cases h
    rfl
  · unfold readPpu at h
    simp only at h
    split at h <;> cases h
    rfl
  · cases h
    rfl
  · cases h
    rfl
  · unfold readCartridge at h
    split at h <;> cases h
    rfl

theorem read_kept {addr : UInt16} {value : UInt8} (h : read addr m = .ok (value, m')) :
    m'.store = m.store ∧ m'.cpu.registers = m.cpu.registers := by
  refine ⟨?_, (Code.Passes.read addr _ _ _ h).2⟩
  obtain ⟨_, m₁, hcycle, hfetch⟩ := bind_run h
  exact (fetchBus_kept hfetch).trans (cycle_kept hcycle).1

/-- **A run that writes memory only stores what its log says.** -/
theorem Code.stores {a : α} (c : Code x) (h : x m = .ok (a, m'))
    (hwrites : ∀ access ∈ (c.log m).filterMap BusCycle.write?, Store.holds access.1) :
    stored (c.log m) m.store = .ok m'.store := by
  induction c generalizing m m' with
  | pure b =>
    cases h
    rfl
  | bind c d ihc ihd =>
    obtain ⟨b, m₁, hfirst, hrest⟩ := bind_run h
    have hlog : (c.bind d).log m = c.log m ++ (d b).log m₁ := by rw [log, hfirst]
    rw [hlog, List.filterMap_append, List.forall_mem_append] at hwrites
    rw [hlog, stored_append, ihc hfirst hwrites.1]
    exact ihd b hrest hwrites.2
  | registers =>
    cases h
    rfl
  | modifyRegisters f =>
    cases h
    rfl
  | idle => exact congrArg Except.ok (cycle_kept h).1.symm
  | read addr =>
    rw [log, h]
    exact congrArg Except.ok (read_kept h).1.symm
  | write addr value =>
    have hholds : Store.holds addr.toNat := hwrites (addr.toNat, value.toNat) List.mem_cons_self
    obtain ⟨_, m₁, hcycle, hstore⟩ := bind_run h
    have hstored : stored ((write addr value).log m) m.store =
        m.store.write (addr.toNat, value.toNat) := List.foldlM_cons.trans (bind_pure _)
    rw [storeBus_calm value hholds, (cycle_kept hcycle).1] at hstore
    rw [hstored]
    split at hstore
    · rename_i s hs
      cases hstore
      exact hs
    · cases hstore

/-- **A run that writes work memory only reads the cartridge as it is.** -/
theorem Code.reads_slot {a : α} (c : Code x) (h : x m = .ok (a, m'))
    (hwrites : ∀ access ∈ (c.log m).filterMap BusCycle.write?, access.1 < 0x2000) :
    m'.slot = m.slot ∧ ∀ addr value, .read addr value ∈ c.log m → 0x4020 ≤ addr.toNat →
      m.slot.readPrg addr = .ok value := by
  induction c generalizing m m' with
  | pure b =>
    cases h
    exact ⟨rfl, by simp [log]⟩
  | bind c d ihc ihd =>
    obtain ⟨b, m₁, hfirst, hrest⟩ := bind_run h
    have hlog : (c.bind d).log m = c.log m ++ (d b).log m₁ := by rw [log, hfirst]
    rw [hlog, List.filterMap_append, List.forall_mem_append] at hwrites
    obtain ⟨hslot, hreads⟩ := ihc hfirst hwrites.1
    obtain ⟨hslot', hreads'⟩ := ihd b hrest hwrites.2
    rw [hslot] at hslot' hreads'
    refine ⟨hslot', ?_⟩
    intro addr value hmem
    rw [hlog, List.mem_append] at hmem
    rcases hmem with hmem | hmem
    · exact hreads addr value hmem
    · exact hreads' addr value hmem
  | registers =>
    cases h
    exact ⟨rfl, by simp [log]⟩
  | modifyRegisters f =>
    cases h
    exact ⟨rfl, by simp [log]⟩
  | idle => exact ⟨congrArg Prod.snd (cycle_kept h).1, by simp [log]⟩
  | read addr =>
    refine ⟨congrArg Prod.snd (read_kept h).1, ?_⟩
    intro addr' value hmem hcartridge
    rw [log, h, List.mem_singleton] at hmem
    injection hmem with haddr hvalue
    subst haddr hvalue
    obtain ⟨_, m₁, hcycle, hfetch⟩ := bind_run h
    have hread := store_read (.inr hcartridge) (congrArg (Except.map Prod.fst) hfetch)
    rw [(cycle_kept hcycle).1] at hread
    have hram : ¬ addr' < 0x2000 := fun hlt =>
      absurd (show addr'.toNat < 0x2000 from hlt) (by omega)
    exact (if_neg hram).symm.trans hread
  | write addr value =>
    refine ⟨?_, by simp [log]⟩
    have hram : addr < 0x2000 := hwrites (addr.toNat, value.toNat) List.mem_cons_self
    obtain ⟨_, m₁, hcycle, hstore⟩ := bind_run h
    unfold storeBus at hstore
    rw [if_pos hram] at hstore
    cases hstore
    exact congrArg Prod.snd (cycle_kept hcycle).1

/-- A byte on the stack. -/
theorem write_stackByte (s : Store) (sp value : UInt8) :
    s.write ((stackAddress sp).toNat, value.toNat) = .ok (setStackByte s.1 sp value, s.2) := by
  unfold Store.write
  simp only [UInt16.ofNat_toNat, UInt8.ofNat_toNat, if_pos (stackAddress_lt sp)]
  rfl

/-- The log of an interrupt: three bytes are pushed and two are read. -/
def interruptLog (before : List BusCycle) (sp : UInt8) (pc : UInt16) (status : UInt8)
    (vector : UInt16) (low high : UInt8) : List BusCycle :=
  before ++ [.write (stackAddress sp) (pc >>> 8).toUInt8, .write (stackAddress (sp - 1)) pc.toUInt8,
    .write (stackAddress (sp - 1 - 1)) status, .read vector low, .read (vector + 1) high]

theorem stored_interruptLog {before : List BusCycle} (hbefore : before.filterMap BusCycle.write? = [])
    (sp : UInt8) (pc : UInt16) (status : UInt8) (vector : UInt16) (low high : UInt8) (s : Store) :
    stored (interruptLog before sp pc status vector low high) s =
      .ok (interrupted s.1 sp pc status, s.2) := by
  unfold interruptLog stored
  rw [List.filterMap_append, hbefore]
  simp only [List.filterMap, BusCycle.write?, List.nil_append, List.foldlM_cons, write_stackByte]
  rfl

/-- What is known of a machine behind an interrupt: the way back is on the stack, the handler is where
the vector says, and no request interrupts it. -/
structure Entered (m : Machine) (pc : UInt16) (status : UInt8) (vector : UInt16) (m' : Machine) :
    Prop where
  store : m'.store = (interrupted m.cpu.ram m.cpu.registers.sp pc status, m.slot)
  registers : m'.cpu.registers = { m.cpu.registers.setFlag .interruptDisable true with
    pc := m'.cpu.registers.pc, sp := m.cpu.registers.sp - 1 - 1 - 1 }
  handler : ∃ low high, m.slot.readPrg vector = .ok low ∧ m.slot.readPrg (vector + 1) = .ok high ∧
    m'.cpu.registers.pc = word low high

/-- A run enters an interrupt if it does so whatever it is answered. -/
theorem Code.entered {a : α} (c : Code x) {before : List BusCycle} {pc vector : UInt16}
    {status : UInt8} (hbefore : before.filterMap BusCycle.write? = [])
    (hvector : 0x4020 ≤ vector.toNat ∧ 0x4020 ≤ (vector + 1).toNat)
    (heval : ∀ answer n, ∃ low high, ∃ value, c.eval answer n m.cpu.registers =
      ⟨interruptLog before m.cpu.registers.sp pc status vector low high, value,
        { m.cpu.registers.setFlag .interruptDisable true with
          pc := word low high, sp := m.cpu.registers.sp - 1 - 1 - 1 }⟩)
    (h : x m = .ok (a, m')) : Entered m pc status vector m' := by
  have hrun := c.eval_log h [] []
  obtain ⟨low, high, value, hvalue⟩ :=
    heval (fun n _ => readAt ([] ++ c.log m ++ []) n) ([] : List BusCycle).length
  rw [hvalue] at hrun
  injection hrun with hlog _ hregisters
  have hwrites : ∀ access ∈ (c.log m).filterMap BusCycle.write?, access.1 < 0x2000 := by
    have hstack (sp : UInt8) : (stackAddress sp).toNat < 0x2000 := stackAddress_lt sp
    rw [← hlog, interruptLog, List.filterMap_append, hbefore]
    simp [BusCycle.write?, hstack]
  constructor
  case store =>
    have hstored := c.stores h fun access hmem => .inl (hwrites access hmem)
    rw [← hlog, stored_interruptLog hbefore] at hstored
    exact (Except.ok.inj hstored).symm
  case registers => rw [← hregisters]
  case handler =>
    have hreads := (c.reads_slot h hwrites).2
    refine ⟨low, high, hreads vector low ?_ hvector.1, hreads (vector + 1) high ?_ hvector.2, ?_⟩
    · simp [← hlog, interruptLog]
    · simp [← hlog, interruptLog]
    · rw [← hregisters]

theorem vectorOf_cartridge (interrupt : Interrupt) :
    0x4020 ≤ (vectorOf interrupt).toNat ∧ 0x4020 ≤ (vectorOf interrupt + 1).toNat := by
  cases interrupt <;> decide

/-- **What an interrupt leaves on the stack.** -/
theorem service_ok {interrupt : Interrupt} (h : service interrupt m = .ok ((), m')) :
    Entered m m.cpu.registers.pc m.cpu.registers.statusInterrupted (vectorOf interrupt) m' := by
  rw [service_eq] at h
  obtain ⟨pc, m₁, hentry, hreport⟩ := bind_run h
  have hquiet : [BusCycle.idle, .idle].filterMap BusCycle.write? = [] := rfl
  obtain ⟨hstore, hregisters, hhandler⟩ := (Code.entry interrupt).entered hquiet
    (vectorOf_cartridge interrupt) (fun _ _ => ⟨_, _, _, Code.eval_entry interrupt⟩) hentry
  rw [report_ok hreport]
  exact ⟨hstore, hregisters, hhandler⟩

theorem fetchByte_ok {opcode : UInt8} (h : fetchByte m = .ok (opcode, m')) : m'.store = m.store ∧
    m'.cpu.registers = { m.cpu.registers with pc := m.cpu.registers.pc + 1 } := by
  obtain ⟨r, m₁, hregisters, h⟩ := bind_run h
  cases hregisters
  obtain ⟨byte, m₂, hread, h⟩ := bind_run h
  obtain ⟨hstore, hkept⟩ := read_kept hread
  cases h
  refine ⟨hstore, ?_⟩
  show { m₂.cpu.registers with pc := m₂.cpu.registers.pc + 1 } = _
  rw [hkept]

/-- What an instruction does behind its opcode. -/
theorem instruction_run {opcode : UInt8} (h : fetchByte m = .ok (opcode, m')) :
    instruction m = (resolve (Cpu.decode opcode).op (Cpu.decode opcode).mode >>=
      perform (Cpu.decode opcode).op.effect) m' :=
  run_eq h

namespace Code

variable {answer : Nat → UInt16 → UInt8} {n : Nat} {r : Registers}

/-- An instruction that interrupts itself, behind its opcode. -/
def breaks : Code (Machine.resolve .brk .implied >>= Machine.perform .softwareInterrupt) :=
  .bind (resolve _ _) fun _ => perform _ _

theorem eval_breaks : breaks.eval answer n r =
    let low := answer (n + 4) irqVector
    let high := answer (n + 5) (irqVector + 1)
    ⟨interruptLog [.idle] r.sp (r.pc + 1) r.statusPushed irqVector low high, (),
      { r.setFlag .interruptDisable true with
        pc := word low high, sp := r.sp - 1 - 1 - 1 }⟩ := by
  unfold breaks
  rw [eval_bind, eval_resolve_implied]
  simp only [eval_perform_softwareInterrupt]
  rfl

/-- A return from an interrupt, behind its opcode. -/
def resumes : Code (Machine.resolve .rti .implied >>= Machine.perform .leaveInterrupt) :=
  .bind (resolve _ _) fun _ => perform _ _

theorem eval_resumes : resumes.eval answer n r =
    let status := stackAddress (r.sp + 1)
    let low := stackAddress (r.sp + 1 + 1)
    let high := stackAddress (r.sp + 1 + 1 + 1)
    ⟨[.idle, .idle, .read status (answer (n + 2) status), .read low (answer (n + 3) low),
        .read high (answer (n + 4) high)], (),
      { r.pullStatus (answer (n + 2) status) with
        pc := word (answer (n + 3) low) (answer (n + 4) high)
        sp := r.sp + 1 + 1 + 1 }⟩ := by
  unfold resumes
  rw [eval_bind, eval_resolve_implied]
  simp only [eval_perform_leaveInterrupt]
  rfl

end Code

/-- **What `BRK` leaves on the stack.** -/
theorem softwareInterrupt_ok (hdue : due? m.cpu = none) (hfetch : fetchByte m = .ok (0x00, m₁))
    (h : step m = .ok ((), m')) :
    Entered m (m.cpu.registers.pc + 2) m.cpu.registers.statusPushed irqVector m' := by
  obtain ⟨hstore, hregisters⟩ := fetchByte_ok hfetch
  rw [step_eq, hdue] at h
  have hrun : (resolve .brk .implied >>= perform .softwareInterrupt) m₁ = .ok ((), m') :=
    (instruction_run hfetch).symm.trans h
  obtain ⟨hpushed, hleft, hhandler⟩ := Code.breaks.entered rfl (vectorOf_cartridge .irq)
    (fun _ _ => ⟨_, _, _, Code.eval_breaks⟩) hrun
  have hpc : m.cpu.registers.pc + 1 + 1 = m.cpu.registers.pc + 2 := by grind
  have hram : m₁.cpu.ram = m.cpu.ram := congrArg Prod.fst hstore
  have hslot : m₁.slot = m.slot := congrArg Prod.snd hstore
  rw [hregisters] at hpushed hleft
  rw [hpc, hram, hslot] at hpushed
  rw [hslot] at hhandler
  exact ⟨hpushed, hleft, hhandler⟩

/-- What a read of the stack gives. -/
theorem read_stackByte (s : Store) (sp : UInt8) :
    s.read (stackAddress sp) = .ok (stackByte s.1 sp) := if_pos (stackAddress_lt sp)

/-- **A return takes back what an interrupt has pushed.** -/
theorem resumes_ok {pc : UInt16} {status : UInt8} {ram : WorkMemory} {sp : UInt8}
    (hram : m.cpu.ram = interrupted ram sp pc status) (hsp : m.cpu.registers.sp = sp - 1 - 1 - 1) :
    PatternFault (resolve .rti .implied >>= perform .leaveInterrupt) m ∨
      ∃ m', (resolve .rti .implied >>= perform .leaveInterrupt) m = .ok ((), m') ∧
        m'.store = m.store ∧ m'.cpu.cycles = m.cpu.cycles + 5 ∧
        m'.cpu.registers = { m.cpu.registers.pullStatus status with pc, sp } := by
  have hstatus : m.cpu.registers.sp + 1 = sp - 1 - 1 := by grind
  have hlow : m.cpu.registers.sp + 1 + 1 = sp - 1 := by grind
  have hhigh : m.cpu.registers.sp + 1 + 1 + 1 = sp := by grind
  have heval : Code.resumes.eval (fun _ addr => m.cpu.ram.get (Cpu.ramCell addr)) 0
      m.cpu.registers = _ := Code.eval_resumes
  rw [hhigh, hlow, hstatus] at heval
  have hcalm : Calm m.store (Code.resumes.eval (fun _ addr => m.cpu.ram.get (Cpu.ramCell addr)) 0
      m.cpu.registers).log := by
    rw [heval]
    have hholds (sp : UInt8) : Store.holds (stackAddress sp).toNat := .inl (stackAddress_lt sp)
    exact ⟨hholds _, read_stackByte _ _, hholds _, read_stackByte _ _, hholds _, read_stackByte _ _,
      trivial⟩
  refine (Code.resumes.comes_to m 0 hcalm).imp_right fun hcomes => ?_
  rw [heval] at hcomes
  obtain ⟨m', hrun, hstore, hregisters, -⟩ := hcomes
  refine ⟨m', hrun, hstore, ?_, ?_⟩
  · have hlog : _ = Code.resumes.log m :=
      congrArg Code.Outcome.log (Code.resumes.eval_log hrun [] [])
    rw [Code.resumes.cycles hrun, ← hlog, Code.eval_resumes]
    rfl
  · rw [hregisters]
    show { m.cpu.registers.pullStatus (stackByte m.cpu.ram (sp - 1 - 1)) with
      pc := word (stackByte m.cpu.ram (sp - 1)) (stackByte m.cpu.ram sp), sp := sp } = _
    rw [hram, interrupted_status, interrupted_low, interrupted_high, word_halves]

theorem due_none (hnmi : m.cpu.nmi = false)
    (hdisable : m.cpu.registers.flag .interruptDisable = true) : due? m.cpu = none := by
  unfold due?
  simp [hnmi, hdisable]

/-- **A handler that does nothing but return is not noticed**, its cycles and its traces on the stack
apart. -/
theorem returns {interrupt : Interrupt} (hm : m.Steady)
    (hservice : service interrupt m = .ok ((), m₁)) (hnmi : m₁.cpu.nmi = false)
    (hfetch : fetchByte m₁ = .ok (0x40, m')) : PatternFault step m₁ ∨
      ∃ m₂, step m₁ = .ok ((), m₂) ∧ m₂.cpu.registers = m.cpu.registers ∧
        m₂.cpu.cycles = m.cpu.cycles + 13 ∧ m₂.store = (interrupted m.cpu.ram
          m.cpu.registers.sp m.cpu.registers.pc m.cpu.registers.statusInterrupted, m.slot) := by
  obtain ⟨hpushed, hentered, -⟩ := service_ok hservice
  obtain ⟨hstore, hregisters⟩ := fetchByte_ok hfetch
  have hcycles : m'.cpu.cycles = m.cpu.cycles + 7 + 1 :=
    (Takes.fetchByte _ _ _ hfetch).trans
      (congrArg (· + 1) (Serves.service interrupt _ _ _ hservice).1)
  have hdisable : m₁.cpu.registers.flag .interruptDisable = true := by
    rw [hentered]
    exact Registers.flag_setFlag m.cpu.registers .interruptDisable .interruptDisable true
  -- the handler is not interrupted: the flag masks the line, even while it is still asserted
  have hstep : step m₁ = (resolve .rti .implied >>= perform .leaveInterrupt) m' := by
    rw [step_eq, due_none hnmi hdisable]
    exact instruction_run hfetch
  rw [PatternFault, hstep]
  rw [hentered] at hregisters
  rw [hpushed] at hstore
  refine (resumes_ok (congrArg Prod.fst hstore) (congrArg Registers.sp hregisters)).imp_right ?_
  rintro ⟨m₂, hrun, hkept, hlater, hback⟩
  refine ⟨m₂, hrun, ?_, by omega, hkept.trans hstore⟩
  rw [hback, hm.pullStatus_interrupted, hregisters]
  rfl

end NesMachine.Machine
