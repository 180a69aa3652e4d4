import NesMachine.Proofs.Console.Interrupt
import NesMachine.Proofs.Console.Reproducible
import NesMachine.Proofs.Machine.Handler

/-!
# Interrupt handlers of the console

Whatever was done to a console, the two bits of its status register that are no flags are as they
should be. An interrupt has its handler know by them that it was not the program that called.

* `steady_invariant`, `AtExecute.steady`: the two bits of every reachable machine.
* `interrupts_transparent`: a handler that does nothing but return is not noticed.
-/

namespace NesMachine

open Digest (Bytes)

namespace Console

open Machine (PatternFault due? stackByte)

variable {α : Type} {c c' : Console} {m m' : Machine}

/-! ## The two bits that are no flags -/

/-- All that is done to a machine keeps its registers steady; a new processor has them so. -/
theorem steady_invariant : Invariant Machine.Steady := by
  have hnew : ({} : Cpu.Registers).Steady := by decide
  constructor
  case new => exact hnew
  case run =>
    intro part m m' hpart hrun hm
    have hkept : m'.Steady := by
      simp only [List.mem_cons, List.not_mem_nil, or_false] at hpart
      rcases hpart with rfl | rfl | rfl
      · exact Machine.resetCpu_steady hrun hm
      · exact Machine.step_steady hrun hm
      · exact Machine.runFrame_steady hrun hm
    exact hkept
  case renew =>
    intro m m' _ _ _ hregisters
    unfold Machine.Steady
    rw [hregisters]
    exact hnew
  case other =>
    intro m m' hm _ _ hregisters
    unfold Machine.Steady
    rw [hregisters]
    exact hm

/-- **The registers of every console are steady.** -/
theorem Reachable.steady (h : c.Reachable) : c.machine.Steady := steady_invariant.reachable h

theorem AtExecute.steady (h : AtExecute m) : m.Steady := by
  induction h with
  | console hc => exact hc.steady
  | allot remaining _ ih => exact ih
  | step _ hstep ih => exact Machine.step_steady hstep ih

/-! ## A game with a handler -/

/-- A program that lets interrupts through and interrupts itself, with a handler that only returns. -/
def obliging : Bytes :=
  ⟨0x58 :: (List.replicate 0x3FF8 0 ++ [0x40, 0, 0, 0x00, 0xC0, 0xF9, 0xFF])⟩

theorem size_obliging : obliging.size = 0x4000 := by
  rw [obliging, List.size_toArray, List.length_cons, List.length_append, List.length_replicate]
  rfl

/-- A machine with this program, on the way through the first reset. -/
def obligingStart : Machine where
  slot := some (.ofImage .nrom (smallGame obliging))
  cpu := ({} : Cpu).setTv .ntsc
  ppu := (({} : Ppu).setTv .ntsc).reset

/-- What is due on a machine and what would be fetched; with the request line up, what is due then,
whether an edge is latched behind the next step, and what is fetched of the handler. -/
def observed : Machine.Run (Option Interrupt × Option UInt8 × Option Interrupt × Bool × UInt8) := do
  let m ← get
  modify fun m => { m with cpu := { m.cpu with irq := true } }
  let requested := due? (← get).cpu
  Machine.step
  let nmi := (← get).cpu.nmi
  let opcode ← Machine.fetchByte
  return (due? m.cpu, m.fetchByte.toOption.map Prod.fst, requested, nmi, opcode)

/-- The same behind the first reset and the first step behind it. -/
def observedFirst : Machine.Run (Option Interrupt × Option UInt8 × Option Interrupt × Bool × UInt8) := do
  Machine.resetCpu
  Operation.handOn
  Machine.step
  Operation.handOn
  observed

theorem observedFirst_obliging : (observedFirst obligingStart).toOption.map Prod.fst =
    some (none, some 0x00, some .irq, false, 0x40) := by
  decide +kernel

theorem ok_of_map_fst {part : Machine.Run α} {a : α}
    (h : (part m).toOption.map Prod.fst = some a) : ∃ m', part m = .ok (a, m') := by
  cases hrun : part m with
  | error crash =>
    rw [hrun] at h
    cases h
  | ok r =>
    rw [hrun] at h
    cases h
    exact ⟨r.2, rfl⟩

/-- What the observations of the game say of the machine that they are made on. -/
theorem observed_ok (h : observed m = .ok ((none, some 0x00, some .irq, false, 0x40), m')) :
    due? m.cpu = none ∧ (∃ m₁, m.fetchByte = .ok (0x00, m₁)) ∧
      due? { m.cpu with irq := true } = some .irq ∧
      ∃ m₁ m₂, Machine.step { m with cpu := { m.cpu with irq := true } } = .ok ((), m₁) ∧
        m₁.cpu.nmi = false ∧ m₁.fetchByte = .ok (0x40, m₂) := by
  obtain ⟨_, _, hget, h⟩ := Machine.bind_run h
  cases hget
  obtain ⟨_, requested, hrequest, h⟩ := Machine.bind_run h
  cases hrequest
  obtain ⟨_, _, hget, h⟩ := Machine.bind_run h
  cases hget
  obtain ⟨_, m₁, hservice, h⟩ := Machine.bind_run h
  obtain ⟨_, _, hget, h⟩ := Machine.bind_run h
  cases hget
  obtain ⟨opcode, m₂, hfetch, h⟩ := Machine.bind_run h
  injection h with h
  simp only [Prod.mk.injEq] at h
  obtain ⟨⟨hdue, hbreak, hrequested, hnmi, rfl⟩, -⟩ := h
  exact ⟨hdue, ok_of_map_fst hbreak, hrequested, m₁, m₂, hservice, hnmi, hfetch⟩

/-- A step of a console with a game. -/
theorem step_behind {n : Nat} (hgame : c.hasGame = true)
    (h : Returns (c.step : ExceptT Wreck Simulated (Nat × Console)) (n, c')) :
    ∃ m, c.machine.step = .ok ((), m) ∧ c' = c.behind m := by
  unfold step at h
  rw [if_pos hgame] at h
  obtain ⟨⟨a, c₂⟩, hrun, h⟩ := h.bind
  cases h.pure
  exact run_returns hrun

/-- A console with the program behind its first step. -/
theorem exists_obliging : ∃ c : Console, c.Reachable ∧ c.machine.slot.Whole ∧
    ∃ m, observed c.machine = .ok ((none, some 0x00, some .irq, false, 0x40), m) := by
  obtain ⟨c, hc, hmachine, hdefault⟩ := exists_new
  obtain ⟨hboard, hwhole⟩ := boardOf_smallGame size_obliging
  obtain ⟨⟨result, c₁⟩, hload, hresult, hgame⟩ :=
    (loadBytes_always (c := c) "obliging" hboard hwhole).returns
  cases hresult
  obtain ⟨⟨n, c₂⟩, hstep, hgame₂⟩ := (step_always hgame).returns
  have hc₂ : c₂.Reachable := by
    obtain ⟨s, s', hrun⟩ := hstep
    exact (hc.loadBytes hload).call (k := .step) ⟨s, s', bind_run hrun⟩
  refine ⟨c₂, hc₂, hgame₂, ?_⟩
  obtain ⟨b, hfirst, rfl⟩ := step_behind (hasGame_of_whole hgame) hstep
  obtain ⟨board, a, events, hboard', ha, rfl⟩ := loadBytes_ok hload
  cases hboard.symm.trans hboard'
  have hstart : (c.started (.ofImage .nrom (smallGame obliging))).machine = obligingStart := by
    unfold started switchedOn restarted
    rw [hmachine, hdefault]
    rfl
  rw [hstart] at ha
  obtain ⟨m, hobserved⟩ := ok_of_map_fst observedFirst_obliging
  have hstepped : (Machine.step >>= fun _ => Operation.handOn >>= fun _ => observed)
      { a with shown := [], notices := [] } = observed { b with shown := [], notices := [] } :=
    Machine.run_eq hfirst
  have hbehind : observedFirst obligingStart = observed { b with shown := [], notices := [] } :=
    (Machine.run_eq ha).trans hstepped
  exact ⟨m, hbehind.symm.trans hobserved⟩

/-! ## Handlers -/

/-- A machine in which everything is as in another one, as far as the program behind an interrupt goes:
the registers are the same, and so is work memory but for the three bytes on top of the stack. -/
structure Resumed (m m' : Machine) : Prop where
  registers : m'.cpu.registers = m.cpu.registers
  cycles : m'.cpu.cycles = m.cpu.cycles + 13
  ram : ∀ i : Fin 0x800, i.val ≠ 256 + m.cpu.registers.sp.toNat →
    i.val ≠ 256 + (m.cpu.registers.sp - 1).toNat → i.val ≠ 256 + (m.cpu.registers.sp - 2).toNat →
    m'.cpu.ram.get i = m.cpu.ram.get i

/-- What an execution that services an interrupt does is to service it. -/
theorem Services.service {interrupt : Interrupt} (hm : AtExecute m) (h : m.step = .ok ((), m'))
    (hservices : Services interrupt m m') : due? m.cpu = some interrupt ∧
      Machine.service interrupt m.acknowledged = .ok ((), m') := by
  obtain ⟨hreachable, hphase⟩ := hm.sound
  obtain ⟨es, hstepped⟩ := Machine.step_stepped hreachable hphase h
  have hdue := (services_iff hstepped).mp hservices
  refine ⟨hdue, ?_⟩
  rw [Machine.step_eq, hdue] at h
  cases interrupt with
  | nmi => exact h
  | irq =>
    rw [Machine.acknowledged_eq ((due_irq m.cpu).mp hdue).1]
    exact h

/-- **Interrupts are transparent.** The two bits that are no flags are always as they should be. An
interrupt leaves them so on the stack and goes where its vector says, and a handler there that does
nothing but return is not noticed: the registers are as before, and so is work memory where the stack
did not grow. An instruction that interrupts itself sets both bits on the stack, next to the address
behind the byte it skips. -/
theorem interrupts_transparent :
    (∀ m, AtExecute m → m.cpu.registers.p &&& 0x30 = 0x20) ∧
    (∀ m m₁ interrupt, AtExecute m → m.step = .ok ((), m₁) → Services interrupt m m₁ →
      (interrupt = .irq → m.cpu.irq = true ∧
        m.cpu.registers.flag .interruptDisable = false ∧ m.cpu.nmi = false) ∧
      (∃ low high, m.slot.readPrg (Machine.vectorOf interrupt) = .ok low ∧
        m.slot.readPrg (Machine.vectorOf interrupt + 1) = .ok high ∧
        m₁.cpu.registers.pc = Machine.word low high) ∧
      stackByte m₁.cpu.ram (m.cpu.registers.sp - 2) &&& 0x30 = 0x20 ∧
      ∀ m', m₁.cpu.nmi = false → m₁.fetchByte = .ok (0x40, m') →
        PatternFault Machine.step m₁ ∨ ∃ m₂, m₁.step = .ok ((), m₂) ∧ Resumed m m₂) ∧
    (∀ m m₁ m', AtExecute m → due? m.cpu = none → m.fetchByte = .ok (0x00, m') →
      m.step = .ok ((), m₁) →
      stackByte m₁.cpu.ram (m.cpu.registers.sp - 2) &&& 0x30 = 0x30 ∧
      Machine.word (stackByte m₁.cpu.ram (m.cpu.registers.sp - 1))
        (stackByte m₁.cpu.ram m.cpu.registers.sp) = m.cpu.registers.pc + 2) := by
  have hlast (sp : UInt8) : sp - 2 = sp - 1 - 1 := by grind
  refine ⟨fun m hm => hm.steady, ?_, ?_⟩
  · intro m m₁ interrupt hm h hservices
    obtain ⟨hdue, hservice⟩ := hservices.service hm h
    have hram : m₁.cpu.ram = _ := congrArg Prod.fst (Machine.service_ok hservice).store
    refine ⟨?_, (Machine.service_ok hservice).handler, ?_, ?_⟩
    · rintro rfl
      obtain ⟨hnmi, hirq, hflag⟩ := (due_irq m.cpu).mp hdue
      exact ⟨hirq, hflag, hnmi⟩
    · rw [hram, hlast]
      exact (congrArg (· &&& 0x30) (Machine.interrupted_status ..)).trans
        (Cpu.Registers.statusInterrupted_bits _)
    · intro m' hnmi hfetch
      rcases Machine.returns (m := m.acknowledged) hm.steady hservice hnmi hfetch with
        hfault | ⟨m₂, hstep, hregisters, hcycles, hstore⟩
      · exact .inl hfault
      · refine .inr ⟨m₂, hstep, hregisters, hcycles, ?_⟩
        intro i h h₁ h₂
        rw [show m₂.cpu.ram = _ from congrArg Prod.fst hstore]
        exact Machine.interrupted_other _ _ _ _ h h₁ h₂
  · intro m m₁ m' hm hdue hfetch h
    have hram : m₁.cpu.ram = _ :=
      congrArg Prod.fst (Machine.softwareInterrupt_ok hdue hfetch h).store
    rw [hram, hlast, Machine.interrupted_status, Machine.interrupted_low,
      Machine.interrupted_high, Machine.word_halves]
    exact ⟨Cpu.Registers.statusPushed_bits _, rfl⟩

/-- An instruction that interrupts itself, and an interrupt in its place with a handler that returns. -/
theorem interrupts_transparent_obliging : ∃ m requested : Machine,
    AtExecute m ∧ m.cpu.registers.p &&& 0x30 = 0x20 ∧
    (∃ m₁ m', due? m.cpu = none ∧ m.fetchByte = .ok (0x00, m') ∧ m.step = .ok ((), m₁) ∧
      stackByte m₁.cpu.ram (m.cpu.registers.sp - 2) &&& 0x30 = 0x30 ∧
      Machine.word (stackByte m₁.cpu.ram (m.cpu.registers.sp - 1))
        (stackByte m₁.cpu.ram m.cpu.registers.sp) = m.cpu.registers.pc + 2) ∧
    AtExecute requested ∧ requested = { m with cpu := { m.cpu with irq := true } } ∧
    ∃ m₁ m' m₂, requested.step = .ok ((), m₁) ∧ Services .irq requested m₁ ∧
      stackByte m₁.cpu.ram (requested.cpu.registers.sp - 2) &&& 0x30 = 0x20 ∧
      m₁.cpu.nmi = false ∧ m₁.fetchByte = .ok (0x40, m') ∧
      m₁.step = .ok ((), m₂) ∧ Resumed requested m₂ := by
  obtain ⟨c, hc, hwhole, _, hobserved⟩ := exists_obliging
  obtain ⟨hdue, ⟨m', hbreak⟩, hrequested, m₁, m₂, hservice, hnmi, hfetch⟩ := observed_ok hobserved
  have hm := AtExecute.console hc
  have hrequest : AtExecute (c.setIrq true).machine :=
    .console (hc.call (k := .setIrq true) ⟨{}, {}, rfl⟩)
  obtain ⟨_, broken, hbroken, -⟩ := Machine.Part.step.progress hwhole
  obtain ⟨_, served, hserved, hwhole₁⟩ :=
    Machine.Part.step.progress (m := (c.setIrq true).machine) hwhole
  cases hserved.symm.trans hservice
  obtain ⟨_, m₃, hreturns, -⟩ := Machine.Part.step.progress hwhole₁
  obtain ⟨es, hexecuted⟩ := execute_executed hrequest hservice
  have hservices := hexecuted.irq.mpr ((due_irq _).mp hrequested)
  obtain ⟨-, -, hstacked, hreturn⟩ := interrupts_transparent.2.1 _ _ _ hrequest hservice hservices
  have hbits := interrupts_transparent.2.2 _ _ _ hm hdue hbreak hbroken
  rcases hreturn _ hnmi hfetch with ⟨crash, hcrash, -⟩ | ⟨m₄, hstep, hresumed⟩
  · cases hcrash.symm.trans hreturns
  · exact ⟨_, _, hm, interrupts_transparent.1 _ hm, ⟨broken, m', hdue, hbreak, hbroken, hbits⟩,
      hrequest, rfl, _, m₂, m₄, hservice, hservices, hstacked, hnmi, hfetch, hstep, hresumed⟩

end Console

end NesMachine
