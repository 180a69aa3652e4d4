import NesMachine.Proofs.Machine.Instructions

/-!
# The two bits that are no flags

The status register has room for eight flags and holds six. Of the two other bits one is always set
and the other always clear, although programs can push and pull any byte.

* `Registers.Steady`: the two bits are as they should be.
* `effect_steady`: every operation keeps them.
* `step_steady`, `resetCpu_steady`: a step and a reset keep them.
-/

namespace NesMachine

namespace Cpu

namespace Registers

variable {r : Registers} {s : Manual.State}

/-- Bit 5 is set and bit 4 is clear. -/
def Steady (r : Registers) : Prop := r.p &&& 0x30 = 0x20

instance (r : Registers) : Decidable r.Steady := by unfold Steady; infer_instance

theorem steady_iff (r : Registers) : r.Steady ↔ r.flag .unused = true ∧ r.flag .brk = false := by
  unfold Steady flag
  exact forall_byte (p := fun p => p &&& 0x30 = 0x20 ↔
    decide (p &&& Flag.unused.mask ≠ 0) = true ∧ decide (p &&& Flag.brk.mask ≠ 0) = false)
    (by decide +kernel) r.p

theorem Shows.steady (h : r.Shows s) : r.Steady := (steady_iff r).mpr ⟨h.unused, h.brk⟩

theorem Steady.shows (h : r.Steady) : r.Shows r.state :=
  ⟨rfl, ((steady_iff r).mp h).1, ((steady_iff r).mp h).2⟩

/-! ## The status register on the stack -/

theorem pullStatus_steady (r : Registers) (value : UInt8) : (r.pullStatus value).Steady :=
  forall_byte (p := fun v => ((v &&& ~~~Flag.brk.mask) ||| Flag.unused.mask) &&& 0x30 = 0x20)
    (by decide +kernel) value

theorem Steady.disable (h : r.Steady) : (r.setFlag .interruptDisable true).Steady :=
  (h.shows.setFlag .interruptDisable true (by decide)).steady

/-- A program that pulls what an interrupt pushed has its status register back. -/
theorem Steady.pullStatus_interrupted (h : r.Steady) (r' : Registers) :
    r'.pullStatus r.statusInterrupted = { r' with p := r.p } := by
  have hround := forall_byte (p := fun p => p &&& 0x30 = 0x20 →
    (((p &&& ~~~Flag.brk.mask) ||| Flag.unused.mask) &&& ~~~Flag.brk.mask) ||| Flag.unused.mask = p)
    (by decide +kernel) r.p h
  unfold pullStatus statusInterrupted
  rw [hround]

theorem statusInterrupted_bits (r : Registers) : r.statusInterrupted &&& 0x30 = 0x20 :=
  forall_byte (p := fun p => ((p &&& ~~~Flag.brk.mask) ||| Flag.unused.mask) &&& 0x30 = 0x20)
    (by decide +kernel) r.p

theorem statusPushed_bits (r : Registers) : r.statusPushed &&& 0x30 = 0x30 :=
  forall_byte (p := fun p => (p ||| Flag.brk.mask ||| Flag.unused.mask) &&& 0x30 = 0x30)
    (by decide +kernel) r.p

end Registers

/-! ## Operations -/

/-- A class of operations that keeps the two bits. -/
def Effect.Steady : Effect → Prop
  | .read apply | .pull apply => ∀ r value, r.Steady → (apply r value).Steady
  | .modify apply => ∀ r value, r.Steady → (apply r value).2.Steady
  | .registers apply => ∀ r, r.Steady → (apply r).Steady
  | .store _ | .branch _ | .push _ | .jump | .call | .leave | .leaveInterrupt
  | .softwareInterrupt => True

/-- **Every operation keeps them**, since what it leaves shows a state of the manual. -/
theorem effect_steady (op : Op) : op.effect.Steady := by
  have hmeets := effect_meets op
  revert hmeets
  generalize op.effect = effect
  generalize Manual.action op = action
  intro hmeets
  cases effect with
  | read apply =>
    cases action with
    | reads f => exact fun r value h => (hmeets r _ value h.shows).steady
    | _ => exact hmeets.elim
  | pull apply =>
    cases action with
    | pulls f => exact fun r value h => (hmeets r _ value h.shows).steady
    | _ => exact hmeets.elim
  | modify apply =>
    cases action with
    | modifies f => exact fun r value h => (hmeets r _ value h.shows).2.steady
    | _ => exact hmeets.elim
  | registers apply =>
    cases action with
    | changes f => exact fun r h => (hmeets r _ h.shows).steady
    | _ => exact hmeets.elim
  | _ => trivial

end Cpu

namespace Machine

open Cpu (Registers Op AddrMode Effect effect_steady)

variable {α : Type} {m m' : Machine} {x : Run α}

namespace Code

variable {answer : Nat → UInt16 → UInt8} {n : Nat} {r : Registers}

/-- An addressing mode moves the program counter over the operand, and changes nothing else. -/
theorem eval_resolve_registers (op : Op) (mode : AddrMode) (answer : Nat → UInt16 → UInt8) (n : Nat)
    (r : Registers) : ((resolve op mode).eval answer n r).registers =
      { r with pc := r.pc + UInt16.ofNat mode.operandLength } := by
  have hnone : r = { r with pc := r.pc + UInt16.ofNat 0 } :=
    congrArg (fun pc => { r with pc }) (UInt16.add_zero _).symm
  have htwo : { r with pc := r.pc + 1 + 1 } = { r with pc := r.pc + UInt16.ofNat 2 } :=
    congrArg (fun pc => { r with pc }) (UInt16.add_assoc ..)
  cases mode with
  | implied | accumulator => exact hnone
  | immediate | zeroPage | zeroPageX | zeroPageY | indexedIndirect | relative => rfl
  | indirectIndexed =>
    rw [eval_resolve_indirectIndexed]
    rfl
  | absolute | indirect => exact htwo
  | absoluteX =>
    rw [eval_resolve_absoluteX]
    exact htwo
  | absoluteY =>
    rw [eval_resolve_absoluteY]
    exact htwo

theorem eval_perform_steady {effect : Effect} (heffect : effect.Steady) (operand : Operand)
    (h : r.Steady) : ((perform effect operand).eval answer n r).registers.Steady := by
  cases effect with
  | read apply => cases operand <;> exact heffect r _ h
  | store value => cases operand <;> exact h
  | modify apply =>
    cases operand with
    | none => exact h
    | accumulator => exact heffect r r.a h
    | address addr => exact heffect r _ h
  | registers apply => exact heffect r h
  | branch taken =>
    cases operand with
    | address target =>
      rw [eval_perform_branch]
      split <;> exact h
    | _ => exact h
  | push value => exact h
  | pull apply => exact heffect _ _ h
  | jump => cases operand <;> exact h
  | call => cases operand <;> exact h
  | leave => exact h
  | leaveInterrupt =>
    rw [eval_perform_leaveInterrupt]
    exact Registers.pullStatus_steady { r with sp := r.sp + 1 } _
  | softwareInterrupt =>
    rw [eval_perform_softwareInterrupt]
    exact h.disable

theorem eval_instruction_steady (h : r.Steady) :
    (instruction.eval answer n r).registers.Steady := by
  have hfound := eval_resolve_registers (Cpu.decode (answer n r.pc)).op
    (Cpu.decode (answer n r.pc)).mode answer (n + 1) { r with pc := r.pc + 1 }
  generalize hresolve : (resolve (Cpu.decode (answer n r.pc)).op (Cpu.decode (answer n r.pc)).mode).eval
    answer (n + 1) { r with pc := r.pc + 1 } = found at hfound
  have hmoved : found.registers.Steady := by
    rw [hfound]
    exact h
  have hinstruction : (instruction.eval answer n r).registers =
      ((perform (Cpu.decode (answer n r.pc)).op.effect found.value).eval answer
        (n + 1 + found.log.length) found.registers).registers := by
    rw [← hresolve]
    rfl
  rw [hinstruction]
  exact eval_perform_steady (effect_steady _) _ hmoved

end Code

/-- The registers of a machine are steady. -/
def Steady (m : Machine) : Prop := m.cpu.registers.Steady

/-- What a part does whatever it is answered, it does on a machine. -/
theorem Code.steady {a : α} (c : Code x)
    (hc : ∀ (answer : Nat → UInt16 → UInt8) (r : Registers), r.Steady →
      (c.eval answer 0 r).registers.Steady)
    (h : x m = .ok (a, m')) (hm : m.Steady) : m'.Steady := by
  have heval := c.eval_log h [] []
  have hrun := hc (fun n _ => readAt ([] ++ c.log m ++ []) n) m.cpu.registers hm
  rw [show c.eval _ 0 _ = _ from heval] at hrun
  exact hrun

theorem instruction_steady (h : instruction m = .ok ((), m')) (hm : m.Steady) : m'.Steady :=
  Code.instruction.steady (fun _ _ hr => Code.eval_instruction_steady hr) h hm

/-! ## Interrupts and resets -/

/-- An interrupt up to its report: the way to its handler. -/
def entry (interrupt : Interrupt) : Run UInt16 := do
  idle 2
  pushWord (← registers).pc
  push (← registers).statusInterrupted
  modifyRegisters (·.setFlag .interruptDisable true)
  let pc ← readWord (vectorOf interrupt)
  jumpTo pc
  return pc

theorem service_eq (interrupt : Interrupt) :
    service interrupt = entry interrupt >>= fun pc => report (.serviced interrupt pc) := by
  simp only [service, entry, bind_assoc, pure_bind]

/-- A reset up to its report, the edge apart that it forgets. -/
def startup : Run UInt16 := do
  idle 5
  modifyRegisters fun r => { r with sp := 0xFD }.setFlag .interruptDisable true
  let pc ← readWord resetVector
  jumpTo pc
  return pc

theorem resetCpu_eq (m : Machine) :
    resetCpu m = (startup >>= fun pc => report (.reset pc)) m.acknowledged := by
  simp only [startup, bind_assoc, pure_bind]
  rfl

namespace Code

variable {answer : Nat → UInt16 → UInt8} {n : Nat} {r : Registers}

def entry (interrupt : Interrupt) : Code (Machine.entry interrupt) :=
  .bind (idles 2) fun _ => .bind .registers fun _ => .bind (pushWord _) fun _ =>
    .bind .registers fun _ => .bind (push _) fun _ => .bind (.modifyRegisters _) fun _ =>
      .bind (readWord _) fun _ => .bind (jumpTo _) fun _ => .pure _

def startup : Code Machine.startup :=
  .bind (idles 5) fun _ => .bind (.modifyRegisters _) fun _ => .bind (readWord _) fun _ =>
    .bind (jumpTo _) fun _ => .pure _

theorem eval_entry (interrupt : Interrupt) : (entry interrupt).eval answer n r =
    let vector := vectorOf interrupt
    let pc := word (answer (n + 5) vector) (answer (n + 6) (vector + 1))
    ⟨[.idle, .idle, .write (stackAddress r.sp) (r.pc >>> 8).toUInt8,
        .write (stackAddress (r.sp - 1)) r.pc.toUInt8,
        .write (stackAddress (r.sp - 1 - 1)) r.statusInterrupted,
        .read vector (answer (n + 5) vector), .read (vector + 1) (answer (n + 6) (vector + 1))], pc,
      { r.setFlag .interruptDisable true with pc, sp := r.sp - 1 - 1 - 1 }⟩ := by
  unfold entry
  simp only [eval, eval_idles, eval_pushWord, eval_push, eval_readWord, jumpTo]
  rfl

end Code

theorem report_ok {notice : Notice} {a : Unit} (h : report notice m = .ok (a, m')) :
    m' = { m with notices := notice :: m.notices } := by
  cases h
  rfl

theorem service_steady {interrupt : Interrupt} (h : service interrupt m = .ok ((), m'))
    (hm : m.Steady) : m'.Steady := by
  rw [service_eq] at h
  obtain ⟨pc, m₁, hentry, hreport⟩ := bind_run h
  have hentered : m₁.Steady := by
    refine (Code.entry interrupt).steady (fun answer r hr => ?_) hentry hm
    rw [Code.eval_entry]
    exact hr.disable
  rw [report_ok hreport]
  exact hentered

theorem resetCpu_steady (h : resetCpu m = .ok ((), m')) (hm : m.Steady) : m'.Steady := by
  rw [resetCpu_eq] at h
  obtain ⟨pc, m₁, hstartup, hreport⟩ := bind_run h
  have hstarted : m₁.Steady :=
    Code.startup.steady (m := m.acknowledged) (fun answer r hr => hr.disable) hstartup hm
  rw [report_ok hreport]
  exact hstarted

/-- **A step keeps the registers steady.** -/
theorem step_steady (h : step m = .ok ((), m')) (hm : m.Steady) : m'.Steady := by
  rw [step_eq] at h
  split at h
  · exact service_steady (m := m.acknowledged) h hm
  · exact service_steady h hm
  · exact instruction_steady h hm

theorem runRemaining_steady {fuel : Nat} (h : runRemaining fuel m = .ok ((), m')) (hm : m.Steady) :
    m'.Steady := by
  induction fuel generalizing m with
  | zero =>
    cases h
    exact hm
  | succ fuel ih =>
    obtain ⟨_, m₁, hget, h⟩ := bind_run h
    cases hget
    split at h
    · obtain ⟨_, m₂, hstep, h⟩ := bind_run h
      exact ih h (step_steady hstep hm)
    · cases h
      exact hm

/-- **So does a frame.** -/
theorem runFrame_steady (h : runFrame m = .ok ((), m')) (hm : m.Steady) : m'.Steady := by
  obtain ⟨_, m₁, hallot, h⟩ := bind_run h
  cases hallot
  obtain ⟨_, m₂, hget, h⟩ := bind_run h
  cases hget
  exact runRemaining_steady h hm

end Machine

end NesMachine
