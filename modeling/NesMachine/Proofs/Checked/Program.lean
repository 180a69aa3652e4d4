import NesMachine.Proofs.Checked.Bus

/-!
# Programs, checked

An instruction is checked cycle by cycle; besides the bus, only the sums of an addition can leave
their type. A frame is granted its cycles in front, and uses them up.

* `Safe.instruction`, `Safe.service`: the steps of a program are exact.
* `Safe.runRemaining`, `runRemaining_end`: the steps of a frame are exact, and no cycle of it is left.
-/

namespace NesMachine.Checked

open Board (Fault)
open Cpu (Registers Op)
open Machine (Code Operand)

variable {ε α : Type} {m m' : Machine} {total : Int} {x : Machine.Run α}

/-! ## Additions -/

/-- Addition with carry. The sum has sixteen bits. -/
def adc (r : Registers) (value : UInt8) : Except (Panic ε) Registers := do
  let partialSum ← add16 r.a.toUInt16 value.toUInt16
  let sum ← add16 partialSum (if r.flag .carry then 1 else 0)
  let out := sum.toUInt8
  let r' := (r.setFlag .carry (sum > 0xFF)).setFlag .overflow
    ((r.a ^^^ out) &&& (value ^^^ out) &&& 0x80 ≠ 0)
  return r'.loadA out

def sbc (r : Registers) (value : UInt8) : Except (Panic ε) Registers := adc r (~~~value)

theorem adc_eq (r : Registers) (value : UInt8) :
    (adc r value : Except (Panic ε) Registers) = .ok (r.adc value) := by
  have ha := r.a.toNat_lt
  have hvalue := value.toNat_lt
  have hcarry : (if r.flag .carry then 1 else 0 : UInt16).toNat = (r.flag .carry).toNat := by
    cases r.flag .carry <;> rfl
  have hle : (r.flag .carry).toNat ≤ 1 := Bool.toNat_le _
  have hpartial : (r.a.toUInt16 + value.toUInt16).toNat = r.a.toNat + value.toNat := by
    rw [UInt16.toNat_add, UInt8.toNat_toUInt16, UInt8.toNat_toUInt16]
    omega
  have hsum : (r.a.toUInt16 + value.toUInt16 + if r.flag .carry then 1 else 0).toNat =
      r.a.toNat + value.toNat + (r.flag .carry).toNat := by
    rw [UInt16.toNat_add, hpartial, hcarry]
    omega
  have hout : (r.a.toUInt16 + value.toUInt16 + if r.flag .carry then 1 else 0).toUInt8 =
      UInt8.ofNat (r.a.toNat + value.toNat + (r.flag .carry).toNat) := by
    rw [← hsum]
    rfl
  have hover : (r.a.toUInt16 + value.toUInt16 + if r.flag .carry then 1 else 0) > 0xFF ↔
      r.a.toNat + value.toNat + (r.flag .carry).toNat > 0xFF := by
    rw [gt_iff_lt, UInt16.lt_iff_toNat_lt, hsum]
    exact Iff.rfl
  unfold adc Registers.adc
  rw [add16_ok, ok_bind, add16_ok, ok_bind]
  · simp only [hout, hover]
    rfl
  · rw [hpartial, hcarry]
    omega
  · rw [UInt8.toNat_toUInt16, UInt8.toNat_toUInt16]
    omega

/-! ## Instructions -/

/-- The checked run of a piece of an instruction. -/
def ofCode {α : Type} {x : Machine.Run α} : Code x → Run α
  | .pure a => Pure.pure a
  | .bind c d => ofCode c >>= fun a => ofCode (d a)
  | .registers => do return (← MonadState.get).cpu.registers
  | .modifyRegisters f => modify fun m => { m with cpu := m.cpu.mapRegisters f }
  | .idle => cycle
  | .read addr => read addr
  | .write addr value => write addr value

/-- An operation whose effect on the registers may panic. -/
def applyTo (apply : Registers → UInt8 → Except (Panic Fault) Registers) (operand : Operand) :
    Run Unit := do
  let value ← ofCode (.load operand)
  fun m => do
    let registers ← check (crashOf m) (apply m.cpu.registers value)
    return ((), { m with cpu := { m.cpu with registers } })

def perform (op : Op) (operand : Operand) : Run Unit :=
  match op with
  | .adc => applyTo adc operand
  | .sbc => applyTo sbc operand
  | op => ofCode (.perform op.effect operand)

def instruction : Run Unit := do
  let opcode ← ofCode .fetchByte
  let { op, mode } := Cpu.decode opcode
  let operand ← ofCode (.resolve op mode)
  perform op operand

theorem Safe.registers : Safe (Fit total) Machine.registers (ofCode .registers) :=
  .bind .get fun _ => .pure _

theorem Safe.modifyRegisters (f : Registers → Registers) :
    Safe (Fit total) (Machine.modifyRegisters f) (ofCode (.modifyRegisters f)) :=
  safe_update (fun _ => rfl) (fun _ => rfl) fun _ => rfl

/-- **A piece of an instruction is exact.** -/
theorem Safe.ofCode (c : Code x) : Safe (Fit total) x (ofCode c) := by
  induction c with
  | pure a => exact .pure a
  | bind _ _ ihc ihd => exact .bind ihc ihd
  | registers => exact .registers
  | modifyRegisters f => exact .modifyRegisters f
  | idle => exact .cycle
  | read addr => exact .read addr
  | write addr value => exact .write addr value

theorem Safe.applyTo {apply : Registers → UInt8 → Registers}
    {apply' : Registers → UInt8 → Except (Panic Fault) Registers}
    (h : ∀ r value, apply' r value = .ok (apply r value)) (operand : Operand) :
    Safe (Fit total) (Machine.perform (.read apply) operand) (applyTo apply' operand) := by
  refine .bind (.ofCode (.load operand)) fun value => .of_eq (fun m _ _ => ?_) fun m a m' hm hrun => ?_
  · rw [h]
    rfl
  · cases hrun
    exact hm.congr rfl hm.ppu hm.slot rfl rfl

theorem Safe.perform (op : Op) (operand : Operand) :
    Safe (Fit total) (Machine.perform op.effect operand) (perform op operand) := by
  cases op with
  | adc => exact .applyTo adc_eq operand
  | sbc => exact .applyTo (fun r value => adc_eq r (~~~value)) operand
  | _ => exact .ofCode _

/-- **An instruction is exact.** -/
theorem Safe.instruction : Safe (Fit total) Machine.instruction instruction :=
  .bind (.ofCode _) fun _ => .bind (.ofCode _) fun _ => .perform _ _

/-! ## Steps -/

def report (notice : Notice) : Run Unit :=
  modify fun m => { m with notices := notice :: m.notices }

/-- The processor forgets the edge that it is about to service. -/
def lower : Run Unit := modify fun m => { m with cpu := { m.cpu with nmi := false } }

def service (interrupt : Interrupt) : Run Unit := do
  idle 2
  ofCode (.pushWord (← ofCode .registers).pc)
  ofCode (.push (← ofCode .registers).statusInterrupted)
  ofCode (.modifyRegisters (·.setFlag .interruptDisable true))
  let pc ← ofCode (.readWord (Machine.vectorOf interrupt))
  ofCode (.jumpTo pc)
  report (.serviced interrupt pc)

def step : Run Unit := do
  match Machine.due? (← MonadState.get).cpu with
  | some .nmi =>
    lower
    service .nmi
  | some .irq => service .irq
  | none => instruction

def resetCpu : Run Unit := do
  lower
  idle 5
  ofCode (.modifyRegisters fun r => { r with sp := 0xFD }.setFlag .interruptDisable true)
  let pc ← ofCode (.readWord Machine.resetVector)
  ofCode (.jumpTo pc)
  report (.reset pc)

theorem Safe.report (notice : Notice) :
    Safe (Fit total) (Machine.report notice) (report notice) :=
  safe_update (fun _ => rfl) (fun _ => rfl) fun _ => rfl

theorem Safe.lower :
    Safe (Fit total) (Machine.modifyCpu ({ · with nmi := false })) lower :=
  safe_update (fun _ => rfl) (fun _ => rfl) fun _ => rfl

theorem Safe.service (interrupt : Interrupt) :
    Safe (Fit total) (Machine.service interrupt) (service interrupt) :=
  .bind (.idle 2) fun _ => .bind .registers fun _ => .bind (.ofCode _) fun _ =>
    .bind .registers fun _ => .bind (.ofCode _) fun _ => .bind (.modifyRegisters _) fun _ =>
      .bind (.ofCode _) fun _ => .bind (.ofCode _) fun _ => .report _

/-- **A step is exact.** -/
theorem Safe.step : Safe (Fit total) Machine.step step := by
  refine .bind .get fun m => ?_
  cases Machine.due? m.cpu with
  | none => exact .instruction
  | some interrupt =>
    cases interrupt with
    | nmi => exact .bind .lower fun _ => .service .nmi
    | irq => exact .service .irq

theorem Safe.resetCpu : Safe (Fit total) Machine.resetCpu resetCpu :=
  .bind .lower fun _ => .bind (.idle 5) fun _ => .bind (.modifyRegisters _) fun _ =>
    .bind (.ofCode _) fun _ => .bind (.ofCode _) fun _ => .report _

/-! ## Frames -/

def runRemaining : Nat → Run Unit
  | 0 => pure ()
  | fuel + 1 => do
    if (← MonadState.get).cpu.remaining > 0 then
      step
      runRemaining fuel

/-- Grants the cycles of a frame; what is left of them has 64 bits. -/
def allot : Run Unit := fun m => do
  let remaining ← check (crashOf m) (signed 64 (m.cpu.remaining + m.cpu.tv.frameCycles))
  return ((), { m with cpu := { m.cpu with remaining } })

def runFrame : Run Unit := do
  allot
  runRemaining (← MonadState.get).cpu.remaining.toNat

theorem Safe.runRemaining (fuel : Nat) :
    Safe (Fit total) (Machine.runRemaining fuel) (runRemaining fuel) := by
  induction fuel with
  | zero => exact .pure ()
  | succ fuel ih =>
    refine .bind .get fun m => ?_
    split
    · exact .bind .step fun _ => ih
    · exact .pure ()

/-- Every step takes a cycle. -/
theorem step_lt (h : Fit total m) (hrun : Machine.step m = .ok ((), m')) :
    m.cpu.cycles < m'.cpu.cycles := by
  rw [Machine.step_eq] at hrun
  split at hrun
  · have hserved := (Machine.Serves.service _ _ _ _ hrun).1
    exact Nat.lt_of_lt_of_eq (Nat.lt_add_of_pos_right (by decide)) hserved.symm
  · have hserved := (Machine.Serves.service _ _ _ _ hrun).1
    omega
  · exact Machine.instruction_lt h.clock hrun

/-- **Behind a frame no cycle of it is left.** -/
theorem runRemaining_end {fuel : Nat} (h : Fit total m) (hfuel : m.cpu.remaining ≤ fuel)
    (hrun : Machine.runRemaining fuel m = .ok ((), m')) : m'.cpu.remaining ≤ 0 := by
  induction fuel generalizing m with
  | zero =>
    cases hrun
    exact hfuel
  | succ fuel ih =>
    have hif : Machine.runRemaining (fuel + 1) m = (if m.cpu.remaining > 0 then
        (Machine.step >>= fun _ => Machine.runRemaining fuel) else Pure.pure () :
          Machine.Run Unit) m := rfl
    rw [hif] at hrun
    split_ifs at hrun with hleft
    · obtain ⟨_, m₁, hstep, hrest⟩ := Machine.bind_run hrun
      have hfit := ((Safe.step m h).2 _ _ hstep).1
      have hlt := step_lt h hstep
      have hbudget := h.budget
      have hbudget' := hfit.budget
      exact ih hfit (by omega) hrest
    · cases hrun
      omega

end NesMachine.Checked
