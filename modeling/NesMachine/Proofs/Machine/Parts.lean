import Mathlib.Tactic.SplitIfs
import NesMachine.Machine.Execute

/-!
# The parts of a run

Whatever the program, a run is made of a few primitive steps. All steps of an instruction are silent,
but for the register write that may end it: with that, a program can request an interrupt of its own.
What holds of the primitive steps holds of a run, by induction on how it is made.

* `Plain`, `Ending`, `Turn`, `Part`: parts that are silent, that may end with a register write, that are
  granted no cycles, and all.
* `Ending.instruction`, `Turn.step`, `Part.runFrame`: how instructions and longer runs are made.
-/

namespace NesMachine.Machine

open Cpu (Registers Op AddrMode Effect)

variable {α β : Type} {m m' : Machine} {x : Run α} {f : α → Run β}

/-! ## Runs one behind the other -/

theorem run_eq {a : α} (hx : x m = .ok (a, m')) : (x >>= f) m = f a m' := by
  show (x m >>= fun r => f r.1 r.2) = f a m'
  rw [hx]
  rfl

theorem run_error {e : Crash} (hx : x m = .error e) : (x >>= f) m = .error e := by
  show (x m >>= fun r => f r.1 r.2) = .error e
  rw [hx]
  rfl

theorem bind_error {e : Crash} (h : (x >>= f) m = .error e) :
    x m = .error e ∨ ∃ a m₁, x m = .ok (a, m₁) ∧ f a m₁ = .error e := by
  cases hx : x m with
  | error e' =>
    rw [run_error hx] at h
    cases h
    exact .inl rfl
  | ok r =>
    rw [run_eq hx] at h
    exact .inr ⟨r.1, r.2, rfl, h⟩

/-- A cycle is its dots, behind a tick of the processor. -/
theorem cycle_eq (m : Machine) : cycle m =
    (dots m.cpu.tick.1 { m with cpu := m.cpu.tick.2 }).map fun m' => ((), m') := by
  unfold cycle
  simp only
  cases dots m.cpu.tick.1 { m with cpu := m.cpu.tick.2 } <;> rfl

/-! ## Silent parts -/

/-- The parts made of silent steps only. -/
inductive Plain : {α : Type} → Run α → Prop where
  | pure {α : Type} (a : α) : Plain (Pure.pure a)
  | bind {α β : Type} {x : Run α} {f : α → Run β} :
      Plain x → (∀ a, Plain (f a)) → Plain (x >>= f)
  | getCpu : Plain (do return (← get).cpu)
  | modifyRegisters (f : Registers → Registers) : Plain (modifyRegisters f)
  | writeRam (addr : UInt16) (value : UInt8) : Plain (modifyCpu (·.writeRam addr value))
  | cycle : Plain cycle
  | readPpu (addr : UInt16) : Plain (readPpu addr)
  | writePpu {addr : UInt16} (value : UInt8) : Ppu.registerOf addr ≠ 0 → Plain (writePpu addr value)
  | readPad : Plain readPad
  | writeStrobe (value : UInt8) :
      Plain (modify fun m : Machine => { m with pad := m.pad.writeStrobe value })
  | readCartridge (addr : UInt16) : Plain (readCartridge addr)
  | writeCartridge (addr : UInt16) (value : UInt8) : Plain (writeCartridge addr value)

/-- A look at the machine that sees the processor only. -/
theorem look_eq {f : Machine → Run β} (hf : ∀ m m', m.cpu = m'.cpu → f m = f m') :
    (do f (← get)) = (do f { cpu := ← (do return (← get).cpu) } : Run β) := by
  funext m
  exact congrFun (hf m { cpu := m.cpu } rfl) m

theorem Plain.look {f : Machine → Run β} (hf : ∀ m m', m.cpu = m'.cpu → f m = f m')
    (h : ∀ m, Plain (f m)) : Plain (do f (← get)) := by
  rw [look_eq hf]
  exact .bind .getCpu fun _ => h _

theorem Plain.registers : Plain registers :=
  .look (fun _ _ h => by rw [h]) fun _ => .pure _

theorem Plain.idle (n : Nat) : Plain (idle n) := by
  induction n with
  | zero => exact .pure ()
  | succ n ih => exact .bind .cycle fun _ => ih

theorem Plain.fetchBus (addr : UInt16) : Plain (fetchBus addr) := by
  unfold Machine.fetchBus
  split_ifs
  · exact .look (fun _ _ h => by rw [h]) fun _ => .pure _
  · exact .readPpu addr
  · exact .readPad
  · exact .pure 0
  · exact .readCartridge addr

theorem Plain.read (addr : UInt16) : Plain (read addr) := .bind .cycle fun _ => .fetchBus addr

/-! ## Writes -/

theorem Plain.transferBytes (page : UInt8) (k count : Nat) : Plain (transferBytes page k count) := by
  induction count generalizing k with
  | zero => exact .pure ()
  | succ count ih =>
    refine .bind (.read _) fun value => .bind .cycle fun _ => .bind (.writePpu value ?_) fun _ => ih _
    decide

theorem Plain.transferObjects (page : UInt8) : Plain (transferObjects page) :=
  .look (fun _ _ h => by rw [h]) fun _ => .bind (.idle _) fun _ => .transferBytes page 0 256

/-- The parts that are silent up to a register write at the end. -/
inductive Ending : {α : Type} → Run α → Prop where
  | plain {α : Type} {x : Run α} : Plain x → Ending x
  | bind {α β : Type} {x : Run α} {f : α → Run β} :
      Plain x → (∀ a, Ending (f a)) → Ending (x >>= f)
  | writePpu (addr : UInt16) (value : UInt8) : Ending (writePpu addr value)

theorem Ending.write (addr : UInt16) (value : UInt8) : Ending (write addr value) := by
  refine .bind .cycle fun _ => ?_
  unfold storeBus
  split_ifs
  · exact .plain (.writeRam addr value)
  · exact .writePpu addr value
  · exact .plain (.transferObjects value)
  · exact .plain (.writeStrobe value)
  · exact .plain (.pure ())
  · exact .plain (.writeCartridge addr value)

/-! ## Parts of an instruction -/

theorem Plain.readWord (addr : UInt16) : Plain (readWord addr) :=
  .bind (.read _) fun _ => .bind (.read _) fun _ => .pure _

theorem Plain.readZeroPageWord (addr : UInt8) : Plain (readZeroPageWord addr) :=
  .bind (.read _) fun _ => .bind (.read _) fun _ => .pure _

theorem Plain.fetchByte : Plain fetchByte :=
  .bind .registers fun _ => .bind (.read _) fun _ => .bind (.modifyRegisters _) fun _ => .pure _

theorem Plain.fetchWord : Plain fetchWord :=
  .bind .fetchByte fun _ => .bind .fetchByte fun _ => .pure _

theorem stackAddress_lt (sp : UInt8) : stackAddress sp < 0x2000 := by
  unfold stackAddress
  rw [UInt16.lt_iff_toNat_lt, UInt16.toNat_or, UInt8.toNat_toUInt16]
  have hsp := sp.toNat_lt
  have hor : 256 ||| sp.toNat < 2 ^ 13 := Nat.or_lt_two_pow (by decide) (by omega)
  exact hor

theorem Plain.writeStack (sp value : UInt8) : Plain (write (stackAddress sp) value) := by
  refine .bind .cycle fun _ => ?_
  unfold storeBus
  rw [if_pos (stackAddress_lt sp)]
  exact .writeRam _ value

theorem Plain.push (value : UInt8) : Plain (push value) :=
  .bind .registers fun _ => .bind (.writeStack _ value) fun _ => .modifyRegisters _

theorem Plain.pull : Plain pull :=
  .bind (.modifyRegisters _) fun _ => .bind .registers fun _ => .read _

theorem Plain.pushWord (value : UInt16) : Plain (pushWord value) :=
  .bind (.push _) fun _ => .push _

theorem Plain.pullWord : Plain pullWord :=
  .bind .pull fun _ => .bind .pull fun _ => .pure _

theorem Plain.jumpTo (pc : UInt16) : Plain (jumpTo pc) := .modifyRegisters _

theorem Plain.indexed (op : Op) (base : UInt16) (index : UInt8) : Plain (indexed op base index) := by
  unfold Machine.indexed
  simp only
  split
  · exact .bind .cycle fun _ => .pure _
  · exact .pure _

theorem Plain.resolve (op : Op) (mode : AddrMode) : Plain (resolve op mode) := by
  cases mode with
  | implied => exact .bind .cycle fun _ => .pure _
  | accumulator => exact .bind .cycle fun _ => .pure _
  | immediate => exact .bind .registers fun _ => .bind (.jumpTo _) fun _ => .pure _
  | zeroPage => exact .bind .fetchByte fun _ => .pure _
  | zeroPageX =>
    exact .bind .fetchByte fun _ => .bind .cycle fun _ => .bind .registers fun _ => .pure _
  | zeroPageY =>
    exact .bind .fetchByte fun _ => .bind .cycle fun _ => .bind .registers fun _ => .pure _
  | absolute => exact .bind .fetchWord fun _ => .pure _
  | absoluteX =>
    exact .bind .fetchWord fun _ => .bind .registers fun _ => .bind (.indexed op _ _) fun _ => .pure _
  | absoluteY =>
    exact .bind .fetchWord fun _ => .bind .registers fun _ => .bind (.indexed op _ _) fun _ => .pure _
  | indirect =>
    exact .bind .fetchWord fun _ => .bind (.read _) fun _ => .bind (.read _) fun _ => .pure _
  | indexedIndirect =>
    exact .bind .fetchByte fun _ => .bind .cycle fun _ => .bind .registers fun _ =>
      .bind (.readZeroPageWord _) fun _ => .pure _
  | indirectIndexed =>
    exact .bind .fetchByte fun _ => .bind (.readZeroPageWord _) fun _ => .bind .registers fun _ =>
      .bind (.indexed op _ _) fun _ => .pure _
  | relative => exact .bind .fetchByte fun _ => .bind .registers fun _ => .pure _

theorem Plain.load (operand : Operand) : Plain (load operand) := by
  cases operand with
  | none => exact .pure 0
  | accumulator => exact .bind .registers fun _ => .pure _
  | address addr => exact .read addr

/-- The effect of an operation: a store comes last in it. -/
theorem Ending.perform (effect : Effect) (operand : Operand) : Ending (perform effect operand) := by
  cases effect with
  | read apply =>
    refine .plain ?_
    exact .bind (.load operand) fun _ => .modifyRegisters _
  | store value =>
    cases operand with
    | address addr => exact .bind .registers fun _ => .write addr _
    | none | accumulator => exact .plain (.pure ())
  | modify apply =>
    cases operand with
    | accumulator => exact .plain (.modifyRegisters _)
    | address addr =>
      exact .bind (.read addr) fun _ => .bind .cycle fun _ => .bind .registers fun _ =>
        .bind (.modifyRegisters _) fun _ => .write addr _
    | none => exact .plain (.pure ())
  | registers apply => exact .plain (.modifyRegisters apply)
  | branch taken =>
    cases operand with
    | address target =>
      refine .bind .registers fun r => .plain ?_
      split
      · exact .bind (.idle _) fun _ => .jumpTo target
      · exact .pure ()
    | none | accumulator => exact .plain (.pure ())
  | push value => exact .bind .registers fun _ => .plain (.push _)
  | pull apply =>
    exact .bind .cycle fun _ => .bind .pull fun _ => .plain (.modifyRegisters _)
  | jump =>
    cases operand with
    | address addr => exact .plain (.jumpTo addr)
    | none | accumulator => exact .plain (.pure ())
  | call =>
    cases operand with
    | address addr =>
      exact .bind .cycle fun _ => .bind .registers fun _ => .bind (.pushWord _) fun _ =>
        .plain (.jumpTo addr)
    | none | accumulator => exact .plain (.pure ())
  | leave =>
    exact .bind .cycle fun _ => .bind .pullWord fun _ => .bind .cycle fun _ =>
      .plain (.jumpTo _)
  | leaveInterrupt =>
    exact .bind .cycle fun _ => .bind .pull fun _ => .bind (.modifyRegisters _) fun _ =>
      .bind .pullWord fun _ => .plain (.jumpTo _)
  | softwareInterrupt =>
    exact .bind (.modifyRegisters _) fun _ => .bind .registers fun _ => .bind (.pushWord _) fun _ =>
      .bind .registers fun _ => .bind (.push _) fun _ => .bind (.modifyRegisters _) fun _ =>
        .bind (.readWord _) fun _ => .plain (.jumpTo _)

theorem Ending.instruction : Ending instruction :=
  .bind .fetchByte fun _ => .bind (.resolve _ _) fun _ => .perform _ _

/-! ## Parts of a run -/

/-- The parts that are granted no cycles. -/
inductive Turn : {α : Type} → Run α → Prop where
  | ending {α : Type} {x : Run α} : Ending x → Turn x
  | bind {α β : Type} {x : Run α} {f : α → Run β} :
      Turn x → (∀ a, Turn (f a)) → Turn (x >>= f)
  | lower : Turn (modifyCpu ({ · with nmi := false }))
  | report (notice : Notice) : Turn (report notice)

theorem Plain.turn {x : Run α} (h : Plain x) : Turn x := .ending (.plain h)

theorem Turn.look {f : Machine → Run β} (hf : ∀ m m', m.cpu = m'.cpu → f m = f m')
    (h : ∀ m, Turn (f m)) : Turn (do f (← get)) := by
  rw [look_eq hf]
  exact .bind Plain.getCpu.turn fun _ => h _

theorem Turn.service (interrupt : Interrupt) : Turn (service interrupt) :=
  .bind (Plain.idle 2).turn fun _ => .bind Plain.registers.turn fun _ =>
    .bind (Plain.pushWord _).turn fun _ => .bind Plain.registers.turn fun _ =>
      .bind (Plain.push _).turn fun _ => .bind (Plain.modifyRegisters _).turn fun _ =>
        .bind (Plain.readWord _).turn fun _ => .bind (Plain.jumpTo _).turn fun _ => .report _

theorem Turn.step : Turn step := by
  refine .look (fun _ _ h => by rw [h]) fun m => ?_
  cases due? m.cpu with
  | none => exact .ending .instruction
  | some interrupt =>
    cases interrupt with
    | nmi => exact .bind .lower fun _ => .service .nmi
    | irq => exact .service .irq

theorem Turn.runRemaining (fuel : Nat) : Turn (runRemaining fuel) := by
  induction fuel with
  | zero => exact (Plain.pure ()).turn
  | succ fuel ih =>
    refine .look (fun _ _ h => by rw [h]) fun m => ?_
    split
    · exact .bind .step fun _ => ih
    · exact (Plain.pure ()).turn

theorem Turn.resetCpu : Turn resetCpu :=
  .bind .lower fun _ => .bind (Plain.idle 5).turn fun _ =>
    .bind (Plain.modifyRegisters _).turn fun _ => .bind (Plain.readWord _).turn fun _ =>
      .bind (Plain.jumpTo _).turn fun _ => .report _

/-- The parts made of any steps. -/
inductive Part : {α : Type} → Run α → Prop where
  | ending {α : Type} {x : Run α} : Ending x → Part x
  | bind {α β : Type} {x : Run α} {f : α → Run β} :
      Part x → (∀ a, Part (f a)) → Part (x >>= f)
  | lower : Part (modifyCpu ({ · with nmi := false }))
  | report (notice : Notice) : Part (report notice)
  | allot : Part (modifyCpu fun c => { c with remaining := c.remaining + c.tv.frameCycles })

theorem Turn.part {x : Run α} (h : Turn x) : Part x := by
  induction h with
  | ending hx => exact .ending hx
  | bind _ _ ihx ihf => exact .bind ihx ihf
  | lower => exact .lower
  | report notice => exact .report notice

theorem Part.step : Part step := Turn.step.part

theorem Part.runFrame : Part runFrame :=
  .bind .allot fun _ => (Turn.look (fun _ _ h => by rw [h]) fun _ => .runRemaining _).part

theorem Part.resetCpu : Part resetCpu := Turn.resetCpu.part

end NesMachine.Machine
