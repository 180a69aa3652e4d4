import NesMachine.Proofs.Machine.Instructions
import NesMachine.Proofs.Machine.Progress

/-!
# Timing

The processor counts no cycles ahead: they add up from what an instruction does on the bus. They are
those of the published table all the same.

* `published`: the table of the manuals.
* `eval_length`: an instruction is as long on the bus as the table says.
* `timing_exact`: the cycles of steps and of the reset line.
-/

namespace NesMachine.Machine

open Cpu (Registers Op AddrMode Effect)

/-! ## The published table -/

/-- The cycles of an instruction: `crossed` says that the index leads out of the page of the base,
`taken` that a branch is taken, `far` that it leads out of the page of the next instruction. -/
def published (op : Op) (mode : AddrMode) (crossed taken far : Bool) : Nat :=
  match op with
  | .brk => 7
  | .jsr | .rts | .rti => 6
  | .pla | .plp => 4
  | .pha | .php => 3
  | .jmp =>
    match mode with
    | .indirect => 5
    | _ => 3
  | .sta | .stx | .sty =>
    match mode with
    | .zeroPage => 3
    | .zeroPageX | .zeroPageY | .absolute => 4
    | .absoluteX | .absoluteY => 5
    | _ => 6
  | .asl | .lsr | .rol | .ror | .inc | .dec =>
    match mode with
    | .accumulator => 2
    | .zeroPage => 5
    | .zeroPageX | .absolute => 6
    | _ => 7
  | _ =>
    match mode with
    | .zeroPage => 3
    | .zeroPageX | .zeroPageY | .absolute => 4
    | .absoluteX | .absoluteY => 4 + crossed.toNat
    | .indexedIndirect => 6
    | .indirectIndexed => 5 + crossed.toNat
    | .relative => 2 + taken.toNat + (taken && far).toNat
    | _ => 2

/-- Whether two addresses are on different pages. -/
def apart (a b : Nat) : Bool := a / 256 ≠ b / 256

/-- Whether the index leads out of the page of the base, by the bytes read in the cycles of an
instruction. The base of the indirect mode is read behind its pointer. -/
def crosses (r : Registers) (mode : AddrMode) (byte : Nat → UInt8) : Bool :=
  let base (n : Nat) := Manual.word (byte n).toNat (byte (n + 1)).toNat
  match mode with
  | .absoluteX => apart (base 1) ((base 1 + r.x.toNat) % 65536)
  | .absoluteY => apart (base 1) ((base 1 + r.y.toNat) % 65536)
  | .indirectIndexed => apart (base 2) ((base 2 + r.y.toNat) % 65536)
  | _ => false

/-- Whether a branch is taken. -/
def branches (r : Registers) (op : Op) : Bool :=
  match Manual.action op with
  | .branches taken => taken r.state
  | _ => false

/-- Whether a branch leads out of the page of the next instruction. -/
def strays (r : Registers) (mode : AddrMode) (byte : Nat → UInt8) : Bool :=
  let next := (r.pc.toNat + 2) % 65536
  match mode with
  | .relative => apart next ((next + Manual.signed (byte 1).toNat) % 65536).toNat
  | _ => false

/-! ## The parts of the table -/

/-- Whether a mode names an address. -/
def addresses : AddrMode → Bool
  | .implied | .accumulator => false
  | _ => true

/-- The cycles in which the operand is found. -/
def resolveCycles (op : Op) (mode : AddrMode) (crossed : Bool) : Nat :=
  match mode with
  | .immediate => 0
  | .implied | .accumulator | .zeroPage | .relative => 1
  | .zeroPageX | .zeroPageY | .absolute => 2
  | .absoluteX | .absoluteY => 2 + (op.alwaysPaysIndexCycle || crossed).toNat
  | .indirect | .indexedIndirect => 4
  | .indirectIndexed => 3 + (op.alwaysPaysIndexCycle || crossed).toNat

/-- The cycles in which the effect is performed, on an operand with or without an address. -/
def performCycles (effect : Effect) (addressed taken far : Bool) : Nat :=
  match effect with
  | .read _ | .store _ => addressed.toNat
  | .modify _ | .call => if addressed then 3 else 0
  | .branch _ => if addressed && taken then (if far then 2 else 1) else 0
  | .registers _ | .jump => 0
  | .push _ => 1
  | .pull _ => 2
  | .leave | .leaveInterrupt => 4
  | .softwareInterrupt => 5

/-- The parts add up to the table, opcode by opcode. -/
theorem published_eq (opcode : UInt8) (crossed taken far far' : Bool)
    (hfar : (Cpu.decode opcode).mode = .relative → far = far') :
    1 + resolveCycles (Cpu.decode opcode).op (Cpu.decode opcode).mode crossed +
      performCycles (Cpu.decode opcode).op.effect (addresses (Cpu.decode opcode).mode) taken far =
        published (Cpu.decode opcode).op (Cpu.decode opcode).mode crossed taken far' := by
  revert crossed taken far far'
  exact Registers.forall_byte (p := fun opcode => ∀ crossed taken far far' : Bool,
    ((Cpu.decode opcode).mode = .relative → far = far') →
    1 + resolveCycles (Cpu.decode opcode).op (Cpu.decode opcode).mode crossed +
      performCycles (Cpu.decode opcode).op.effect (addresses (Cpu.decode opcode).mode) taken far =
        published (Cpu.decode opcode).op (Cpu.decode opcode).mode crossed taken far')
    (by decide +kernel) opcode

theorem published_bounds (opcode : UInt8) (crossed taken far : Bool) :
    2 ≤ published (Cpu.decode opcode).op (Cpu.decode opcode).mode crossed taken far ∧
      published (Cpu.decode opcode).op (Cpu.decode opcode).mode crossed taken far ≤ 7 := by
  revert crossed taken far
  exact Registers.forall_byte (p := fun opcode => ∀ crossed taken far : Bool,
    2 ≤ published (Cpu.decode opcode).op (Cpu.decode opcode).mode crossed taken far ∧
      published (Cpu.decode opcode).op (Cpu.decode opcode).mode crossed taken far ≤ 7)
    (by decide +kernel) opcode

/-! ## The length of an instruction -/

/-- Whether an operand has an address. -/
def Operand.addressed : Operand → Bool
  | .address _ => true
  | _ => false

/-- Whether an operand is on another page than an address. -/
def Operand.far (pc : UInt16) : Operand → Bool
  | .address target => !samePage pc target
  | _ => false

/-- Whether an effect is a branch that is taken. -/
def takes (effect : Effect) (r : Registers) : Bool :=
  match effect with
  | .branch taken => taken r
  | _ => false

theorem takes_eq (op : Op) (r : Registers) (pc : UInt16) :
    takes op.effect { r with pc } = branches r op := by
  cases op <;> rfl

/-- Whether a cycle starts a transfer of object memory. -/
def BusCycle.starts : BusCycle → Bool
  | .write addr _ => addr = 0x4014
  | _ => false

theorem stackAddress_ne (sp : UInt8) : stackAddress sp ≠ 0x4014 := by
  intro heq
  have hlt := stackAddress_lt sp
  rw [heq] at hlt
  exact absurd hlt (by decide)

section Length

variable {byte : Nat → UInt8} {r : Registers}

theorem length_indexing (op : Op) (base addr : UInt16) :
    (Code.indexing op base addr).length =
      (op.alwaysPaysIndexCycle || apart base.toNat addr.toNat).toNat := by
  have hpage : (!samePage base addr) = apart base.toNat addr.toNat := by
    rw [samePage_eq, apart, decide_not]
  rw [Code.indexing, hpage]
  cases op.alwaysPaysIndexCycle || apart base.toNat addr.toNat <;> rfl

theorem starts_indexing (op : Op) (base addr : UInt16) :
    (Code.indexing op base addr).any BusCycle.starts = false := by
  unfold Code.indexing
  split_ifs <;> rfl

/-- An operand found behind the opcode, as far as timing goes. -/
structure Resolved (op : Op) (mode : AddrMode) (r : Registers) (byte : Nat → UInt8)
    (out : Code.Outcome Operand) : Prop where
  length : out.log.length = resolveCycles op mode (crosses r mode byte)
  quiet : out.log.any BusCycle.starts = false
  registers : ∃ pc, out.registers = { r with pc }
  addressed : out.value.addressed = addresses mode
  far : mode = .relative → out.value.far out.registers.pc = strays r mode byte

theorem resolved (op : Op) (mode : AddrMode) : Resolved op mode r byte
    ((Code.resolve op mode).eval (fun n _ => byte n) 1 { r with pc := r.pc + 1 }) := by
  cases mode with
  | relative =>
    refine ⟨rfl, rfl, ⟨_, rfl⟩, rfl, fun _ => ?_⟩
    show (!samePage (r.pc + 1 + 1) (r.pc + 1 + 1 + (byte 1).toInt8.toInt16.toUInt16)) = _
    have hnext : (r.pc + 1 + 1).toNat = (r.pc.toNat + 2) % 65536 := by
      rw [toNat_next, toNat_next]
      omega
    rw [samePage_eq, toNat_relative, hnext, strays, apart, decide_not]
  | absoluteX =>
    rw [Code.eval_resolve_absoluteX]
    refine ⟨?_, starts_indexing _ _ _, ⟨_, rfl⟩, rfl, AddrMode.noConfusion⟩
    simp only [List.length_append, length_indexing, toNat_add_byte, toNat_word]
    rfl
  | absoluteY =>
    rw [Code.eval_resolve_absoluteY]
    refine ⟨?_, starts_indexing _ _ _, ⟨_, rfl⟩, rfl, AddrMode.noConfusion⟩
    simp only [List.length_append, length_indexing, toNat_add_byte, toNat_word]
    rfl
  | indirectIndexed =>
    rw [Code.eval_resolve_indirectIndexed]
    refine ⟨?_, starts_indexing _ _ _, ⟨_, rfl⟩, rfl, AddrMode.noConfusion⟩
    simp only [List.length_append, length_indexing, toNat_add_byte, toNat_word]
    rfl
  | _ => exact ⟨rfl, rfl, ⟨_, rfl⟩, rfl, AddrMode.noConfusion⟩

theorem perform_length (effect : Effect) (operand : Operand) (n : Nat) :
    ((Code.perform effect operand).eval (fun n _ => byte n) n r).log.length =
      performCycles effect operand.addressed (takes effect r) (operand.far r.pc) := by
  cases effect with
  | branch taken =>
    cases operand with
    | address target =>
      rw [Code.eval_perform_branch]
      by_cases htaken : taken r <;> cases hpage : samePage r.pc target <;>
        simp [performCycles, takes, Operand.addressed, Operand.far, htaken, hpage]
    | none | accumulator => rfl
  | _ => cases operand <;> rfl

/-- Only a store at the end starts a transfer. -/
theorem perform_starts (effect : Effect) (operand : Operand) (n : Nat) :
    (((Code.perform effect operand).eval (fun n _ => byte n) n r).log.dropLast.any
      BusCycle.starts) = false := by
  cases effect with
  | branch taken =>
    cases operand with
    | address target =>
      rw [Code.eval_perform_branch]
      by_cases htaken : taken r <;> cases hpage : samePage r.pc target <;>
        simp [BusCycle.starts, htaken]
    | none | accumulator => rfl
  | call =>
    cases operand with
    | address addr =>
      rw [Code.eval_perform_call]
      simp [BusCycle.starts, stackAddress_ne]
    | none | accumulator => rfl
  | softwareInterrupt =>
    rw [Code.eval_perform_softwareInterrupt]
    simp [BusCycle.starts, stackAddress_ne]
  | _ => cases operand <;> rfl

theorem any_dropLast_append {α : Type} {p : α → Bool} {l l' : List α} (h : l.any p = false)
    (h' : l'.dropLast.any p = false) : (l ++ l').dropLast.any p = false := by
  rw [List.any_eq_false] at h ⊢
  rw [List.dropLast_append]
  intro a ha
  split_ifs at ha
  · exact h a (List.dropLast_subset l ha)
  · rcases List.mem_append.mp ha with ha | ha
    · exact h a ha
    · exact List.any_eq_false.mp h' a ha

/-- **An instruction is as long on the bus as the table says**, and only its last cycle may start a
transfer. -/
theorem eval_length (byte : Nat → UInt8) (r : Registers) :
    let out := Code.instruction.eval (fun n _ => byte n) 0 r
    let i := Cpu.decode (byte 0)
    out.log.head? = some (.read r.pc (byte 0)) ∧
      out.log.length = published i.op i.mode (crosses r i.mode byte) (branches r i.op)
        (strays r i.mode byte) ∧
      out.log.dropLast.any BusCycle.starts = false := by
  intro out i
  obtain ⟨hlength, hquiet, ⟨pc, hregisters⟩, haddressed, hfar⟩ := @resolved byte r i.op i.mode
  generalize hfound : (Code.resolve i.op i.mode).eval (fun n _ => byte n) 1
    { r with pc := r.pc + 1 } = found at hlength hquiet hregisters haddressed hfar
  have hdone := @perform_length byte found.registers i.op.effect found.value (1 + found.log.length)
  have hends := @perform_starts byte found.registers i.op.effect found.value (1 + found.log.length)
  generalize hperform : (Code.perform i.op.effect found.value).eval (fun n _ => byte n)
    (1 + found.log.length) found.registers = done at hdone hends
  have hout : out.log = .read r.pc (byte 0) :: (found.log ++ done.log) := by
    rw [← hperform, ← hfound]
    rfl
  refine ⟨by rw [hout]; rfl, ?_, ?_⟩
  · have htakes : takes i.op.effect found.registers = branches r i.op := by
      rw [hregisters, takes_eq]
    have htable : 1 + resolveCycles i.op i.mode (crosses r i.mode byte) +
        performCycles i.op.effect (addresses i.mode) (branches r i.op)
          (found.value.far found.registers.pc) =
        published i.op i.mode (crosses r i.mode byte) (branches r i.op) (strays r i.mode byte) :=
      published_eq (byte 0) _ _ _ _ hfar
    rw [htakes, haddressed] at hdone
    rw [hout, List.length_cons, List.length_append, hlength, hdone, ← htable]
    omega
  · rw [hout, ← List.cons_append]
    exact any_dropLast_append (by rw [List.any_cons, hquiet]; rfl) hends

end Length

/-! ## Transfers -/

theorem counted_of_not {e : BusCycle} (h : e.starts = false) (n : Nat) :
    Code.counted n e = n + 1 := by
  cases e with
  | write addr value => exact if_neg (of_decide_eq_false h)
  | idle | read addr value => rfl

theorem counted_of_starts {e : BusCycle} (h : e.starts = true) (n : Nat) :
    Code.counted n e = n + 1 + if (n + 1) % 2 = 0 then 513 else 514 := by
  cases e with
  | write addr value =>
    have hcounted : Code.counted n (.write addr value) = n + 1 + 513 + (n + 1) % 2 :=
      if_pos (of_decide_eq_true h)
    rw [hcounted]
    split_ifs <;> omega
  | idle | read addr value => cases h

theorem foldl_counted_quiet {log : List BusCycle} (h : log.any BusCycle.starts = false) (n : Nat) :
    log.foldl Code.counted n = n + log.length := by
  induction log generalizing n with
  | nil => rfl
  | cons e log ih =>
    rw [List.any_cons, Bool.or_eq_false_iff] at h
    rw [List.foldl_cons, counted_of_not h.1, ih h.2, List.length_cons]
    omega

/-- The cycles of a log whose last cycle may start a transfer. -/
theorem foldl_counted {log : List BusCycle} (h : log.dropLast.any BusCycle.starts = false)
    (n : Nat) : log.foldl Code.counted n = n + log.length +
      if log.any BusCycle.starts then (if (n + log.length) % 2 = 0 then 513 else 514) else 0 := by
  rcases List.eq_nil_or_concat log with rfl | ⟨before, e, rfl⟩
  · rfl
  · rw [List.concat_eq_append] at h ⊢
    rw [List.dropLast_concat] at h
    rw [List.foldl_append, foldl_counted_quiet h, List.any_append, h, List.length_append,
      List.length_singleton, ← Nat.add_assoc]
    cases he : e.starts with
    | false =>
      simp [counted_of_not he, he]
    | true =>
      simp [counted_of_starts he, he]

/-! ## Steps -/

/-- What the instruction under the program counter does on the bus. -/
def busLog (m : Machine) : List BusCycle := Code.instruction.log m

/-- The instruction whose opcode is read first. -/
def fetched (m : Machine) : Cpu.Instruction := Cpu.decode (Code.readAt m.busLog 0)

/-- The cycles that the table gives it. -/
def tableCycles (m : Machine) : Nat :=
  let byte := Code.readAt m.busLog
  published m.fetched.op m.fetched.mode (crosses m.cpu.registers m.fetched.mode byte)
    (branches m.cpu.registers m.fetched.op) (strays m.cpu.registers m.fetched.mode byte)

/-- An instruction that takes the cycles of the table and of the transfer it starts. -/
structure Timed (m m' : Machine) : Prop where
  opcode : m.busLog.head? = some (.read m.cpu.registers.pc (Code.readAt m.busLog 0))
  length : m.busLog.length = m.tableCycles
  /-- A transfer is started in the last cycle, if at all. -/
  last : m.busLog.dropLast.any BusCycle.starts = false
  charged : m'.cpu.cycles = m.cpu.cycles + m.tableCycles +
    if m.busLog.any BusCycle.starts then
      (if (m.cpu.cycles + m.tableCycles) % 2 = 0 then 513 else 514)
    else 0

theorem instruction_timed {m m' : Machine} (h : instruction m = .ok ((), m')) : Timed m m' := by
  have heval := Code.eval_log Code.instruction h [] []
  rw [List.nil_append, List.append_nil] at heval
  have hlog : (Code.instruction.eval (fun n _ => Code.readAt m.busLog n) 0 m.cpu.registers).log =
      m.busLog := congrArg Code.Outcome.log heval
  obtain ⟨hopcode, hlength, hlast⟩ := eval_length (Code.readAt m.busLog) m.cpu.registers
  rw [hlog] at hopcode hlength hlast
  refine ⟨hopcode, hlength, hlast, ?_⟩
  have htable : m.tableCycles = m.busLog.length := hlength.symm
  rw [htable, Code.cycles Code.instruction h]
  exact foldl_counted hlast _

theorem Takes.resetCpu : Takes 7 resetCpu := by
  have hlower : Takes 0 (modifyCpu ({ · with nmi := false })) := by
    intro m _ m' h
    cases h
    rfl
  have hreport : ∀ notice, Takes 0 (report notice) := by
    intro notice m _ m' h
    cases h
    rfl
  have hidle : Takes 5 (idle 5) := fun m a m' h => (Code.Passes.idle 5 m a m' h).1
  exact hlower.bind fun _ => hidle.bind fun _ => (Takes.modifyRegisters _).bind fun _ =>
    (Takes.readWord _).bind fun _ => (Takes.modifyRegisters _).bind fun _ => hreport _

/-- A step that services an interrupt takes seven cycles. -/
theorem step_served {m m' : Machine} {interrupt : Interrupt} (hdue : due? m.cpu = some interrupt)
    (h : step m = .ok ((), m')) : m'.cpu.cycles = m.cpu.cycles + 7 := by
  rw [step_eq, hdue] at h
  cases interrupt with
  | nmi => exact (Serves.service .nmi _ _ _ h).1
  | irq => exact (Serves.service .irq _ _ _ h).1

/-- Any other step takes the cycles of its instruction. -/
theorem step_timed {m m' : Machine} (hdue : due? m.cpu = none) (h : step m = .ok ((), m')) :
    Timed m m' := by
  rw [step_eq, hdue] at h
  exact instruction_timed h

/-- The longest step is an instruction of seven cycles that starts a transfer of 514. -/
theorem step_bounds {m m' : Machine} (h : step m = .ok ((), m')) :
    m.cpu.cycles + 2 ≤ m'.cpu.cycles ∧ m'.cpu.cycles ≤ m.cpu.cycles + 521 := by
  cases hdue : due? m.cpu with
  | none =>
    have hcharged := (step_timed hdue h).charged
    have htable : 2 ≤ m.tableCycles ∧ m.tableCycles ≤ 7 := published_bounds _ _ _ _
    constructor
    · omega
    · split_ifs at hcharged <;> omega
  | some interrupt =>
    have hserved := step_served hdue h
    omega

/-- **Timing is exact.** -/
theorem timing_exact (m m' : Machine) :
    (step m = .ok ((), m') →
      (∀ interrupt, due? m.cpu = some interrupt → m'.cpu.cycles = m.cpu.cycles + 7) ∧
      (due? m.cpu = none → Timed m m') ∧
      m.cpu.cycles + 2 ≤ m'.cpu.cycles ∧ m'.cpu.cycles ≤ m.cpu.cycles + 521) ∧
    (resetCpu m = .ok ((), m') → m'.cpu.cycles = m.cpu.cycles + 7) :=
  ⟨fun h => ⟨fun _ hdue => step_served hdue h, fun hdue => step_timed hdue h, step_bounds h⟩,
    fun h => Takes.resetCpu _ _ _ h⟩

theorem timing_exact_zeros : ∃ m' m'', step zeros = .ok ((), m') ∧ due? zeros.cpu = none ∧
    Timed zeros m' ∧ resetCpu zeros = .ok ((), m'') ∧ m''.cpu.cycles = zeros.cpu.cycles + 7 := by
  obtain ⟨_, m', hstep, -⟩ := Part.step.progress zeros_whole
  obtain ⟨_, m'', hreset, -⟩ := Part.resetCpu.progress zeros_whole
  exact ⟨m', m'', hstep, rfl, ((timing_exact zeros m').1 hstep).2.1 rfl, hreset,
    (timing_exact zeros m'').2 hreset⟩

end NesMachine.Machine
