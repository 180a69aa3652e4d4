import NesMachine.Proofs.Machine.Step

/-!
# Instructions on the bus

An instruction works on the registers and does one thing a cycle on the bus. How it is made of these
two is data here, indexed by the run that it makes up, so that it can be run against other answers
than those of the machine.

* `Code.log`: what a run does on the bus, cycle by cycle.
* `Code.cycles`: the cycles that pass are those of the log and those of the transfers it starts.
* `Code.eval_log`: nothing but the bytes read decides what the run does next.
-/

namespace NesMachine.Machine

open Cpu (Registers Op AddrMode Effect)

variable {α β : Type} {m m' : Machine} {x : Run α} {f : α → Run β}

/-- What the processor does in a cycle. -/
inductive BusCycle where
  | idle
  | read (addr : UInt16) (value : UInt8)
  | write (addr : UInt16) (value : UInt8)
  deriving DecidableEq

/-- The runs that work on the registers and on the bus. -/
inductive Code : {α : Type} → Run α → Type 1 where
  | pure {α : Type} (a : α) : Code (Pure.pure a)
  | bind {α β : Type} {x : Run α} {f : α → Run β} :
      Code x → (∀ a, Code (f a)) → Code (x >>= f)
  | registers : Code registers
  | modifyRegisters (f : Registers → Registers) : Code (modifyRegisters f)
  | idle : Code cycle
  | read (addr : UInt16) : Code (Machine.read addr)
  | write (addr : UInt16) (value : UInt8) : Code (Machine.write addr value)

namespace Code

/-! ## The parts of an instruction -/

def cond {x y : Run α} : (b : Bool) → Code x → Code y → Code (if b then x else y)
  | true, c, _ => c
  | false, _, d => d

def idles : (n : Nat) → Code (Machine.idle n)
  | 0 => .pure ()
  | n + 1 => .bind .idle fun _ => idles n

def readWord (addr : UInt16) : Code (Machine.readWord addr) :=
  .bind (.read _) fun _ => .bind (.read _) fun _ => .pure _

def readZeroPageWord (addr : UInt8) : Code (Machine.readZeroPageWord addr) :=
  .bind (.read _) fun _ => .bind (.read _) fun _ => .pure _

def fetchByte : Code Machine.fetchByte :=
  .bind .registers fun _ => .bind (.read _) fun _ => .bind (.modifyRegisters _) fun _ => .pure _

def fetchWord : Code Machine.fetchWord :=
  .bind fetchByte fun _ => .bind fetchByte fun _ => .pure _

def push (value : UInt8) : Code (Machine.push value) :=
  .bind .registers fun _ => .bind (.write _ _) fun _ => .modifyRegisters _

def pull : Code Machine.pull :=
  .bind (.modifyRegisters _) fun _ => .bind .registers fun _ => .read _

def pushWord (value : UInt16) : Code (Machine.pushWord value) :=
  .bind (push _) fun _ => push _

def pullWord : Code Machine.pullWord := .bind pull fun _ => .bind pull fun _ => .pure _

def jumpTo (pc : UInt16) : Code (Machine.jumpTo pc) := .modifyRegisters _

def indexed (op : Op) (base : UInt16) (index : UInt8) : Code (Machine.indexed op base index) :=
  cond _ (.bind .idle fun _ => .pure _) (.pure _)

def resolve (op : Op) : (mode : AddrMode) → Code (Machine.resolve op mode)
  | .implied => .bind .idle fun _ => .pure _
  | .accumulator => .bind .idle fun _ => .pure _
  | .immediate => .bind .registers fun _ => .bind (jumpTo _) fun _ => .pure _
  | .zeroPage => .bind fetchByte fun _ => .pure _
  | .zeroPageX => .bind fetchByte fun _ => .bind .idle fun _ => .bind .registers fun _ => .pure _
  | .zeroPageY => .bind fetchByte fun _ => .bind .idle fun _ => .bind .registers fun _ => .pure _
  | .absolute => .bind fetchWord fun _ => .pure _
  | .absoluteX =>
    .bind fetchWord fun _ => .bind .registers fun _ => .bind (indexed op _ _) fun _ => .pure _
  | .absoluteY =>
    .bind fetchWord fun _ => .bind .registers fun _ => .bind (indexed op _ _) fun _ => .pure _
  | .indirect => .bind fetchWord fun _ => .bind (.read _) fun _ => .bind (.read _) fun _ => .pure _
  | .indexedIndirect =>
    .bind fetchByte fun _ => .bind .idle fun _ => .bind .registers fun _ =>
      .bind (readZeroPageWord _) fun _ => .pure _
  | .indirectIndexed =>
    .bind fetchByte fun _ => .bind (readZeroPageWord _) fun _ => .bind .registers fun _ =>
      .bind (indexed op _ _) fun _ => .pure _
  | .relative => .bind fetchByte fun _ => .bind .registers fun _ => .pure _

def load : (operand : Operand) → Code (Machine.load operand)
  | .none => .pure 0
  | .accumulator => .bind .registers fun _ => .pure _
  | .address addr => .read addr

def perform : (effect : Effect) → (operand : Operand) → Code (Machine.perform effect operand)
  | .read _, operand => .bind (load operand) fun _ => .modifyRegisters _
  | .store _, .address addr => .bind .registers fun _ => .write addr _
  | .modify _, .accumulator => .modifyRegisters _
  | .modify _, .address addr =>
    .bind (.read addr) fun _ => .bind .idle fun _ => .bind .registers fun _ =>
      .bind (.modifyRegisters _) fun _ => .write addr _
  | .registers apply, _ => .modifyRegisters apply
  | .branch _, .address target =>
    .bind .registers fun _ => cond _ (.bind (idles _) fun _ => jumpTo target) (.pure ())
  | .push _, _ => .bind .registers fun _ => push _
  | .pull _, _ => .bind .idle fun _ => .bind pull fun _ => .modifyRegisters _
  | .jump, .address addr => jumpTo addr
  | .call, .address addr =>
    .bind .idle fun _ => .bind .registers fun _ => .bind (pushWord _) fun _ => jumpTo addr
  | .leave, _ =>
    .bind .idle fun _ => .bind pullWord fun _ => .bind .idle fun _ => jumpTo _
  | .leaveInterrupt, _ =>
    .bind .idle fun _ => .bind pull fun _ => .bind (.modifyRegisters _) fun _ =>
      .bind pullWord fun _ => jumpTo _
  | .softwareInterrupt, _ =>
    .bind (.modifyRegisters _) fun _ => .bind .registers fun _ => .bind (pushWord _) fun _ =>
      .bind .registers fun _ => .bind (push _) fun _ => .bind (.modifyRegisters _) fun _ =>
        .bind (readWord _) fun _ => jumpTo _
  | .store _, .none | .store _, .accumulator | .modify _, .none | .branch _, .none
  | .branch _, .accumulator | .jump, .none | .jump, .accumulator | .call, .none
  | .call, .accumulator => .pure ()

def instruction : Code Machine.instruction :=
  .bind fetchByte fun _ => .bind (resolve _ _) fun _ => perform _ _

/-! ## The bus in a run -/

/-- What a run does on the bus of a machine. -/
def log {α : Type} {x : Run α} : Code x → Machine → List BusCycle
  | .pure _, _ | .registers, _ | .modifyRegisters _, _ => []
  | @Code.bind _ _ x _ c d, m =>
    c.log m ++ match x m with
      | .ok (a, m) => (d a).log m
      | .error _ => []
  | .idle, _ => [.idle]
  | .read addr, m =>
    match Machine.read addr m with
    | .ok (value, _) => [.read addr value]
    | .error _ => []
  | .write addr value, _ => [.write addr value]

/-- What a run comes to: its cycles on the bus, its value and the registers it leaves. -/
structure Outcome (α : Type) where
  log : List BusCycle
  value : α
  registers : Registers

/-- A run against given answers, which may depend on the cycle and on the address. -/
def eval (answer : Nat → UInt16 → UInt8) {α : Type} {x : Run α} :
    Code x → Nat → Registers → Outcome α
  | .pure a, _, r => ⟨[], a, r⟩
  | .bind c d, n, r =>
    let first := c.eval answer n r
    let rest := (d first.value).eval answer (n + first.log.length) first.registers
    ⟨first.log ++ rest.log, rest.value, rest.registers⟩
  | .registers, _, r => ⟨[], r, r⟩
  | .modifyRegisters f, _, r => ⟨[], (), f r⟩
  | .idle, _, r => ⟨[.idle], (), r⟩
  | .read addr, n, r => ⟨[.read addr (answer n addr)], answer n addr, r⟩
  | .write addr value, _, r => ⟨[.write addr value], (), r⟩

section Eval

variable {answer : Nat → UInt16 → UInt8} {n : Nat} {r : Registers}

theorem eval_bind {c : Code x} {d : ∀ a, Code (f a)} : (c.bind d).eval answer n r =
    let first := c.eval answer n r
    let rest := (d first.value).eval answer (n + first.log.length) first.registers
    ⟨first.log ++ rest.log, rest.value, rest.registers⟩ := rfl

theorem eval_cond {x y : Run α} {c : Code x} {d : Code y} (b : Bool) :
    (cond b c d).eval answer n r = if b then c.eval answer n r else d.eval answer n r := by
  cases b <;> rfl

end Eval

/-! ## Cycles -/

/-- The cycle counter behind a cycle of the bus. The write that starts a transfer is followed by 513
cycles at an even count and by 514 at an odd one. -/
def counted (n : Nat) : BusCycle → Nat
  | .idle | .read _ _ => n + 1
  | .write addr _ => if addr = 0x4014 then n + 1 + 513 + (n + 1) % 2 else n + 1

/-- A part that takes a number of cycles and leaves the registers alone. -/
def Passes (n : Nat) (x : Run α) : Prop :=
  ∀ m a m', x m = .ok (a, m') →
    m'.cpu.cycles = m.cpu.cycles + n ∧ m'.cpu.registers = m.cpu.registers

theorem Passes.pure (a : α) : Passes 0 (Pure.pure a : Run α) := by
  intro m b m' h
  cases h
  exact ⟨rfl, rfl⟩

theorem Passes.bind {k n : Nat} (hx : Passes k x) (hf : ∀ a, Passes n (f a)) :
    Passes (k + n) (x >>= f) := by
  intro m b m' h
  obtain ⟨a, m₁, hfirst, hrest⟩ := bind_run h
  obtain ⟨hcycles, hregisters⟩ := hx _ _ _ hfirst
  obtain ⟨hcycles', hregisters'⟩ := hf a _ _ _ hrest
  exact ⟨by omega, hregisters'.trans hregisters⟩

theorem Passes.cycle : Passes 1 cycle := by
  intro m _ m' h
  refine ⟨Takes.cycle _ _ _ h, ?_⟩
  obtain ⟨ds, hact⟩ := cycle_ok h
  cases hact with
  | cycle hdots _ =>
    rw [hdots.cpu.1]
    show m.cpu.tick.2.registers = m.cpu.registers
    unfold Cpu.tick
    cases m.cpu.tv <;> rfl

theorem Passes.idle (n : Nat) : Passes n (Machine.idle n) := by
  induction n with
  | zero => exact .pure ()
  | succ n ih =>
    have hstep : Passes (1 + n) (Machine.idle (n + 1)) := .bind .cycle fun _ => ih
    rwa [Nat.add_comm] at hstep

theorem Passes.fetchBus (addr : UInt16) : Passes 0 (fetchBus addr) := by
  intro m a m' h
  refine ⟨Takes.fetchBus addr _ _ _ h, ?_⟩
  unfold Machine.fetchBus at h
  split_ifs at h
  · cases h
    rfl
  · rw [(readPpu_ok h).2.cpu]
  · cases h
    rfl
  · cases h
    rfl
  · unfold Machine.readCartridge at h
    split at h <;> cases h
    rfl

theorem Passes.read (addr : UInt16) : Passes 1 (Machine.read addr) :=
  .bind .cycle fun _ => .fetchBus addr

theorem Passes.writePpu (addr : UInt16) (value : UInt8) : Passes 0 (writePpu addr value) := by
  intro m _ m' h
  rw [(writePpu_ok h).2.cpu]
  exact ⟨rfl, rfl⟩

theorem Passes.writeCartridge (addr : UInt16) (value : UInt8) :
    Passes 0 (writeCartridge addr value) := by
  intro m _ m' h
  unfold Machine.writeCartridge at h
  simp only at h
  split at h <;> cases h
  exact ⟨rfl, rfl⟩

theorem Passes.transferBytes (page : UInt8) (k count : Nat) :
    Passes (2 * count) (Machine.transferBytes page k count) := by
  induction count generalizing k with
  | zero => exact .pure ()
  | succ count ih =>
    have hstep : Passes (1 + (1 + (0 + 2 * count))) (Machine.transferBytes page k (count + 1)) :=
      .bind (.read _) fun _ => .bind .cycle fun _ => .bind (.writePpu _ _) fun _ => ih _
    rwa [show 1 + (1 + (0 + 2 * count)) = 2 * (count + 1) by omega] at hstep

/-- A transfer aligns itself to even cycles. -/
theorem transferObjects_ok {page : UInt8} (h : transferObjects page m = .ok ((), m')) :
    m'.cpu.cycles = m.cpu.cycles + 513 + m.cpu.cycles % 2 ∧
      m'.cpu.registers = m.cpu.registers := by
  obtain ⟨m₀, m₁, hget, hrest⟩ := bind_run h
  cases hget
  obtain ⟨hcycles, hregisters⟩ :=
    (Passes.idle _).bind (fun _ => .transferBytes page 0 256) _ _ _ hrest
  refine ⟨?_, hregisters⟩
  rw [hcycles]
  split_ifs <;> omega

theorem write_ok {addr : UInt16} {value : UInt8} (h : Machine.write addr value m = .ok ((), m')) :
    m'.cpu.cycles = counted m.cpu.cycles (.write addr value) ∧
      m'.cpu.registers = m.cpu.registers := by
  obtain ⟨_, m₁, hcycle, hstore⟩ := bind_run h
  obtain ⟨hcycles, hregisters⟩ := Passes.cycle _ _ _ hcycle
  unfold storeBus at hstore
  simp only [counted, ← hcycles, ← hregisters]
  by_cases htransfer : addr = 0x4014
  · subst htransfer
    exact transferObjects_ok hstore
  · rw [if_neg htransfer]
    split_ifs at hstore
    · cases hstore
      exact ⟨rfl, rfl⟩
    · exact Passes.writePpu _ _ _ _ _ hstore
    · cases hstore
      exact ⟨rfl, rfl⟩
    · cases hstore
      exact ⟨rfl, rfl⟩
    · exact Passes.writeCartridge _ _ _ _ _ hstore

/-- **The cycle counter behind a run is that behind its log.** -/
theorem cycles {a : α} (c : Code x) (h : x m = .ok (a, m')) :
    m'.cpu.cycles = (c.log m).foldl counted m.cpu.cycles := by
  induction c generalizing m m' with
  | pure b => cases h; rfl
  | bind c d ihc ihd =>
    obtain ⟨b, m₁, hfirst, hrest⟩ := bind_run h
    rw [ihd b hrest, ihc hfirst, log, hfirst, List.foldl_append]
  | registers => cases h; rfl
  | modifyRegisters f => cases h; rfl
  | idle => exact (Passes.cycle _ _ _ h).1
  | read addr =>
    rw [(Passes.read addr _ _ _ h).1, log, h]
    rfl
  | write addr value => exact (write_ok h).1

/-! ## The answers of a run -/

/-- The byte read in a cycle of a log. -/
def readAt (log : List BusCycle) (n : Nat) : UInt8 :=
  match log[n]? with
  | some (.read _ value) => value
  | _ => 0

/-- **The bytes read decide what a run does.** Against the answers that its own log gives, a run
comes to that log. -/
theorem eval_log {a : α} (c : Code x) (h : x m = .ok (a, m')) (past future : List BusCycle) :
    c.eval (fun n _ => readAt (past ++ c.log m ++ future) n) past.length m.cpu.registers =
      ⟨c.log m, a, m'.cpu.registers⟩ := by
  induction c generalizing m m' past future with
  | pure b => cases h; rfl
  | bind c d ihc ihd =>
    obtain ⟨b, m₁, hfirst, hrest⟩ := bind_run h
    have hlog : (c.bind d).log m = c.log m ++ (d b).log m₁ := by rw [log, hfirst]
    have hcfirst := ihc hfirst past ((d b).log m₁ ++ future)
    have hdrest := ihd b hrest (past ++ c.log m) future
    rw [← List.append_assoc] at hcfirst
    rw [List.length_append] at hdrest
    rw [hlog, eval_bind, ← List.append_assoc past, hcfirst]
    simp only [hdrest]
  | registers => cases h; rfl
  | modifyRegisters f => cases h; rfl
  | idle =>
    rw [(Passes.cycle _ _ _ h).2]
    rfl
  | read addr =>
    have hlog : (Code.read addr).log m = [.read addr a] := by rw [log, h]
    have hanswer : readAt (past ++ [.read addr a] ++ future) past.length = a := by simp [readAt]
    rw [(Passes.read addr _ _ _ h).2, hlog, eval, hanswer]
  | write addr value =>
    rw [(write_ok h).2]
    rfl

end Code

end NesMachine.Machine
