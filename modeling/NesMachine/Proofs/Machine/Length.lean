import NesMachine.Proofs.Machine.Handler
import NesMachine.Proofs.Machine.Transfer

/-!
# The length of instructions

How long an instruction is stands in its addressing mode. Its fetches pass over just as many bytes, and
unless it jumps the program goes on behind them. What is not documented passes over its operand and does
nothing else.

* `Code.ReadsOnly`: runs that do not write; they leave memory as it is, and read it as it is.
* `resolve_ok`: where the program counter is when the operand is found.
* `Measured`: what the length of an instruction says of a step.
-/

namespace NesMachine.Machine

open Cpu (Registers Op AddrMode Effect)

variable {α : Type} {m m' m₁ m₂ : Machine} {x : Run α}

/-! ## Runs that only read -/

/-- A look at memory shows what is stored. -/
theorem peek_eq_store {addr : UInt16} (h : Store.holds addr.toNat) :
    m.peek addr = m.store.read addr := by
  unfold peek Store.read
  rcases h.cases with hram | ⟨hram, hppu, -, hpad, hcartridge⟩
  · rw [if_pos hram, if_pos hram]
    rfl
  · rw [if_neg hram, if_neg hram, if_neg hppu, if_neg hpad, if_neg hcartridge]
    rfl

theorem cycle_oam (h : cycle m = .ok ((), m')) : m'.ppu.oam = m.ppu.oam := by
  obtain ⟨ds, hact⟩ := cycle_ok h
  cases hact with
  | cycle hdots _ => exact congrArg Ppu.Holdings.oam hdots.held.2.2

theorem fetchBus_oam {addr : UInt16} {value : UInt8} (h : fetchBus addr m = .ok (value, m')) :
    m'.ppu.oam = m.ppu.oam := by
  unfold fetchBus at h
  split_ifs at h
  · cases h
    rfl
  · rw [(Ppu.readRegister_frame (readPpu_ok h).1).1]
  · cases h
    rfl
  · cases h
    rfl
  · unfold readCartridge at h
    split at h <;> cases h
    rfl

theorem dots_crash {n : Nat} {crash : Crash} (h : dots n m = .error crash) : crash.slot = m.slot := by
  induction n generalizing m with
  | zero => cases h
  | succ n ih =>
    unfold dots at h
    split at h
    · rename_i m₁ hdot
      rw [ih h, (dot_held hdot).1]
    · rename_i hdot
      cases h
      unfold dot at hdot
      simp only at hdot
      split at hdot <;> cases hdot
      rfl

theorem cycle_crash {crash : Crash} (h : cycle m = .error crash) : crash.slot = m.slot := by
  unfold cycle at h
  simp only at h
  split at h
  · cases h
  · rename_i hdots
    cases h
    have hslot := dots_crash hdots
    exact hslot

theorem fetchBus_crash {addr : UInt16} {crash : Crash} (h : fetchBus addr m = .error crash) :
    crash.slot = m.slot := by
  unfold fetchBus at h
  split_ifs at h
  · cases h
  · unfold readPpu at h
    simp only at h
    split at h <;> cases h
    rfl
  · cases h
  · cases h
  · unfold readCartridge at h
    split at h <;> cases h
    rfl

namespace Code

/-- A run that does not write. -/
def ReadsOnly {α : Type} {x : Run α} : Code x → Prop
  | .bind c d => c.ReadsOnly ∧ ∀ a, (d a).ReadsOnly
  | .write _ _ => False
  | .pure _ | .registers | .modifyRegisters _ | .idle | .read _ => True

theorem readsOnly_fetchByte : fetchByte.ReadsOnly := by simp [fetchByte, ReadsOnly]

theorem readsOnly_cond {y : Run α} {c : Code x} {d : Code y} (hc : c.ReadsOnly) (hd : d.ReadsOnly) :
    (b : Bool) → (cond b c d).ReadsOnly
  | true => hc
  | false => hd

theorem readsOnly_indexed (op : Op) (base : UInt16) (index : UInt8) :
    (indexed op base index).ReadsOnly := by
  refine readsOnly_cond ?_ ?_ _
  · exact ⟨trivial, fun _ => trivial⟩
  · trivial

/-- Finding an operand is reading. -/
theorem readsOnly_resolve (op : Op) (mode : AddrMode) : (resolve op mode).ReadsOnly := by
  cases mode <;>
    simp [resolve, fetchWord, fetchByte, jumpTo, readZeroPageWord, ReadsOnly, readsOnly_indexed]

theorem readsOnly_perform_read (apply : Registers → UInt8 → Registers) (operand : Operand) :
    (perform (.read apply) operand).ReadsOnly := by
  cases operand <;> simp [perform, load, ReadsOnly]

namespace ReadsOnly

variable {c : Code x}

/-- A run that only reads leaves what is stored, and object memory. -/
theorem keeps {a : α} (hc : c.ReadsOnly) (h : x m = .ok (a, m')) :
    m'.store = m.store ∧ m'.ppu.oam = m.ppu.oam := by
  induction c generalizing m m' with
  | pure b =>
    cases h
    exact ⟨rfl, rfl⟩
  | bind c d ihc ihd =>
    obtain ⟨b, m₁, hfirst, hrest⟩ := bind_run h
    obtain ⟨hstore, hoam⟩ := ihc hc.1 hfirst
    obtain ⟨hstore', hoam'⟩ := ihd b (hc.2 b) hrest
    exact ⟨hstore'.trans hstore, hoam'.trans hoam⟩
  | registers =>
    cases h
    exact ⟨rfl, rfl⟩
  | modifyRegisters f =>
    cases h
    exact ⟨rfl, rfl⟩
  | idle => exact ⟨(cycle_kept h).1, cycle_oam h⟩
  | read addr =>
    refine ⟨(read_kept h).1, ?_⟩
    obtain ⟨_, m₁, hcycle, hfetch⟩ := bind_run h
    exact (fetchBus_oam hfetch).trans (cycle_oam hcycle)
  | write addr value => exact hc.elim

/-- A run that only reads leaves the cartridge even where it breaks off. -/
theorem crash {crash : Crash} (hc : c.ReadsOnly) (h : x m = .error crash) :
    crash.slot = m.slot := by
  induction c generalizing m with
  | pure b => cases h
  | bind c d ihc ihd =>
    rcases bind_error h with hfirst | ⟨b, m₁, hfirst, hrest⟩
    · exact ihc hc.1 hfirst
    · rw [ihd b (hc.2 b) hrest]
      exact congrArg Prod.snd (hc.1.keeps hfirst).1
  | registers => cases h
  | modifyRegisters f => cases h
  | idle => exact cycle_crash h
  | read addr =>
    rcases bind_error h with hcycle | ⟨_, m₁, hcycle, hfetch⟩
    · exact cycle_crash hcycle
    · rw [fetchBus_crash hfetch]
      exact congrArg Prod.snd (cycle_kept hcycle).1
  | write addr value => exact hc.elim

/-- A run that only reads is told what is stored. -/
theorem tells {a : α} (hc : c.ReadsOnly) (h : x m = .ok (a, m')) {addr : UInt16} {value : UInt8}
    (hmem : .read addr value ∈ c.log m) (hholds : Store.holds addr.toNat) :
    m.store.read addr = .ok value := by
  induction c generalizing m m' with
  | pure b => cases hmem
  | bind c d ihc ihd =>
    obtain ⟨b, m₁, hfirst, hrest⟩ := bind_run h
    have hlog : (c.bind d).log m = c.log m ++ (d b).log m₁ := by rw [log, hfirst]
    rw [hlog, List.mem_append] at hmem
    rcases hmem with hmem | hmem
    · exact ihc hc.1 hfirst hmem
    · rw [← (hc.1.keeps hfirst).1]
      exact ihd b (hc.2 b) hrest hmem
  | registers => cases hmem
  | modifyRegisters f => cases hmem
  | idle => cases List.mem_singleton.mp hmem
  | read addr' =>
    rw [log, h] at hmem
    cases List.mem_singleton.mp hmem
    obtain ⟨_, m₁, hcycle, hfetch⟩ := bind_run h
    rw [← (cycle_kept hcycle).1]
    exact store_read hholds (congrArg (Except.map Prod.fst) hfetch)
  | write addr value => exact hc.elim

end ReadsOnly

/-! ## The log of a run -/

theorem log_bind {β : Type} {f : α → Run β} {c : Code x} {d : ∀ a, Code (f a)} {a : α}
    (h : x m = .ok (a, m')) : (c.bind d).log m = c.log m ++ (d a).log m' := by
  rw [log, h]

/-- What a run does is what it does against some answers. -/
theorem answered {a : α} (c : Code x) (h : x m = .ok (a, m')) :
    ∃ answer, c.eval answer 0 m.cpu.registers = ⟨c.log m, a, m'.cpu.registers⟩ :=
  ⟨_, c.eval_log h [] []⟩

/-! ## The program counter -/

variable {answer : Nat → UInt16 → UInt8} {n : Nat} {r : Registers}

/-- The bytes of an operand are read first, one behind the other; an immediate one is left to the
operation. -/
theorem eval_resolve_log (answer : Nat → UInt16 → UInt8) (op : Op) {mode : AddrMode}
    (hmode : mode ≠ .immediate) {k : Nat} (hk : k < mode.operandLength) : ∃ value,
    ((resolve op mode).eval answer n r).log[k]? = some (.read (r.pc + UInt16.ofNat k) value) := by
  cases mode with
  | implied | accumulator => exact absurd hk (Nat.not_lt_zero k)
  | immediate => exact absurd rfl hmode
  | zeroPage | zeroPageX | zeroPageY | indexedIndirect | relative =>
    obtain rfl : k = 0 := Nat.lt_one_iff.mp hk
    exact ⟨_, congrArg (fun pc => some (BusCycle.read pc _)) (UInt16.add_zero _).symm⟩
  | indirectIndexed =>
    obtain rfl : k = 0 := Nat.lt_one_iff.mp hk
    rw [eval_resolve_indirectIndexed]
    exact ⟨_, congrArg (fun pc => some (BusCycle.read pc _)) (UInt16.add_zero _).symm⟩
  | absolute | indirect =>
    obtain rfl | rfl : k = 0 ∨ k = 1 := by have : k < 2 := hk; omega
    · exact ⟨_, congrArg (fun pc => some (BusCycle.read pc _)) (UInt16.add_zero _).symm⟩
    · exact ⟨_, rfl⟩
  | absoluteX =>
    rw [eval_resolve_absoluteX]
    obtain rfl | rfl : k = 0 ∨ k = 1 := by have : k < 2 := hk; omega
    · exact ⟨_, congrArg (fun pc => some (BusCycle.read pc _)) (UInt16.add_zero _).symm⟩
    · exact ⟨_, rfl⟩
  | absoluteY =>
    rw [eval_resolve_absoluteY]
    obtain rfl | rfl : k = 0 ∨ k = 1 := by have : k < 2 := hk; omega
    · exact ⟨_, congrArg (fun pc => some (BusCycle.read pc _)) (UInt16.add_zero _).symm⟩
    · exact ⟨_, rfl⟩

/-- What an effect leaves of the program counter, where the program goes on behind the instruction. -/
def KeepsPc : Effect → Prop
  | .read apply | .pull apply => ∀ r value, (apply r value).pc = r.pc
  | .modify apply => ∀ r value, (apply r value).2.pc = r.pc
  | .registers apply => ∀ r, (apply r).pc = r.pc
  | _ => True

theorem effect_keepsPc (op : Op) : KeepsPc op.effect := by
  cases op <;> first | exact trivial | exact fun _ _ => rfl | exact fun _ => rfl

/-- The operations that leave the course of the program. -/
def jumps : List Op := [.jmp, .jsr, .rts, .rti, .brk]

/-- An operation that does not jump leaves the program counter. -/
theorem eval_perform_pc (answer : Nat → UInt16 → UInt8) {op : Op} (hop : op ∉ jumps) (operand : Operand)
    (htaken : takes op.effect r = false) :
    ((perform op.effect operand).eval answer n r).registers.pc = r.pc := by
  have hkeeps := effect_keepsPc op
  generalize heffect : op.effect = effect at hkeeps htaken
  cases effect with
  | read apply => cases operand <;> exact hkeeps _ _
  | store value => cases operand <;> rfl
  | modify apply =>
    cases operand with
    | none => rfl
    | accumulator | address addr => exact hkeeps _ _
  | registers apply => exact hkeeps r
  | branch taken =>
    cases operand with
    | none | accumulator => rfl
    | address target =>
      have hnot : ¬ taken r = true := Bool.eq_false_iff.mp htaken
      rw [eval_perform_branch, if_neg hnot]
  | push value => rfl
  | pull apply => exact hkeeps _ _
  | jump | call | leave | leaveInterrupt | softwareInterrupt =>
    exact absurd (show op ∈ jumps by revert heffect; cases op <;> simp [Op.effect, jumps]) hop

end Code

/-! ## The parts of a step -/

/-- What the length of an instruction says of its parts: the opcode is fetched, the operand is found, and
the effect performed. -/
structure Phases (m : Machine) (opcode : UInt8) (m₁ : Machine) (operand : Operand) (m₂ m' : Machine) :
    Prop where
  fetch : fetchByte m = .ok (opcode, m₁)
  resolve : resolve (Cpu.decode opcode).op (Cpu.decode opcode).mode m₁ = .ok (operand, m₂)
  perform : perform (Cpu.decode opcode).op.effect operand m₂ = .ok ((), m')

theorem step_phases (hdue : due? m.cpu = none) (h : step m = .ok ((), m')) :
    ∃ opcode m₁ operand m₂, Phases m opcode m₁ operand m₂ m' := by
  rw [step_eq, hdue] at h
  obtain ⟨opcode, m₁, hfetch, h⟩ := bind_run h
  obtain ⟨operand, m₂, hresolve, hperform⟩ := bind_run h
  exact ⟨opcode, m₁, operand, m₂, hfetch, hresolve, hperform⟩

theorem log_fetchByte {opcode : UInt8} (h : fetchByte m = .ok (opcode, m')) :
    Code.fetchByte.log m = [.read m.cpu.registers.pc opcode] := by
  obtain ⟨answer, heval⟩ := Code.fetchByte.answered h
  injection heval with hlog hvalue
  rw [← hlog, ← hvalue]
  rfl

/-- **The operand is passed over**: the program counter is behind it, and nothing else has changed. -/
theorem resolve_ok {op : Op} {mode : AddrMode} {operand : Operand}
    (h : resolve op mode m = .ok (operand, m')) : m'.cpu.registers =
      { m.cpu.registers with pc := m.cpu.registers.pc + UInt16.ofNat mode.operandLength } := by
  obtain ⟨answer, heval⟩ := (Code.resolve op mode).answered h
  exact (congrArg Code.Outcome.registers heval).symm.trans
    (Code.eval_resolve_registers op mode answer 0 _)

theorem resolved_ok {opcode : UInt8} {operand : Operand} (hfetch : fetchByte m = .ok (opcode, m₁))
    (h : resolve (Cpu.decode opcode).op (Cpu.decode opcode).mode m₁ = .ok (operand, m₂)) :
    m₂.cpu.registers = { m.cpu.registers with
      pc := m.cpu.registers.pc + 1 + UInt16.ofNat (Cpu.decode opcode).mode.operandLength } := by
  rw [resolve_ok h, (fetchByte_ok hfetch).2]

/-- The address behind the instruction under the program counter. -/
def next (m : Machine) : UInt16 :=
  m.cpu.registers.pc + 1 + UInt16.ofNat m.fetched.mode.operandLength

namespace Phases

variable {opcode : UInt8} {operand : Operand} (h : Phases m opcode m₁ operand m₂ m')

include h

theorem busLog_eq : m.busLog = .read m.cpu.registers.pc opcode ::
    ((Code.resolve (Cpu.decode opcode).op (Cpu.decode opcode).mode).log m₁ ++
      (Code.perform (Cpu.decode opcode).op.effect operand).log m₂) := by
  have hrest : (Code.bind (Code.resolve (Cpu.decode opcode).op (Cpu.decode opcode).mode)
      fun operand => Code.perform (Cpu.decode opcode).op.effect operand).log m₁ = _ :=
    Code.log_bind h.resolve
  have hall : m.busLog = Code.fetchByte.log m ++ _ := Code.log_bind h.fetch
  rw [log_fetchByte h.fetch] at hall
  rw [← hrest]
  exact hall

theorem fetched_eq : m.fetched = Cpu.decode opcode := by
  unfold fetched
  rw [h.busLog_eq]
  rfl

theorem registers : m₂.cpu.registers = { m.cpu.registers with pc := m.next } := by
  rw [next, h.fetched_eq]
  exact resolved_ok h.fetch h.resolve

theorem kept : m₂.store = m.store ∧ m₂.ppu.oam = m.ppu.oam := by
  obtain ⟨hstore, hoam⟩ := Code.readsOnly_fetchByte.keeps h.fetch
  obtain ⟨hstore', hoam'⟩ := (Code.readsOnly_resolve _ _).keeps h.resolve
  exact ⟨hstore'.trans hstore, hoam'.trans hoam⟩

theorem fetch_kept : m₁.store = m.store := (Code.readsOnly_fetchByte.keeps h.fetch).1

/-- A byte that is read while the operand is found is the one that is stored. -/
theorem resolve_tells {addr : UInt16} {value : UInt8}
    (hmem : .read addr value ∈ (Code.resolve (Cpu.decode opcode).op (Cpu.decode opcode).mode).log m₁)
    (hholds : Store.holds addr.toNat) : m.peek addr = .ok value := by
  rw [peek_eq_store hholds, ← h.fetch_kept]
  exact (Code.readsOnly_resolve _ _).tells h.resolve hmem hholds

end Phases

/-! ## Calls -/

/-- Work memory behind a call: the address `back` on the stack. -/
def called (ram : WorkMemory) (sp : UInt8) (back : UInt16) : WorkMemory :=
  setStackByte (setStackByte ram sp (back >>> 8).toUInt8) (sp - 1) back.toUInt8

/-- The log of a call behind its opcode, which stands before `pc`. -/
def callLog (pc : UInt16) (sp low high : UInt8) : List BusCycle :=
  let back := pc + 1
  [.read pc low, .read (pc + 1) high, .idle, .write (stackAddress sp) (back >>> 8).toUInt8,
    .write (stackAddress (sp - 1)) back.toUInt8]

theorem stored_callLog (pc : UInt16) (sp low high : UInt8) (s : Store) :
    stored (callLog pc sp low high) s = .ok (called s.1 sp (pc + 1), s.2) := by
  unfold stored callLog
  simp only [List.filterMap, BusCycle.write?, List.foldlM_cons, write_stackByte]
  rfl

namespace Code

variable {answer : Nat → UInt16 → UInt8} {n : Nat} {r : Registers}

/-- A call, behind its opcode. -/
def calls : Code (Machine.resolve .jsr .absolute >>= Machine.perform Op.jsr.effect) :=
  .bind (resolve _ _) fun _ => perform _ _

theorem eval_calls : calls.eval answer n r =
    let low := answer n r.pc
    let high := answer (n + 1) (r.pc + 1)
    ⟨callLog r.pc r.sp low high, (), { r with pc := word low high, sp := r.sp - 1 - 1 }⟩ := by
  have hback : r.pc + 1 + 1 - 1 = r.pc + 1 := by grind
  unfold calls
  rw [eval_bind, eval_resolve_absolute]
  simp only [Op.effect, eval_perform_call, hback]
  rfl

/-- A call names its target in full. -/
theorem absolute_of_call {opcode : UInt8} (h : (Cpu.decode opcode).op = .jsr) :
    (Cpu.decode opcode).mode = .absolute := by
  revert h
  exact Registers.forall_byte (p := fun opcode => (Cpu.decode opcode).op = .jsr →
    (Cpu.decode opcode).mode = .absolute) (by decide +kernel) opcode

end Code

/-! ## The bytes of an instruction -/

/-- Whether an effect loads its operand. -/
def loads : Effect → Bool
  | .read _ => true
  | _ => false

/-- An immediate operand is loaded by the operation. -/
theorem loads_of_immediate {opcode : UInt8} (h : (Cpu.decode opcode).mode = .immediate) :
    ∃ apply, (Cpu.decode opcode).op.effect = .read apply := by
  have hloads : loads (Cpu.decode opcode).op.effect = true := by
    revert h
    exact Registers.forall_byte (p := fun opcode => (Cpu.decode opcode).mode = .immediate →
      loads (Cpu.decode opcode).op.effect = true) (by decide +kernel) opcode
  generalize (Cpu.decode opcode).op.effect = effect at hloads
  cases effect with
  | read apply => exact ⟨apply, rfl⟩
  | _ => cases hloads

theorem readAt_eq {log : List BusCycle} {k : Nat} {addr : UInt16} {value : UInt8}
    (h : log[k]? = some (.read addr value)) : Code.readAt log k = value := by
  unfold Code.readAt
  rw [h]

/-- The address `k` bytes behind the program counter. -/
def ahead (m : Machine) (k : Nat) : UInt16 := m.cpu.registers.pc + UInt16.ofNat k

theorem ahead_zero (m : Machine) : m.ahead 0 = m.cpu.registers.pc := UInt16.add_zero _

theorem ahead_succ (m : Machine) (k : Nat) :
    m.ahead (k + 1) = m.cpu.registers.pc + 1 + UInt16.ofNat k := by
  unfold ahead
  rw [UInt16.ofNat_add, UInt16.add_comm (UInt16.ofNat k), ← UInt16.add_assoc]
  rfl

/-- A byte of an instruction: the one that is read in a cycle at an address, and the one that a look at
memory shows there. -/
structure Passed (m : Machine) (k : Nat) (value : UInt8) : Prop where
  read : m.busLog[k]? = some (.read (m.ahead k) value)
  shown : Store.holds (m.ahead k).toNat → m.peek (m.ahead k) = .ok value

namespace Phases

variable {opcode : UInt8} {operand : Operand} (h : Phases m opcode m₁ operand m₂ m')

include h

theorem passed_opcode : Passed m 0 opcode := by
  refine ⟨?_, fun hholds => ?_⟩
  · rw [h.busLog_eq, ahead_zero]
    rfl
  · rw [peek_eq_store hholds]
    refine Code.readsOnly_fetchByte.tells h.fetch ?_ hholds
    rw [log_fetchByte h.fetch, ahead_zero]
    exact List.mem_singleton_self _

/-- An operand that is found is found behind its opcode. -/
theorem passed_found {k : Nat} (hmode : (Cpu.decode opcode).mode ≠ .immediate)
    (hk : k < (Cpu.decode opcode).mode.operandLength) : ∃ value, Passed m (k + 1) value := by
  obtain ⟨answer, heval⟩ := (Code.resolve (Cpu.decode opcode).op (Cpu.decode opcode).mode).answered
    h.resolve
  obtain ⟨value, hvalue⟩ := Code.eval_resolve_log (n := 0) (r := m₁.cpu.registers) answer
    (Cpu.decode opcode).op hmode hk
  rw [heval, (fetchByte_ok h.fetch).2] at hvalue
  change ((Code.resolve _ _).log m₁)[k]? = some (.read (m.cpu.registers.pc + 1 + _) value) at hvalue
  rw [← ahead_succ] at hvalue
  refine ⟨value, ?_, h.resolve_tells (List.mem_of_getElem? hvalue)⟩
  rw [h.busLog_eq, List.getElem?_cons_succ,
    List.getElem?_append_left (List.getElem?_eq_some_iff.mp hvalue).1, hvalue]

/-- An immediate operand is read by its operation. -/
theorem passed_immediate (hmode : (Cpu.decode opcode).mode = .immediate) :
    ∃ value, Passed m 1 value := by
  obtain ⟨apply, heffect⟩ := loads_of_immediate hmode
  have hresolve := h.resolve
  have hperform := h.perform
  have hbus := h.busLog_eq
  rw [hmode] at hresolve hbus
  rw [heffect] at hperform hbus
  obtain ⟨answer, heval⟩ := (Code.resolve (Cpu.decode opcode).op .immediate).answered hresolve
  rw [Code.eval_resolve_immediate] at heval
  injection heval with hfound hoperand
  subst hoperand
  obtain ⟨answer', heval'⟩ := (Code.perform (.read apply) (.address _)).answered hperform
  rw [Code.eval_perform_read] at heval'
  injection heval' with hread
  have haddr : m₁.cpu.registers.pc = m.ahead 1 := by rw [(fetchByte_ok h.fetch).2]; rfl
  rw [← hfound, ← hread, haddr] at hbus
  refine ⟨_, by rw [hbus]; rfl, fun hholds => ?_⟩
  rw [peek_eq_store hholds, ← h.kept.1]
  refine (Code.readsOnly_perform_read apply (.address _)).tells hperform ?_ hholds
  rw [← hread, haddr]
  exact List.mem_singleton_self _

/-- **The bytes of an instruction are read one behind the other**, before anything else is done. -/
theorem passed {k : Nat} (hk : k ≤ m.fetched.mode.operandLength) :
    Passed m k (Code.readAt m.busLog k) := by
  have hvalue : ∃ value, Passed m k value := by
    rw [h.fetched_eq] at hk
    cases k with
    | zero => exact ⟨opcode, h.passed_opcode⟩
    | succ k =>
      by_cases hmode : (Cpu.decode opcode).mode = .immediate
      · rw [hmode] at hk
        obtain rfl : k = 0 := by simpa [AddrMode.operandLength] using hk
        exact h.passed_immediate hmode
      · exact h.passed_found hmode hk
  obtain ⟨value, hpassed⟩ := hvalue
  rwa [readAt_eq hpassed.read]

/-- The program goes on behind the instruction, unless it jumps. -/
theorem pc_eq (hop : m.fetched.op ∉ Code.jumps) (hbranch : branches m.cpu.registers m.fetched.op = false) :
    m'.cpu.registers.pc = m.next := by
  rw [h.fetched_eq] at hop hbranch
  obtain ⟨answer, heval⟩ := (Code.perform (Cpu.decode opcode).op.effect operand).answered h.perform
  rw [← takes_eq _ _ m.next, ← h.registers] at hbranch
  have hpc := Code.eval_perform_pc (n := 0) answer hop operand hbranch
  rw [heval, h.registers] at hpc
  exact hpc

/-- **A call stacks the address of its last byte.** -/
theorem call (hop : m.fetched.op = .jsr) :
    m'.store = (called m.cpu.ram m.cpu.registers.sp (m.ahead 2), m.slot) ∧
      m'.cpu.registers.sp = m.cpu.registers.sp - 1 - 1 := by
  rw [h.fetched_eq] at hop
  have hrun : (Machine.resolve (Cpu.decode opcode).op (Cpu.decode opcode).mode >>=
      Machine.perform (Cpu.decode opcode).op.effect) m₁ = .ok ((), m') :=
    (run_eq h.resolve).trans h.perform
  rw [hop, Code.absolute_of_call hop] at hrun
  obtain ⟨answer, heval⟩ := Code.calls.answered hrun
  rw [Code.eval_calls, (fetchByte_ok h.fetch).2] at heval
  injection heval with hlog _ hregisters
  have hwrites : ∀ access ∈ (Code.calls.log m₁).filterMap BusCycle.write?, Store.holds access.1 := by
    rw [← hlog]
    exact List.forall_mem_cons.mpr ⟨.inl (stackAddress_lt _),
      List.forall_mem_singleton.mpr (.inl (stackAddress_lt _))⟩
  have hstored := Code.calls.stores hrun hwrites
  rw [← hlog, stored_callLog, h.fetch_kept] at hstored
  rw [show m.ahead 2 = m.cpu.registers.pc + 1 + 1 from ahead_succ m 1]
  exact ⟨(Except.ok.inj hstored).symm, by rw [← hregisters]⟩

theorem untouched (hopcode : Cpu.documented? opcode = none) :
    m'.cpu.registers = { m.cpu.registers with pc := m.next } ∧ m'.store = m.store ∧
      m'.ppu.oam = m.ppu.oam := by
  have heffect : (Cpu.decode opcode).op.effect = .read fun r _ => r := by
    rw [Cpu.op_decode_of_undocumented hopcode]
    rfl
  have hperform := h.perform
  rw [heffect] at hperform
  obtain ⟨hstore, hoam⟩ := (Code.readsOnly_perform_read _ _).keeps hperform
  obtain ⟨hstore', hoam'⟩ := h.kept
  refine ⟨?_, hstore.trans hstore', hoam.trans hoam'⟩
  obtain ⟨answer, heval⟩ := (Code.perform (.read fun r _ => r) operand).answered hperform
  rw [← h.registers]
  refine (congrArg Code.Outcome.registers heval).symm.trans ?_
  cases operand <;> rfl

end Phases

/-! ## Steps -/

/-- What an instruction that is not documented does: it passes over its operand. -/
structure Untouched (m m' : Machine) : Prop where
  registers : m'.cpu.registers = { m.cpu.registers with pc := m.next }
  ram : m'.cpu.ram = m.cpu.ram
  slot : m'.slot = m.slot
  oam : m'.ppu.oam = m.ppu.oam

/-- What the length of an instruction says of a step. -/
structure Measured (m m' : Machine) : Prop where
  /-- The bytes of the instruction are read first, and are those that a look at memory shows. -/
  passed : ∀ k ≤ m.fetched.mode.operandLength, Passed m k (Code.readAt m.busLog k)
  next : m.fetched.op ∉ Code.jumps → branches m.cpu.registers m.fetched.op = false →
    m'.cpu.registers.pc = m.next
  /-- A call stacks the address of its last byte. -/
  call : m.fetched.op = .jsr → m'.cpu.ram = called m.cpu.ram m.cpu.registers.sp (m.ahead 2) ∧
    m'.cpu.registers.sp = m.cpu.registers.sp - 1 - 1
  undocumented : Cpu.documented? (Code.readAt m.busLog 0) = none → Untouched m m'

theorem step_measured (hdue : due? m.cpu = none) (h : step m = .ok ((), m')) : Measured m m' := by
  obtain ⟨opcode, m₁, operand, m₂, hphases⟩ := step_phases hdue h
  refine ⟨fun _ hk => hphases.passed hk, hphases.pc_eq, fun hop => ?_, fun hnone => ?_⟩
  · exact (hphases.call hop).imp_left (congrArg Prod.fst)
  · rw [readAt_eq hphases.passed_opcode.read] at hnone
    obtain ⟨hregisters, hstore, hoam⟩ := hphases.untouched hnone
    exact ⟨hregisters, congrArg Prod.fst hstore, congrArg Prod.snd hstore, hoam⟩

/-- An instruction that is not documented leaves the cartridge even where the run breaks off. -/
theorem undocumented_crash {opcode : UInt8} {crash : Crash} (hdue : due? m.cpu = none)
    (hfetch : fetchByte m = .ok (opcode, m₁)) (hopcode : Cpu.documented? opcode = none)
    (h : step m = .error crash) : crash.slot = m.slot := by
  have heffect : (Cpu.decode opcode).op.effect = .read fun r _ => r := by
    rw [Cpu.op_decode_of_undocumented hopcode]
    rfl
  rw [step_eq, hdue, instruction_run hfetch, heffect] at h
  have hcode : (Code.bind (Code.resolve (Cpu.decode opcode).op (Cpu.decode opcode).mode)
      fun operand => Code.perform (.read fun r _ => r) operand).ReadsOnly :=
    ⟨Code.readsOnly_resolve _ _, Code.readsOnly_perform_read _⟩
  rw [hcode.crash h]
  exact congrArg Prod.snd (Code.readsOnly_fetchByte.keeps hfetch).1

end NesMachine.Machine
