import NesMachine.Console.Disassembly
import NesMachine.Proofs.Machine.Crash
import NesMachine.Proofs.Machine.Length

/-!
# Listings

The listing of an instruction shows the bytes that the processor passes over when it runs it, and tells
how long it is.

* `disassemble_eq`: the listing of an instruction that is run.
* **`length_exact`**: the length of an instruction, in the run and in the listing.
-/

namespace NesMachine.Console

open Machine (fetchByte resolve due? Store Measured)

variable {c : Console} {m' : Machine}

/-! ## Disassembly -/

/-- An instruction in text, with its bytes. -/
def listing (i : Cpu.Instruction) (bytes : List UInt8) : String :=
  Radix.padRight 8 (" ".intercalate (bytes.map Radix.byteHex)) ++ " " ++ i.op.mnemonic ++ " (" ++
    i.mode.name ++ ")"

/-- The bytes that an instruction passes over. -/
def passedBytes (m : Machine) : List UInt8 :=
  (List.range (m.fetched.mode.operandLength + 1)).map (Machine.Code.readAt m.busLog)

theorem mapM_ok {α β ε : Type} {f : α → Except ε β} {g : α → β} {l : List α}
    (h : ∀ a ∈ l, f a = .ok (g a)) : l.mapM f = .ok (l.map g) := by
  induction l with
  | nil => rfl
  | cons a l ih =>
    obtain ⟨hfirst, hrest⟩ := List.forall_mem_cons.mp h
    rw [List.mapM_cons, hfirst, ih hrest]
    rfl

/-- **The disassembly of an instruction shows the bytes that it passes over**, if they are all in memory. -/
theorem disassemble_eq (h : Measured c.machine m')
    (hholds : ∀ k ≤ c.machine.fetched.mode.operandLength, Store.holds (c.machine.ahead k).toNat) :
    c.disassemble c.machine.cpu.registers.pc =
      .ok (listing c.machine.fetched (passedBytes c.machine)) := by
  have hpeek : ∀ k ≤ c.machine.fetched.mode.operandLength,
      c.peek (c.machine.ahead k) = .ok (Machine.Code.readAt c.machine.busLog k) := by
    intro k hk
    unfold peek
    rw [(h.passed k hk).shown (hholds k hk)]
    rfl
  have hopcode := hpeek 0 (Nat.zero_le _)
  rw [Machine.ahead_zero] at hopcode
  have hoperands : (List.range c.machine.fetched.mode.operandLength).mapM
      (fun k => c.peek (c.machine.cpu.registers.pc + 1 + UInt16.ofNat k)) =
      .ok ((List.range c.machine.fetched.mode.operandLength).map
        fun k => Machine.Code.readAt c.machine.busLog (k + 1)) := by
    refine mapM_ok fun k hk => ?_
    rw [← Machine.ahead_succ]
    exact hpeek (k + 1) (List.mem_range.mp hk)
  unfold disassemble
  rw [hopcode]
  change ((List.range c.machine.fetched.mode.operandLength).mapM
    (fun k => c.peek (c.machine.cpu.registers.pc + 1 + UInt16.ofNat k)) >>= _) = _
  rw [hoperands, passedBytes, List.range_succ_eq_map, List.map_cons, List.map_map]
  rfl

/-! ## The length of an instruction -/

/-- **The length of an instruction is the same everywhere.** Its fetches pass over as many bytes as its
addressing mode says, and its listing shows these bytes; unless it leaves the course of the program, the
program goes on behind them. One that is not documented does nothing else. A step breaks off only on a
byte that the game does not have. -/
theorem length_exact (c : Console) (hdue : due? c.machine.cpu = none) :
    (∀ opcode m₁ operand m₂, fetchByte c.machine = .ok (opcode, m₁) →
      resolve (Cpu.decode opcode).op (Cpu.decode opcode).mode m₁ = .ok (operand, m₂) →
      m₂.cpu.registers = { c.machine.cpu.registers with
        pc := c.machine.cpu.registers.pc + 1 +
          UInt16.ofNat (Cpu.decode opcode).mode.operandLength }) ∧
    (∀ m', Machine.step c.machine = .ok ((), m') → Measured c.machine m' ∧
      ((∀ k ≤ c.machine.fetched.mode.operandLength, Store.holds (c.machine.ahead k).toNat) →
        c.disassemble c.machine.cpu.registers.pc =
          .ok (listing c.machine.fetched (passedBytes c.machine)))) ∧
    (∀ crash, Machine.step c.machine = .error crash → crash.slot.Lacks crash.fault ∧
      ∀ opcode m₁, fetchByte c.machine = .ok (opcode, m₁) → Cpu.documented? opcode = none →
        crash.slot = c.machine.slot) := by
  refine ⟨fun opcode m₁ operand m₂ hfetch hresolve => Machine.resolved_ok hfetch hresolve,
    fun m' hstep => ?_, fun crash hcrash => ⟨Machine.Part.step.candid _ _ hcrash,
      fun opcode m₁ hfetch hopcode => Machine.undocumented_crash hdue hfetch hopcode hcrash⟩⟩
  have hmeasured := Machine.step_measured hdue hstep
  exact ⟨hmeasured, disassemble_eq hmeasured⟩

/-- A program of one instruction that is not documented, which is three bytes long. -/
def idleProgram : Console where
  machine := { Machine.zeros with cpu := Machine.zeros.cpu.writeRam 0 0x1C }

/-- It reads at `$0000`, and does nothing. -/
theorem length_exact_idle : ∃ m', Machine.step idleProgram.machine = .ok ((), m') ∧
    m'.cpu.registers = { idleProgram.machine.cpu.registers with pc := 3 } ∧
    idleProgram.disassemble 0 = .ok "1C 00 00 NOP (AbsoluteX)" := by
  obtain ⟨_, m', hstep, -⟩ :=
    Machine.Part.step.progress (m := idleProgram.machine) Machine.zeros_whole
  obtain ⟨hmeasured, hlisting⟩ := (length_exact idleProgram rfl).2.1 m' hstep
  have hholds : ∀ k ≤ 2, Store.holds (idleProgram.machine.ahead k).toNat := by
    intro k hk
    obtain rfl | rfl | rfl : k = 0 ∨ k = 1 ∨ k = 2 := by omega
    all_goals exact .inl (by decide)
  have hbyte : ∀ k ≤ idleProgram.machine.fetched.mode.operandLength, k ≤ 2 →
      idleProgram.machine.peek (idleProgram.machine.ahead k) =
        .ok (Machine.Code.readAt idleProgram.machine.busLog k) :=
    fun k hk hk' => (hmeasured.passed k hk).shown (hholds k hk')
  have hopcode : Machine.Code.readAt idleProgram.machine.busLog 0 = 0x1C :=
    (Except.ok.inj (hbyte 0 (Nat.zero_le _) (by decide))).symm
  have hfetched : idleProgram.machine.fetched = ⟨.nop, .absoluteX⟩ := by
    unfold Machine.fetched
    rw [hopcode]
    rfl
  rw [hfetched] at hlisting hbyte
  refine ⟨m', hstep, ?_, ?_⟩
  · have huntouched := hmeasured.undocumented (by rw [hopcode]; decide)
    rw [huntouched.registers, Machine.next, hfetched]
    rfl
  · have hbytes : passedBytes idleProgram.machine = [0x1C, 0, 0] := by
      have hfirst := Except.ok.inj (hbyte 1 (by decide) (by decide))
      have hsecond := Except.ok.inj (hbyte 2 (by decide) (by decide))
      rw [passedBytes, hfetched]
      change [Machine.Code.readAt _ 0, Machine.Code.readAt _ 1, Machine.Code.readAt _ 2] = _
      rw [hopcode, ← hfirst, ← hsecond]
      rfl
    refine (hlisting hholds).trans (congrArg Except.ok ?_)
    rw [hbytes]
    decide +kernel

/-- The opcodes that are not documented. -/
example : ((List.range 256).filter fun n => (Cpu.documented? (UInt8.ofNat n)).isNone).length = 105 := by
  decide +kernel

end NesMachine.Console
