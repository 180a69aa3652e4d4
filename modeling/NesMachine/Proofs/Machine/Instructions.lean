import NesMachine.Proofs.Cpu.Arithmetic
import NesMachine.Proofs.Machine.Code
import NesMachine.Proofs.Ppu.Scroll

/-!
# Instructions, cycle by cycle

What an instruction does on the bus and to the registers, whatever it is answered: an equation for
each addressing mode and for each class of operations. The addresses that occur in them are given
as numbers.

* `eval_resolve_implied` to `eval_resolve_relative`: the addressing modes.
* `eval_perform_read` to `eval_perform_softwareInterrupt`: the classes of operations.
-/

namespace NesMachine.Machine

open Cpu (Registers Op AddrMode Effect)

/-! ## Addresses as numbers -/

theorem toNat_word (low high : UInt8) :
    (word low high).toNat = Manual.word low.toNat high.toNat := by
  have hlow := low.toNat_lt
  have hhigh := high.toNat_lt
  have hshift : (high.toUInt16 <<< 8).toNat = high.toNat <<< 8 := by
    rw [UInt16.toNat_shiftLeft, UInt8.toNat_toUInt16, show (8 : UInt16).toNat % 16 = 8 from rfl,
      Nat.shiftLeft_eq]
    exact Nat.mod_eq_of_lt (by omega)
  rw [word, UInt16.toNat_or, hshift, UInt8.toNat_toUInt16, ← Nat.shiftLeft_add_eq_or_of_lt hlow,
    Nat.shiftLeft_eq, Manual.word]
  omega

theorem samePage_eq (a b : UInt16) : samePage a b = decide (a.toNat / 256 = b.toNat / 256) := by
  have ha := a.toNat_lt
  have hb := b.toNat_lt
  have hpage : ∀ c : UInt16, (c &&& 0xFF00).toNat = c.toNat / 256 % 256 * 256 :=
    fun c => Scroll.toNat_and_group 8 8 rfl
  refine decide_eq_decide.mpr ?_
  rw [← UInt16.toNat_inj, hpage, hpage]
  omega

theorem toNat_add_byte (base : UInt16) (index : UInt8) :
    (base + index.toUInt16).toNat = (base.toNat + index.toNat) % 65536 := by
  rw [UInt16.toNat_add, UInt8.toNat_toUInt16]

theorem toNat_next (pc : UInt16) : (pc + 1).toNat = (pc.toNat + 1) % 65536 := by
  rw [UInt16.toNat_add]
  rfl

theorem toNat_zeroPage (base index : UInt8) :
    (base + index).toUInt16.toNat = (base.toNat + index.toNat) % 256 := by
  rw [UInt8.toNat_toUInt16, UInt8.toNat_add]

theorem toNat_relative (pc : UInt16) (offset : UInt8) :
    (pc + offset.toInt8.toInt16.toUInt16).toNat =
      ((pc.toNat + Manual.signed offset.toNat) % 65536).toNat := by
  have hoffset : offset.toInt8.toInt16.toUInt16.toNat =
      (Manual.signed offset.toNat % 65536).toNat :=
    Registers.forall_byte (p := fun v => v.toInt8.toInt16.toUInt16.toNat =
      (Manual.signed v.toNat % 65536).toNat) (by decide +kernel) offset
  rw [UInt16.toNat_add, hoffset]
  omega

/-- The second byte of a pointer that does not leave its page. -/
theorem toNat_wrapped (pointer : UInt16) :
    ((pointer &&& 0xFF00) ||| ((pointer + 1) &&& 0x00FF)).toNat =
      pointer.toNat / 256 * 256 + (pointer.toNat + 1) % 256 := by
  have hpage : (pointer &&& 0xFF00).toNat = (pointer.toNat / 256 % 256) <<< 8 := by
    rw [Nat.shiftLeft_eq]
    exact Scroll.toNat_and_group 8 8 rfl
  have hlow : ((pointer + 1) &&& 0x00FF).toNat = (pointer + 1).toNat % 256 := by
    have hgroup : ((pointer + 1) &&& 0x00FF).toNat = (pointer + 1).toNat / 1 % 256 * 1 :=
      Scroll.toNat_and_group 0 8 rfl
    rw [hgroup, Nat.div_one, Nat.mul_one]
  have hlt := pointer.toNat_lt
  rw [UInt16.toNat_or, hpage, hlow,
    ← Nat.shiftLeft_add_eq_or_of_lt (show (pointer + 1).toNat % 256 < 2 ^ 8 from
      Nat.mod_lt _ (by decide)), Nat.shiftLeft_eq, toNat_next]
  omega

theorem toNat_stackAddress (sp : UInt8) : (stackAddress sp).toNat = 256 + sp.toNat :=
  Registers.forall_byte (p := fun v => (stackAddress v).toNat = 256 + v.toNat)
    (by decide +kernel) sp

/-! ## Addressing modes -/

namespace Code

variable {answer : Nat → UInt16 → UInt8} {n : Nat} {r : Registers}

theorem eval_indexed (op : Op) (base : UInt16) (index : UInt8) :
    (indexed op base index).eval answer n r =
      ⟨if op.alwaysPaysIndexCycle || !samePage base (base + index.toUInt16) then [.idle] else [],
        base + index.toUInt16, r⟩ :=
  (eval_cond _).trans (by split <;> rfl)

section Resolve

variable (op : Op)

theorem eval_resolve_implied :
    (resolve op .implied).eval answer n r = ⟨[.idle], .none, r⟩ := rfl

theorem eval_resolve_accumulator :
    (resolve op .accumulator).eval answer n r = ⟨[.idle], .accumulator, r⟩ := rfl

theorem eval_resolve_immediate : (resolve op .immediate).eval answer n r =
    ⟨[], .address r.pc, { r with pc := r.pc + 1 }⟩ := rfl

theorem eval_resolve_zeroPage : (resolve op .zeroPage).eval answer n r =
    let byte := answer n r.pc
    ⟨[.read r.pc byte], .address byte.toUInt16, { r with pc := r.pc + 1 }⟩ := rfl

theorem eval_resolve_zeroPageX : (resolve op .zeroPageX).eval answer n r =
    let byte := answer n r.pc
    ⟨[.read r.pc byte, .idle], .address (byte + r.x).toUInt16, { r with pc := r.pc + 1 }⟩ := rfl

theorem eval_resolve_zeroPageY : (resolve op .zeroPageY).eval answer n r =
    let byte := answer n r.pc
    ⟨[.read r.pc byte, .idle], .address (byte + r.y).toUInt16, { r with pc := r.pc + 1 }⟩ := rfl

theorem eval_resolve_absolute : (resolve op .absolute).eval answer n r =
    let low := answer n r.pc
    let high := answer (n + 1) (r.pc + 1)
    ⟨[.read r.pc low, .read (r.pc + 1) high], .address (word low high),
      { r with pc := r.pc + 1 + 1 }⟩ := rfl

/-- The rest of a mode whose operand is behind a base. -/
def indexing (op : Op) (base addr : UInt16) : List BusCycle :=
  if op.alwaysPaysIndexCycle || !samePage base addr then [.idle] else []

theorem eval_bind_indexed (log : List BusCycle) {base : UInt16} {index : UInt8} :
    let rest := (indexed op base index).eval answer n r
    (⟨log ++ (rest.log ++ []), .address rest.value, rest.registers⟩ : Outcome Operand) =
      ⟨log ++ indexing op base (base + index.toUInt16), .address (base + index.toUInt16), r⟩ := by
  simp only [eval_indexed, indexing, List.append_nil]

theorem eval_resolve_absoluteX : (resolve op .absoluteX).eval answer n r =
    let low := answer n r.pc
    let high := answer (n + 1) (r.pc + 1)
    let addr := word low high + r.x.toUInt16
    ⟨[.read r.pc low, .read (r.pc + 1) high] ++ indexing op (word low high) addr,
      .address addr, { r with pc := r.pc + 1 + 1 }⟩ :=
  eval_bind_indexed op [_, _]

theorem eval_resolve_absoluteY : (resolve op .absoluteY).eval answer n r =
    let low := answer n r.pc
    let high := answer (n + 1) (r.pc + 1)
    let addr := word low high + r.y.toUInt16
    ⟨[.read r.pc low, .read (r.pc + 1) high] ++ indexing op (word low high) addr,
      .address addr, { r with pc := r.pc + 1 + 1 }⟩ :=
  eval_bind_indexed op [_, _]

theorem eval_resolve_indirect : (resolve op .indirect).eval answer n r =
    let low := answer n r.pc
    let high := answer (n + 1) (r.pc + 1)
    let pointer := word low high
    let wrapped := (pointer &&& 0xFF00) ||| ((pointer + 1) &&& 0x00FF)
    ⟨[.read r.pc low, .read (r.pc + 1) high, .read pointer (answer (n + 2) pointer),
        .read wrapped (answer (n + 3) wrapped)],
      .address (word (answer (n + 2) pointer) (answer (n + 3) wrapped)),
      { r with pc := r.pc + 1 + 1 }⟩ := rfl

theorem eval_resolve_indexedIndirect : (resolve op .indexedIndirect).eval answer n r =
    let byte := answer n r.pc
    let low := (byte + r.x).toUInt16
    let high := (byte + r.x + 1).toUInt16
    ⟨[.read r.pc byte, .idle, .read low (answer (n + 2) low), .read high (answer (n + 3) high)],
      .address (word (answer (n + 2) low) (answer (n + 3) high)),
      { r with pc := r.pc + 1 }⟩ := rfl

theorem eval_resolve_indirectIndexed : (resolve op .indirectIndexed).eval answer n r =
    let byte := answer n r.pc
    let low := byte.toUInt16
    let high := (byte + 1).toUInt16
    let base := word (answer (n + 1) low) (answer (n + 2) high)
    let addr := base + r.y.toUInt16
    ⟨[.read r.pc byte, .read low (answer (n + 1) low), .read high (answer (n + 2) high)] ++
        indexing op base addr,
      .address addr, { r with pc := r.pc + 1 }⟩ :=
  eval_bind_indexed op [_, _, _]

theorem eval_resolve_relative : (resolve op .relative).eval answer n r =
    let byte := answer n r.pc
    ⟨[.read r.pc byte], .address (r.pc + 1 + byte.toInt8.toInt16.toUInt16),
      { r with pc := r.pc + 1 }⟩ := rfl

end Resolve

/-! ## The stack -/

theorem eval_push (value : UInt8) : (push value).eval answer n r =
    ⟨[.write (stackAddress r.sp) value], (), { r with sp := r.sp - 1 }⟩ := rfl

theorem eval_pushWord (value : UInt16) : (pushWord value).eval answer n r =
    ⟨[.write (stackAddress r.sp) (value >>> 8).toUInt8,
      .write (stackAddress (r.sp - 1)) value.toUInt8], (), { r with sp := r.sp - 1 - 1 }⟩ := rfl

theorem eval_pull : pull.eval answer n r =
    let addr := stackAddress (r.sp + 1)
    ⟨[.read addr (answer n addr)], answer n addr, { r with sp := r.sp + 1 }⟩ := rfl

theorem eval_pullWord : pullWord.eval answer n r =
    let low := stackAddress (r.sp + 1)
    let high := stackAddress (r.sp + 1 + 1)
    ⟨[.read low (answer n low), .read high (answer (n + 1) high)],
      word (answer n low) (answer (n + 1) high), { r with sp := r.sp + 1 + 1 }⟩ := rfl

theorem eval_readWord (addr : UInt16) : (readWord addr).eval answer n r =
    ⟨[.read addr (answer n addr), .read (addr + 1) (answer (n + 1) (addr + 1))],
      word (answer n addr) (answer (n + 1) (addr + 1)), r⟩ := rfl

/-! ## Classes of operations -/

theorem eval_perform_read (apply : Registers → UInt8 → Registers) (addr : UInt16) :
    (perform (.read apply) (.address addr)).eval answer n r =
      ⟨[.read addr (answer n addr)], (), apply r (answer n addr)⟩ := rfl

theorem eval_perform_read_none (apply : Registers → UInt8 → Registers) :
    (perform (.read apply) .none).eval answer n r = ⟨[], (), apply r 0⟩ := rfl

theorem eval_perform_read_accumulator (apply : Registers → UInt8 → Registers) :
    (perform (.read apply) .accumulator).eval answer n r = ⟨[], (), apply r r.a⟩ := rfl

theorem eval_perform_store (value : Registers → UInt8) (addr : UInt16) :
    (perform (.store value) (.address addr)).eval answer n r =
      ⟨[.write addr (value r)], (), r⟩ := rfl

theorem eval_perform_modify (apply : Registers → UInt8 → Registers.Modified) (addr : UInt16) :
    (perform (.modify apply) (.address addr)).eval answer n r =
      let out := apply r (answer n addr)
      ⟨[.read addr (answer n addr), .idle, .write addr out.1], (), out.2⟩ := rfl

theorem eval_perform_modify_accumulator (apply : Registers → UInt8 → Registers.Modified) :
    (perform (.modify apply) .accumulator).eval answer n r =
      ⟨[], (), { (apply r r.a).2 with a := (apply r r.a).1 }⟩ := rfl

theorem eval_perform_registers (apply : Registers → Registers) (operand : Operand) :
    (perform (.registers apply) operand).eval answer n r = ⟨[], (), apply r⟩ := rfl

theorem eval_idles (k : Nat) : (idles k).eval answer n r = ⟨List.replicate k .idle, (), r⟩ := by
  induction k generalizing n with
  | zero => rfl
  | succ k ih =>
    show (⟨.idle :: ((idles k).eval answer (n + 1) r).log, _,
      ((idles k).eval answer (n + 1) r).registers⟩ : Outcome Unit) = _
    rw [ih]
    rfl

theorem eval_perform_branch (taken : Registers → Bool) (target : UInt16) :
    (perform (.branch taken) (.address target)).eval answer n r =
      if taken r then
        ⟨List.replicate (if samePage r.pc target then 1 else 2) .idle, (), { r with pc := target }⟩
      else ⟨[], (), r⟩ := by
  refine (eval_cond (taken r)).trans ?_
  split
  · rw [eval_bind, eval_idles]
    show (⟨_ ++ [], _, _⟩ : Outcome Unit) = _
    rw [List.append_nil]
    rfl
  · rfl

theorem eval_perform_push (value : Registers → UInt8) (operand : Operand) :
    (perform (.push value) operand).eval answer n r =
      ⟨[.write (stackAddress r.sp) (value r)], (), { r with sp := r.sp - 1 }⟩ := rfl

theorem eval_perform_pull (apply : Registers → UInt8 → Registers) (operand : Operand) :
    (perform (.pull apply) operand).eval answer n r =
      let addr := stackAddress (r.sp + 1)
      ⟨[.idle, .read addr (answer (n + 1) addr)], (),
        apply { r with sp := r.sp + 1 } (answer (n + 1) addr)⟩ := rfl

theorem eval_perform_jump (addr : UInt16) :
    (perform .jump (.address addr)).eval answer n r = ⟨[], (), { r with pc := addr }⟩ := rfl

theorem eval_perform_call (addr : UInt16) :
    (perform .call (.address addr)).eval answer n r =
      let back := r.pc - 1
      ⟨[.idle, .write (stackAddress r.sp) (back >>> 8).toUInt8,
          .write (stackAddress (r.sp - 1)) back.toUInt8], (),
        { r with pc := addr, sp := r.sp - 1 - 1 }⟩ := by
  unfold perform
  simp only [eval, eval_pushWord, jumpTo]
  rfl

theorem eval_perform_leave (operand : Operand) :
    (perform .leave operand).eval answer n r =
      let low := stackAddress (r.sp + 1)
      let high := stackAddress (r.sp + 1 + 1)
      ⟨[.idle, .read low (answer (n + 1) low), .read high (answer (n + 2) high), .idle], (),
        { r with
          pc := word (answer (n + 1) low) (answer (n + 2) high) + 1
          sp := r.sp + 1 + 1 }⟩ := by
  unfold perform
  simp only [eval, eval_pullWord, jumpTo]
  rfl

theorem eval_perform_leaveInterrupt (operand : Operand) :
    (perform .leaveInterrupt operand).eval answer n r =
      let status := stackAddress (r.sp + 1)
      let low := stackAddress (r.sp + 1 + 1)
      let high := stackAddress (r.sp + 1 + 1 + 1)
      ⟨[.idle, .read status (answer (n + 1) status), .read low (answer (n + 2) low),
          .read high (answer (n + 3) high)], (),
        { r.pullStatus (answer (n + 1) status) with
          pc := word (answer (n + 2) low) (answer (n + 3) high)
          sp := r.sp + 1 + 1 + 1 }⟩ := by
  unfold perform
  simp only [eval, eval_pull, eval_pullWord, jumpTo]
  rfl

theorem eval_perform_softwareInterrupt (operand : Operand) :
    (perform .softwareInterrupt operand).eval answer n r =
      let back := r.pc + 1
      ⟨[.write (stackAddress r.sp) (back >>> 8).toUInt8,
          .write (stackAddress (r.sp - 1)) back.toUInt8,
          .write (stackAddress (r.sp - 1 - 1)) r.statusPushed,
          .read irqVector (answer (n + 3) irqVector),
          .read (irqVector + 1) (answer (n + 4) (irqVector + 1))], (),
        { r.setFlag .interruptDisable true with
          pc := word (answer (n + 3) irqVector) (answer (n + 4) (irqVector + 1))
          sp := r.sp - 1 - 1 - 1 }⟩ := by
  unfold perform
  simp only [eval, eval_pushWord, eval_push, eval_readWord, jumpTo]
  rfl

end Code

end NesMachine.Machine
