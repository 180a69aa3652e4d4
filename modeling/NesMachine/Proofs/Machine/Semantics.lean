import NesMachine.Proofs.Machine.Instructions
import NesMachine.Proofs.Machine.Memory
import NesMachine.Proofs.Machine.Progress

/-!
# The meaning of instructions

An instruction does what the manual says, as long as the bytes it needs are in memory.

* `found`: an addressing mode finds the operand of the manual.
* `performed`: a class of operations does to its operand what an action of the manual does.
* `instruction_exact`: a step without an interrupt leaves the registers and the memory of the manual.
-/

namespace NesMachine.Machine

open Cpu (Registers Op AddrMode Effect Meets)
open Manual (Action Place)

namespace Code

/-! ## Operands -/

/-- An operand at a place of the manual. -/
inductive Denotes : Operand → Place → Prop where
  | none : Denotes .none .none
  | accumulator : Denotes .accumulator .accumulator
  | address {addr : UInt16} {n : Nat} : addr.toNat = n → Denotes (.address addr) (.cell n)

variable {byte : UInt16 → UInt8} {memory : Nat → Nat} {r : Registers}

/-- The operand of the manual, found by the reads of the manual. -/
structure Found (memory : Nat → Nat) (r : Registers) (mode : AddrMode)
    (out : Outcome Operand) : Prop where
  reads : out.log.filterMap BusCycle.read? = (Manual.operand memory r.state mode).read
  writes : out.log.filterMap BusCycle.write? = []
  denotes : Denotes out.value (Manual.operand memory r.state mode).place
  registers : ∃ pc, out.registers = { r with pc } ∧
    pc.toNat = (r.pc.toNat + Manual.length mode) % 65536

theorem reads_indexing (op : Op) (base addr : UInt16) :
    (indexing op base addr).filterMap BusCycle.read? = [] := by
  unfold indexing
  split_ifs <;> rfl

theorem writes_indexing (op : Op) (base addr : UInt16) :
    (indexing op base addr).filterMap BusCycle.write? = [] := by
  unfold indexing
  split_ifs <;> rfl

theorem toNat_steps (pc : UInt16) (k : Nat) : ((· + 1)^[k] pc).toNat = (pc.toNat + k) % 65536 := by
  induction k with
  | zero => exact (Nat.mod_eq_of_lt pc.toNat_lt).symm
  | succ k ih =>
    rw [Function.iterate_succ_apply', toNat_next, ih]
    omega

/-- **An addressing mode finds the operand of the manual.** -/
theorem found (hmemory : ∀ addr, (byte addr).toNat = memory addr.toNat) (op : Op) (mode : AddrMode)
    (n : Nat) :
    Found memory r mode ((resolve op mode).eval (fun _ => byte) n { r with pc := r.pc + 1 }) := by
  have hsecond : (r.pc + 1 + 1).toNat = (r.pc.toNat + 2) % 65536 := toNat_steps r.pc 2
  have hthird : (r.pc + 1 + 1 + 1).toNat = (r.pc.toNat + 3) % 65536 := toNat_steps r.pc 3
  cases mode with
  | implied =>
    rw [eval_resolve_implied]
    exact ⟨rfl, rfl, .none, _, rfl, toNat_next _⟩
  | accumulator =>
    rw [eval_resolve_accumulator]
    exact ⟨rfl, rfl, .accumulator, _, rfl, toNat_next _⟩
  | immediate =>
    rw [eval_resolve_immediate]
    exact ⟨rfl, rfl, .address (toNat_next _), _, rfl, hsecond⟩
  | zeroPage =>
    rw [eval_resolve_zeroPage]
    refine ⟨?_, rfl, .address ?_, _, rfl, hsecond⟩
    · simp [Manual.operand, BusCycle.read?, Registers.state]
    · simp [hmemory, Registers.state]
  | zeroPageX =>
    rw [eval_resolve_zeroPageX]
    refine ⟨?_, rfl, .address ?_, _, rfl, hsecond⟩
    · simp [Manual.operand, BusCycle.read?, Registers.state]
    · simp [hmemory, Registers.state]
  | zeroPageY =>
    rw [eval_resolve_zeroPageY]
    refine ⟨?_, rfl, .address ?_, _, rfl, hsecond⟩
    · simp [Manual.operand, BusCycle.read?, Registers.state]
    · simp [hmemory, Registers.state]
  | absolute =>
    rw [eval_resolve_absolute]
    refine ⟨?_, rfl, .address ?_, _, rfl, hthird⟩
    · simp [Manual.operand, BusCycle.read?, Registers.state]
    · simp [hmemory, toNat_word, Registers.state]
  | absoluteX =>
    rw [eval_resolve_absoluteX]
    refine ⟨?_, ?_, .address ?_, _, rfl, hthird⟩
    · simp [Manual.operand, BusCycle.read?, reads_indexing, Registers.state]
    · exact writes_indexing _ _ _
    · simp [hmemory, toNat_word, Registers.state]
  | absoluteY =>
    rw [eval_resolve_absoluteY]
    refine ⟨?_, ?_, .address ?_, _, rfl, hthird⟩
    · simp [Manual.operand, BusCycle.read?, reads_indexing, Registers.state]
    · exact writes_indexing _ _ _
    · simp [hmemory, toNat_word, Registers.state]
  | indirect =>
    have hpointer : (word (byte (r.pc + 1)) (byte (r.pc + 1 + 1))).toNat =
        Manual.word (memory ((r.pc.toNat + 1) % 65536)) (memory ((r.pc.toNat + 2) % 65536)) := by
      rw [toNat_word, hmemory, hmemory, toNat_next, hsecond]
    rw [eval_resolve_indirect]
    refine ⟨?_, rfl, .address ?_, _, rfl, hthird⟩
    · show [(r.pc + 1).toNat, (r.pc + 1 + 1).toNat, UInt16.toNat _, UInt16.toNat _] = _
      rw [toNat_wrapped, hpointer, toNat_next, hsecond]
      rfl
    · rw [toNat_word, hmemory, hmemory, toNat_wrapped, hpointer]
      rfl
  | indexedIndirect =>
    have hlow : (byte (r.pc + 1) + r.x).toUInt16.toNat =
        (memory ((r.pc.toNat + 1) % 65536) + r.x.toNat) % 256 := by
      rw [toNat_zeroPage, hmemory, toNat_next]
    have hhigh : (byte (r.pc + 1) + r.x + 1).toUInt16.toNat =
        ((memory ((r.pc.toNat + 1) % 65536) + r.x.toNat) % 256 + 1) % 256 := by
      rw [toNat_zeroPage, ← UInt8.toNat_toUInt16 (_ + r.x), hlow]
      rfl
    rw [eval_resolve_indexedIndirect]
    refine ⟨?_, rfl, .address ?_, _, rfl, hsecond⟩
    · show [(r.pc + 1).toNat, UInt16.toNat _, UInt16.toNat _] = _
      rw [hlow, hhigh, toNat_next]
      rfl
    · rw [toNat_word, hmemory, hmemory, hlow, hhigh]
      rfl
  | indirectIndexed =>
    rw [eval_resolve_indirectIndexed]
    refine ⟨?_, ?_, .address ?_, _, rfl, hsecond⟩
    · simp [Manual.operand, BusCycle.read?, reads_indexing, hmemory, Registers.state]
    · exact writes_indexing _ _ _
    · simp [hmemory, toNat_word, Registers.state]
  | relative =>
    rw [eval_resolve_relative]
    refine ⟨?_, rfl, .address ?_, _, rfl, hsecond⟩
    · simp [Manual.operand, BusCycle.read?, Registers.state]
    · rw [toNat_relative, hsecond, hmemory, toNat_next]
      show _ = ((r.pc.toNat + 2 + Manual.signed (memory ((r.pc.toNat + 1) % 65536)) : Int) %
        65536).toNat
      omega

/-! ## The stack -/

open Cpu.Registers (Shows)

theorem toNat_pulled (sp : UInt8) (k : Nat) : ((· + 1)^[k] sp).toNat = (sp.toNat + k) % 256 := by
  induction k with
  | zero => exact (Nat.mod_eq_of_lt sp.toNat_lt).symm
  | succ k ih =>
    rw [Function.iterate_succ_apply', Registers.toNat_increment, Manual.increment, ih]
    omega

theorem toNat_pushed (sp : UInt8) (k : Nat) (hk : k ≤ 256 := by decide) :
    ((· - 1)^[k] sp).toNat = (sp.toNat + (256 - k)) % 256 := by
  induction k with
  | zero =>
    have hlt := sp.toNat_lt
    show sp.toNat = (sp.toNat + 256) % 256
    omega
  | succ k ih =>
    rw [Function.iterate_succ_apply', Registers.toNat_decrement, Manual.decrement, ih (by omega)]
    omega

theorem toNat_above (k : Nat) : (stackAddress ((· + 1)^[k] r.sp)).toNat = r.state.above k := by
  rw [toNat_stackAddress, toNat_pulled]
  rfl

theorem toNat_below (k : Nat) (hk : k ≤ 256 := by decide) :
    (stackAddress ((· - 1)^[k] r.sp)).toNat = r.state.below k := by
  rw [toNat_stackAddress, toNat_pushed _ _ hk]
  rfl

theorem toNat_previous (pc : UInt16) : (pc - 1).toNat = (pc.toNat + 65535) % 65536 := by
  rw [UInt16.toNat_sub, Nat.add_comm]
  rfl

theorem toNat_highByte (value : UInt16) : (value >>> 8).toUInt8.toNat = value.toNat / 256 := by
  have hlt := value.toNat_lt
  have hshift : (value >>> 8).toNat = value.toNat / 256 := by
    rw [UInt16.toNat_shiftRight]
    exact Nat.shiftRight_eq_div_pow _ 8
  rw [UInt16.toNat_toUInt8, hshift]
  omega

theorem toNat_lowByte (value : UInt16) : value.toUInt8.toNat = value.toNat % 256 := rfl

/-! ## Operations -/

/-- What the manual says of an action, done. -/
structure Performed (out : Outcome Unit) (meant : Manual.Outcome) : Prop where
  state : out.registers.Shows meant.state
  reads : out.log.filterMap BusCycle.read? = meant.reads
  writes : out.log.filterMap BusCycle.write? = meant.writes
  orderly : Orderly out.log

/-- An effect on an operand, at a cycle, does what an action does to a place. -/
def Does (byte : UInt16 → UInt8) (memory : Nat → Nat) (n : Nat) (r : Registers) (s : Manual.State)
    (effect : Effect) (action : Action) (operand : Operand) (place : Place) : Prop :=
  Performed ((perform effect operand).eval (fun _ => byte) n r)
    (Manual.perform memory s action place)

section Classes

variable {operand : Operand} {place : Place} {s : Manual.State} {n : Nat}

theorem does_read (hmemory : ∀ addr, (byte addr).toNat = memory addr.toNat)
    {apply : Registers → UInt8 → Registers} {f : Manual.State → Nat → Manual.State}
    (hmeets : Meets (.read apply) (.reads f)) (hs : r.Shows s) (hplace : Denotes operand place) :
    Does byte memory n r s (.read apply) (.reads f) operand place := by
  unfold Does
  cases hplace with
  | none =>
    rw [eval_perform_read_none]
    exact ⟨hmeets r s 0 hs, rfl, rfl, trivial⟩
  | accumulator =>
    obtain rfl := hs.state
    rw [eval_perform_read_accumulator]
    exact ⟨hmeets r r.state r.a hs, rfl, rfl, trivial⟩
  | @address addr _ haddr =>
    subst haddr
    have hdone := hmeets r s (byte addr) hs
    rw [hmemory] at hdone
    rw [eval_perform_read]
    exact ⟨hdone, rfl, rfl, trivial⟩

theorem does_store {value : Registers → UInt8} {f : Manual.State → Nat}
    (hmeets : Meets (.store value) (.stores f)) (hs : r.Shows s) (hplace : Denotes operand place) :
    Does byte memory n r s (.store value) (.stores f) operand place := by
  unfold Does
  cases hplace with
  | none => exact ⟨hs, rfl, rfl, trivial⟩
  | accumulator => exact ⟨hs, rfl, rfl, trivial⟩
  | @address addr _ haddr =>
    subst haddr
    rw [eval_perform_store]
    refine ⟨hs, rfl, ?_, .inr rfl, by simp, trivial⟩
    show [(addr.toNat, (value r).toNat)] = _
    rw [hmeets r s hs]
    rfl

theorem does_modify (hmemory : ∀ addr, (byte addr).toNat = memory addr.toNat)
    {apply : Registers → UInt8 → Registers.Modified} {f : Manual.State → Nat → Nat × Manual.State}
    (hmeets : Meets (.modify apply) (.modifies f)) (hs : r.Shows s)
    (hplace : Denotes operand place) :
    Does byte memory n r s (.modify apply) (.modifies f) operand place := by
  unfold Does
  cases hplace with
  | none => exact ⟨hs, rfl, rfl, trivial⟩
  | accumulator =>
    obtain rfl := hs.state
    obtain ⟨hvalue, hshows⟩ := hmeets r r.state r.a hs
    rw [eval_perform_modify_accumulator]
    exact ⟨hshows.withA hvalue, rfl, rfl, trivial⟩
  | @address addr _ haddr =>
    subst haddr
    obtain ⟨hvalue, hshows⟩ := hmeets r s (byte addr) hs
    rw [hmemory] at hvalue hshows
    rw [eval_perform_modify]
    refine ⟨hshows, rfl, ?_, .inr rfl, by simp, trivial⟩
    show [(addr.toNat, (apply r (byte addr)).1.toNat)] = _
    rw [hvalue]
    rfl

theorem does_registers {apply : Registers → Registers} {f : Manual.State → Manual.State}
    (hmeets : Meets (.registers apply) (.changes f)) (hs : r.Shows s) :
    Does byte memory n r s (.registers apply) (.changes f) operand place := by
  unfold Does
  rw [eval_perform_registers]
  exact ⟨hmeets r s hs, rfl, rfl, trivial⟩

theorem does_branch {taken : Registers → Bool} {f : Manual.State → Bool}
    (hmeets : Meets (.branch taken) (.branches f)) (hs : r.Shows s)
    (hplace : Denotes operand place) :
    Does byte memory n r s (.branch taken) (.branches f) operand place := by
  unfold Does
  cases hplace with
  | none => exact ⟨hs, rfl, rfl, trivial⟩
  | accumulator => exact ⟨hs, rfl, rfl, trivial⟩
  | @address target _ htarget =>
    rw [eval_perform_branch, hmeets r s hs]
    cases htaken : f s with
    | false =>
      rw [if_neg Bool.false_ne_true]
      refine ⟨?_, rfl, rfl, trivial⟩
      show r.Shows (if f s then { s with pc := _ } else s)
      rw [htaken]
      exact hs
    | true =>
      rw [if_pos rfl]
      refine ⟨?_, ?_, ?_, ?_⟩
      · show ({ r with pc := target } : Registers).Shows (if f s then { s with pc := _ } else s)
        rw [htaken]
        exact hs.withPc htarget
      · split_ifs <;> rfl
      · split_ifs <;> rfl
      · split_ifs <;> trivial

theorem does_push {value : Registers → UInt8} {f : Manual.State → Nat}
    (hmeets : Meets (.push value) (.pushes f)) (hs : r.Shows s) :
    Does byte memory n r s (.push value) (.pushes f) operand place := by
  unfold Does
  obtain rfl := hs.state
  have htop : (stackAddress r.sp).toNat = r.state.below 0 := toNat_below 0
  rw [eval_perform_push]
  refine ⟨hs.withSp (Registers.toNat_decrement r.sp), rfl, ?_, .inr rfl, by simp, trivial⟩
  show [((stackAddress r.sp).toNat, (value r).toNat)] = _
  rw [htop, hmeets r _ hs]
  rfl

theorem does_pull (hmemory : ∀ addr, (byte addr).toNat = memory addr.toNat)
    {apply : Registers → UInt8 → Registers} {f : Manual.State → Nat → Manual.State}
    (hmeets : Meets (.pull apply) (.pulls f)) (hs : r.Shows s) :
    Does byte memory n r s (.pull apply) (.pulls f) operand place := by
  unfold Does
  obtain rfl := hs.state
  have hfirst : (stackAddress (r.sp + 1)).toNat = r.state.above 1 := toNat_above 1
  have hup := hs.withSp (Registers.toNat_increment r.sp)
  have hdone := hmeets _ _ (byte (stackAddress (r.sp + 1))) hup
  rw [hmemory, hfirst] at hdone
  rw [eval_perform_pull]
  refine ⟨hdone, ?_, rfl, trivial⟩
  show [(stackAddress (r.sp + 1)).toNat] = _
  rw [hfirst]
  rfl

theorem does_jump (hs : r.Shows s) (hplace : Denotes operand place) :
    Does byte memory n r s .jump .jumps operand place := by
  unfold Does
  cases hplace with
  | none => exact ⟨hs, rfl, rfl, trivial⟩
  | accumulator => exact ⟨hs, rfl, rfl, trivial⟩
  | address htarget =>
    rw [eval_perform_jump]
    exact ⟨hs.withPc htarget, rfl, rfl, trivial⟩

theorem does_call (hs : r.Shows s) (hplace : Denotes operand place) :
    Does byte memory n r s .call .calls operand place := by
  unfold Does
  cases hplace with
  | none => exact ⟨hs, rfl, rfl, trivial⟩
  | accumulator => exact ⟨hs, rfl, rfl, trivial⟩
  | address htarget =>
    obtain rfl := hs.state
    have htop : (stackAddress r.sp).toNat = r.state.below 0 := toNat_below 0
    have hnext : (stackAddress (r.sp - 1)).toNat = r.state.below 1 := toNat_below 1
    rw [eval_perform_call]
    refine ⟨(hs.withPc htarget).withSp (toNat_pushed r.sp 2), rfl, ?_, ?_⟩
    · show [((stackAddress r.sp).toNat, _), ((stackAddress (r.sp - 1)).toNat, _)] = _
      rw [htop, hnext, toNat_highByte, toNat_lowByte, toNat_previous]
      rfl
    · exact ⟨.inl (stackAddress_lt _), by simp [BusCycle.read?], .inr rfl, by simp, trivial⟩

theorem does_leave (hmemory : ∀ addr, (byte addr).toNat = memory addr.toNat) (hs : r.Shows s) :
    Does byte memory n r s .leave .returns operand place := by
  unfold Does
  obtain rfl := hs.state
  have hfirst : (stackAddress (r.sp + 1)).toNat = r.state.above 1 := toNat_above 1
  have hsecond : (stackAddress (r.sp + 1 + 1)).toNat = r.state.above 2 := toNat_above 2
  have hpc : (word (byte (stackAddress (r.sp + 1))) (byte (stackAddress (r.sp + 1 + 1))) +
      1).toNat = (Manual.word (memory (r.state.above 1)) (memory (r.state.above 2)) + 1) %
        65536 := by
    rw [toNat_next, toNat_word, hmemory, hmemory, hfirst, hsecond]
  rw [eval_perform_leave]
  refine ⟨(hs.withPc hpc).withSp (toNat_pulled r.sp 2), ?_, rfl, trivial⟩
  show [(stackAddress (r.sp + 1)).toNat, (stackAddress (r.sp + 1 + 1)).toNat] = _
  rw [hfirst, hsecond]
  rfl

theorem does_leaveInterrupt (hmemory : ∀ addr, (byte addr).toNat = memory addr.toNat)
    (hs : r.Shows s) : Does byte memory n r s .leaveInterrupt .resumes operand place := by
  unfold Does
  obtain rfl := hs.state
  have hfirst : (stackAddress (r.sp + 1)).toNat = r.state.above 1 := toNat_above 1
  have hsecond : (stackAddress (r.sp + 1 + 1)).toNat = r.state.above 2 := toNat_above 2
  have hthird : (stackAddress (r.sp + 1 + 1 + 1)).toNat = r.state.above 3 := toNat_above 3
  have hpc : (word (byte (stackAddress (r.sp + 1 + 1)))
      (byte (stackAddress (r.sp + 1 + 1 + 1)))).toNat =
        Manual.word (memory (r.state.above 2)) (memory (r.state.above 3)) := by
    rw [toNat_word, hmemory, hmemory, hsecond, hthird]
  have hpulled := hs.pullStatus (byte (stackAddress (r.sp + 1)))
  rw [hmemory, hfirst] at hpulled
  rw [eval_perform_leaveInterrupt]
  refine ⟨(hpulled.withPc hpc).withSp (toNat_pulled r.sp 3), ?_, rfl, trivial⟩
  show [(stackAddress (r.sp + 1)).toNat, (stackAddress (r.sp + 1 + 1)).toNat,
    (stackAddress (r.sp + 1 + 1 + 1)).toNat] = _
  rw [hfirst, hsecond, hthird]
  rfl

theorem does_softwareInterrupt (hmemory : ∀ addr, (byte addr).toNat = memory addr.toNat)
    (hs : r.Shows s) : Does byte memory n r s .softwareInterrupt .breaks operand place := by
  unfold Does
  obtain rfl := hs.state
  have hpc : (word (byte irqVector) (byte (irqVector + 1))).toNat =
      Manual.word (memory 0xFFFE) (memory 0xFFFF) := by
    rw [toNat_word, hmemory, hmemory]
    rfl
  have htop : (stackAddress r.sp).toNat = r.state.below 0 := toNat_below 0
  have hnext : (stackAddress (r.sp - 1)).toNat = r.state.below 1 := toNat_below 1
  have hlast : (stackAddress (r.sp - 1 - 1)).toNat = r.state.below 2 := toNat_below 2
  have hset := hs.setFlag .interruptDisable true (by decide)
  rw [eval_perform_softwareInterrupt]
  refine ⟨(hset.withPc hpc).withSp (toNat_pushed r.sp 3), rfl, ?_, ?_⟩
  · show [((stackAddress r.sp).toNat, _), ((stackAddress (r.sp - 1)).toNat, _),
      ((stackAddress (r.sp - 1 - 1)).toNat, r.statusPushed.toNat)] = _
    rw [htop, hnext, hlast, toNat_highByte, toNat_lowByte, toNat_next, hs.toNat_statusPushed]
    rfl
  · have hvectors : ∀ n ∈ [0xFFFE, 0xFFFF], 0x2000 ≤ n := by decide
    exact ⟨.inl (stackAddress_lt _), hvectors, .inl (stackAddress_lt _), hvectors,
      .inl (stackAddress_lt _), hvectors, trivial⟩

/-- **A class of operations does to its operand what an action of the manual does.** -/
theorem performed (hmemory : ∀ addr, (byte addr).toNat = memory addr.toNat) {effect : Effect}
    {action : Action} (hmeets : Meets effect action) (hs : r.Shows s)
    (hplace : Denotes operand place) : Does byte memory n r s effect action operand place := by
  -- An effect meets actions of its own kind only.
  cases effect <;> cases action
  case read.reads => exact does_read hmemory hmeets hs hplace
  case store.stores => exact does_store hmeets hs hplace
  case modify.modifies => exact does_modify hmemory hmeets hs hplace
  case registers.changes => exact does_registers hmeets hs
  case branch.branches => exact does_branch hmeets hs hplace
  case push.pushes => exact does_push hmeets hs
  case pull.pulls => exact does_pull hmemory hmeets hs
  case jump.jumps => exact does_jump hs hplace
  case call.calls => exact does_call hs hplace
  case leave.returns => exact does_leave hmemory hs
  case leaveInterrupt.resumes => exact does_leaveInterrupt hmemory hs
  case softwareInterrupt.breaks => exact does_softwareInterrupt hmemory hs
  all_goals exact hmeets.elim

end Classes

/-! ## Instructions -/

/-- **An instruction does what the manual says**, once its opcode is decoded. -/
theorem executed (hmemory : ∀ addr, (byte addr).toNat = memory addr.toNat)
    (hs : r.Shows r.state) :
    let i := Cpu.decode (byte r.pc)
    Performed (instruction.eval (fun _ => byte) 0 r) (Manual.execute memory i.op i.mode r.state) := by
  intro i
  obtain ⟨hreads, hwrites, hdenotes, pc, hregisters, hpc⟩ :=
    @found byte memory r hmemory i.op i.mode 1
  generalize hresolve : (resolve i.op i.mode).eval (fun _ => byte) 1 { r with pc := r.pc + 1 } =
    operand at hreads hwrites hdenotes hregisters
  have hdone := performed (n := 1 + operand.log.length) hmemory (Cpu.effect_meets i.op)
    (hs.withPc hpc) hdenotes
  rw [← hregisters] at hdone
  unfold Does at hdone
  generalize hperform : (perform i.op.effect operand.value).eval (fun _ => byte)
    (1 + operand.log.length) operand.registers = done at hdone
  have hinstruction : instruction.eval (fun _ => byte) 0 r =
      ⟨.read r.pc (byte r.pc) :: (operand.log ++ done.log), (), done.registers⟩ := by
    rw [← hperform, ← hresolve]
    rfl
  rw [hinstruction]
  refine ⟨hdone.state, ?_, ?_, hdone.orderly.append hwrites⟩
  · show r.pc.toNat :: (operand.log ++ done.log).filterMap BusCycle.read? = _
    rw [List.filterMap_append, hreads, hdone.reads]
    rfl
  · show (operand.log ++ done.log).filterMap BusCycle.write? = _
    rw [List.filterMap_append, hwrites, hdone.writes]
    rfl

/-- Bytes are read as they are answered. -/
theorem value_of_mem {α : Type} {x : Run α} (c : Code x) {n : Nat} {addr : UInt16} {value : UInt8}
    (h : .read addr value ∈ (c.eval (fun _ => byte) n r).log) : value = byte addr := by
  induction c generalizing n r with
  | pure a => cases h
  | bind c d ihc ihd =>
    rw [eval_bind] at h
    rcases List.mem_append.mp h with h | h
    · exact ihc h
    · exact ihd _ h
  | registers => cases h
  | modifyRegisters f => cases h
  | idle => cases List.mem_singleton.mp h
  | read a =>
    cases List.mem_singleton.mp h
    rfl
  | write a v => cases List.mem_singleton.mp h

theorem decode_of_opcodes {op : Op} {mode : AddrMode} {opcode : UInt8}
    (h : (mode, opcode.toNat) ∈ Manual.opcodes op) : Cpu.decode opcode = ⟨op, mode⟩ := by
  have hdocumented := (Manual.mem_opcodes.mp h).2
  rw [UInt8.ofNat_toNat] at hdocumented
  exact Cpu.decode_of_documented hdocumented

end Code

/-! ## Steps -/

/-- The byte at an address of memory; where the cartridge does not answer it does not matter. -/
def byteAt (m : Machine) (addr : UInt16) : UInt8 :=
  match m.store.read addr with
  | .ok value => value
  | .error _ => 0

/-- What a machine holds in memory, in numbers. -/
def memory (m : Machine) (n : Nat) : Nat := (m.byteAt (UInt16.ofNat n)).toNat

/-- An instruction that reads and writes memory only, and finds every byte it reads. -/
structure Within (m : Machine) (out : Manual.Outcome) : Prop where
  reads : ∀ n ∈ out.reads, Store.holds n ∧ ∃ value, m.store.read (UInt16.ofNat n) = .ok value
  writes : ∀ access ∈ out.writes, Store.holds access.1

/-- A step that leaves the registers and the memory of an outcome. The writes are the last thing that
an instruction does to memory; one that the cartridge refuses is the end of the run. -/
def Executes (m : Machine) (out : Manual.Outcome) : Prop :=
  match out.writes.foldlM Store.write m.store with
  | .ok s => ∃ m', step m = .ok ((), m') ∧ m'.cpu.registers.Shows out.state ∧ m'.store = s
  | .error (fault, slot) => step m = .error ⟨fault, slot, m.notices⟩

/-- **Every documented instruction computes what the manual says.** -/
theorem instruction_exact (m : Machine) (op : Op) (mode : AddrMode) (hdue : due? m.cpu = none)
    (hunused : m.cpu.registers.flag .unused = true) (hbrk : m.cpu.registers.flag .brk = false)
    (hopcode : (mode, m.memory m.cpu.registers.pc.toNat) ∈ Manual.opcodes op)
    (hwithin : Within m (Manual.execute m.memory op mode m.cpu.registers.state))
    (hpatterns : ∀ crash, step m = .error crash → crash.fault.region ≠ .chr) :
    Executes m (Manual.execute m.memory op mode m.cpu.registers.state) := by
  have hmemory : ∀ addr, (m.byteAt addr).toNat = m.memory addr.toNat := by
    intro addr
    rw [memory, UInt16.ofNat_toNat]
  have hexecuted : Code.Performed (Code.instruction.eval (fun _ => m.byteAt) 0 m.cpu.registers)
      (Manual.execute m.memory op mode m.cpu.registers.state) := by
    have hdone := Code.executed hmemory ⟨rfl, hunused, hbrk⟩
    rw [← hmemory] at hopcode
    rwa [Code.decode_of_opcodes hopcode] at hdone
  generalize Manual.execute m.memory op mode m.cpu.registers.state = meant at *
  obtain ⟨hstate, hreads, hwrites, horderly⟩ := hexecuted
  have hcalm : Calm m.store (Code.instruction.eval (fun _ => m.byteAt) 0 m.cpu.registers).log := by
    refine horderly.calm (fun addr value hmem => ?_) fun access hmem => ?_
    · have hread : addr.toNat ∈ meant.reads := by
        rw [← hreads]
        exact List.mem_filterMap.mpr ⟨_, hmem, rfl⟩
      obtain ⟨hholds, answer, hanswer⟩ := hwithin.reads _ hread
      rw [UInt16.ofNat_toNat] at hanswer
      refine ⟨hholds, ?_⟩
      rw [Code.value_of_mem _ hmem, byteAt, hanswer]
    · rw [hwrites] at hmem
      exact hwithin.writes access hmem
  have hstep : step m = instruction m := by rw [step_eq, hdue]
  rcases Code.comes_to Code.instruction m 0 hcalm with ⟨crash, hcrash, hregion⟩ | hcomes
  · exact absurd hregion (hpatterns crash (hstep.trans hcrash))
  · unfold ComesTo stored at hcomes
    unfold Executes
    rw [hwrites] at hcomes
    rw [hstep]
    cases hstored : meant.writes.foldlM Store.write m.store with
    | error e =>
      rw [hstored] at hcomes
      exact hcomes
    | ok s =>
      rw [hstored] at hcomes
      obtain ⟨m', hrun, hstore, hregisters, -⟩ := hcomes
      exact ⟨m', hrun, by rwa [hregisters], hstore⟩

/-- Where a game holds nothing but zeros, the processor interrupts itself. -/
theorem instruction_exact_zeros :
    (.implied, zeros.memory zeros.cpu.registers.pc.toNat) ∈ Manual.opcodes .brk ∧
      Executes zeros (Manual.execute zeros.memory .brk .implied zeros.cpu.registers.state) := by
  have hzero : zeros.memory 0 = 0 := by simp [memory, byteAt, Store.read, store, zeros, Vector.get]
  have hopcode : (.implied, zeros.memory 0) ∈ Manual.opcodes .brk := by
    rw [hzero]
    decide
  have hreads : ∀ n ∈ [0, 0xFFFE, 0xFFFF], Store.holds n ∧
      ∃ value, zeros.store.read (UInt16.ofNat n) = .ok value := by
    intro n hn
    have hcases : n = 0 ∨ n = 0xFFFE ∨ n = 0xFFFF := by simpa using hn
    rcases hcases with rfl | hvector
    · exact ⟨.inl (by decide), _, rfl⟩
    · have hlow : ¬UInt16.ofNat n < 0x2000 := by rcases hvector with rfl | rfl <;> decide
      refine ⟨.inr (by omega), ?_⟩
      unfold Store.read
      rw [if_neg hlow]
      exact zeros_whole.readPrg _
  have hwrites : ∀ n ∈ [0x1FD, 0x1FC, 0x1FB], Store.holds n := by
    intro n hn
    have hcases : n = 0x1FD ∨ n = 0x1FC ∨ n = 0x1FB := by simpa using hn
    exact .inl (by omega)
  have hpatterns : ∀ crash, step zeros = .error crash → crash.fault.region ≠ .chr := by
    intro crash hcrash
    obtain ⟨_, m', hstep, -⟩ := Part.step.progress zeros_whole
    rw [hstep] at hcrash
    cases hcrash
  refine ⟨hopcode, ?_⟩
  refine instruction_exact zeros .brk .implied rfl rfl rfl hopcode ⟨hreads, ?_⟩ hpatterns
  intro access haccess
  exact hwrites access.1 (List.mem_map_of_mem haccess)

end NesMachine.Machine
