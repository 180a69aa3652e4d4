import NesMachine.Proofs.Machine.Length
import NesMachine.Proofs.Machine.Margin
import NesMachine.Proofs.Machine.Stack

/-!
# Subroutines

A subroutine goes back behind the call that went to it. Calls that are nested go back in the other order,
since the stack gives back last what was pushed first.

* `Inert`: addresses that are read without side effects.
* `Stacked.calls`, `Stacked.leaves`: a call pushes where it ends, a return goes on behind it.
* `Chain`: calls, each at the target of the one before.
* **`stack_exact`**: what the stack gives back, and where nested calls go back to.
-/

namespace NesMachine.Machine

open Cpu (Registers)

variable {m m' m₀ : Machine} {limit : Nat} {pc addr target : UInt16} {byte : UInt8} {stack : List UInt8}
  {slot : Slot}

/-! ## Bytes without side effects -/

/-- An address that is read without side effects. -/
def Inert (addr : UInt16) : Prop := ∀ m value m', fetchBus addr m = .ok (value, m') → m' = m

/-- The registers of the picture unit that answer have side effects. -/
theorem Inert.silent (h : Inert addr) (hram : ¬addr < 0x2000) (hppu : addr < 0x4000) :
    Ppu.registerOf addr ≠ 2 ∧ Ppu.registerOf addr ≠ 4 ∧ Ppu.registerOf addr ≠ 7 := by
  have hkeeps {p q : Ppu} {value : UInt8} (hread : p.readRegister none addr = .ok (value, q)) :
      q = p := by
    have hfetch : fetchBus addr { ppu := p } = .ok (value, { ppu := q }) := by
      unfold fetchBus
      rw [if_neg hram, if_pos hppu]
      unfold readPpu
      simp only [hread]
    exact congrArg Machine.ppu (h _ _ _ hfetch)
  refine ⟨fun hstatus => ?_, fun hobjects => ?_, fun hdata => ?_⟩
  · have hsame := hkeeps (p := { status := 0x80 }) (Ppu.readRegister_status hstatus)
    exact absurd (congrArg Ppu.status hsame) (by decide)
  · have hsame := hkeeps (p := { openBus := 1 }) (Ppu.readRegister_objects hobjects)
    exact absurd (congrArg Ppu.openBus hsame) (by decide)
  · have hsame := hkeeps (p := { scroll.v := 0x2000 }) (Ppu.readRegister_data hdata)
    exact absurd (congrArg (fun p => p.scroll.v) hsame) (by decide)

/-- An inert address is one of memory, or nothing answers there. -/
theorem inert_iff : Inert addr ↔ Store.holds addr.toNat ∨
    (¬addr < 0x2000 ∧ addr < 0x4000 ∧
      Ppu.registerOf addr ≠ 2 ∧ Ppu.registerOf addr ≠ 4 ∧ Ppu.registerOf addr ≠ 7) ∨
    (¬addr < 0x2000 ∧ ¬addr < 0x4000 ∧ addr ≠ 0x4016 ∧ addr < 0x4020) := by
  constructor
  · intro h
    by_cases hram : addr < 0x2000
    · exact .inl (.inl (UInt16.lt_iff_toNat_lt.mp hram))
    by_cases hppu : addr < 0x4000
    · exact .inr (.inl ⟨hram, hppu, h.silent hram hppu⟩)
    by_cases hpad : addr = 0x4016
    · subst hpad
      exact absurd (congrArg Machine.pad (h {} _ _ rfl)) (by decide)
    by_cases hport : addr < 0x4020
    · exact .inr (.inr ⟨hram, hppu, hpad, hport⟩)
    · rw [UInt16.lt_iff_toNat_lt] at hport
      exact .inl (.inr (Nat.not_lt.mp hport))
  · intro h m value m' hfetch
    rcases h with hholds | ⟨hram, hppu, h2, h4, h7⟩ | ⟨hram, hppu, hpad, hport⟩
    · have hread := store_read hholds (congrArg (Except.map Prod.fst) hfetch)
      rw [fetchBus_calm hholds hread] at hfetch
      cases hfetch
      rfl
    · unfold fetchBus readPpu at hfetch
      rw [if_neg hram, if_pos hppu] at hfetch
      simp only [Ppu.readRegister_silent h2 h4 h7] at hfetch
      cases hfetch
      rfl
    · unfold fetchBus at hfetch
      rw [if_neg hram, if_neg hppu, if_neg hpad, if_pos hport] at hfetch
      cases hfetch
      rfl

/-- A byte of a program that the stack cannot reach. -/
structure Programmed (m : Machine) (addr : UInt16) (byte : UInt8) : Prop where
  inert : Inert addr
  apart : addr < 0x2000 → addr.toNat % 0x800 / 0x100 ≠ 1
  shown : m.peek addr = .ok byte

/-- Work on the stack leaves it as it is. -/
theorem Programmed.fetch (h : Programmed m₀ addr byte) (hm : Stacked m₀ limit pc stack m) :
    fetchBus addr m = .ok (byte, m) := by
  have hshown := h.shown
  rcases inert_iff.mp h.inert with hholds | ⟨hram, hppu, h2, h4, h7⟩ | ⟨hram, hppu, hpad, hport⟩
  · refine fetchBus_calm hholds ?_
    rw [peek_eq_store hholds] at hshown
    rw [← hshown]
    unfold Store.read
    split
    · rename_i hram
      refine congrArg Except.ok (hm.others _ fun k _ => ?_)
      have hapart := h.apart hram
      have hlt := (m₀.cpu.registers.sp - UInt8.ofNat k).toNat_lt
      show addr.toNat % 0x800 ≠ _
      omega
    · exact congrArg (Slot.readPrg · addr) hm.slot
  · unfold peek at hshown
    unfold fetchBus readPpu
    rw [if_neg hram, if_pos hppu] at hshown ⊢
    simp only [Ppu.readRegister_silent h2 h4 h7, hm.openBus]
    have hpeek : m₀.ppu.peek addr = m₀.ppu.openBus := by
      unfold Ppu.peek
      split <;> first | rfl | contradiction
    rw [hpeek] at hshown
    rw [Except.ok.inj hshown]
  · unfold peek at hshown
    unfold fetchBus
    rw [if_neg hram, if_neg hppu, if_neg hpad, if_pos hport] at hshown ⊢
    rw [← Except.ok.inj hshown]
    rfl

/-- A program in work memory. -/
theorem Programmed.ram (hram : addr < 0x2000) (hapart : addr.toNat % 0x800 / 0x100 ≠ 1)
    (hbyte : m.cpu.readRam addr = byte) : Programmed m addr byte where
  inert := inert_iff.mpr (.inl (.inl (UInt16.lt_iff_toNat_lt.mp hram)))
  apart _ := hapart
  shown := by
    unfold peek
    rw [if_pos hram, hbyte]

/-! ## Calls and returns -/

/-- A call of a subroutine. -/
structure HasCall (m : Machine) (addr target : UInt16) : Prop where
  opcode : Programmed m addr 0x20
  low : Programmed m (addr + 1) target.toUInt8
  high : Programmed m (addr + 1 + 1) (target >>> 8).toUInt8

/-- The end of a subroutine. -/
def HasReturn (m : Machine) (addr : UInt16) : Prop := Programmed m addr 0x60

/-- A step is an instruction where no interrupt is due. -/
theorem Reaches.step {P : Unit → Machine → Prop} (h : Reaches slot instruction m P)
    (hdue : due? m.cpu = none) : Reaches slot Machine.step m P := by
  have hstep : Machine.step m = instruction m := by rw [step_eq, hdue]
  rcases h with ⟨hslot, crash, hcrash⟩ | ⟨a, m', hrun, hP⟩
  · exact .inl ⟨hslot, crash, hstep ▸ hcrash⟩
  · exact .inr ⟨a, m', hstep ▸ hrun, hP⟩

namespace Stacked

theorem fetchByte (h : Stacked m₀ limit pc stack m) (hbyte : Programmed m₀ pc byte) :
    Reaches m₀.slot Machine.fetchByte m fun a m' => a = byte ∧ Stacked m₀ limit (pc + 1) stack m' := by
  have hpc : m.cpu.registers.pc = pc := congrArg Registers.pc h.registers
  have hread : Reaches m₀.slot (Machine.read m.cpu.registers.pc) m fun a m' =>
      a = byte ∧ Stacked m₀ limit pc stack m' :=
    h.cycle.bind fun _ m₁ h₁ => .inr ⟨byte, m₁, hpc ▸ hbyte.fetch h₁, rfl, h₁⟩
  refine .registers (hread.bind fun a m₁ ⟨ha, h₁⟩ => .inr ⟨a, _, rfl, ha, ?_⟩)
  refine ⟨?_, h₁.holds, h₁.others, h₁.slot, h₁.openBus⟩
  show { m₁.cpu.registers with pc := m₁.cpu.registers.pc + 1 } = _
  rw [h₁.registers]

theorem fetchWord (h : Stacked m₀ limit pc stack m) (hlow : Programmed m₀ pc target.toUInt8)
    (hhigh : Programmed m₀ (pc + 1) (target >>> 8).toUInt8) :
    Reaches m₀.slot Machine.fetchWord m fun a m' =>
      a = target ∧ Stacked m₀ limit (pc + 1 + 1) stack m' := by
  refine (h.fetchByte hlow).bind fun low m₁ ⟨hlow, h₁⟩ => ?_
  refine (h₁.fetchByte hhigh).bind fun high m₂ ⟨hhigh, h₂⟩ => .pure ⟨?_, h₂⟩
  rw [hlow, hhigh, word_halves]

theorem pushWord (h : Stacked m₀ limit pc stack m) (value : UInt16) (hroom : stack.length + 2 ≤ limit)
    (hlimit : limit ≤ 256) :
    Reaches m₀.slot (Machine.pushWord value) m fun _ m' =>
      Stacked m₀ limit pc (value.toUInt8 :: (value >>> 8).toUInt8 :: stack) m' :=
  (h.push (value >>> 8).toUInt8 (by omega) hlimit).bind fun _ _ h₁ =>
    h₁.push value.toUInt8 (by rw [List.length_cons]; omega) hlimit

theorem pullWord {value : UInt16}
    (h : Stacked m₀ limit pc (value.toUInt8 :: (value >>> 8).toUInt8 :: stack) m) :
    Reaches m₀.slot Machine.pullWord m fun a m' => a = value ∧ Stacked m₀ limit pc stack m' := by
  refine h.pull.bind fun low m₁ ⟨hlow, h₁⟩ => h₁.pull.bind fun high m₂ ⟨hhigh, h₂⟩ => .pure ⟨?_, h₂⟩
  rw [hlow, hhigh, word_halves]

/-- A call pushes the address of its last byte, and goes to its target. -/
theorem calls (h : Stacked m₀ limit pc stack m) (hcall : HasCall m₀ pc target)
    (hroom : stack.length + 2 ≤ limit) (hlimit : limit ≤ 256) :
    Reaches m₀.slot instruction m fun _ m' =>
      Stacked m₀ limit target ((pc + 2).toUInt8 :: ((pc + 2) >>> 8).toUInt8 :: stack) m' := by
  refine (h.fetchByte hcall.opcode).bind fun opcode m₁ ⟨hopcode, h₁⟩ => ?_
  subst hopcode
  have hresolve : Reaches m₀.slot (resolve .jsr .absolute) m₁ fun operand m' =>
      operand = .address target ∧ Stacked m₀ limit (pc + 1 + 1 + 1) stack m' :=
    (h₁.fetchWord hcall.low hcall.high).bind fun a m₂ ⟨ha, h₂⟩ => .pure ⟨ha ▸ rfl, h₂⟩
  refine hresolve.bind fun operand m₂ ⟨hoperand, h₂⟩ => ?_
  subst hoperand
  refine h₂.cycle.bind fun _ m₃ h₃ => .registers ?_
  have hback : m₃.cpu.registers.pc - 1 = pc + 2 := by
    rw [h₃.registers]
    show pc + 1 + 1 + 1 - 1 = pc + 2
    grind
  rw [hback]
  exact (h₃.pushWord (pc + 2) hroom hlimit).bind fun _ _ h₄ => h₄.jump target

/-- A return goes on behind the address on the stack. -/
theorem leaves {back : UInt16} (h : Stacked m₀ limit pc (back.toUInt8 :: (back >>> 8).toUInt8 :: stack) m)
    (hreturn : HasReturn m₀ pc) :
    Reaches m₀.slot instruction m fun _ m' => Stacked m₀ limit (back + 1) stack m' := by
  refine (h.fetchByte hreturn).bind fun opcode m₁ ⟨hopcode, h₁⟩ => ?_
  subst hopcode
  have hresolve : Reaches m₀.slot (resolve .rts .implied) m₁ fun operand m' =>
      operand = .none ∧
        Stacked m₀ limit (pc + 1) (back.toUInt8 :: (back >>> 8).toUInt8 :: stack) m' :=
    h₁.cycle.bind fun _ _ h₂ => .pure ⟨rfl, h₂⟩
  refine hresolve.bind fun operand m₂ ⟨hoperand, h₂⟩ => ?_
  subst hoperand
  refine h₂.cycle.bind fun _ _ h₃ => h₃.pullWord.bind fun addr _ ⟨haddr, h₄⟩ => ?_
  subst haddr
  exact h₄.cycle.bind fun _ _ h₅ => h₅.jump _

end Stacked

/-! ## Nested calls -/

/-- A chain of calls, each at the target of the one before. At the last target stands a return, and so
behind every call but the first. -/
structure Chain (m : Machine) (site : Nat → UInt16) (k : Nat) : Prop where
  start : m.cpu.registers.pc = site 0
  call : ∀ i < k, HasCall m (site i) (site (i + 1))
  leaf : HasReturn m (site k)
  back : ∀ i, 0 < i → i < k → HasReturn m (site i + 3)

/-- The addresses on the stack behind the first calls of a chain. -/
def backs (site : Nat → UInt16) : Nat → List UInt8
  | 0 => []
  | i + 1 => (site i + 2).toUInt8 :: ((site i + 2) >>> 8).toUInt8 :: backs site i

@[simp] theorem length_backs (site : Nat → UInt16) (i : Nat) : (backs site i).length = 2 * i := by
  induction i with
  | zero => rfl
  | succ i ih =>
    rw [backs, List.length_cons, List.length_cons, ih]
    rfl

/-- Where a chain of `k` calls is when `j` of them are left to return. -/
def onReturn (site : Nat → UInt16) (k j : Nat) : UInt16 := if j < k then site j + 3 else site k

/-- No interrupt is due in the first steps. -/
def Undisturbed (m : Machine) (n : Nat) : Prop :=
  ∀ i < n, ∀ m', steps i m = .ok ((), m') → due? m'.cpu = none

theorem steps_succ (n : Nat) : steps (n + 1) = steps n >>= fun _ => Machine.step := by
  induction n with
  | zero => exact bind_pure_unit.trans (pure_bind _ _).symm
  | succ n ih =>
    calc steps (n + 1 + 1) = Machine.step >>= fun _ => steps (n + 1) := rfl
      _ = Machine.step >>= fun _ => steps n >>= fun _ => Machine.step := by rw [ih]
      _ = steps (n + 1) >>= fun _ => Machine.step := (bind_assoc _ _ _).symm

/-- One step more. -/
theorem Reaches.stepped {n k : Nat} {P Q : Unit → Machine → Prop} (h : Reaches m.slot (steps n) m P)
    (hquiet : Undisturbed m k) (hn : n < k)
    (hstep : ∀ m', P () m' → Reaches m.slot instruction m' Q) : Reaches m.slot (steps (n + 1)) m Q := by
  rw [steps_succ]
  have hrun : Reaches m.slot (steps n) m fun a m' => due? m'.cpu = none ∧ P a m' :=
    h.imp_right fun ⟨a, m', hsteps, hP⟩ => ⟨a, m', hsteps, hquiet n hn m' hsteps, hP⟩
  exact hrun.bind fun _ m' ⟨hdue, hP⟩ => (hstep m' hP).step hdue

namespace Chain

variable {site : Nat → UInt16} {k : Nat}

/-- The calls lead to the last target. -/
theorem calls (h : Chain m site k) (hk : k ≤ 128) (hquiet : Undisturbed m (2 * k)) {n : Nat}
    (hn : n ≤ k) : Reaches m.slot (steps n) m fun _ m' =>
      Stacked m (2 * k) (site n) (backs site n) m' := by
  induction n with
  | zero => exact .pure (h.start ▸ Stacked.none m (2 * k))
  | succ n ih =>
    refine (ih (by omega)).stepped hquiet (by omega) fun m' hm' => ?_
    exact hm'.calls (h.call n (by omega)) (by rw [length_backs]; omega) (by omega)

theorem hasReturn (h : Chain m site k) {j : Nat} (hj : 0 < j) :
    HasReturn m (onReturn site k j) := by
  unfold onReturn
  split
  · exact h.back j hj ‹_›
  · exact h.leaf

/-- The returns lead behind the calls, from the last one to the first. -/
theorem returns (h : Chain m site k) (hk : k ≤ 128) (hquiet : Undisturbed m (2 * k)) {r : Nat}
    (hr : r ≤ k) : Reaches m.slot (steps (k + r)) m fun _ m' =>
      Stacked m (2 * k) (onReturn site k (k - r)) (backs site (k - r)) m' := by
  induction r with
  | zero =>
    have hlast : onReturn site k (k - 0) = site k := if_neg (Nat.lt_irrefl k)
    rw [hlast]
    exact h.calls hk hquiet (Nat.le_refl k)
  | succ r ih =>
    refine (ih (by omega)).stepped hquiet (by omega) fun m' hm' => ?_
    obtain ⟨j, hj⟩ : ∃ j, k - r = j + 1 := ⟨k - r - 1, by omega⟩
    rw [hj] at hm'
    have hback : onReturn site k j = site j + 2 + 1 := by
      rw [UInt16.add_assoc]
      exact if_pos (by omega)
    rw [Nat.sub_add_eq, hj, Nat.add_sub_cancel, hback]
    exact hm'.leaves (h.hasReturn (Nat.succ_pos j))

end Chain

/-- **The stack gives back last what was pushed first**, wherever its pointer starts: bytes come back in
the other order, each pull takes the byte of the push it matches, and nested calls go back one behind the
other, unless the picture unit cannot read a pattern on the way. -/
theorem stack_exact (m : Machine) :
    (∀ bytes : List UInt8, bytes.length ≤ 256 →
      Reaches m.slot (work (bytes.map .push ++ .replicate bytes.length .pull)) m fun outs m' =>
        outs = bytes.reverse ∧ Restored bytes.length m m') ∧
    (∀ ops, Balanced ops → (∀ before, before <+: ops → height before ≤ 256) →
      Reaches m.slot (work ops) m fun outs m' => outs.length = ops.count .pull ∧
        (∀ left after, ops = left ++ .pull :: after → (∃ value, Matched left value) ∧
          ∀ value, Matched left value → outs[left.count .pull]? = some value) ∧
        Restored 256 m m') ∧
    ∀ site k, k ≤ 128 → Chain m site k → Undisturbed m (2 * k) →
      (∀ n ≤ k, Reaches m.slot (steps n) m fun _ m' => m'.cpu.registers = { m.cpu.registers with
        pc := site n, sp := m.cpu.registers.sp - UInt8.ofNat (2 * n) }) ∧
      ∀ j < k, Reaches m.slot (steps (2 * k - j)) m fun _ m' => m'.cpu.registers = { m.cpu.registers with
        pc := site j + 3, sp := m.cpu.registers.sp - UInt8.ofNat (2 * j) } := by
  refine ⟨work_reverse m, fun ops hops hdepth => work_balanced m hops hdepth (Nat.le_refl 256),
    fun site k hk hchain hquiet => ⟨fun n hn => ?_, fun j hj => ?_⟩⟩
  · refine (hchain.calls hk hquiet hn).imp fun _ m' hm' => ?_
    rw [hm'.registers, length_backs]
  · obtain ⟨r, rfl⟩ : ∃ r, k = j + r := ⟨k - j, by omega⟩
    have hreturns := hchain.returns hk hquiet (r := r) (by omega)
    have hcount : 2 * (j + r) - j = j + r + r := by omega
    have hback : onReturn site (j + r) (j + r - r) = site j + 3 := by
      rw [Nat.add_sub_cancel]
      exact if_pos hj
    rw [hcount]
    refine hreturns.imp fun _ m' hm' => ?_
    rw [hm'.registers, length_backs, hback, Nat.add_sub_cancel]

/-- A program with a call of a call. -/
def nestedCalls : Machine :=
  let program := [(0, 0x20), (1, 0x10), (0x10, 0x20), (0x11, 0x20), (0x13, 0x60), (0x20, 0x60)]
  { zeros with cpu := program.foldl (fun c (addr, byte) => c.writeRam addr byte) zeros.cpu }

/-- It goes back behind its first call, and work on its stack is as it should be. -/
theorem stack_exact_nested :
    (∃ m', steps 4 nestedCalls = .ok ((), m') ∧
      m'.cpu.registers = { nestedCalls.cpu.registers with pc := 3 }) ∧
    ∃ outs m', work [.push 1, .push 2, .pull, .push 3, .pull, .pull] nestedCalls = .ok (outs, m') ∧
      outs[2]? = some 1 ∧ m'.cpu.registers = nestedCalls.cpu.registers := by
  obtain ⟨-, hwork, hcalls⟩ := stack_exact nestedCalls
  have hready {α : Type} {x : Run α} {P : α → Machine → Prop}
      (h : Reaches nestedCalls.slot x nestedCalls P) : ∃ a m', x nestedCalls = .ok (a, m') ∧ P a m' :=
    h.resolve_left fun hfault => hfault.1 zeros_whole.readable
  constructor
  · have hcall (i : Nat) (hi : i < 2) :
        HasCall nestedCalls (UInt16.ofNat (16 * i)) (UInt16.ofNat (16 * (i + 1))) := by
      obtain rfl | rfl : i = 0 ∨ i = 1 := by omega
      all_goals constructor <;> exact .ram (by decide) (by decide) (by decide +kernel)
    have hchain : Chain nestedCalls (fun i => UInt16.ofNat (16 * i)) 2 := by
      refine ⟨rfl, hcall, .ram (by decide) (by decide) (by decide +kernel), fun i hi hi' => ?_⟩
      obtain rfl : i = 1 := by omega
      exact .ram (by decide) (by decide) (by decide +kernel)
    have hquiet : Undisturbed nestedCalls (2 * 2) := by
      have hdue : ∀ i < 4, (steps i nestedCalls).toOption.map (fun p => due? p.2.cpu) = some none := by
        decide +kernel
      intro i hi m' hsteps
      have hnone := hdue i hi
      rw [hsteps] at hnone
      exact Option.some.inj hnone
    obtain ⟨_, m', hsteps, hregisters⟩ :=
      hready ((hcalls _ 2 (by decide) hchain hquiet).2 0 (by decide))
    exact ⟨m', hsteps, hregisters⟩
  · have hinner : Balanced [.push 2, .pull, .push 3, .pull] :=
      (Balanced.nil.wrap 2).append (Balanced.nil.wrap 3)
    have hdepth : ∀ before, before <+: [.push 1, .push 2, .pull, .push 3, .pull, .pull] →
        height before ≤ 256 := by
      simp [forall_prefix_cons, height]
    obtain ⟨outs, m', hrun, -, hmatches, hrestored⟩ := hready (hwork _ (hinner.wrap 1) hdepth)
    obtain ⟨-, htaken⟩ := hmatches [.push 1, .push 2, .pull, .push 3, .pull] [] rfl
    exact ⟨outs, m', hrun, htaken 1 ⟨[], _, rfl, hinner⟩, hrestored.registers⟩

end NesMachine.Machine
