import NesMachine.Proofs.Machine.Handler
import NesMachine.Proofs.Machine.Transfer

/-!
# The stack

The stack is a page of work memory with a pointer that wraps around in it. It gives back last what was
pushed first, wherever the pointer starts, as long as no more than the page is in use.

* `Follows`: a stack that is a list, without a page to fill.
* `exists_push`, `Follows.matching`: in balanced work each pull matches a push, and takes its byte.
* `Stacked.push`, `Stacked.pull`: the page holds what such a stack holds.
* `Follows.reaches`: so the processor pulls what is pulled from the list.
* `work_reverse`, `work_balanced`: work that leaves everything as it was, but for the cells it used.
-/

namespace NesMachine.Machine

open Cpu (Registers)

variable {α : Type} {m m' m₀ : Machine} {slot : Slot}

/-! ## What passes in a cycle -/

/-- Some time passes in which the processor and its memories do nothing. -/
structure Elapsed (m m' : Machine) : Prop where
  store : m'.store = m.store
  registers : m'.cpu.registers = m.cpu.registers
  openBus : m'.ppu.openBus = m.ppu.openBus

theorem dot_openBus (h : m.dot = .ok m') : m'.ppu.openBus = m.ppu.openBus := by
  obtain ⟨q, hstep, rfl⟩ := dot_ok h
  show q.openBus = m.ppu.openBus
  by_cases hline : m.ppu.beam.scanline < Beam.postRender
  · rw [(Ppu.step_picture hstep hline).rest]
  · rw [Ppu.step_behind hstep (by omega)]
    rcases Ppu.idleDot_cases m.ppu with ⟨-, -, hidle⟩ | ⟨-, -, hidle⟩ | ⟨-, -, hidle⟩ <;> rw [hidle]

theorem Dots.openBus {ds : List Dot} (h : Dots m ds m') : m'.ppu.openBus = m.ppu.openBus := by
  induction h with
  | nil => rfl
  | cons hdot _ ih => exact ih.trans (dot_openBus hdot)

/-- A cycle passes, unless the picture unit cannot read a pattern. -/
theorem cycle_reaches (m : Machine) : Reaches m.slot cycle m fun _ m' => Elapsed m m' := by
  rcases cycle_calm m with hfault | ⟨m', hcycle, hstore, hregisters, -⟩
  · exact .inl ⟨cycle_unreadable hfault, hfault⟩
  · refine .inr ⟨(), m', hcycle, hstore, hregisters, ?_⟩
    obtain ⟨ds, hact⟩ := cycle_ok hcycle
    cases hact with
    | cycle hdots _ => exact hdots.openBus

theorem Reaches.registers {β : Type} {f : Registers → Run β} {Q : β → Machine → Prop}
    (h : Reaches slot (f m.cpu.registers) m Q) : Reaches slot (Machine.registers >>= f) m Q := h

/-! ## Stacks that are lists -/

/-- What is done to a stack. -/
inductive StackOp where
  | push (value : UInt8)
  | pull
  deriving DecidableEq

/-- A stack that is a list, the top first: what is pulled from it, and what is left. It never holds more
than `limit` bytes. -/
inductive Follows (limit : Nat) : List UInt8 → List StackOp → List UInt8 → List UInt8 → Prop where
  | nil (stack : List UInt8) : Follows limit stack [] [] stack
  | push {stack rest outs : List UInt8} {ops : List StackOp} (value : UInt8) : stack.length < limit →
      Follows limit (value :: stack) ops outs rest → Follows limit stack (.push value :: ops) outs rest
  | pull {stack rest outs : List UInt8} {ops : List StackOp} (value : UInt8) :
      Follows limit stack ops outs rest →
      Follows limit (value :: stack) (.pull :: ops) (value :: outs) rest

namespace Follows

variable {limit : Nat} {stack rest outs : List UInt8} {ops ops' : List StackOp}

/-- Work in two parts. -/
theorem append_iff : Follows limit stack (ops ++ ops') outs rest ↔ ∃ outs₁ mid outs₂,
    outs = outs₁ ++ outs₂ ∧ Follows limit stack ops outs₁ mid ∧ Follows limit mid ops' outs₂ rest := by
  constructor
  · intro h
    induction ops generalizing stack outs with
    | nil => exact ⟨[], stack, outs, rfl, .nil stack, h⟩
    | cons op ops ih =>
      cases h with
      | push value hroom hrest =>
        obtain ⟨outs₁, mid, outs₂, rfl, h₁, h₂⟩ := ih hrest
        exact ⟨outs₁, mid, outs₂, rfl, .push value hroom h₁, h₂⟩
      | pull value hrest =>
        obtain ⟨outs₁, mid, outs₂, rfl, h₁, h₂⟩ := ih hrest
        exact ⟨value :: outs₁, mid, outs₂, rfl, .pull value h₁, h₂⟩
  · rintro ⟨outs₁, mid, outs₂, rfl, h₁, h₂⟩
    induction h₁ with
    | nil => exact h₂
    | push value hroom _ ih => exact .push value hroom (ih h₂)
    | pull value _ ih => exact .pull value (ih h₂)

/-- Bytes that are pushed lie on the stack, the last one on top. -/
theorem pushes (bytes stack : List UInt8) (hroom : stack.length + bytes.length ≤ limit) :
    Follows limit stack (bytes.map .push) [] (bytes.reverse ++ stack) := by
  induction bytes generalizing stack with
  | nil => exact .nil stack
  | cons value bytes ih =>
    rw [List.length_cons] at hroom
    rw [List.reverse_cons, List.append_assoc]
    exact .push value (by omega) (ih (value :: stack) (by rw [List.length_cons]; omega))

/-- The bytes on top of the stack are pulled from the top down. -/
theorem pulls (bytes stack : List UInt8) :
    Follows limit (bytes ++ stack) (.replicate bytes.length .pull) bytes stack := by
  induction bytes with
  | nil => exact .nil stack
  | cons value bytes ih => exact .pull value ih

theorem length_outs (h : Follows limit stack ops outs rest) : outs.length = ops.count .pull := by
  induction h with
  | nil => rfl
  | push value _ _ ih => rw [ih, List.count_cons_of_ne (by simp)]
  | pull value _ ih => rw [List.length_cons, ih, List.count_cons_self]

end Follows

/-! ## Matching -/

/-- How much higher the stack is behind some work. -/
def height : List StackOp → Int
  | [] => 0
  | .push _ :: ops => height ops + 1
  | .pull :: ops => height ops - 1

@[simp] theorem height_append (ops ops' : List StackOp) :
    height (ops ++ ops') = height ops + height ops' := by
  induction ops with
  | nil => exact (Int.zero_add _).symm
  | cons op ops ih =>
    cases op <;> simp only [List.cons_append, height, ih] <;> omega

@[simp] theorem height_pull : height [.pull] = -1 := rfl

/-- Work that leaves the stack as high as it was, and never takes what lies beneath. -/
structure Balanced (ops : List StackOp) : Prop where
  level : height ops = 0
  above : ∀ before, before <+: ops → 0 ≤ height before

theorem forall_prefix_cons {P : List StackOp → Prop} {op : StackOp} {ops : List StackOp} :
    (∀ before, before <+: op :: ops → P before) ↔
      P [] ∧ ∀ before, before <+: ops → P (op :: before) := by
  simp only [List.prefix_cons_iff, forall_eq_or_imp, forall_exists_index, and_imp]
  constructor
  · exact fun h => ⟨h.1, fun before => h.2 _ before rfl⟩
  · rintro ⟨hnil, hcons⟩
    exact ⟨hnil, fun _ before hbefore hprefix => hbefore ▸ hcons before hprefix⟩

theorem Balanced.nil : Balanced [] :=
  ⟨rfl, fun _ hbefore => List.prefix_nil.mp hbefore ▸ Int.le_refl 0⟩

/-- A push and a pull with balanced work in between. -/
theorem Balanced.wrap {inner : List StackOp} (h : Balanced inner) (value : UInt8) :
    Balanced (.push value :: inner ++ [.pull]) := by
  refine ⟨?_, fun before hbefore => ?_⟩
  · have hlevel := h.level
    rw [height_append, height_pull, height]
    omega
  · rcases List.prefix_concat_iff.mp hbefore with rfl | hbefore
    · rw [height_append, height_pull, height, h.level]
      omega
    · rcases List.prefix_cons_iff.mp hbefore with rfl | ⟨before, rfl, hinner⟩
      · exact Int.le_refl 0
      · have hle := h.above before hinner
        rw [height]
        omega

theorem Balanced.append {ops ops' : List StackOp} (h : Balanced ops) (h' : Balanced ops') :
    Balanced (ops ++ ops') := by
  refine ⟨?_, fun before ⟨behind, heq⟩ => ?_⟩
  · rw [height_append, h.level, h'.level]
    rfl
  · rcases List.append_eq_append_iff.mp heq with ⟨between, rfl, -⟩ | ⟨between, rfl, hbetween⟩
    · exact h.above before (List.prefix_append before between)
    · have hle := h'.above between ⟨behind, hbetween.symm⟩
      rw [height_append, h.level]
      omega

/-- A pull behind some work matches a push of a byte in it, if balanced work lies in between. -/
def Matched (left : List StackOp) (value : UInt8) : Prop :=
  ∃ before inner, left = before ++ .push value :: inner ∧ Balanced inner

/-- **Each pull has a push that it matches.** -/
theorem exists_push {left : List StackOp} (hleft : 0 < height left)
    (habove : ∀ before, before <+: left → 0 ≤ height before) : ∃ value, Matched left value := by
  induction hlength : left.length using Nat.strong_induction_on generalizing left with
  | _ n ih =>
    obtain rfl | ⟨left, op, hconcat⟩ := left.eq_nil_or_concat
    · cases hleft
    · obtain rfl : _ = left ++ [op] := hconcat.trans List.concat_eq_append
      have hshorter (before : List StackOp) (hbefore : before <+: left) (hpos : 0 < height before) :=
        ih before.length (hlength ▸ List.length_append ▸ Nat.lt_succ_of_le hbefore.length_le) hpos
          (fun b hb => habove b ((hb.trans hbefore).trans (List.prefix_append left [op]))) rfl
      cases op with
      | push value =>
        exact ⟨value, left, [], rfl, .nil⟩
      | pull =>
        -- The pull before this one has a push of its own, and the work goes on in front of it.
        rw [height_append, height_pull] at hleft
        obtain ⟨value, before, inner, rfl, hinner⟩ := hshorter left List.prefix_rfl (by omega)
        rw [height_append, height, hinner.level] at hleft
        obtain ⟨value', before, inner', rfl, hinner'⟩ :=
          hshorter before (List.prefix_append ..) (by omega)
        exact ⟨value', before, inner' ++ (.push value :: inner ++ [.pull]), by simp,
          hinner'.append (hinner.wrap value)⟩

namespace Follows

variable {limit : Nat} {stack rest outs : List UInt8} {ops : List StackOp}

/-- Work that does not take what lies beneath leaves it there. -/
theorem beneath (top : List UInt8) (h : Follows limit (top ++ stack) ops outs rest)
    (habove : ∀ before, before <+: ops → 0 ≤ top.length + height before) :
    ∃ top', rest = top' ++ stack ∧ (top'.length : Int) = top.length + height ops := by
  generalize hfull : top ++ stack = full at h
  induction h generalizing top with
  | nil => exact ⟨top, hfull.symm, (Int.add_zero _).symm⟩
  | push value _ _ ih =>
    subst hfull
    obtain ⟨top', hrest, hlength⟩ := ih (value :: top) (fun before hbefore => by
      have hle := (forall_prefix_cons.mp habove).2 before hbefore
      rw [height] at hle
      rw [List.length_cons]
      omega) rfl
    refine ⟨top', hrest, ?_⟩
    rw [hlength, height, List.length_cons]
    omega
  | pull value _ ih =>
    obtain ⟨-, hrest⟩ := forall_prefix_cons.mp habove
    cases top with
    | nil => exact absurd (hrest [] List.nil_prefix) (by decide)
    | cons _ top =>
      cases hfull
      obtain ⟨top', hrest, hlength⟩ := ih top (fun before hbefore => by
        have hle := hrest before hbefore
        rw [height, List.length_cons] at hle
        omega) rfl
      refine ⟨top', hrest, ?_⟩
      rw [hlength, height, List.length_cons]
      omega

/-- Balanced work leaves the stack as it was. -/
theorem balanced (h : Follows limit stack ops outs rest) (hops : Balanced ops) : rest = stack := by
  obtain ⟨top, rfl, hlength⟩ := beneath [] h fun before hbefore => by
    have hle := hops.above before hbefore
    rw [List.length_nil]
    omega
  rw [hops.level] at hlength
  rw [List.length_eq_zero_iff.mp (Int.natCast_eq_zero.mp hlength), List.nil_append]

/-- **A pull takes the byte of its push.** -/
theorem matching {left after : List StackOp} {value : UInt8}
    (h : Follows limit stack (left ++ .pull :: after) outs rest) (hmatched : Matched left value) :
    outs[left.count .pull]? = some value := by
  obtain ⟨before, inner, rfl, hinner⟩ := hmatched
  obtain ⟨outs₁, mid, outs₂, rfl, hleft, hright⟩ := append_iff.mp h
  have hpulls := hleft.length_outs
  obtain ⟨_, mid₁, _, -, -, hpush⟩ := append_iff.mp hleft
  cases hpush with
  | push _ _ hwork =>
    obtain rfl := hwork.balanced hinner
    cases hright with
    | pull _ _ => rw [← hpulls, List.getElem?_append_right (Nat.le_refl _), Nat.sub_self]; rfl

end Follows

/-- A stack that is a list follows any work that it is high enough and has room for. -/
theorem exists_follows (limit : Nat) (stack : List UInt8) {ops : List StackOp}
    (hbounds : ∀ before, before <+: ops →
      0 ≤ stack.length + height before ∧ stack.length + height before ≤ limit) :
    ∃ outs rest, Follows limit stack ops outs rest := by
  induction ops generalizing stack with
  | nil => exact ⟨[], stack, .nil stack⟩
  | cons op ops ih =>
    have hnext := (forall_prefix_cons.mp hbounds).2
    have hfirst := hnext [] List.nil_prefix
    cases op with
    | push value =>
      rw [height, height] at hfirst
      obtain ⟨outs, rest, hrest⟩ := ih (value :: stack) fun before hbefore => by
        have hbetween := hnext before hbefore
        rw [height] at hbetween
        rw [List.length_cons]
        omega
      exact ⟨outs, rest, .push value (by omega) hrest⟩
    | pull =>
      cases stack with
      | nil => exact absurd hfirst.1 (by decide)
      | cons value stack =>
        obtain ⟨outs, rest, hrest⟩ := ih stack fun before hbefore => by
          have hbetween := hnext before hbefore
          rw [height, List.length_cons] at hbetween
          omega
        exact ⟨value :: outs, rest, .pull value hrest⟩

/-! ## The page -/

/-- The page holds a stack above the pointer. -/
def Holds (ram : WorkMemory) : UInt8 → List UInt8 → Prop
  | _, [] => True
  | sp, value :: stack => stackByte ram (sp + 1) = value ∧ Holds ram (sp + 1) stack

/-- A byte outside of a stack does not matter to it: `k` places lie between the byte and the stack. -/
theorem Holds.set {ram : WorkMemory} {sp value : UInt8} {stack : List UInt8} (k : Nat)
    (h : Holds ram (sp + UInt8.ofNat k) stack) (hroom : k + stack.length < 256) :
    Holds (setStackByte ram sp value) (sp + UInt8.ofNat k) stack := by
  induction stack generalizing k with
  | nil => trivial
  | cons top stack ih =>
    obtain ⟨htop, hrest⟩ := h
    have hnext : sp + UInt8.ofNat k + 1 = sp + UInt8.ofNat (k + 1) := by
      rw [UInt8.add_assoc, UInt8.ofNat_add]
      rfl
    have hne : sp + UInt8.ofNat (k + 1) ≠ sp := by
      rw [List.length_cons] at hroom
      intro heq
      have hnat := congrArg UInt8.toNat heq
      rw [UInt8.toNat_add, UInt8.toNat_ofNat'] at hnat
      have hlt := sp.toNat_lt
      omega
    rw [hnext] at htop hrest
    rw [Holds, hnext]
    refine ⟨?_, ih (k + 1) hrest ?_⟩
    · rw [stackByte_setStackByte_other _ _ hne, htop]
    · rw [List.length_cons] at hroom
      omega

/-- A byte is pushed on a stack that leaves room for it. -/
theorem Holds.push {ram : WorkMemory} {sp : UInt8} {stack : List UInt8} (h : Holds ram sp stack)
    (value : UInt8) (hroom : stack.length < 256) :
    Holds (setStackByte ram sp value) (sp - 1) (value :: stack) := by
  have hback : sp - 1 + 1 = sp := by grind
  have hzero : sp + UInt8.ofNat 0 = sp := UInt8.add_zero sp
  rw [Holds, hback]
  refine ⟨stackByte_setStackByte _ _, ?_⟩
  have hset : Holds (setStackByte ram sp value) (sp + UInt8.ofNat 0) stack :=
    .set 0 (hzero.symm ▸ h) (by omega)
  rwa [hzero] at hset

/-- The machine behind some work on the stack, as far as the processor sees it: the stack is in the page
below the place `m₀` left off, in `limit` cells at most. -/
structure Stacked (m₀ : Machine) (limit : Nat) (pc : UInt16) (stack : List UInt8) (m : Machine) :
    Prop where
  registers : m.cpu.registers = { m₀.cpu.registers with
    pc, sp := m₀.cpu.registers.sp - UInt8.ofNat stack.length }
  holds : Holds m.cpu.ram m.cpu.registers.sp stack
  others : ∀ i : Fin 0x800, (∀ k < limit,
    i.val ≠ 256 + (m₀.cpu.registers.sp - UInt8.ofNat k).toNat) → m.cpu.ram.get i = m₀.cpu.ram.get i
  slot : m.slot = m₀.slot
  openBus : m.ppu.openBus = m₀.ppu.openBus

theorem sub_ofNat_succ (sp : UInt8) (k : Nat) : sp - UInt8.ofNat k - 1 = sp - UInt8.ofNat (k + 1) := by
  have hone : UInt8.ofNat (k + 1) = UInt8.ofNat k + 1 := UInt8.ofNat_add k 1
  grind

namespace Stacked

variable {limit : Nat} {pc : UInt16} {stack : List UInt8}

theorem none (m : Machine) (limit : Nat) : Stacked m limit m.cpu.registers.pc [] m := by
  refine ⟨?_, trivial, fun _ _ => rfl, rfl, rfl⟩
  exact congrArg (fun sp => { m.cpu.registers with sp }) (UInt8.sub_zero _).symm

/-- Time passes. -/
theorem elapse (h : Stacked m₀ limit pc stack m) (helapsed : Elapsed m m') :
    Stacked m₀ limit pc stack m' := by
  have hram : m'.cpu.ram = m.cpu.ram := congrArg Prod.fst helapsed.store
  have hslot : m'.slot = m.slot := congrArg Prod.snd helapsed.store
  refine ⟨helapsed.registers.trans h.registers, ?_, fun i hi => ?_, hslot.trans h.slot,
    helapsed.openBus.trans h.openBus⟩
  · rw [hram, helapsed.registers]
    exact h.holds
  · rw [hram]
    exact h.others i hi

theorem cycle (h : Stacked m₀ limit pc stack m) :
    Reaches m₀.slot Machine.cycle m fun _ m' => Stacked m₀ limit pc stack m' := by
  have hreaches := cycle_reaches m
  rw [h.slot] at hreaches
  exact hreaches.imp fun _ _ helapsed => h.elapse helapsed

/-- A byte is written where the pointer points. -/
theorem write (h : Stacked m₀ limit pc stack m) (value : UInt8) :
    Reaches m₀.slot (Machine.write (stackAddress m.cpu.registers.sp) value) m fun _ m' =>
      m'.store = (setStackByte m.cpu.ram m.cpu.registers.sp value, m.slot) ∧
        m'.cpu.registers = m.cpu.registers ∧ m'.ppu.openBus = m.ppu.openBus := by
  have hcycle := cycle_reaches m
  rw [h.slot] at hcycle
  refine hcycle.bind fun _ m₁ helapsed => .inr
    ⟨(), m₁.withStore (setStackByte m.cpu.ram m.cpu.registers.sp value, m.slot), ?_, rfl,
      helapsed.registers, helapsed.openBus⟩
  rw [storeBus_calm value (.inl (stackAddress_lt _)), helapsed.store, write_stackByte]
  rfl

/-- A byte of the stack is read. -/
theorem read (h : Stacked m₀ limit pc stack m) (sp : UInt8) :
    Reaches m₀.slot (Machine.read (stackAddress sp)) m fun a m' =>
      a = stackByte m.cpu.ram sp ∧ Stacked m₀ limit pc stack m' := by
  have hcycle := cycle_reaches m
  rw [h.slot] at hcycle
  refine hcycle.bind fun _ m₁ helapsed => .inr ⟨stackByte m.cpu.ram sp, m₁, ?_, rfl, h.elapse helapsed⟩
  have hread := read_stackByte m₁.store sp
  rw [helapsed.store] at hread
  exact fetchBus_calm (.inl (stackAddress_lt sp)) (helapsed.store ▸ hread)

/-- The program goes on elsewhere. -/
theorem jump (h : Stacked m₀ limit pc stack m) (pc' : UInt16) :
    Reaches m₀.slot (jumpTo pc') m fun _ m' => Stacked m₀ limit pc' stack m' := by
  refine .inr ⟨(), _, rfl, ?_, h.holds, h.others, h.slot, h.openBus⟩
  show { m.cpu.registers with pc := pc' } = _
  rw [h.registers]

/-- A byte is pushed. -/
theorem push (h : Stacked m₀ limit pc stack m) (value : UInt8) (hroom : stack.length < limit)
    (hlimit : limit ≤ 256) :
    Reaches m₀.slot (Machine.push value) m fun _ m' => Stacked m₀ limit pc (value :: stack) m' := by
  have hcell : m.cpu.registers.sp = m₀.cpu.registers.sp - UInt8.ofNat stack.length :=
    congrArg Registers.sp h.registers
  refine .registers ((h.write value).bind fun _ m₁ ⟨hstore, hregisters, hbus⟩ => ?_)
  have hram : m₁.cpu.ram = setStackByte m.cpu.ram m.cpu.registers.sp value := congrArg Prod.fst hstore
  have hslot : m₁.slot = m.slot := congrArg Prod.snd hstore
  refine .inr ⟨(), _, rfl, ?_, ?_, fun i hi => ?_, hslot.trans h.slot, hbus.trans h.openBus⟩
  · show { m₁.cpu.registers with sp := m₁.cpu.registers.sp - 1 } = _
    rw [hregisters, h.registers, List.length_cons, ← sub_ofNat_succ]
  · show Holds m₁.cpu.ram (m₁.cpu.registers.sp - 1) (value :: stack)
    rw [hram, hregisters]
    exact h.holds.push value (by omega)
  · show m₁.cpu.ram.get i = _
    rw [hram, get_setStackByte_other _ _ (hcell ▸ hi stack.length hroom)]
    exact h.others i hi

/-- A byte is pulled. -/
theorem pull {value : UInt8} (h : Stacked m₀ limit pc (value :: stack) m) :
    Reaches m₀.slot Machine.pull m fun a m' => a = value ∧ Stacked m₀ limit pc stack m' := by
  obtain ⟨htop, hrest⟩ := h.holds
  have hpulled : Stacked m₀ limit pc stack
      { m with cpu := m.cpu.mapRegisters fun r => { r with sp := r.sp + 1 } } := by
    refine ⟨?_, hrest, h.others, h.slot, h.openBus⟩
    show { m.cpu.registers with sp := m.cpu.registers.sp + 1 } = _
    rw [h.registers, List.length_cons, ← sub_ofNat_succ]
    exact congrArg (fun sp => { m₀.cpu.registers with pc, sp }) (UInt8.sub_add_cancel _ 1)
  have hmoved : Reaches m₀.slot (modifyRegisters fun r => { r with sp := r.sp + 1 }) m fun _ m₁ =>
      stackByte m₁.cpu.ram m₁.cpu.registers.sp = value ∧ Stacked m₀ limit pc stack m₁ :=
    .inr ⟨(), _, rfl, htop, hpulled⟩
  exact hmoved.bind fun _ m₁ ⟨htop₁, h₁⟩ => .registers (htop₁ ▸ h₁.read m₁.cpu.registers.sp)

end Stacked

/-! ## The processor at work -/

/-- The processor works on the stack, and collects the bytes that it pulls. -/
def work : List StackOp → Run (List UInt8)
  | [] => pure []
  | .push value :: ops => do
    push value
    work ops
  | .pull :: ops => do
    let value ← pull
    let values ← work ops
    return value :: values

/-- **The processor pulls what is pulled from a list.** -/
theorem Follows.reaches {limit : Nat} {stack rest outs : List UInt8} {ops : List StackOp} {pc : UInt16}
    (h : Follows limit stack ops outs rest) (hlimit : limit ≤ 256)
    (hm : Stacked m₀ limit pc stack m) :
    Reaches m₀.slot (work ops) m fun values m' => values = outs ∧ Stacked m₀ limit pc rest m' := by
  induction h generalizing m with
  | nil => exact .pure ⟨rfl, hm⟩
  | push value hroom _ ih => exact (hm.push value hroom hlimit).bind fun _ _ h₁ => ih h₁
  | pull value _ ih =>
    refine hm.pull.bind fun a m₁ ⟨ha, h₁⟩ => (ih h₁).bind fun values m₂ ⟨hvalues, h₂⟩ => ?_
    exact .pure ⟨by rw [ha, hvalues], h₂⟩

/-! ## The stack is restored -/

/-- The processor has its registers back, and of memory the cells of the page that the stack was in have
changed, at most. -/
structure Restored (limit : Nat) (m m' : Machine) : Prop where
  registers : m'.cpu.registers = m.cpu.registers
  others : ∀ i : Fin 0x800, (∀ k < limit,
    i.val ≠ 256 + (m.cpu.registers.sp - UInt8.ofNat k).toNat) → m'.cpu.ram.get i = m.cpu.ram.get i
  slot : m'.slot = m.slot

theorem Stacked.restored {limit : Nat} (h : Stacked m₀ limit m₀.cpu.registers.pc [] m) :
    Restored limit m₀ m :=
  ⟨h.registers.trans (Stacked.none m₀ limit).registers.symm, h.others, h.slot⟩

/-- Bytes that are pushed are pulled in the other order. -/
theorem work_reverse (m : Machine) (bytes : List UInt8) (hlength : bytes.length ≤ 256) :
    Reaches m.slot (work (bytes.map .push ++ .replicate bytes.length .pull)) m fun outs m' =>
      outs = bytes.reverse ∧ Restored bytes.length m m' := by
  have hpulls : Follows bytes.length (bytes.reverse ++ []) _ bytes.reverse [] := .pulls ..
  rw [List.length_reverse] at hpulls
  have hfollows := Follows.append_iff.mpr ⟨_, _, _, rfl, .pushes bytes [] (Nat.zero_add _).le, hpulls⟩
  exact (hfollows.reaches hlength (.none m _)).imp fun _ _ ⟨houts, hm'⟩ => ⟨houts, hm'.restored⟩

/-- Each pull takes the byte of the push it matches. -/
theorem work_balanced (m : Machine) {limit : Nat} {ops : List StackOp} (hops : Balanced ops)
    (hdepth : ∀ before, before <+: ops → height before ≤ limit) (hlimit : limit ≤ 256) :
    Reaches m.slot (work ops) m fun outs m' => outs.length = ops.count .pull ∧
      (∀ left after, ops = left ++ .pull :: after → (∃ value, Matched left value) ∧
        ∀ value, Matched left value → outs[left.count .pull]? = some value) ∧
      Restored limit m m' := by
  obtain ⟨outs, rest, hfollows⟩ := exists_follows limit [] fun before hbefore => by
    have hle := hops.above before hbefore
    have hge := hdepth before hbefore
    rw [List.length_nil]
    omega
  obtain rfl := hfollows.balanced hops
  refine (hfollows.reaches hlimit (.none m limit)).imp fun _ _ ⟨houts, hm'⟩ =>
    ⟨houts ▸ hfollows.length_outs, fun left after hsplit => ?_, hm'.restored⟩
  subst houts hsplit
  have hpull := hops.above (left ++ [.pull]) ⟨after, by rw [List.append_assoc, List.singleton_append]⟩
  rw [height_append, height_pull] at hpull
  exact ⟨exists_push (by omega) fun before hbefore =>
    hops.above before (hbefore.trans (List.prefix_append left (.pull :: after))),
    fun value => hfollows.matching⟩

end NesMachine.Machine
