import NesMachine.Proofs.Machine.Step
import NesMachine.Proofs.Ppu.Settling

/-!
# Two machines behind a reset

The reset of the processor takes seven cycles, in which at least 21 dots pass and nothing is switched
on. Two machines that differed in what their picture units were fetching do not differ any more when
their programs start.

* `resetCpu_settles`: what differs behind a reset of two such machines.
-/

namespace NesMachine.Machine

open Cpu (Registers)
open Ppu (SameMemories)

variable {α β : Type} {x : Run α} {f : α → Run β} {start start' m m' m₁ m₁' : Machine} {n : Nat}

/-- Two machines some dots behind a reset, and what they had before it. Their processors do the same. -/
structure Settles (start start' : Machine) (n : Nat) (m m' : Machine) : Prop where
  rest : m = { start with cpu := m.cpu, ppu := m.ppu, notices := m.notices }
  rest' : m' = { start' with cpu := m.cpu, ppu := m'.ppu, notices := m'.notices }
  slot : start'.slot = start.slot
  ppu : Ppu.Settling start.slot n m.ppu m'.ppu
  memories : SameMemories start.ppu m.ppu

/-- On such a dot, nothing is shown and nothing requested. -/
theorem dot_dark (hdark : Ppu.Dark n m.ppu) (hn : n < 320) (h : m.dot = .ok m₁) :
    m.ppu.step m.slot = .ok m₁.ppu ∧ m₁ = { m with ppu := m₁.ppu } := by
  obtain ⟨q, hq, rfl⟩ := dot_ok h
  have hnext := (hdark.next hn hq).1
  have hcleared : { q with frameReady := false, nmi := false } = q := by
    obtain ⟨-, -, -, hnmi, hready⟩ := hnext
    cases q
    cases hnmi
    cases hready
    rfl
  simp only [hcleared]
  refine ⟨hq, ?_⟩
  rw [hnext.nmi, hnext.ready, Bool.or_false, Bool.false_and, if_neg Bool.false_ne_true]

theorem Settles.dot (h : Settles start start' n m m') (hn : n < 320) (hm : m.dot = .ok m₁)
    (hm' : m'.dot = .ok m₁') : Settles start start' (n + 1) m₁ m₁' := by
  obtain ⟨hrest, hrest', hslot, hppu, hmemories⟩ := h
  obtain ⟨hq, hm₁⟩ := dot_dark hppu.dark hn hm
  obtain ⟨hq', hm₁'⟩ := dot_dark hppu.dark' hn hm'
  have hgame : m.slot = start.slot := by rw [hrest]
  have hgame' : m'.slot = start.slot := by rw [hrest', hslot]
  rw [hgame] at hq
  rw [hgame'] at hq'
  have hkept := (hppu.dark.next hn hq).2.1
  refine ⟨?_, ?_, hslot, hppu.step hn hq hq', ?_⟩
  · rw [hm₁, hrest]
  · rw [hm₁', hm₁, hrest']
  · exact ⟨hkept.nametables.trans hmemories.nametables, hkept.palette.trans hmemories.palette,
      hkept.oam.trans hmemories.oam⟩

theorem Settles.dots {k : Nat} (h : Settles start start' n m m') (hn : n + k ≤ 320)
    (hm : dots k m = .ok m₁) (hm' : dots k m' = .ok m₁') : Settles start start' (n + k) m₁ m₁' := by
  induction k generalizing n m m' with
  | zero =>
    cases hm
    cases hm'
    exact h
  | succ k ih =>
    unfold Machine.dots at hm hm'
    split at hm
    · rename_i hdot
      split at hm'
      · rename_i hdot'
        have hrest := ih (h.dot (by omega) hdot hdot') (by omega) hm hm'
        rwa [Nat.add_right_comm] at hrest
      · cases hm'
    · cases hm

/-! ## The reset of the processor -/

/-- A part of so many cycles that leads two machines on their way through a reset. -/
def Leads (k : Nat) (x : Run α) : Prop :=
  ∀ ⦃start start' m m' m₁ m₁' : Machine⦄ ⦃n : Nat⦄ ⦃a a' : α⦄, Settles start start' n m m' →
    n + 4 * k ≤ 320 → x m = .ok (a, m₁) → x m' = .ok (a', m₁') →
      a' = a ∧ ∃ n₁, n + 3 * k ≤ n₁ ∧ n₁ ≤ n + 4 * k ∧ Settles start start' n₁ m₁ m₁'

theorem Leads.pure (a : α) : Leads 0 (Pure.pure a : Run α) := by
  intro start start' m m' m₁ m₁' n b b' h _ hm hm'
  cases hm
  cases hm'
  exact ⟨rfl, n, le_rfl, le_rfl, h⟩

theorem Leads.bind {j k : Nat} (hx : Leads j x) (hf : ∀ a, Leads k (f a)) : Leads (j + k) (x >>= f) := by
  intro start start' m m' m₁ m₁' n b b' h hn hm hm'
  obtain ⟨a, m₂, hfirst, hrest⟩ := bind_run hm
  obtain ⟨a', m₂', hfirst', hrest'⟩ := bind_run hm'
  obtain ⟨rfl, n₂, hlow, hhigh, h₂⟩ := hx h (by omega) hfirst hfirst'
  obtain ⟨hb, n₁, hlow₁, hhigh₁, h₁⟩ := hf a' h₂ (by omega) hrest hrest'
  exact ⟨hb, n₁, by omega, by omega, h₁⟩

theorem Settles.cpu (h : Settles start start' n m m') (c : Cpu) :
    Settles start start' n { m with cpu := c } { m' with cpu := c } := by
  obtain ⟨hrest, hrest', hslot, hppu, hmemories⟩ := h
  refine ⟨?_, ?_, hslot, hppu, hmemories⟩
  · rw [hrest]
  · rw [hrest']

theorem Settles.cpu_eq (h : Settles start start' n m m') : m'.cpu = m.cpu := by
  rw [h.rest']

theorem Leads.modifyCpu (change : Cpu → Cpu) : Leads 0 (modifyCpu change) := by
  intro start start' m m' m₁ m₁' n _ _ h _ hm hm'
  cases hm
  cases hm'
  refine ⟨rfl, n, le_rfl, le_rfl, ?_⟩
  show Settles start start' n { m with cpu := change m.cpu } { m' with cpu := change m'.cpu }
  rw [h.cpu_eq]
  exact h.cpu _

theorem Leads.modifyRegisters (change : Registers → Registers) : Leads 0 (modifyRegisters change) :=
  .modifyCpu _

theorem Leads.report (notice : Notice) : Leads 0 (report notice) := by
  intro start start' m m' m₁ m₁' n _ _ h _ hm hm'
  cases hm
  cases hm'
  obtain ⟨hrest, hrest', hslot, hppu, hmemories⟩ := h
  refine ⟨rfl, n, le_rfl, le_rfl, ?_, ?_, hslot, hppu, hmemories⟩
  · rw [hrest]
  · rw [hrest']

theorem tick_dots (c : Cpu) : 3 ≤ c.tick.1 ∧ c.tick.1 ≤ 4 := by
  unfold Cpu.tick
  cases c.tv with
  | ntsc => exact ⟨le_rfl, Nat.le_succ 3⟩
  | pal =>
    simp only
    split <;> decide

theorem Leads.cycle : Leads 1 cycle := by
  intro start start' m m' m₁ m₁' n _ _ h hn hm hm'
  obtain ⟨hlow, hhigh⟩ := tick_dots m.cpu
  rw [cycle_eq] at hm hm'
  rw [h.cpu_eq] at hm'
  cases hdots : dots m.cpu.tick.1 { m with cpu := m.cpu.tick.2 } with
  | error e =>
    rw [hdots] at hm
    cases hm
  | ok r =>
    cases hdots' : dots m.cpu.tick.1 { m' with cpu := m.cpu.tick.2 } with
    | error e =>
      rw [hdots'] at hm'
      cases hm'
    | ok r' =>
      rw [hdots] at hm
      rw [hdots'] at hm'
      cases hm
      cases hm'
      exact ⟨rfl, _, by omega, by omega, (h.cpu _).dots (by omega) hdots hdots'⟩

theorem Leads.idle (k : Nat) : Leads k (idle k) := by
  induction k with
  | zero => exact .pure ()
  | succ k ih =>
    have hcycles : Leads (1 + k) (Machine.idle (k + 1)) := .bind .cycle fun _ => ih
    rwa [Nat.add_comm] at hcycles

theorem Leads.readCartridge (addr : UInt16) : Leads 0 (readCartridge addr) := by
  intro start start' m m' m₁ m₁' n a a' h _ hm hm'
  have hslot : m'.slot = m.slot := by rw [h.rest', h.rest, h.slot]
  unfold Machine.readCartridge at hm hm'
  rw [hslot] at hm'
  cases hread : m.slot.readPrg addr with
  | error fault =>
    rw [hread] at hm
    cases hm
  | ok value =>
    rw [hread] at hm hm'
    cases hm
    cases hm'
    exact ⟨rfl, n, le_rfl, le_rfl, h⟩

theorem Leads.read {addr : UInt16} (h : fetchBus addr = Machine.readCartridge addr) :
    Leads 1 (read addr) := by
  have hread := Leads.readCartridge addr
  rw [← h] at hread
  exact .bind .cycle fun _ => hread

theorem Leads.resetCpu : Leads 7 resetCpu := by
  have hword : Leads 2 (readWord resetVector) :=
    .bind (.read rfl) fun _ => .bind (.read rfl) fun _ => .pure _
  have hreset : Leads (0 + (5 + (0 + (2 + (0 + 0))))) Machine.resetCpu :=
    .bind (.modifyCpu _) fun _ => .bind (.idle 5) fun _ => .bind (.modifyRegisters _) fun _ =>
      .bind hword fun _ => .bind (.modifyRegisters _) fun _ => .report _
  exact hreset

/-- **Behind a reset of both, two machines differ in nothing that they did not differ in before**, but
for their reports: what their picture units were fetching is forgotten. -/
theorem resetCpu_settles (hcpu : m'.cpu = m.cpu) (hslot : m'.slot = m.slot)
    (hppu : Ppu.Settling m.slot 0 m.ppu m'.ppu) (h : resetCpu m = .ok ((), m₁))
    (h' : resetCpu m' = .ok ((), m₁')) :
    m₁ = { m with cpu := m₁.cpu, ppu := m₁.ppu, notices := m₁.notices } ∧
      m₁' = { m' with cpu := m₁.cpu, ppu := m₁.ppu, notices := m₁'.notices } ∧
        SameMemories m.ppu m₁.ppu := by
  have hstart : Settles m m' 0 m m' :=
    ⟨rfl, by rw [← hcpu], hslot, hppu, rfl, rfl, rfl⟩
  obtain ⟨-, n, hlow, -, hend⟩ := Leads.resetCpu hstart (by decide) h h'
  have hsettled := hend.ppu.settled (by omega)
  exact ⟨hend.rest, by rw [← hsettled]; exact hend.rest', hend.memories⟩

end NesMachine.Machine
