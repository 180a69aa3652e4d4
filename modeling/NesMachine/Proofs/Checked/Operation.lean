import NesMachine.Proofs.Checked.Program
import NesMachine.Proofs.Console.Operations

/-!
# Operations, checked

Between operations no cycle of a frame is left, so that a frame can always be granted.

* `Rested`: what every operation relies on, and keeps.
* `Safe.runAll`: sequences of operations are exact.
-/

namespace NesMachine.Checked

open Board (Fault)
open Operation (withGame handOn)

variable {α : Type} {m m' : Machine} {total : Int} {x : Machine.Run α} {y : Run α}

/-- Between operations, no cycle of a frame is left. -/
def Rested (m : Machine) : Prop := ∃ total, Fit total m ∧ m.cpu.remaining ≤ 0

/-- A part that is granted no cycles leaves none. -/
theorem Safe.rested (h : ∀ total, Safe (Fit total) x y) : Safe Rested x y := by
  rintro m ⟨total, hfit, hremaining⟩
  obtain ⟨hexact, hkeeps⟩ := h total m hfit
  refine ⟨hexact, fun a m' hrun => ?_⟩
  obtain ⟨hfit', hle⟩ := hkeeps a m' hrun
  have hbudget := hfit.budget
  have hbudget' := hfit'.budget
  exact ⟨⟨total, hfit', by omega⟩, hle⟩

/-! ## Frames -/

/-- The machine that a frame was granted to. -/
def allotted (m : Machine) : Machine :=
  { m with cpu := { m.cpu with remaining := m.cpu.remaining + m.cpu.tv.frameCycles } }

theorem frameCycles_bounds (tv : TvSystem) : 0 ≤ tv.frameCycles ∧ tv.frameCycles ≤ 33248 := by
  cases tv <;> decide

theorem Fit.allotted (h : Fit total m) (hremaining : m.cpu.remaining ≤ 0) :
    Fit (total + m.cpu.tv.frameCycles) (allotted m) := by
  obtain ⟨hpos, hle⟩ := frameCycles_bounds m.cpu.tv
  have hgranted := h.granted
  have hbudget := h.budget
  refine ⟨h.ppu, h.slot, h.clock, h.phase, h.count, by omega, ?_, ?_⟩
  · show m.cpu.remaining + m.cpu.tv.frameCycles + m.cpu.cycles = _
    omega
  · show m.cpu.remaining + m.cpu.tv.frameCycles < 2 ^ 62
    omega

theorem allot_eq (h : Fit total m) (hremaining : m.cpu.remaining ≤ 0)
    (hshort : m.cpu.cycles < 2 ^ 63) : allot m = .ok ((), allotted m) := by
  obtain ⟨hpos, hle⟩ := frameCycles_bounds m.cpu.tv
  have hgranted := h.granted
  have hbudget := h.budget
  have hbits : (signed 64 (m.cpu.remaining + m.cpu.tv.frameCycles) : Except (Panic Fault) Int) =
      .ok (m.cpu.remaining + m.cpu.tv.frameCycles) := require_ok (by omega) _
  unfold allot
  rw [hbits]
  rfl

/-- **A frame is exact.** -/
theorem Safe.runFrame : Safe Rested Machine.runFrame runFrame := by
  rintro m ⟨total, hfit, hremaining⟩
  have hallotted := hfit.allotted hremaining
  have hframe : Machine.runFrame m =
      Machine.runRemaining (allotted m).cpu.remaining.toNat (allotted m) := rfl
  obtain ⟨hexact, hkeeps⟩ := Safe.runRemaining (allotted m).cpu.remaining.toNat _ hallotted
  refine ⟨fun hshort => ?_, fun a m' hrun => ?_⟩
  · have hchecked : Checked.runFrame m =
        Checked.runRemaining (allotted m).cpu.remaining.toNat (allotted m) := by
      show (allot m >>= fun r => Checked.runRemaining r.2.cpu.remaining.toNat r.2) = _
      rw [allot_eq hfit hremaining hshort]
      rfl
    have hrest := hexact hshort
    unfold Exact
    rwa [hframe, hchecked]
  · rw [hframe] at hrun
    obtain ⟨hfit', hle⟩ := hkeeps a m' hrun
    exact ⟨⟨_, hfit', runRemaining_end hallotted (Int.self_le_toNat _) hrun⟩, hle⟩

/-! ## Resets -/

def resetMachine : Run Unit := do
  modify fun m => { m with ppu := m.ppu.reset }
  resetCpu

/-- The picture unit starts over in the middle of anything. -/
theorem Fit.reset (h : Fit total m) : Fit total { m with ppu := m.ppu.reset } := by
  obtain ⟨count, -, hafter⟩ := h.count
  have hbeam : m.ppu.reset.beam = { tv := m.cpu.tv } := by
    rw [← hafter.system]
    rfl
  exact ⟨.reset h.ppu.address, h.slot, h.clock, h.phase, ⟨0, Nat.zero_le _, .start hbeam rfl⟩,
    h.granted, h.budget, h.remaining⟩

theorem Safe.resetMachine : Safe (Fit total) Console.resetMachine resetMachine :=
  .bind (.modify (fun _ hm => hm.reset) fun _ => rfl) fun _ => .resetCpu

/-! ## Operations -/

/-- The checked run of an operation. -/
def operate : Operation → Run Nat
  | .runFrame => withGame do
    runFrame
    handOn
    return 0
  | .step => withGame do
    let before := (← MonadState.get).cpu.cycles
    step
    handOn
    fun m => do
      let passed ← check (crashOf m) (require (before ≤ m.cpu.cycles) (m.cpu.cycles - before))
      return (passed, m)
  | .reset => withGame do
    resetMachine
    handOn
    return 0
  | .setPc pc => do
    modify fun m => { m with cpu := m.cpu.mapRegisters fun r => { r with pc } }
    return 0
  | .setButtons buttons => do
    modify fun m => { m with pad := m.pad.setButtons buttons }
    return 0
  | .setIrq irq => do
    modify fun m => { m with cpu := { m.cpu with irq } }
    return 0
  | .peek addr => fun m => do
    let value ← check (crashOf m) (peek m addr)
    return (value.toNat, m)

/-- Operations, in order. -/
def operateAll (ops : List Operation) : Run (List Nat) := ops.mapM operate

theorem Safe.withGame {I : Machine → Prop} {x : Machine.Run Nat} {y : Run Nat} (h : Safe I x y) :
    Safe I (withGame x) (withGame y) := by
  refine .bind .get fun m => ?_
  split
  · exact h
  · exact .pure 0

/-- Cycles are never taken back. -/
theorem Safe.since {I : Machine → Prop} (h : Safe I x y) (before : Nat) :
    Safe (fun m => I m ∧ before ≤ m.cpu.cycles) x y := by
  rintro m ⟨hm, hbefore⟩
  obtain ⟨hexact, hkeeps⟩ := h m hm
  refine ⟨hexact, fun a m' hrun => ?_⟩
  obtain ⟨hm', hle⟩ := hkeeps a m' hrun
  exact ⟨⟨hm', hbefore.trans hle⟩, hle⟩

/-- A part that compares the cycles with those before it. -/
theorem Safe.compare {I : Machine → Prop} {f : Machine → Machine.Run α} {g : Machine → Run α}
    (h : ∀ m₀, Safe (fun m => I m ∧ m₀.cpu.cycles ≤ m.cpu.cycles) (f m₀) (g m₀)) :
    Safe I (MonadState.get >>= f) (MonadState.get >>= g) := by
  intro m hm
  obtain ⟨hexact, hkeeps⟩ := h m m ⟨hm, Nat.le_refl _⟩
  refine ⟨hexact, fun a m' hrun => ?_⟩
  obtain ⟨⟨hm', -⟩, hle⟩ := hkeeps a m' hrun
  exact ⟨hm', hle⟩

theorem Safe.handOn : Safe Rested (handOn : Machine.Run Unit) (handOn : Run Unit) :=
  .rested fun _ => safe_update (fun _ => rfl) (fun _ => rfl) fun _ => rfl

/-- **Every operation is exact.** -/
theorem Safe.operate (op : Operation) : Safe Rested op.run (operate op) := by
  cases op with
  | runFrame => exact .withGame (.bind .runFrame fun _ => .bind .handOn fun _ => .pure 0)
  | step =>
    refine .withGame (.compare fun m₀ => ?_)
    refine .bind (.since (.rested fun _ => .step) _) fun _ => .bind (.since .handOn _) fun _ => ?_
    refine .of_eq (fun m hm _ => ?_) fun m a m' hm h => ?_
    · rw [require_ok hm.2]
      rfl
    · cases h
      exact ⟨hm, rfl⟩
  | reset =>
    exact .withGame (.bind (.rested fun _ => .resetMachine) fun _ => .bind .handOn fun _ => .pure 0)
  | setPc pc =>
    exact .bind (.rested fun _ => safe_update (fun _ => rfl) (fun _ => rfl) fun _ => rfl) fun _ =>
      .pure 0
  | setButtons buttons =>
    exact .bind (.rested fun _ => safe_update (fun _ => rfl) (fun _ => rfl) fun _ => rfl) fun _ =>
      .pure 0
  | setIrq irq =>
    exact .bind (.rested fun _ => safe_update (fun _ => rfl) (fun _ => rfl) fun _ => rfl) fun _ =>
      .pure 0
  | peek addr =>
    refine .of_eq (fun m hm _ => ?_) fun m a m' hm h => ?_
    · obtain ⟨total, hfit, -⟩ := hm
      unfold Checked.operate Operation.run
      simp only
      rw [peek_eq hfit.slot, check_lift]
      cases m.peek addr <;> rfl
    · unfold Operation.run at h
      simp only at h
      split at h <;> cases h
      exact ⟨hm, rfl⟩

/-- **So is every sequence of operations.** -/
theorem Safe.operateAll (ops : List Operation) :
    Safe Rested (Operation.runAll ops) (operateAll ops) := by
  unfold Operation.runAll Checked.operateAll
  induction ops with
  | nil => exact .pure []
  | cons op ops ih =>
    rw [List.mapM_cons, List.mapM_cons]
    exact .bind (.operate op) fun _ => .bind ih fun _ => .pure _

end NesMachine.Checked
