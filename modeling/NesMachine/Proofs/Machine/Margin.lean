import NesMachine.Proofs.Machine.Budget
import NesMachine.Proofs.Machine.Code

/-!
# What no step looks at

The cycles that a frame may still use, the pictures shown and the reports made stand on the margin of
the machine: steps enter in it and never read what is there. Only the loop of a frame looks, to decide
whether there is another step.

* `Oblivious.step`: a step does the same whatever stands on the margin.
* `Spends.steps`: what a frame does, its steps do.
-/

namespace NesMachine.Machine

open Cpu (Registers)

variable {α β : Type} {m m' : Machine} {x : Run α} {f : α → Run β} {n : Nat}

/-- Cycles to use, pictures shown and reports made, the latter two newest first. -/
structure Margin where
  cycles : Int := 0
  shown : List Frame := []
  notices : List Notice := []

/-- The machine with more cycles to use, and with pictures and reports before its own. -/
def beside (m : Machine) (t : Margin) : Machine :=
  { m with
    cpu := { m.cpu with remaining := m.cpu.remaining + t.cycles }
    shown := m.shown ++ t.shown
    notices := m.notices ++ t.notices }

def Margin.beside (t : Margin) (e : Crash) : Crash := { e with notices := e.notices ++ t.notices }

/-- A run that does the same whatever stands on the margin, a crash included. -/
def Oblivious (x : Run α) : Prop := ∀ m t, x (m.beside t) =
  match x m with
  | .ok (a, m') => .ok (a, m'.beside t)
  | .error e => .error (t.beside e)

theorem Oblivious.ok {a : α} (hx : Oblivious x) (h : x m = .ok (a, m')) (t : Margin) :
    x (m.beside t) = .ok (a, m'.beside t) := by
  rw [hx, h]

theorem Oblivious.of_ok {a : α} {t : Margin} (hx : Oblivious x)
    (h : x (m.beside t) = .ok (a, m')) : ∃ m₁, x m = .ok (a, m₁) := by
  rw [hx] at h
  cases hrun : x m with
  | error e =>
    rw [hrun] at h
    cases h
  | ok r =>
    rw [hrun] at h
    cases h
    exact ⟨r.2, rfl⟩

/-! ## The parts of a step -/

theorem Oblivious.pure (a : α) : Oblivious (Pure.pure a : Run α) := fun _ _ => rfl

theorem Oblivious.bind (hx : Oblivious x) (hf : ∀ a, Oblivious (f a)) : Oblivious (x >>= f) := by
  intro m t
  have hfirst := hx m t
  cases hrun : x m with
  | error e =>
    rw [hrun] at hfirst
    rw [run_error hfirst, run_error hrun]
  | ok r =>
    rw [hrun] at hfirst
    rw [run_eq hfirst, run_eq hrun]
    exact hf r.1 r.2 t

theorem Oblivious.modify {change : Machine → Machine}
    (h : ∀ m t, change (m.beside t) = (change m).beside t) :
    Oblivious (modify change : Run Unit) :=
  fun m t => congrArg (fun m' => Except.ok ((), m')) (h m t)

/-- A look at the machine that does not see the margin. -/
theorem Oblivious.look {f : Machine → Run β} (hf : ∀ m t, f (m.beside t) = f m)
    (h : ∀ m, Oblivious (f m)) : Oblivious (do f (← get)) := by
  intro m t
  show f (m.beside t) (m.beside t) = _
  rw [hf, h m m t]
  rfl

theorem Oblivious.registers : Oblivious registers := fun _ _ => rfl

theorem Oblivious.modifyRegisters (change : Registers → Registers) :
    Oblivious (modifyRegisters change) := .modify fun _ _ => rfl

theorem Oblivious.report (notice : Notice) : Oblivious (report notice) := .modify fun _ _ => rfl

theorem dot_beside (m : Machine) (t : Margin) : (m.beside t).dot =
    match m.dot with
    | .ok m' => .ok (m'.beside t)
    | .error e => .error (t.beside e) := by
  unfold dot beside
  simp only
  cases m.ppu.step m.slot with
  | error fault => rfl
  | ok q =>
    simp only
    cases q.frameReady && m.screen <;> cases q.nmi <;> rfl

theorem dots_beside (n : Nat) (m : Machine) (t : Margin) : dots n (m.beside t) =
    match dots n m with
    | .ok m' => .ok (m'.beside t)
    | .error e => .error (t.beside e) := by
  induction n generalizing m with
  | zero => rfl
  | succ n ih =>
    unfold dots
    rw [dot_beside]
    cases m.dot with
    | error e => rfl
    | ok m₁ => exact ih m₁

/-- A cycle is taken from what is left, whatever that is. -/
theorem tick_beside (c : Cpu) (cycles : Int) :
    ({ c with remaining := c.remaining + cycles } : Cpu).tick =
      (c.tick.1, { c.tick.2 with remaining := c.tick.2.remaining + cycles }) := by
  have htaken : c.remaining + cycles - 1 = c.remaining - 1 + cycles := by omega
  unfold Cpu.tick
  cases c.tv <;> simp only [htaken]

theorem Oblivious.cycle : Oblivious cycle := by
  intro m t
  have hdots := dots_beside m.cpu.tick.1 { m with cpu := m.cpu.tick.2 } t
  have htick : (m.beside t).cpu.tick = (m.cpu.tick.1,
    { m.cpu.tick.2 with remaining := m.cpu.tick.2.remaining + t.cycles }) := tick_beside m.cpu _
  have hbeside : ({ m.beside t with cpu :=
      { m.cpu.tick.2 with remaining := m.cpu.tick.2.remaining + t.cycles } } : Machine) =
      beside { m with cpu := m.cpu.tick.2 } t := rfl
  rw [cycle_eq, cycle_eq, htick]
  simp only
  rw [hbeside, hdots]
  cases dots m.cpu.tick.1 { m with cpu := m.cpu.tick.2 } <;> rfl

theorem Oblivious.idle (n : Nat) : Oblivious (idle n) := by
  induction n with
  | zero => exact .pure ()
  | succ n ih => exact .bind .cycle fun _ => ih

/-! ## The bus -/

theorem Oblivious.readPpu (addr : UInt16) : Oblivious (readPpu addr) := by
  intro m t
  unfold Machine.readPpu Machine.beside
  simp only
  cases m.ppu.readRegister m.slot addr <;> rfl

theorem Oblivious.writePpu (addr : UInt16) (value : UInt8) : Oblivious (writePpu addr value) := by
  intro m t
  unfold Machine.writePpu Machine.beside
  simp only
  cases m.ppu.writeRegister m.slot addr value <;> rfl

theorem Oblivious.readCartridge (addr : UInt16) : Oblivious (readCartridge addr) := by
  intro m t
  unfold Machine.readCartridge Machine.beside
  simp only
  cases m.slot.readPrg addr <;> rfl

theorem Oblivious.writeCartridge (addr : UInt16) (value : UInt8) :
    Oblivious (writeCartridge addr value) := by
  intro m t
  unfold Machine.writeCartridge Machine.beside
  simp only
  cases m.slot.writePrg addr value <;> rfl

theorem Oblivious.fetchBus (addr : UInt16) : Oblivious (fetchBus addr) := by
  unfold Machine.fetchBus
  split_ifs
  · exact fun _ _ => rfl
  · exact .readPpu addr
  · exact fun _ _ => rfl
  · exact .pure 0
  · exact .readCartridge addr

theorem Oblivious.read (addr : UInt16) : Oblivious (Machine.read addr) :=
  .bind .cycle fun _ => .fetchBus addr

theorem Oblivious.transferBytes (page : UInt8) (k count : Nat) :
    Oblivious (transferBytes page k count) := by
  induction count generalizing k with
  | zero => exact .pure ()
  | succ count ih =>
    exact .bind (.read _) fun _ => .bind .cycle fun _ => .bind (.writePpu _ _) fun _ => ih _

theorem Oblivious.transferObjects (page : UInt8) : Oblivious (transferObjects page) :=
  .look (fun _ _ => rfl) fun _ => .bind (.idle _) fun _ => .transferBytes page 0 256

theorem Oblivious.storeBus (addr : UInt16) (value : UInt8) : Oblivious (storeBus addr value) := by
  unfold Machine.storeBus
  split_ifs
  · exact .modify fun _ _ => rfl
  · exact .writePpu addr value
  · exact .transferObjects value
  · exact .modify fun _ _ => rfl
  · exact .pure ()
  · exact .writeCartridge addr value

/-! ## Steps -/

/-- **Nothing that is made of registers and bus cycles looks at the margin.** -/
theorem Code.oblivious (c : Code x) : Oblivious x := by
  induction c with
  | pure a => exact .pure a
  | bind _ _ ihc ihd => exact .bind ihc ihd
  | registers => exact .registers
  | modifyRegisters change => exact .modifyRegisters change
  | idle => exact .cycle
  | read addr => exact .read addr
  | write addr value => exact .bind .cycle fun _ => .storeBus addr value

theorem Oblivious.service (interrupt : Interrupt) : Oblivious (service interrupt) :=
  .bind (.idle 2) fun _ => .bind .registers fun _ => .bind (Code.pushWord _).oblivious fun _ =>
    .bind .registers fun _ => .bind (Code.push _).oblivious fun _ =>
      .bind (.modifyRegisters _) fun _ => .bind (Code.readWord _).oblivious fun _ =>
        .bind (.modifyRegisters _) fun _ => .report _

/-- **A step does the same whatever stands on the margin.** -/
theorem Oblivious.step : Oblivious step := by
  refine .look (fun _ _ => rfl) fun m => ?_
  cases due? m.cpu with
  | none => exact Code.instruction.oblivious
  | some interrupt =>
    cases interrupt with
    | nmi => exact .bind (.modify fun _ _ => rfl) fun _ => .service .nmi
    | irq => exact .service .irq

/-- Several steps. -/
def steps : Nat → Run Unit
  | 0 => Pure.pure ()
  | n + 1 => do
    step
    steps n

theorem Oblivious.steps (n : Nat) : Oblivious (steps n) := by
  induction n with
  | zero => exact .pure ()
  | succ n ih => exact .bind .step fun _ => ih

theorem steps_add (j k : Nat) (h : steps j m = .ok ((), m')) : steps (j + k) m = steps k m' := by
  induction j generalizing m with
  | zero =>
    cases h
    rw [Nat.zero_add]
  | succ j ih =>
    obtain ⟨_, m₁, hstep, hrest⟩ := bind_run h
    rw [Nat.succ_add, steps, run_eq hstep, ih hrest]

/-! ## Frames -/

/-- **A frame does what its steps do.** -/
theorem Spends.steps (h : Spends m n (.ok m')) : steps n m = .ok ((), m') := by
  generalize houtcome : Except.ok m' = outcome at h
  induction h with
  | rest =>
    cases houtcome
    rfl
  | crash => cases houtcome
  | step _ hstep _ ih => rw [Machine.steps, run_eq hstep, ih houtcome]

/-- The loop of a frame ends in one way. -/
theorem Spends.unique {n' : Nat} {outcome outcome' : Except Crash Machine}
    (h : Spends m n outcome) (h' : Spends m n' outcome') : n' = n ∧ outcome' = outcome := by
  induction h generalizing n' with
  | rest hnone =>
    cases h' with
    | rest => exact ⟨rfl, rfl⟩
    | crash hleft => omega
    | step hleft => omega
  | crash hleft hstep =>
    cases h' with
    | rest hnone => omega
    | crash _ hstep' =>
      rw [hstep] at hstep'
      cases hstep'
      exact ⟨rfl, rfl⟩
    | step _ hstep' =>
      rw [hstep] at hstep'
      cases hstep'
  | step hleft hstep _ ih =>
    cases h' with
    | rest hnone => omega
    | crash _ hstep' =>
      rw [hstep] at hstep'
      cases hstep'
    | step _ hstep' hrest' =>
      rw [hstep] at hstep'
      cases hstep'
      obtain ⟨rfl, rfl⟩ := ih hrest'
      exact ⟨rfl, rfl⟩

theorem runFrame_of_spends (h : Spends m.allotted n (.ok m')) : runFrame m = .ok ((), m') := by
  obtain ⟨k, hends⟩ := runFrame_spends m
  obtain ⟨-, hend⟩ := h.unique hends
  cases hframe : runFrame m with
  | error e =>
    rw [hframe] at hend
    cases hend
  | ok r =>
    rw [hframe] at hend
    cases hend
    rfl

theorem beside_nothing (m : Machine) : m.beside {} = m := by
  unfold beside
  simp only [Int.add_zero, List.append_nil]

/-- The cycles that a frame is granted stand on the margin. -/
theorem eq_allotted_beside (m : Machine) :
    m = m.allotted.beside { cycles := -m.cpu.tv.frameCycles } := by
  have hcycles : m.cpu.remaining + m.cpu.tv.frameCycles + -m.cpu.tv.frameCycles =
      m.cpu.remaining := by omega
  unfold beside allotted
  simp only [hcycles, List.append_nil]

end NesMachine.Machine
