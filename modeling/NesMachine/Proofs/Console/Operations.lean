import NesMachine.Proofs.Console.Progress

/-!
# Operations

What a program that embeds the console does to it while a game is in its slot, as runs of the machine.
The computer that it all happens on has no say in this: a console returns what the run of its machine
comes to, or breaks down as the run crashes.

* `perform_eq`, `performAll_eq`: a console follows the runs of its machine.
-/

namespace NesMachine

open Machine (Run)

/-- What is asked of a console. -/
inductive Operation where
  | runFrame
  | step
  | reset
  | setPc (pc : UInt16)
  | setButtons (buttons : UInt8)
  | setIrq (irq : Bool)
  | peek (addr : UInt16)

namespace Operation

/-- Without a game nothing runs. -/
def withGame {μ : Type → Type} [Monad μ] [MonadStateOf Machine μ] (x : μ Nat) : μ Nat := do
  if (← get).slot.isSome then x else return 0

/-- The pictures go to the screen, and the reports to the journal. -/
def handOn {μ : Type → Type} [MonadStateOf Machine μ] : μ Unit :=
  modify fun m => { m with shown := [], notices := [] }

/-- The run of an operation. A step gives its cycles, a look the byte, anything else zero. -/
def run : Operation → Run Nat
  | .runFrame => withGame do
    Machine.runFrame
    handOn
    return 0
  | .step => withGame do
    let before := (← get).cpu.cycles
    Machine.step
    handOn
    return (← get).cpu.cycles - before
  | .reset => withGame do
    Console.resetMachine
    handOn
    return 0
  | .setPc pc => do
    modify fun m => { m with cpu := m.cpu.mapRegisters fun r => { r with pc } }
    return 0
  | .setButtons buttons => do
    modify fun m => { m with pad := m.pad.setButtons buttons }
    return 0
  | .setIrq irq => do
    modify fun m => { m with cpu := { m.cpu with irq } }
    return 0
  | .peek addr => fun m =>
    match m.peek addr with
    | .ok value => .ok (value.toNat, m)
    | .error fault => m.crash fault

/-- Operations, in order. -/
def runAll (ops : List Operation) : Run (List Nat) := ops.mapM run

end Operation

namespace Console

variable {α β : Type} {c : Console}

/-- Does an operation. -/
def perform (c : Console) : Operation → ExceptT Wreck Simulated (Nat × Console)
  | .runFrame => do return (0, ← c.runFrame)
  | .step => c.step
  | .reset => do return (0, ← c.reset)
  | .setPc pc => return (0, c.setPc pc)
  | .setButtons buttons => return (0, c.setButtons buttons)
  | .setIrq irq => return (0, c.setIrq irq)
  | .peek addr => do
    let value ← (c.peek addr : Except Wreck UInt8)
    return (value.toNat, c)

/-- Does operations, in order. -/
def performAll (c : Console) : List Operation → ExceptT Wreck Simulated (List Nat × Console)
  | [] => return ([], c)
  | op :: ops => do
    let (value, c) ← c.perform op
    let (values, c) ← c.performAll ops
    return (value :: values, c)

/-! ## Calls that break down -/

/-- On every computer, a call breaks the console down, and the wreck has a property. -/
def Breaks (x : ExceptT Wreck Simulated α) (bad : Wreck → Prop) : Prop :=
  ∀ s, ∃ w s', x s = (.error w, s') ∧ bad w

variable {x : ExceptT Wreck Simulated α} {f : α → ExceptT Wreck Simulated β} {good : α → Prop}
  {bad : Wreck → Prop}

theorem Breaks.bind (hx : Breaks x bad) : Breaks (x >>= f) bad := by
  intro s
  obtain ⟨w, s', hx, hbad⟩ := hx s
  exact ⟨w, s', bind_run_error hx, hbad⟩

theorem Always.breaks (hx : Always x good) (hf : ∀ a, good a → Breaks (f a) bad) :
    Breaks (x >>= f) bad := by
  intro s
  obtain ⟨a, s₁, hx, hgood⟩ := hx s
  obtain ⟨w, s', hf, hbad⟩ := hf a hgood s₁
  exact ⟨w, s', (bind_run hx).trans hf, hbad⟩

/-- A call that does to its console what a run does to the machine. -/
def Follows (x : ExceptT Wreck Simulated (α × Console)) (r : Except Crash (α × Machine)) : Prop :=
  match r with
  | .ok (a, m) => Always x fun b => b.1 = a ∧ b.2.machine = m
  | .error crash => Breaks x fun w =>
    w.breakdown = .board crash.fault ∧ w.cartridge.slot = crash.slot

theorem Follows.pure (a : α) : Follows (Pure.pure (a, c)) (.ok (a, c.machine)) :=
  Always.pure ⟨rfl, rfl⟩

theorem Follows.bind {x : ExceptT Wreck Simulated (α × Console)}
    {f : α × Console → ExceptT Wreck Simulated (β × Console)} {r : Except Crash (α × Machine)}
    {rest : α × Machine → Except Crash (β × Machine)} (hx : Follows x r)
    (hf : ∀ a c', Follows (f (a, c')) (rest (a, c'.machine))) : Follows (x >>= f) (r >>= rest) := by
  cases r with
  | error crash => exact Breaks.bind hx
  | ok r =>
    have hrest (b : α × Console) (hb : b.1 = r.1 ∧ b.2.machine = r.2) : Follows (f b) (rest r) := by
      obtain ⟨a, c'⟩ := b
      obtain ⟨rfl, hc'⟩ := hb
      have hfollows := hf r.1 c'
      rwa [hc'] at hfollows
    show Follows (x >>= f) (rest r)
    cases hr : rest r with
    | error crash =>
      rw [hr] at hrest
      exact Always.breaks hx hrest
    | ok r' =>
      rw [hr] at hrest
      exact Always.bind hx hrest

/-- A console that returns had a run that ended. -/
theorem Follows.returns {x : ExceptT Wreck Simulated (α × Console)}
    {r : Except Crash (α × Machine)} {a : α} (h : Follows x r) (hx : Returns x (a, c)) :
    r = .ok (a, c.machine) := by
  obtain ⟨s, s', hx⟩ := hx
  cases r with
  | error crash =>
    obtain ⟨w, s₁, hwreck, -⟩ := h s
    rw [hx] at hwreck
    cases hwreck
  | ok r =>
    obtain ⟨b, s₁, hb, hvalue, hmachine⟩ := h s
    rw [hx] at hb
    cases hb
    exact congrArg Except.ok (Prod.ext hvalue.symm hmachine.symm)

/-! ## Operations -/

/-- What is left of a machine when its pictures and reports were handed on. -/
def handed (m : Machine) : Machine := { m with shown := [], notices := [] }

/-- A console that lets its machine run follows that run. -/
theorem run_follows (part : Run α) (c : Console) :
    Follows (run part c) ((part c.machine).map fun r => (r.1, handed r.2)) := by
  rw [run_eq]
  cases part c.machine with
  | error crash =>
    have hthrow : Breaks (throw ⟨.board crash.fault, ⟨crash.slot, c.saveDir, c.saveFile⟩⟩ :
        ExceptT Wreck Simulated (α × Console)) fun w =>
          w.breakdown = .board crash.fault ∧ w.cartridge.slot = crash.slot :=
      fun s => ⟨_, s, rfl, rfl, rfl⟩
    exact (noteAll_always _).breaks fun _ _ => hthrow
  | ok r => exact Always.bind (noteAll_always _) fun _ _ => .pure ⟨rfl, rfl⟩

/-- A part of the machine that runs if there is a game. -/
theorem withGame_follows (part : Run Unit) (value : Machine → Nat) (after : Console → Console)
    (hafter : ∀ c, (after c).machine = c.machine) {x : ExceptT Wreck Simulated (Nat × Console)}
    (hruns : c.hasGame = true →
      x = run part c >>= fun r => Pure.pure (value r.2.machine, after r.2))
    (hidle : ¬c.hasGame = true → x = Pure.pure (0, c)) :
    Follows x ((Operation.withGame
      (do part; Operation.handOn; return value (← MonadState.get)) : Run Nat) c.machine) := by
  have hif : (Operation.withGame
      (do part; Operation.handOn; return value (← MonadState.get)) : Run Nat) c.machine =
        (if c.hasGame then
          (do part; Operation.handOn; return value (← MonadState.get) : Run Nat) else
          Pure.pure 0) c.machine := rfl
  rw [hif]
  by_cases hgame : c.hasGame = true
  · have hhand : (do part; Operation.handOn; return value (← MonadState.get) : Run Nat) c.machine =
        (part c.machine).map (fun r => (r.1, handed r.2)) >>= fun r => .ok (value r.2, r.2) := by
      show (part c.machine >>= _) = _
      cases part c.machine <;> rfl
    rw [if_pos hgame, hruns hgame, hhand]
    exact (run_follows part c).bind fun _ c' => Always.pure ⟨rfl, hafter c'⟩
  · rw [if_neg hgame, hidle hgame]
    exact .pure 0

/-- **A console follows the run of its machine.** -/
theorem perform_eq (c : Console) (op : Operation) : Follows (c.perform op) (op.run c.machine) := by
  cases op with
  | runFrame =>
    refine withGame_follows Machine.runFrame (fun _ => 0) id (fun _ => rfl) (fun hgame => ?_)
      fun hgame => ?_
    · simp only [perform, runFrame, if_pos hgame, bind_assoc, pure_bind, id]
    · simp only [perform, runFrame, if_neg hgame, pure_bind]
  | step =>
    have hrun : Operation.step.run c.machine = (Operation.withGame (do
        Machine.step
        Operation.handOn
        return (← MonadState.get).cpu.cycles - c.machine.cpu.cycles) : Run Nat) c.machine := by
      show (if c.hasGame then _ else _ : Run Nat) c.machine =
        (if c.hasGame then _ else _ : Run Nat) c.machine
      split_ifs <;> rfl
    rw [hrun]
    refine withGame_follows Machine.step (fun m => m.cpu.cycles - c.machine.cpu.cycles) id
      (fun _ => rfl) (fun hgame => ?_) fun hgame => ?_
    · simp only [perform, step, if_pos hgame, id]
    · simp only [perform, step, if_neg hgame]
  | reset =>
    refine withGame_follows resetMachine (fun _ => 0)
      (fun c => c.remember ("CPU reset, PC=$" ++ Radix.wordHex c.machine.cpu.registers.pc))
      (fun _ => rfl) (fun hgame => ?_) fun hgame => ?_
    · simp only [perform, reset, if_pos hgame, bind_assoc, pure_bind]
    · simp only [perform, reset, if_neg hgame, pure_bind]
  | setPc pc => exact Always.pure ⟨rfl, rfl⟩
  | setButtons buttons => exact Always.pure ⟨rfl, rfl⟩
  | setIrq irq => exact Always.pure ⟨rfl, rfl⟩
  | peek addr =>
    unfold perform peek Operation.run
    simp only
    cases c.machine.peek addr with
    | ok value => exact Always.pure ⟨rfl, rfl⟩
    | error fault => exact fun s => ⟨_, s, rfl, rfl, rfl⟩

/-- The operation that a call is. -/
def Call.operation : Call → Operation
  | .runFrame => .runFrame
  | .step => .step
  | .setPc pc => .setPc pc
  | .setButtons buttons => .setButtons buttons
  | .setIrq irq => .setIrq irq

theorem call_perform (c : Console) (k : Call) :
    c.call k = do return (← c.perform k.operation).2 := by
  cases k <;> simp [call, perform, Call.operation]

theorem reset_perform (c : Console) : c.reset = do return (← c.perform .reset).2 := by
  simp [perform]

/-- **A console that does operations follows the runs of its machine.** -/
theorem performAll_eq (c : Console) (ops : List Operation) :
    Follows (c.performAll ops) (Operation.runAll ops c.machine) := by
  induction ops generalizing c with
  | nil => exact .pure []
  | cons op ops ih =>
    have hrun : Operation.runAll (op :: ops) c.machine =
        op.run c.machine >>= fun r => Operation.runAll ops r.2 >>= fun r' =>
          .ok (r.1 :: r'.1, r'.2) := by
      unfold Operation.runAll
      rw [List.mapM_cons]
      rfl
    rw [hrun]
    exact (perform_eq c op).bind fun value c' => (ih c').bind fun values _ => .pure _

/-- A game that answers every access answers every look. -/
theorem peek_whole (h : c.machine.slot.Whole) (addr : UInt16) :
    ∃ value, c.machine.peek addr = .ok value := by
  unfold Machine.peek
  split_ifs
  · exact ⟨_, rfl⟩
  · exact ⟨_, rfl⟩
  · exact ⟨_, rfl⟩
  · exact ⟨_, rfl⟩
  · exact h.readPrg addr

theorem perform_always (op : Operation) (h : c.machine.slot.Whole) :
    Always (c.perform op) (·.2.machine.slot.Whole) := by
  cases op with
  | runFrame => exact .bind (runFrame_always h) fun c₁ hc₁ => .pure hc₁
  | step => exact step_always h
  | reset => exact .bind (reset_always h) fun c₁ hc₁ => .pure hc₁
  | setPc pc => exact .pure h
  | setButtons buttons => exact .pure h
  | setIrq irq => exact .pure h
  | peek addr =>
    obtain ⟨value, hvalue⟩ := peek_whole h addr
    unfold perform peek
    simp only [hvalue]
    exact .pure h

/-- **Such a game never breaks a console down, whatever is asked of it.** -/
theorem performAll_always (ops : List Operation) (h : c.machine.slot.Whole) :
    Always (c.performAll ops) (·.2.machine.slot.Whole) := by
  induction ops generalizing c with
  | nil => exact .pure h
  | cons op ops ih =>
    exact .bind (perform_always op h) fun r hr => .bind (ih hr) fun r' hr' => .pure hr'

end Console

end NesMachine
