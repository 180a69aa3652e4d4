import NesMachine.Proofs.Console.Operations
import NesMachine.Proofs.Console.Peers
import NesMachine.Proofs.Machine.Margin

/-!
# Frames and steps

A console with a game runs by frames or step by step. Both are the same machine: what it comes to, and
the pictures it hands on, depend on the number of steps in all and on nothing else. Only the cycles that
are left for the frame tell how it was run.

* `performAll_plays`: what calls that run the console come to, with the steps in them.
* `Plays.steps`: they come to what their steps come to.
* `frames_are_steps`: the same for any two ways to run a console.
-/

namespace NesMachine.Console

open Machine (Spends Turn steps runFrame_of_spends eq_allotted_beside)

variable {c c' c₁ c₂ : Console} {m m' : Machine} {n : Nat} {ops ops' : List Operation}

/-! ## Calls with the steps in them -/

/-- What comes of calls: the steps that were executed, the values that were returned, and the pictures
that were handed on, newest first. -/
structure Playlog where
  steps : Nat := 0
  returned : List Nat := []
  presented : List Frame := []

/-- Frames and steps of a console, with what comes of them. -/
inductive Plays : Console → List Operation → Console → Playlog → Prop where
  | nil (c : Console) : Plays c [] c {}
  | frame {c c' : Console} {m : Machine} {n : Nat} {ops : List Operation} {log : Playlog} :
      Spends c.machine.allotted n (.ok m) → Plays (c.behind m) ops c' log →
        Plays c (.runFrame :: ops) c'
          ⟨n + log.steps, 0 :: log.returned, log.presented ++ m.shown⟩
  | step {c c' : Console} {m : Machine} {ops : List Operation} {log : Playlog} :
      Machine.step c.machine = .ok ((), m) → Plays (c.behind m) ops c' log →
        Plays c (.step :: ops) c'
          ⟨1 + log.steps, (m.cpu.cycles - c.machine.cpu.cycles) :: log.returned,
            log.presented ++ m.shown⟩

/-- An operation that runs the console. -/
def Runs (op : Operation) : Prop := op = .runFrame ∨ op = .step

section Calls

variable (hgame : c.hasGame = true)

include hgame

/-- A frame comes to what its loop comes to. -/
theorem runFrame_plays (h : Spends c.machine.allotted n (.ok m)) :
    Always (c.perform .runFrame) (· = (0, c.behind m)) ∧ (c.behind m).hasGame = true := by
  have hframe := runFrame_of_spends h
  have hcall : Always (c.runFrame : ExceptT Wreck Simulated Console) (· = c.behind m) := by
    unfold runFrame
    rw [if_pos hgame]
    exact (run_behind hframe).bind fun _ hr => .pure (by rw [hr])
  exact ⟨hcall.bind fun _ hbehind => .pure (by rw [hbehind]),
    (Machine.runFrame_granted hframe).game.trans hgame⟩

theorem runFrame_spends {value : Nat} (h : Returns (c.perform .runFrame) (value, c')) :
    ∃ n m, Spends c.machine.allotted n (.ok m) ∧ value = 0 ∧ c' = c.behind m := by
  obtain ⟨n, hspends⟩ := Machine.runFrame_spends c.machine
  obtain ⟨c₁, hframe, hvalue⟩ := h.bind
  unfold runFrame at hframe
  rw [if_pos hgame] at hframe
  obtain ⟨⟨_, c₂⟩, hrun, hframe⟩ := hframe.bind
  obtain ⟨m, hm, rfl⟩ := run_returns hrun
  rw [hm] at hspends
  cases hframe.pure
  cases hvalue.pure
  exact ⟨n, m, hspends, rfl, rfl⟩

/-- A step comes to what the machine comes to. -/
theorem step_plays (h : Machine.step c.machine = .ok ((), m)) :
    Always (c.perform .step) (· = (m.cpu.cycles - c.machine.cpu.cycles, c.behind m)) ∧
      (c.behind m).hasGame = true := by
  refine ⟨?_, (Turn.step.keeps _ _ _ h).game.trans hgame⟩
  unfold perform step
  rw [if_pos hgame]
  exact (run_behind h).bind fun _ hr => .pure (by rw [hr]; rfl)

theorem step_steps {value : Nat} (h : Returns (c.perform .step) (value, c')) :
    ∃ m, Machine.step c.machine = .ok ((), m) ∧ value = m.cpu.cycles - c.machine.cpu.cycles ∧
      c' = c.behind m := by
  unfold perform step at h
  rw [if_pos hgame] at h
  obtain ⟨⟨_, c₁⟩, hrun, h⟩ := h.bind
  obtain ⟨m, hm, rfl⟩ := run_returns hrun
  cases h.pure
  exact ⟨m, hm, rfl, rfl⟩

end Calls

/-- Calls that play do so on every computer. -/
theorem Plays.always {log : Playlog} (h : Plays c ops c' log) (hgame : c.hasGame = true) :
    Always (c.performAll ops) (· = (log.returned, c')) := by
  induction h with
  | nil c => exact .pure rfl
  | frame hspends _ ih =>
    obtain ⟨hframe, hgame'⟩ := runFrame_plays hgame hspends
    refine hframe.bind ?_
    rintro _ rfl
    refine (ih hgame').bind ?_
    rintro _ rfl
    exact .pure rfl
  | step hstep _ ih =>
    obtain ⟨hcall, hgame'⟩ := step_plays hgame hstep
    refine hcall.bind ?_
    rintro _ rfl
    refine (ih hgame').bind ?_
    rintro _ rfl
    exact .pure rfl

theorem plays_of_returns {values : List Nat} (hgame : c.hasGame = true)
    (hops : ∀ op ∈ ops, Runs op) (h : Returns (c.performAll ops) (values, c')) :
    ∃ log, Plays c ops c' log ∧ log.returned = values := by
  induction ops generalizing c values with
  | nil =>
    cases h.pure
    exact ⟨{}, .nil c', rfl⟩
  | cons op ops ih =>
    obtain ⟨hop, hlater⟩ := List.forall_mem_cons.mp hops
    obtain ⟨⟨value, c₁⟩, hfirst, h⟩ := h.bind
    obtain ⟨⟨rest, c₂⟩, hrest, h⟩ := Returns.bind h
    cases Returns.pure h
    rcases hop with rfl | rfl
    · obtain ⟨n, m, hspends, rfl, rfl⟩ := runFrame_spends hgame hfirst
      obtain ⟨log, hlog, rfl⟩ := ih (runFrame_plays hgame hspends).2 hlater hrest
      exact ⟨_, .frame hspends hlog, rfl⟩
    · obtain ⟨m, hstep, rfl, rfl⟩ := step_steps hgame hfirst
      obtain ⟨log, hlog, rfl⟩ := ih (step_plays hgame hstep).2 hlater hrest
      exact ⟨_, .step hstep hlog, rfl⟩

/-- **What frames and steps of a console come to.** -/
theorem performAll_plays {values : List Nat} (hgame : c.hasGame = true)
    (hops : ∀ op ∈ ops, Runs op) : Returns (c.performAll ops) (values, c') ↔
      ∃ log, Plays c ops c' log ∧ log.returned = values := by
  refine ⟨plays_of_returns hgame hops, ?_⟩
  rintro ⟨log, hlog, rfl⟩
  obtain ⟨r, hreturns, rfl⟩ := (hlog.always hgame).returns
  exact hreturns

/-! ## The steps of calls -/

/-- The console with other cycles left for the frame. -/
def owing (c : Console) (cycles : Int) : Console :=
  { c with machine := { c.machine with cpu := { c.machine.cpu with remaining := cycles } } }

theorem behind_self (hc : c.Rests) : c.behind c.machine = c := by
  have hmachine : { c.machine with shown := [], notices := [] } = c.machine := by
    rw [← hc.shown, ← hc.notices]
  unfold behind
  rw [hmachine, hc.shown]
  rfl

theorem behind_behind (c : Console) (m m' : Machine) :
    (c.behind m).behind m' = c.behind { m' with shown := m'.shown ++ m.shown } := by
  have hscreen := c.screen.showing_showing m.shown m'.shown
  unfold Screen.showing at hscreen
  unfold behind
  simp only
  rw [hscreen]

/-- What a run handed on stands on the margin of the next. -/
theorem eq_behind_beside (c : Console) (m : Machine) (cycles : Int) :
    m.beside { cycles } =
      (c.behind m).machine.beside { cycles, shown := m.shown, notices := m.notices } := by
  unfold Machine.beside behind
  simp only [List.append_nil, List.nil_append]

/-- Steps behind a run of the console, as steps behind the steps of the run. -/
theorem steps_behind {j k : Nat} {cycles : Int}
    (hfirst : steps j c.machine = .ok ((), m.beside { cycles }))
    (hrest : steps k (c.behind m).machine = .ok ((), m')) :
    steps (j + k) c.machine =
      .ok ((), m'.beside { cycles, shown := m.shown, notices := m.notices }) := by
  rw [Machine.steps_add j k hfirst, eq_behind_beside c]
  exact (Machine.Oblivious.steps k).ok hrest _

/-- **Frames and steps come to what their steps come to**, but for the cycles that are left. -/
theorem Plays.steps {log : Playlog} (h : Plays c ops c' log) (hc : c.Rests) :
    ∃ m cycles, steps log.steps c.machine = .ok ((), m) ∧ m.shown = log.presented ∧
      c' = (c.behind m).owing cycles := by
  induction h with
  | nil c =>
    refine ⟨c.machine, c.machine.cpu.remaining, rfl, hc.shown, ?_⟩
    rw [behind_self hc]
    rfl
  | @frame c c' m n ops log hspends _ ih =>
    obtain ⟨m', cycles, hrest, hshown, rfl⟩ := ih (rests_behind c m)
    have hfirst := (Machine.Oblivious.steps n).ok hspends.steps
      { cycles := -c.machine.cpu.tv.frameCycles }
    rw [← eq_allotted_beside] at hfirst
    refine ⟨_, cycles, steps_behind hfirst hrest, ?_, ?_⟩
    · show m'.shown ++ m.shown = _
      rw [hshown]
    · rw [behind_behind]
      rfl
  | @step c c' m ops log hstep _ ih =>
    obtain ⟨m', cycles, hrest, hshown, rfl⟩ := ih (rests_behind c m)
    have hfirst : Machine.steps 1 c.machine = .ok ((), m.beside {}) := by
      rw [Machine.beside_nothing]
      exact Machine.run_eq hstep
    refine ⟨_, cycles, steps_behind hfirst hrest, ?_, ?_⟩
    · show m'.shown ++ m.shown = _
      rw [hshown]
    · rw [behind_behind]
      rfl

/-- Steps that the machine can do, the console can do one by one. -/
theorem exists_plays (h : Machine.steps n c.machine = .ok ((), m)) :
    ∃ c' log, Plays c (List.replicate n .step) c' log ∧ log.steps = n := by
  induction n generalizing c m with
  | zero => exact ⟨c, {}, .nil c, rfl⟩
  | succ n ih =>
    obtain ⟨_, m₁, hstep, hrest⟩ := Machine.bind_run h
    rw [← Machine.beside_nothing m₁, eq_behind_beside c] at hrest
    obtain ⟨m', hrest'⟩ := (Machine.Oblivious.steps n).of_ok hrest
    obtain ⟨c', log, hlog, hsteps⟩ := ih hrest'
    exact ⟨c', _, .step hstep hlog, by rw [hsteps, Nat.add_comm]⟩

/-- The values of steps are the cycles that passed. -/
theorem Plays.returned_sum {log : Playlog} (h : Plays c ops c' log)
    (hops : ∀ op ∈ ops, op = .step) :
    log.returned.sum + c.machine.cpu.cycles = c'.machine.cpu.cycles := by
  induction h with
  | nil => exact Nat.zero_add _
  | frame => cases hops _ List.mem_cons_self
  | @step c c' m ops log hstep _ ih =>
    have hrest := ih fun op hop => hops op (List.mem_cons_of_mem _ hop)
    have hbounds := Machine.step_bounds hstep
    have hcycles : (c.behind m).machine.cpu.cycles = m.cpu.cycles := rfl
    rw [List.sum_cons]
    omega

/-- **Stepping and running frames are the same machine.** From a console with a game, between its calls,
frames and steps come to what their log says; two ways to run it with the same number of steps in all
come to the same but for the cycles that are left, with the same pictures; and any of them comes to
what its steps come to one by one, which return the cycles that passed. -/
theorem frames_are_steps (hgame : c.hasGame = true) (hc : c.Rests) :
    (∀ ops c' values, (∀ op ∈ ops, Runs op) → (Returns (c.performAll ops) (values, c') ↔
      ∃ log, Plays c ops c' log ∧ log.returned = values)) ∧
    (∀ ops₁ ops₂ c₁ c₂ log₁ log₂, Plays c ops₁ c₁ log₁ → Plays c ops₂ c₂ log₂ →
      log₂.steps = log₁.steps →
        c₂ = c₁.owing c₂.machine.cpu.remaining ∧ log₂.presented = log₁.presented) ∧
    (∀ ops c₁ log, Plays c ops c₁ log → ∃ c₂ log₂,
      Plays c (List.replicate log.steps .step) c₂ log₂ ∧
        c₂ = c₁.owing c₂.machine.cpu.remaining ∧ log₂.presented = log.presented ∧
        log₂.returned.sum + c.machine.cpu.cycles = c₁.machine.cpu.cycles) := by
  have hsame {ops₁ ops₂ c₁ c₂ log₁ log₂} (h₁ : Plays c ops₁ c₁ log₁) (h₂ : Plays c ops₂ c₂ log₂)
      (hsteps : log₂.steps = log₁.steps) :
      c₂ = c₁.owing c₂.machine.cpu.remaining ∧ log₂.presented = log₁.presented := by
    obtain ⟨m₁, cycles₁, hrun₁, hshown₁, rfl⟩ := h₁.steps hc
    obtain ⟨m₂, cycles₂, hrun₂, hshown₂, rfl⟩ := h₂.steps hc
    rw [hsteps, hrun₁] at hrun₂
    cases hrun₂
    exact ⟨rfl, hshown₂.symm.trans hshown₁⟩
  refine ⟨fun ops c' values hops => performAll_plays hgame hops,
    fun ops₁ ops₂ c₁ c₂ log₁ log₂ => hsame, fun ops c₁ log h => ?_⟩
  obtain ⟨m, cycles, hrun, -, -⟩ := h.steps hc
  obtain ⟨c₂, log₂, hplays, hsteps⟩ := exists_plays hrun
  obtain ⟨hc₂, hpresented⟩ := hsame h hplays hsteps
  refine ⟨c₂, log₂, hplays, hc₂, hpresented, ?_⟩
  rw [hplays.returned_sum fun op hop => List.eq_of_mem_replicate hop, hc₂]
  rfl

/-- A game of 16 KB of zeros: two frames with a step before them, and all of it step by step. -/
theorem frames_are_steps_small : ∃ (c c₁ c₂ : Console) (log log₂ : Playlog),
    c.hasGame = true ∧ c.Rests ∧ Plays c [.step, .runFrame, .runFrame] c₁ log ∧
    Plays c (List.replicate log.steps .step) c₂ log₂ ∧
    c₂ = c₁.owing c₂.machine.cpu.remaining ∧ log₂.presented = log.presented ∧
    log₂.returned.sum + c.machine.cpu.cycles = c₁.machine.cpu.cycles := by
  obtain ⟨c₀, c, bytes, name, hc₀, -, hload, hwhole⟩ := exists_loaded
  have hgame := hasGame_of_whole hwhole
  have hc : c.Rests := (hc₀.loadBytes hload).rests
  obtain ⟨⟨values, c₁⟩, hops, -⟩ :=
    (performAll_always [.step, .runFrame, .runFrame] hwhole).returns
  obtain ⟨hplays, -, hsteps⟩ := frames_are_steps hgame hc
  obtain ⟨log, hlog, -⟩ := (hplays _ _ _ (by simp [Runs])).mp hops
  obtain ⟨c₂, log₂, hlog₂, hc₂, hpresented, hsum⟩ := hsteps _ _ _ hlog
  exact ⟨c, c₁, c₂, log, log₂, hgame, hc, hlog, hlog₂, hc₂, hpresented, hsum⟩

end NesMachine.Console
