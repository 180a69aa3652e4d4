import NesMachine.Proofs.Console.Operations
import NesMachine.Proofs.Machine.Budget

/-!
# The budget of a console

Since power-on, a console has granted its processor a frame's cycles for every frame it was asked to
run, and nothing else. Each frame ends by itself and overdraws by less than one step.

* `perform_funded`, `performAll_funded`: what any operations do to the account.
* `runFrame_ends`, `runFrame_remaining`, `runFrame_overdrawn`: what the next frame does to it.
* `frame_budget`: the account behind any operations since power-on, and the frame behind them.
-/

namespace NesMachine

open Machine (Kept Turn Spends)

/-- An operation that runs a frame. -/
def Operation.isFrame : Operation → Bool
  | .runFrame => true
  | _ => false

namespace Console

variable {c c' c₁ c₂ : Console} {n : Nat}

/-! ## The account of a console -/

/-- A console with a game that has granted the cycles of some frames since power-on. -/
structure Account (n : Nat) (c : Console) : Prop where
  game : c.hasGame = true
  tv : c.machine.cpu.tv = c.tv
  granted : c.machine.granted = c.tv.frameCycles * n

/-- Such a console between its operations: nothing is left to be handed on. -/
structure Funded (n : Nat) (c : Console) : Prop extends Account n c where
  shown : c.machine.shown = []
  notices : c.machine.notices = []

/-- The console behind a run that keeps to what was granted before it. -/
theorem funded_behind {m₀ m : Machine} (h : Kept m₀ m) (hgame : m₀.slot.isSome = true)
    (htv : m₀.cpu.tv = c.tv) (hgranted : m₀.granted = c.tv.frameCycles * n) :
    Funded n (c.behind m) :=
  ⟨⟨h.game.trans hgame, h.tv.trans htv, h.granted.trans hgranted⟩, rfl, rfl⟩

theorem run_funded {α : Type} {part : Machine.Run α} {a : α} (hpart : Turn part)
    (hc : Account n c) (h : Returns (run part c) (a, c')) : Funded n c' := by
  obtain ⟨m, hrun, rfl⟩ := run_returns h
  exact funded_behind (hpart.keeps _ _ _ hrun) hc.game hc.tv hc.granted

/-- The account with the cycles of another frame. -/
theorem Account.allotted (hc : Account n c) :
    c.machine.allotted.granted = c.tv.frameCycles * (n + 1 : Nat) := by
  rw [Machine.granted_allotted, hc.granted, hc.tv, Int.natCast_succ, Int.mul_add, Int.mul_one]

theorem runFrame_funded (hc : Account n c)
    (h : Returns (c.runFrame : ExceptT Wreck Simulated Console) c') : Funded (n + 1) c' := by
  unfold runFrame at h
  rw [if_pos hc.game] at h
  obtain ⟨⟨a, c₁⟩, hrun, h⟩ := h.bind
  rw [h.pure]
  obtain ⟨m, hframe, rfl⟩ := run_returns hrun
  exact funded_behind (Machine.runFrame_granted hframe) hc.game hc.tv hc.allotted

theorem Funded.remember {event : String} (hc : Funded n c) : Funded n (c.remember event) :=
  ⟨⟨hc.game, hc.tv, hc.granted⟩, hc.shown, hc.notices⟩

theorem reset_funded (hc : Account n c)
    (h : Returns (c.reset : ExceptT Wreck Simulated Console) c') : Funded n c' := by
  unfold reset at h
  rw [if_pos hc.game] at h
  obtain ⟨⟨a, c₁⟩, hrun, h⟩ := h.bind
  have hrestarted : Returns (run Machine.resetCpu c.restarted) (a, c₁) := hrun
  have hbegins : Account n c.restarted := ⟨hc.game, hc.tv, hc.granted⟩
  rw [Returns.pure h]
  exact (run_funded .resetCpu hbegins hrestarted).remember

/-- **A frame grants its cycles, and no other operation grants any.** -/
theorem perform_funded {op : Operation} {value : Nat} (hc : Funded n c)
    (h : Returns (c.perform op) (value, c')) :
    Funded (n + if op.isFrame then 1 else 0) c' := by
  have hsame {m : Machine} (hm : m = { c.machine with cpu := m.cpu, pad := m.pad })
      (hcpu : m.cpu = { c.machine.cpu with registers := m.cpu.registers, irq := m.cpu.irq }) :
      Funded n { c with machine := m } := by
    rw [hm, hcpu]
    exact ⟨⟨hc.game, hc.tv, hc.granted⟩, hc.shown, hc.notices⟩
  cases op with
  | runFrame =>
    obtain ⟨c₁, hframe, h⟩ := h.bind
    cases h.pure
    exact runFrame_funded hc.toAccount hframe
  | step =>
    unfold perform step at h
    simp only [if_pos hc.game] at h
    obtain ⟨⟨a, c₁⟩, hrun, h⟩ := h.bind
    cases h.pure
    exact run_funded .step hc.toAccount hrun
  | reset =>
    obtain ⟨c₁, hreset, h⟩ := h.bind
    cases h.pure
    exact reset_funded hc.toAccount hreset
  | setPc pc =>
    cases h.pure
    exact hsame rfl rfl
  | setButtons buttons =>
    cases h.pure
    exact hsame rfl rfl
  | setIrq irq =>
    cases h.pure
    exact hsame rfl rfl
  | peek addr =>
    obtain ⟨byte, -, h⟩ := h.bind
    cases h.pure
    exact hc

/-- **Behind any operations the frames among them have been granted.** -/
theorem performAll_funded {ops : List Operation} {values : List Nat} (hc : Funded n c)
    (h : Returns (c.performAll ops) (values, c')) :
    Funded (n + ops.countP Operation.isFrame) c' := by
  induction ops generalizing c n values with
  | nil =>
    cases h.pure
    exact hc
  | cons op ops ih =>
    obtain ⟨⟨value, c₁⟩, hop, h⟩ := h.bind
    obtain ⟨⟨rest, c₂⟩, hops, h⟩ := Returns.bind h
    cases Returns.pure h
    have hall := ih (perform_funded hc hop) hops
    rw [List.countP_cons]
    rwa [Nat.add_assoc, Nat.add_comm (ite _ _ _)] at hall

/-! ## Power-on -/

/-- The ways to switch a console on: a game is loaded. -/
inductive PowersOn (c : Console) : Console → Prop where
  | loadFile {c' : Console} {path : Path} :
      Returns (c.loadFile path : ExceptT Wreck Simulated _) (.ok (), c') → PowersOn c c'
  | loadBytes {c' : Console} {bytes : Digest.Bytes} {name : String} :
      Returns (c.loadBytes bytes name : ExceptT Wreck Simulated _) (.ok (), c') → PowersOn c c'

theorem finishLoad_funded {source : String} {outcome : Except LoadFailure Cartridge}
    (hsome : ∀ cartridge, outcome = .ok cartridge → cartridge.slot.isSome = true)
    (h : Returns (c.finishLoad source outcome :
      ExceptT Wreck Simulated (Except LoadError Unit × Console)) (.ok (), c')) :
    Funded 0 c' := by
  obtain ⟨cartridge, c₁, event, rfl, hreset, rfl⟩ := finishLoad_reset h
  have hon : Account 0 (c.switchedOn cartridge) :=
    ⟨hsome cartridge rfl, rfl, (Int.mul_zero _).symm⟩
  exact (reset_funded hon hreset).remember

theorem PowersOn.funded (h : c.PowersOn c') : Funded 0 c' := by
  cases h with
  | loadFile hload =>
    obtain ⟨outcome, hcartridge, hload⟩ := hload.bind
    refine finishLoad_funded ?_ hload
    rintro cartridge rfl
    exact (load_slot hcartridge).isSome
  | loadBytes hload =>
    obtain ⟨outcome, hcartridge, hload⟩ := hload.bind
    refine finishLoad_funded ?_ hload
    rintro cartridge rfl
    exact (loadBytes_slot hcartridge).isSome

/-! ## The next frame -/

/-- The cycles that the next frame starts with. -/
def carried (c : Console) : Int := c.machine.cpu.remaining + c.tv.frameCycles

/-- How a frame ends on a console, by the end of its loop. -/
def FrameEnds (c : Console) : Except Crash Machine → Prop
  | .ok m => Always (c.runFrame : ExceptT Wreck Simulated Console) (· = c.behind m)
  | .error crash => Breaks (c.runFrame : ExceptT Wreck Simulated Console) fun w =>
      w.breakdown = .board crash.fault ∧ w.cartridge.slot = crash.slot ∧
        crash.slot.Lacks crash.fault

theorem runFrame_eq (hgame : c.hasGame = true) :
    (c.runFrame : ExceptT Wreck Simulated Console) =
      run Machine.runFrame c >>= fun r => Pure.pure r.2 := by
  unfold runFrame
  rw [if_pos hgame]

/-- **The loop of a frame ends, and the frame with it**: behind its last step, or broken down on a
byte that the game does not have. -/
theorem runFrame_ends (hgame : c.hasGame = true) :
    ∃ steps outcome, Spends c.machine.allotted steps outcome ∧ c.FrameEnds outcome := by
  obtain ⟨steps, hspends⟩ := Machine.runFrame_spends c.machine
  refine ⟨steps, _, hspends, ?_⟩
  unfold FrameEnds
  cases hrun : Machine.runFrame c.machine with
  | ok r =>
    rw [runFrame_eq hgame]
    refine (run_behind (a := r.1) (m := r.2) hrun).bind ?_
    rintro _ rfl
    exact .pure rfl
  | error crash =>
    have hfollows := run_follows Machine.runFrame c
    have hlacks := Machine.Part.runFrame.candid c.machine crash hrun
    rw [hrun] at hfollows
    intro s
    obtain ⟨w, s', hbroken, hfault, hslot⟩ := Breaks.bind hfollows s
    exact ⟨w, s', by rw [runFrame_eq hgame]; exact hbroken, hfault, hslot, hlacks⟩

theorem Account.carried (hc : Account n c) :
    c.carried = c.machine.allotted.cpu.remaining := by
  rw [Console.carried, ← hc.tv]
  rfl

/-- A frame that returns has used up what it was granted. -/
theorem runFrame_remaining (hc : Account n c)
    (h : Returns (c.runFrame : ExceptT Wreck Simulated Console) c') :
    c'.machine.cpu.remaining ≤ 0 ∧ (0 < c.carried → -520 ≤ c'.machine.cpu.remaining) := by
  rw [runFrame_eq hc.game] at h
  obtain ⟨⟨a, c₁⟩, hrun, h⟩ := h.bind
  obtain ⟨m, hframe, rfl⟩ := run_returns hrun
  obtain ⟨steps, hspends⟩ := Machine.runFrame_spends c.machine
  rw [hframe] at hspends
  rw [h.pure, hc.carried]
  exact hspends.remaining

/-- A frame that is overdrawn before it begins changes nothing else, and nobody hears of it. -/
theorem runFrame_overdrawn (hc : Funded n c) (hcarried : c.carried ≤ 0) (s : Simulation) :
    (c.runFrame : ExceptT Wreck Simulated Console) s =
      (.ok { c with machine := { c.machine with cpu := { c.machine.cpu with
        remaining := c.carried } } }, s) := by
  rw [hc.carried] at hcarried ⊢
  have hframe := Machine.runFrame_overdrawn hcarried
  have hnotices : c.machine.allotted.notices = [] := hc.notices
  have hshown : c.machine.allotted.shown = [] := hc.shown
  rw [runFrame_eq hc.game]
  unfold run
  simp only [hframe, hnotices]
  unfold present
  simp only [hshown]
  rw [hc.shown, hc.notices]
  rfl

/-- **The budget of a console**, behind any operations since power-on: the cycles used and those left
are those of the frames among them. The next frame ends, and leaves nothing; it overdraws by less than
one step, unless the last frames overdrew by more than it is granted: then it only pays. -/
theorem frame_budget {ops : List Operation} {values : List Nat} (hon : c.PowersOn c₁)
    (hops : Returns (c₁.performAll ops) (values, c₂)) :
    (c₂.machine.cpu.cycles : Int) + c₂.machine.cpu.remaining =
        (if c₂.tv = .ntsc then 29781 else 33248) * ops.countP Operation.isFrame ∧
      (∃ steps outcome, Spends c₂.machine.allotted steps outcome ∧ c₂.FrameEnds outcome) ∧
      (∀ c', Returns (c₂.runFrame : ExceptT Wreck Simulated Console) c' →
        c'.machine.cpu.remaining ≤ 0 ∧ (0 < c₂.carried → -520 ≤ c'.machine.cpu.remaining)) ∧
      (c₂.carried ≤ 0 →
        (∀ steps outcome, Spends c₂.machine.allotted steps outcome → steps = 0) ∧
        ∀ s, (c₂.runFrame : ExceptT Wreck Simulated Console) s =
          (.ok { c₂ with machine := { c₂.machine with cpu := { c₂.machine.cpu with
            remaining := c₂.carried } } }, s)) := by
  have hfunded : Funded (ops.countP Operation.isFrame) c₂ := by
    have hall := performAll_funded hon.funded hops
    rwa [Nat.zero_add] at hall
  refine ⟨?_, runFrame_ends hfunded.game, fun c' => runFrame_remaining hfunded.toAccount,
    fun hover => ⟨fun steps outcome hspends => ?_, runFrame_overdrawn hfunded hover⟩⟩
  · have hgranted := hfunded.granted
    unfold Machine.granted at hgranted
    rw [hgranted]
    cases c₂.tv <;> rfl
  · rw [hfunded.toAccount.carried] at hover
    exact hspends.overdrawn hover

/-- Without frames, every step overdraws by two cycles more. -/
theorem steps_remaining {steps : Nat} {values : List Nat} (hc : Funded n c)
    (h : Returns (c.performAll (List.replicate steps .step)) (values, c')) :
    c'.machine.cpu.remaining ≤ c.machine.cpu.remaining - 2 * steps := by
  induction steps generalizing c values with
  | zero =>
    cases h.pure
    exact Int.le_of_eq (Int.sub_zero _).symm
  | succ steps ih =>
    obtain ⟨⟨value, c₁⟩, hstep, h⟩ := h.bind
    obtain ⟨⟨rest, c₂⟩, hsteps, h⟩ := Returns.bind h
    cases Returns.pure h
    have hrest := ih (perform_funded hc hstep) hsteps
    unfold perform step at hstep
    simp only [if_pos hc.game] at hstep
    obtain ⟨⟨a, c₃⟩, hrun, hstep⟩ := hstep.bind
    cases hstep.pure
    obtain ⟨m, hm, rfl⟩ := run_returns hrun
    have hspent : (c.behind m).machine.cpu.remaining ≤ c.machine.cpu.remaining - 2 :=
      (Machine.step_remaining hm).2
    simp only at hrest
    omega

theorem PowersOn.remaining (h : c.PowersOn c') : c'.machine.cpu.remaining ≤ 0 := by
  have hgranted := h.funded.granted
  unfold Machine.granted at hgranted
  omega

/-- A game of 16 KB of zeros: 17000 steps, of which no frame can pay for all. -/
theorem frame_budget_small : ∃ (c c₁ c₂ : Console) (values : List Nat), c.PowersOn c₁ ∧
    Returns (c₁.performAll (List.replicate 17000 .step)) (values, c₂) ∧
    (c₂.machine.cpu.cycles : Int) + c₂.machine.cpu.remaining = 0 ∧
    c₂.carried ≤ 0 ∧
    ∀ s, (c₂.runFrame : ExceptT Wreck Simulated Console) s =
      (.ok { c₂ with machine := { c₂.machine with cpu := { c₂.machine.cpu with
        remaining := c₂.carried } } }, s) := by
  obtain ⟨c, c₁, bytes, name, -, -, hload, hgame⟩ := exists_loaded
  have hon : c.PowersOn c₁ := .loadBytes hload
  obtain ⟨⟨values, c₂⟩, hops, -⟩ :=
    (performAll_always (List.replicate 17000 .step) hgame).returns
  have hover : c₂.carried ≤ 0 := by
    have hstart := hon.remaining
    have hspent := steps_remaining hon.funded hops
    unfold carried TvSystem.frameCycles
    split <;> omega
  obtain ⟨hgranted, -, -, hpays⟩ := frame_budget hon hops
  have hnone : (List.replicate 17000 Operation.step).countP Operation.isFrame = 0 :=
    List.countP_eq_zero.mpr fun op hop => by simp [List.eq_of_mem_replicate hop, Operation.isFrame]
  rw [hnone, Int.natCast_zero, Int.mul_zero] at hgranted
  exact ⟨c, c₁, c₂, values, hon, hops, hgranted, hover, (hpays hover).2⟩

end Console

end NesMachine
