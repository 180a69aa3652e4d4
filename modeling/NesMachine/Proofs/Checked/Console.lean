import NesMachine.Proofs.Checked.Game
import NesMachine.Proofs.Checked.Operation
import NesMachine.Proofs.Machine.Crash
import NesMachine.Proofs.Machine.Range

/-!
# Consoles that never panic

Whatever was done to a console, its machine rests between operations. So no operation on it panics,
whatever the game and its program, but for bytes that the board of the game does not have; and its
counters, addresses and offsets are in their ranges before every dot and behind it.

* `Reachable.rested`: the invariant of reachable consoles.
* `Candid.runAll`: how operations crash.
* `Reachable.panicFree`: no operation panics, and the ranges hold.
-/

namespace NesMachine

open Machine (Acts Around Candid Part)

/-! ## Machines at rest -/

namespace Checked

variable {m m' : Machine}

/-- Besides the processor, only the picture unit and the slot matter. -/
theorem Rested.congr (h : Rested m) (hcpu : m'.cpu = m.cpu) (hppu : m'.ppu = m.ppu)
    (hslot : m'.slot.Bounded) : Rested m' := by
  obtain ⟨total, hfit, hremaining⟩ := h
  have hkeeps : Fit total m' ∧ _ :=
    hfit.congr (by rw [hcpu]) (by rw [hppu]; exact hfit.ppu) hslot (by rw [hppu]) (by rw [hppu])
  exact ⟨total, hkeeps.1, by rwa [hcpu]⟩

theorem Rested.bounded (h : Rested m) : m.slot.Bounded := by
  obtain ⟨total, hfit, -⟩ := h
  exact hfit.slot

/-- A machine at rest has its ranges. -/
theorem Rested.ranged (h : Rested m) : m.Ranged := by
  obtain ⟨total, hfit, -⟩ := h
  exact ⟨hfit.ppu, hfit.phase⟩

theorem Rested.reset (h : Rested m) : Rested { m with ppu := m.ppu.reset } := by
  obtain ⟨total, hfit, hremaining⟩ := h
  exact ⟨total, hfit.reset, hremaining⟩

/-- A machine that was switched on, with no cycle granted to it. -/
theorem Rested.start (hcpu : m.cpu = ({} : Cpu).setTv m.cpu.tv) (hppu : m.ppu.InRange)
    (hslot : m.slot.Bounded) (hbeam : m.ppu.beam = { tv := m.cpu.tv })
    (hframes : m.ppu.frameCount = 0) : Rested m := by
  refine ⟨0, ⟨hppu, hslot, fun _ => ?_, ?_, ⟨0, Nat.zero_le _, .start hbeam hframes⟩,
    Int.le_refl 0, ?_, ?_⟩, ?_⟩
  all_goals rw [hcpu]
  · rfl
  · exact show 0 < 5 by decide
  · rfl
  · exact show (0 : Int) < 2 ^ 62 by decide
  · exact Int.le_refl 0

end Checked

namespace Console

open Checked (Rested)

variable {c c' : Console}

theorem ofSettings_rested {settings : Settings} (h : Console.ofSettings settings = .ok c) :
    Rested c.machine := by
  have hmachine : c.machine = {} := by
    unfold Console.ofSettings at h
    split at h
    · cases h
    · cases h
      rfl
  rw [hmachine]
  refine .start rfl (.powerOn .ntsc) ?_ rfl rfl
  rintro _ ⟨⟩

theorem perform_rested {op : Operation} {value : Nat} (hc : Rested c.machine)
    (h : Returns (c.perform op) (value, c')) : Rested c'.machine :=
  ((Checked.Safe.operate op _ hc).2 _ _ ((perform_eq c op).returns h)).1

theorem call_rested {k : Call} (hc : Rested c.machine) (h : Returns (c.call k) c') :
    Rested c'.machine := by
  rw [call_perform] at h
  obtain ⟨⟨value, c₁⟩, hperform, h⟩ := h.bind
  rw [h.pure]
  exact perform_rested hc hperform

/-- What a reset comes to is settled behind its first move, which starts the picture unit over. -/
theorem reset_run {m : Machine} (hgame : m.slot.isSome = true) :
    Operation.reset.run m = Operation.reset.run { m with ppu := m.ppu.reset } := by
  show (if m.slot.isSome then _ else _ : Machine.Run Nat) m =
    (if m.slot.isSome then _ else _ : Machine.Run Nat) _
  rw [if_pos hgame]
  rfl

theorem reset_operate {m : Machine} (hgame : m.slot.isSome = true) :
    Checked.operate .reset m = Checked.operate .reset { m with ppu := m.ppu.reset } := by
  show (if m.slot.isSome then _ else _ : Checked.Run Nat) m =
    (if m.slot.isSome then _ else _ : Checked.Run Nat) _
  rw [if_pos hgame]
  rfl

/-- A reset that returns brings the machine to rest, if it is at rest behind the first move. -/
theorem reset_rested (hgame : c.machine.slot.isSome = true) (hc : Rested c.restarted.machine)
    (h : Returns (c.reset : ExceptT Wreck Simulated Console) c') : Rested c'.machine := by
  rw [reset_perform] at h
  obtain ⟨⟨value, c₁⟩, hperform, h⟩ := h.bind
  have hrun := (perform_eq c .reset).returns hperform
  rw [reset_run hgame] at hrun
  rw [h.pure]
  exact ((Checked.Safe.operate .reset _ hc).2 _ _ hrun).1

/-- A console that is switched on is at rest, whatever it did before. -/
theorem switchedOn_rested (hc : Rested c.machine) {cartridge : Cartridge}
    (hrom : cartridge.slot.FromRom) : Rested (c.switchedOn cartridge).restarted.machine := by
  obtain ⟨total, hfit, -⟩ := hc
  exact .start rfl (.reset hfit.ppu.address) hrom.bounded rfl rfl

theorem finishLoad_rested {source : String} {outcome : Except LoadFailure Cartridge}
    {result : Except LoadError Unit} (hc : Rested c.machine)
    (hrom : ∀ cartridge, outcome = .ok cartridge → cartridge.slot.FromRom)
    (h : Returns (c.finishLoad source outcome : ExceptT Wreck Simulated _) (result, c')) :
    Rested c'.machine := by
  cases result with
  | ok done =>
    obtain ⟨cartridge, c₁, event, houtcome, hreset, rfl⟩ := finishLoad_reset h
    have hslot := hrom cartridge houtcome
    have hrested : Rested c₁.machine :=
      reset_rested (c := c.switchedOn cartridge) hslot.isSome (switchedOn_rested hc hslot) hreset
    exact hrested
  | error error =>
    obtain ⟨s, s', h⟩ := h
    obtain ⟨-, rfl, -⟩ := finishLoad_run h
    exact hc

/-- **Reachable consoles rest.** -/
theorem Reachable.rested (h : c.Reachable) : Rested c.machine := by
  induction h with
  | ofSettings hsettings => exact ofSettings_rested hsettings
  | attachScreen _ ih => exact ih.congr rfl rfl ih.bounded
  | detachScreen _ ih => exact ih.congr rfl rfl ih.bounded
  | setErrorLog log _ ih => exact ih
  | call _ hcall ih => exact call_rested ih hcall
  | reset _ hreset ih =>
    rw [reset_perform] at hreset
    obtain ⟨⟨value, c₁⟩, hperform, hreset⟩ := hreset.bind
    rw [hreset.pure]
    exact perform_rested ih hperform
  | loadFile _ hload ih =>
    obtain ⟨outcome, hcartridge, hload⟩ := hload.bind
    refine finishLoad_rested ih ?_ hload
    rintro cartridge rfl
    exact load_slot hcartridge
  | loadBytes _ hload ih =>
    obtain ⟨outcome, hcartridge, hload⟩ := hload.bind
    refine finishLoad_rested ih ?_ hload
    rintro cartridge rfl
    exact loadBytes_slot hcartridge
  | unload _ hunload ih =>
    obtain ⟨cartridge, hcartridge, hunload⟩ := hunload.bind
    rw [hunload.pure]
    refine ih.congr rfl rfl ?_
    show cartridge.slot.Bounded
    rw [unload_slot hcartridge]
    rintro _ ⟨⟩

end Console

/-! ## Crashes -/

namespace Machine

theorem Candid.withGame {x : Run Nat} (hx : Candid x) : Candid (Operation.withGame x) := by
  refine .bind .get fun m => ?_
  split
  · exact hx
  · exact .pure 0

theorem Candid.operation (op : Operation) : Candid op.run := by
  have hpart {x : Run Unit} (hx : Part x) {α : Type} {f : Unit → Run α} (hf : Candid (f ())) :
      Candid (x >>= fun u => Operation.handOn >>= f) :=
    .bind hx.candid fun _ => .bind (.modify _) fun _ => hf
  cases op with
  | runFrame => exact .withGame (hpart .runFrame (.pure 0))
  | step => exact .withGame (.bind .get fun m => hpart .step (.bind .get fun _ => .pure _))
  | reset =>
    exact .withGame (.bind (.bind (.modify _) fun _ => Part.resetCpu.candid) fun _ =>
      .bind (.modify _) fun _ => .pure 0)
  | setPc pc => exact .bind (.modify _) fun _ => .pure 0
  | setButtons buttons => exact .bind (.modify _) fun _ => .pure 0
  | setIrq irq => exact .bind (.modify _) fun _ => .pure 0
  | peek addr =>
    intro m e h
    unfold Operation.run at h
    simp only at h
    split at h
    · cases h
    · rename_i hpeek
      cases h
      exact peek_lacks hpeek

/-- **Operations crash on bytes that the game does not have.** -/
theorem Candid.operations (ops : List Operation) : Candid (Operation.runAll ops) := by
  unfold Operation.runAll
  induction ops with
  | nil => exact .pure []
  | cons op ops ih =>
    rw [List.mapM_cons]
    exact .bind (.operation op) fun _ => .bind ih fun _ => .pure _

end Machine

/-! ## Panics -/

namespace Console

open Checked (Exact Rested operateAll)

variable {c : Console} {ops : List Operation}

/-- The operations on a console, with every operator checked. -/
structure PanicFree (c : Console) (ops : List Operation) : Prop where
  /-- The console gives what the run of its machine comes to. -/
  follows : Follows (c.performAll ops) (Operation.runAll ops c.machine)
  /-- Checked, that run comes to the same, unless it takes 2^63 cycles. -/
  exact : Exact (Operation.runAll ops) (operateAll ops) c.machine
  /-- It ends early only there, or on a byte that the board in the slot does not have. -/
  stops : ∀ stop, operateAll ops c.machine = .error stop →
    (∃ n, 2 ^ 63 ≤ n + 1 ∧ stop = .length n) ∨
      ∃ crash, stop = .crash crash ∧ crash.slot.Lacks crash.fault

theorem PanicFree.of_exact (h : Exact (Operation.runAll ops) (operateAll ops) c.machine) :
    PanicFree c ops := by
  refine ⟨performAll_eq c ops, h, fun stop hstop => ?_⟩
  rcases h with ⟨hsame, -⟩ | ⟨n, hcounted, hlength, -⟩
  · cases hrun : Operation.runAll ops c.machine with
    | ok r =>
      rw [hsame, hrun] at hstop
      cases hstop
    | error crash =>
      rw [hsame, hrun] at hstop
      cases hstop
      exact .inr ⟨crash, rfl, Candid.operations ops _ _ hrun⟩
  · rw [hlength] at hstop
    cases hstop
    exact .inl ⟨n, hcounted, rfl⟩

theorem run_congr {ε α β : Type} {x : StateT Machine (Except ε) α}
    (f : α → StateT Machine (Except ε) β) {m m₁ : Machine} (h : x m = x m₁) :
    (x >>= f) m = (x >>= f) m₁ := by
  show (x m >>= _) = (x m₁ >>= _)
  rw [h]

/-- Operations on a console that is switched on, the reset that a load ends with first. -/
theorem PanicFree.switchedOn (hc : Rested c.machine) {cartridge : Cartridge}
    (hrom : cartridge.slot.FromRom) (ops : List Operation) :
    PanicFree (c.switchedOn cartridge) (.reset :: ops) := by
  have hgame : (c.switchedOn cartridge).machine.slot.isSome = true := hrom.isSome
  have hexact := (Checked.Safe.operateAll (.reset :: ops) _ (switchedOn_rested hc hrom)).1
    (show 0 < 2 ^ 63 by decide)
  have hrun : Operation.runAll (.reset :: ops) (c.switchedOn cartridge).machine =
      Operation.runAll (.reset :: ops) (c.switchedOn cartridge).restarted.machine := by
    unfold Operation.runAll
    rw [List.mapM_cons]
    exact run_congr _ (reset_run hgame)
  have hchecked : operateAll (.reset :: ops) (c.switchedOn cartridge).machine =
      operateAll (.reset :: ops) (c.switchedOn cartridge).restarted.machine := by
    unfold Checked.operateAll
    rw [List.mapM_cons]
    exact run_congr _ (reset_operate hgame)
  refine .of_exact ?_
  unfold Exact
  rwa [hrun, hchecked]

/-- The machines from which the calls of a console act. -/
inductive Starts (c : Console) : Machine → Prop where
  | call : Starts c c.machine
  | reset : Starts c c.restarted.machine
  | load {cartridge : Cartridge} :
      cartridge.slot.FromRom → Starts c (c.switchedOn cartridge).restarted.machine

/-- **No operation panics.** On every console that can be reached, operations go as if nothing was
checked, or break the console down on a byte that the game does not have. So do those on a new game,
from the reset that its load ends with. And wherever the calls act from, the machine is in its ranges
behind every act, and around every dot. -/
theorem Reachable.panicFree (hc : c.Reachable) :
    (∀ ops, c.machine.cpu.cycles < 2 ^ 63 → PanicFree c ops) ∧
    (∀ cartridge : Cartridge, cartridge.slot.FromRom →
      ∀ ops, PanicFree (c.switchedOn cartridge) (.reset :: ops)) ∧
    ∀ m es m', Starts c m → Acts m es m' →
      m'.InBounds ∧ Around Machine.InBounds (Machine.dotsOf es) := by
  have hrested := hc.rested
  refine ⟨fun ops hshort => ?_, fun cartridge hrom ops => ?_, fun m es m' hstart hacts => ?_⟩
  · exact .of_exact ((Checked.Safe.operateAll ops _ hrested).1 hshort)
  · exact .switchedOn hrested hrom ops
  · refine hacts.inBounds ?_
    cases hstart with
    | call => exact hrested.ranged
    | reset => exact hrested.reset.ranged
    | load hrom => exact (switchedOn_rested hrested hrom).ranged

/-- A console on which a small game is switched on and played. -/
theorem Reachable.panicFree_small : ∃ (c : Console) (cartridge : Cartridge),
    c.Reachable ∧ c.machine.cpu.cycles = 0 ∧ cartridge.slot.FromRom ∧
    PanicFree c [.setPc 0x8000, .peek 0] ∧
    PanicFree (c.switchedOn cartridge) [.reset, .setButtons 0xFF, .runFrame, .step, .peek 0xFFFC] ∧
    (c.switchedOn cartridge).restarted.machine.InBounds := by
  have hsize : (Array.replicate 0x4000 (0 : UInt8)).size = 0x4000 := Array.size_replicate
  obtain ⟨board, hboard, -⟩ := boardOf_small hsize
  obtain ⟨c, hc, hmachine⟩ := exists_reachable
  have hcycles : c.machine.cpu.cycles = 0 := by
    rw [hmachine]
  have hshort : c.machine.cpu.cycles < 2 ^ 63 := hcycles.trans_lt (by decide)
  let cartridge : Cartridge := { slot := some board }
  have hrom : cartridge.slot.FromRom := ⟨_, board, hboard, .inl rfl⟩
  exact ⟨c, cartridge, hc, hcycles, hrom, (Reachable.panicFree hc).1 _ hshort,
    (Reachable.panicFree hc).2.1 cartridge hrom _,
    ((Reachable.panicFree hc).2.2 _ [] _ (.load hrom) .nil).1⟩

end Console

end NesMachine
