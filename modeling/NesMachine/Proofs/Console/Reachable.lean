import NesMachine.Proofs.Console.Message

/-!
# Reachable consoles

A console comes of its settings, by calls, resets and changes of the game. Whatever was done to it,
its processor and its picture unit are set for the same television system, the picture is at a position
of the frame, and the extra dots of PAL are due in the cycles in which they should be.

* `Reachable.sound`: the invariant of reachable consoles.
* `call_cases`, `reset_cases`: what is done to the machine.
* `Invariant.reachable`: what the machine keeps, whatever is done to it.
* `Reachable.rests`: between calls, nothing is left to be handed on.
* `Lasting.reachable`: what no call changes, whatever the machine does.
-/

namespace NesMachine

namespace Console

open Machine (InPhase)
open Ppu (After)

variable {c c' : Console}

/-- The consoles that come of any settings, with anything done to them on any computer. -/
inductive Reachable : Console → Prop where
  | ofSettings {settings : Settings} {c : Console} :
      Console.ofSettings settings = .ok c → Reachable c
  | attachScreen {c : Console} : Reachable c → Reachable c.attachScreen
  | detachScreen {c : Console} :
      Reachable c → Reachable { c with machine := { c.machine with screen := false } }
  | setErrorLog {c : Console} (log : ErrorLog) : Reachable c → Reachable { c with errorLog := log }
  | call {c c' : Console} {k : Call} : Reachable c → Returns (c.call k) c' → Reachable c'
  | reset {c c' : Console} :
      Reachable c → Returns (c.reset : ExceptT Wreck Simulated Console) c' → Reachable c'
  | loadFile {c c' : Console} {path : Path} {result : Except LoadError Unit} : Reachable c →
      Returns (c.loadFile path : ExceptT Wreck Simulated _) (result, c') → Reachable c'
  | loadBytes {c c' : Console} {bytes : Digest.Bytes} {name : String}
      {result : Except LoadError Unit} : Reachable c →
      Returns (c.loadBytes bytes name : ExceptT Wreck Simulated _) (result, c') → Reachable c'
  | unload {c c' : Console} :
      Reachable c → Returns (c.unload : ExceptT Wreck Simulated Console) c' → Reachable c'

/-- A console with default settings that nothing was done to. -/
theorem exists_new : ∃ c : Console, c.Reachable ∧ c.machine = {} ∧ c.settings = {} := by
  have hcapacity : ¬ ({} : Settings).eventCapacity.toNat > maxEvents := by decide
  have hsettings : ∃ c : Console, Console.ofSettings {} = .ok c ∧ c.machine = {} ∧ c.settings = {} := by
    unfold Console.ofSettings
    rw [if_neg hcapacity]
    exact ⟨_, rfl, rfl, rfl⟩
  obtain ⟨c, hc, hmachine, hdefault⟩ := hsettings
  exact ⟨c, .ofSettings hc, hmachine, hdefault⟩

theorem exists_reachable : ∃ c : Console, c.Reachable ∧ c.machine = {} := by
  obtain ⟨c, hc, hmachine, -⟩ := exists_new
  exact ⟨c, hc, hmachine⟩

/-- What always holds of a console. -/
structure Sound (c : Console) : Prop where
  reachable : Ppu.Reachable c.machine.ppu
  shown : c.machine.shown = []
  ready : c.machine.ppu.frameReady = false
  inPhase : InPhase c.machine.cpu
  position : ∃ count, After c.machine.cpu.tv count c.machine.ppu
  tv : c.hasGame = true → c.tv = c.machine.cpu.tv

theorem Sound.called (hc : Sound c) (h : Called c c') : Sound c' := by
  obtain ⟨es, hes⟩ := h.acts
  obtain ⟨count, hafter⟩ := hc.position
  have hclocked := hes.clocked hc.inPhase
  have hmoved := hes.moved hafter hc.ready
  refine ⟨hes.reachable hc.reachable, h.shown, h.ready, hclocked.inPhase, ?_, fun hgame => ?_⟩
  · rw [hclocked.tv]
    exact ⟨_, hmoved.after⟩
  · rw [h.tv, hclocked.tv]
    exact hc.tv (h.game hgame)

/-- A reset makes the position right, whatever it was. -/
theorem sound_restarted (hshown : c.machine.shown = []) (hphase : InPhase c.machine.cpu)
    (htv : c.machine.ppu.beam.tv = c.machine.cpu.tv)
    (hsystem : c.hasGame = true → c.tv = c.machine.cpu.tv) : Sound c.restarted := by
  have hbeam : c.machine.ppu.reset.beam = { tv := c.machine.cpu.tv } := by
    rw [← htv]
    rfl
  exact ⟨.reset _, hshown, rfl, hphase, ⟨0, .start hbeam rfl⟩, hsystem⟩

theorem Sound.restarted (hc : Sound c) : Sound c.restarted :=
  sound_restarted hc.shown hc.inPhase hc.position.choose_spec.system hc.tv

theorem Sound.switchedOn (hc : Sound c) (cartridge : Cartridge) :
    Sound (c.switchedOn cartridge).restarted := by
  refine sound_restarted hc.shown ?_ rfl fun _ => rfl
  intro
  rfl

/-- The machine decides, and the system while a game is in the slot. -/
theorem Sound.same (hc : Sound c) (hmachine : c'.machine = c.machine) (htv : c'.tv = c.tv) :
    Sound c' := by
  obtain ⟨hreachable, hshown, hready, hphase, hposition, hsystem⟩ := hc
  unfold hasGame at hsystem
  rw [← hmachine] at *
  exact ⟨hreachable, hshown, hready, hphase, hposition, fun hgame => htv.trans (hsystem hgame)⟩

theorem Sound.finishLoad {source : String} {outcome : Except LoadFailure Cartridge}
    {result : Except LoadError Unit} (hc : Sound c)
    (hsome : ∀ cartridge, outcome = .ok cartridge → cartridge.slot.isSome = true)
    (h : Returns (c.finishLoad source outcome : ExceptT Wreck Simulated _) (result, c')) :
    Sound c' := by
  cases result with
  | ok done =>
    obtain ⟨cartridge, -, hcalled⟩ := finishLoad_ok hc.shown hsome h
    exact (hc.switchedOn cartridge).called hcalled
  | error error =>
    obtain ⟨s, s', h⟩ := h
    obtain ⟨-, rfl, -⟩ := finishLoad_run h
    exact hc.same rfl rfl

theorem ofSettings_sound {settings : Settings} (h : Console.ofSettings settings = .ok c) :
    Sound c := by
  have hmachine : c.machine = {} := by
    unfold Console.ofSettings at h
    split at h
    · cases h
    · cases h
      rfl
  have hgame : c.hasGame = false := by rw [hasGame, hmachine]; rfl
  constructor
  · rw [hmachine]
    exact .powerOn .ntsc
  · rw [hmachine]
  · rw [hmachine]
  · rw [hmachine]
    exact fun _ => rfl
  · rw [hmachine]
    exact ⟨0, .start rfl rfl⟩
  · intro hloaded
    rw [hgame] at hloaded
    exact absurd hloaded Bool.false_ne_true

theorem Sound.reset (hc : Sound c) (h : Returns (c.reset : ExceptT Wreck Simulated Console) c') :
    Sound c' := by
  cases hgame : c.hasGame with
  | true => exact hc.restarted.called (reset_called hgame hc.shown h)
  | false =>
    unfold Console.reset at h
    rw [hgame] at h
    rw [Returns.pure h]
    exact hc

theorem Sound.unload (hc : Sound c) (h : Returns (c.unload : ExceptT Wreck Simulated Console) c') :
    Sound c' := by
  obtain ⟨cartridge, hcartridge, h⟩ := h.bind
  rw [h.pure]
  have hempty := unload_slot hcartridge
  refine ⟨hc.reachable, hc.shown, hc.ready, hc.inPhase, hc.position, fun hgame => ?_⟩
  unfold hasGame remember at hgame
  simp only [hempty] at hgame
  cases hgame

/-- **The invariant of reachable consoles.** -/
theorem Reachable.sound (h : Reachable c) : Sound c := by
  induction h with
  | ofSettings hsettings => exact ofSettings_sound hsettings
  | attachScreen _ ih =>
    exact ⟨ih.reachable, ih.shown, ih.ready, ih.inPhase, ih.position, ih.tv⟩
  | detachScreen _ ih =>
    exact ⟨ih.reachable, ih.shown, ih.ready, ih.inPhase, ih.position, ih.tv⟩
  | setErrorLog log _ ih => exact ih.same rfl rfl
  | call _ hcall ih => exact ih.called (call_called ih.shown ih.ready hcall)
  | reset _ hreset ih => exact ih.reset hreset
  | loadFile _ hload ih =>
    obtain ⟨outcome, hcartridge, hload⟩ := hload.bind
    refine ih.finishLoad ?_ hload
    rintro cartridge rfl
    exact (load_slot hcartridge).isSome
  | loadBytes _ hload ih =>
    obtain ⟨outcome, hcartridge, hload⟩ := hload.bind
    refine ih.finishLoad ?_ hload
    rintro cartridge rfl
    exact (loadBytes_slot hcartridge).isSome
  | unload _ hunload ih => exact ih.unload hunload

/-! ## What is done to the machine -/

/-- What a reset comes to. -/
theorem reset_cases (h : Returns (c.reset : ExceptT Wreck Simulated Console) c') :
    (∃ m event, Machine.resetCpu c.restarted.machine = .ok ((), m) ∧
      c' = (c.restarted.behind m).remember event) ∨ c' = c := by
  unfold Console.reset at h
  split_ifs at h
  · obtain ⟨⟨a, c₁⟩, hrun, h⟩ := h.bind
    have hrestarted : Returns (run Machine.resetCpu c.restarted) (a, c₁) := hrun
    obtain ⟨m, hreset, rfl⟩ := run_returns hrestarted
    exact .inl ⟨m, _, hreset, Returns.pure h⟩
  · exact .inr h.pure

/-- What a call comes to: a part of a run, or a change of a line or of the program counter. -/
theorem call_cases {k : Call} (h : Returns (c.call k) c') :
    (∃ part ∈ [Machine.step, Machine.runFrame], ∃ m, part c.machine = .ok ((), m) ∧
      c' = c.behind m) ∨
    (c' = { c with machine := { c.machine with cpu := c'.machine.cpu, pad := c'.machine.pad } } ∧
      c'.machine.cpu.registers =
        { c.machine.cpu.registers with pc := c'.machine.cpu.registers.pc }) := by
  cases k with
  | runFrame =>
    unfold Console.call runFrame at h
    simp only at h
    split_ifs at h
    · obtain ⟨r, hrun, h⟩ := h.bind
      obtain ⟨m, hframe, hbehind⟩ := run_returns hrun
      exact .inl ⟨_, by simp, m, hframe, h.pure.trans hbehind⟩
    · rw [h.pure]
      exact .inr ⟨rfl, rfl⟩
  | step =>
    obtain ⟨r, hstep, h⟩ := h.bind
    rw [h.pure]
    unfold step at hstep
    split_ifs at hstep
    · obtain ⟨r', hrun, hstep⟩ := hstep.bind
      obtain ⟨m, hstepped, hbehind⟩ := run_returns hrun
      rw [hstep.pure]
      exact .inl ⟨_, by simp, m, hstepped, hbehind⟩
    · rw [hstep.pure]
      exact .inr ⟨rfl, rfl⟩
  | setPc pc =>
    rw [h.pure]
    exact .inr ⟨rfl, rfl⟩
  | setButtons buttons =>
    rw [h.pure]
    exact .inr ⟨rfl, rfl⟩
  | setIrq irq =>
    rw [h.pure]
    exact .inr ⟨rfl, rfl⟩

/-! ## Invariants of the machine -/

/-- A property of machines that holds of a new one and is kept by all that a console does to its
machine: the parts of a run, behind which nothing is left to be handed on, another processor, and
other changes that leave the registers of the processor alone, the program counter apart. -/
structure Invariant (P : Machine → Prop) : Prop where
  new : P {}
  run {part : Machine.Run Unit} {m m' : Machine} :
    part ∈ [Machine.resetCpu, Machine.step, Machine.runFrame] → part m = .ok ((), m') → P m →
      P { m' with shown := [], notices := [] }
  renew {m m' : Machine} : P m → m'.shown = m.shown → m'.notices = m.notices →
    m'.cpu.registers = {} → P m'
  other {m m' : Machine} : P m → m'.shown = m.shown → m'.notices = m.notices →
    m'.cpu.registers = { m.cpu.registers with pc := m'.cpu.registers.pc } → P m'

section Invariant

variable {P : Machine → Prop}

theorem Invariant.reset (hP : Invariant P) (hc : P c.machine)
    (h : Returns (c.reset : ExceptT Wreck Simulated Console) c') : P c'.machine := by
  rcases reset_cases h with ⟨m, event, hreset, rfl⟩ | rfl
  · exact hP.run (by simp) hreset (hP.other hc rfl rfl rfl)
  · exact hc

theorem Invariant.call {k : Call} (hP : Invariant P) (hc : P c.machine)
    (h : Returns (c.call k) c') : P c'.machine := by
  rcases call_cases h with ⟨part, hpart, m, hrun, rfl⟩ | ⟨hsame, hregisters⟩
  · exact hP.run (List.mem_cons_of_mem _ hpart) hrun hc
  · exact hP.other hc (by rw [hsame]) (by rw [hsame]) hregisters

theorem Invariant.finishLoad {source : String} {outcome : Except LoadFailure Cartridge}
    {result : Except LoadError Unit} (hP : Invariant P) (hc : P c.machine)
    (h : Returns (c.finishLoad source outcome : ExceptT Wreck Simulated _) (result, c')) :
    P c'.machine := by
  cases result with
  | ok done =>
    obtain ⟨cartridge, c₁, event, -, hreset, rfl⟩ := finishLoad_reset h
    have hswitched : P (c.switchedOn cartridge).machine := hP.renew hc rfl rfl rfl
    have hstarted : P c₁.machine := hP.reset hswitched hreset
    exact hstarted
  | error error =>
    obtain ⟨s, s', h⟩ := h
    obtain ⟨-, rfl, -⟩ := finishLoad_run h
    exact hc

/-- **An invariant holds of every machine of a console.** -/
theorem Invariant.reachable (hP : Invariant P) (h : c.Reachable) : P c.machine := by
  induction h with
  | @ofSettings settings c hnew =>
    unfold Console.ofSettings at hnew
    split_ifs at hnew
    cases hnew
    exact hP.new
  | attachScreen _ ih => exact hP.other ih rfl rfl rfl
  | detachScreen _ ih => exact hP.other ih rfl rfl rfl
  | setErrorLog log _ ih => exact ih
  | call _ hcall ih => exact hP.call ih hcall
  | reset _ hreset ih => exact hP.reset ih hreset
  | loadFile _ hload ih =>
    obtain ⟨outcome, -, hload⟩ := hload.bind
    exact hP.finishLoad ih hload
  | loadBytes _ hload ih =>
    obtain ⟨outcome, -, hload⟩ := hload.bind
    exact hP.finishLoad ih hload
  | unload _ hunload ih =>
    obtain ⟨cartridge, -, hunload⟩ := hunload.bind
    rw [hunload.pure]
    exact hP.other ih rfl rfl rfl

end Invariant

/-! ## Between calls -/

/-- A console between its calls: nothing is left to be handed on. -/
structure Rests (c : Console) : Prop where
  shown : c.machine.shown = []
  notices : c.machine.notices = []

theorem rests_behind (c : Console) (m : Machine) : (c.behind m).Rests := ⟨rfl, rfl⟩

/-- **Every console rests between its calls.** -/
theorem Reachable.rests (h : c.Reachable) : c.Rests := by
  have hrests : Invariant fun m => m.shown = [] ∧ m.notices = [] := by
    constructor
    case new => exact ⟨rfl, rfl⟩
    case run => exact fun _ _ _ => ⟨rfl, rfl⟩
    case renew => exact fun hm hshown hnotices _ => ⟨hshown.trans hm.1, hnotices.trans hm.2⟩
    case other => exact fun hm hshown hnotices _ => ⟨hshown.trans hm.1, hnotices.trans hm.2⟩
  obtain ⟨hshown, hnotices⟩ := hrests.reachable h
  exact ⟨hshown, hnotices⟩

/-! ## What lasts -/

/-- A property of settings, the directory of saves and events that outlasts being told something. -/
structure Lasting (P : Console → Prop) : Prop where
  other {c c' : Console} : P c → c'.settings = c.settings → c'.saveDir = c.saveDir →
    c'.events = c.events → P c'
  remember {c : Console} (event : String) : P c → P (c.remember event)

section Lasting

variable {P : Console → Prop}

theorem Lasting.reset (hP : Lasting P) (hc : P c)
    (h : Returns (c.reset : ExceptT Wreck Simulated Console) c') : P c' := by
  rcases reset_cases h with ⟨m, event, -, rfl⟩ | rfl
  · exact hP.remember _ (hP.other hc rfl rfl rfl)
  · exact hc

theorem Lasting.call {k : Call} (hP : Lasting P) (hc : P c) (h : Returns (c.call k) c') : P c' := by
  rcases call_cases h with ⟨part, -, m, -, rfl⟩ | ⟨hsame, -⟩
  · exact hP.other hc rfl rfl rfl
  · exact hP.other hc (by rw [hsame]) (by rw [hsame]) (by rw [hsame])

theorem Lasting.finishLoad {source : String} {outcome : Except LoadFailure Cartridge}
    {result : Except LoadError Unit} (hP : Lasting P) (hc : P c)
    (h : Returns (c.finishLoad source outcome : ExceptT Wreck Simulated _) (result, c')) : P c' := by
  cases result with
  | ok done =>
    obtain ⟨cartridge, c₁, event, -, hreset, rfl⟩ := finishLoad_reset h
    have hswitched : P (c.switchedOn cartridge) := hP.other hc rfl rfl rfl
    exact hP.remember _ (hP.reset hswitched hreset)
  | error error =>
    obtain ⟨s, s', h⟩ := h
    obtain ⟨-, rfl, -⟩ := finishLoad_run h
    have hremembered := hP.remember ("failed to load " ++ source ++ ": " ++ error.message) hc
    exact hP.other hremembered rfl rfl rfl

/-- **What holds of a new console lasts.** -/
theorem Lasting.reachable (hP : Lasting P)
    (hnew : ∀ settings c, Console.ofSettings settings = .ok c → P c) (h : c.Reachable) : P c := by
  induction h with
  | ofSettings h => exact hnew _ _ h
  | attachScreen _ ih => exact hP.other ih rfl rfl rfl
  | detachScreen _ ih => exact hP.other ih rfl rfl rfl
  | setErrorLog log _ ih => exact hP.other ih rfl rfl rfl
  | call _ hcall ih => exact hP.call ih hcall
  | reset _ hreset ih => exact hP.reset ih hreset
  | loadFile _ hload ih =>
    obtain ⟨outcome, -, hload⟩ := hload.bind
    exact hP.finishLoad ih hload
  | loadBytes _ hload ih =>
    obtain ⟨outcome, -, hload⟩ := hload.bind
    exact hP.finishLoad ih hload
  | unload _ hunload ih =>
    obtain ⟨cartridge, -, hunload⟩ := hunload.bind
    rw [hunload.pure]
    exact hP.remember _ (hP.other ih rfl rfl rfl)

end Lasting

/-- Saves are kept where the settings say. -/
theorem Reachable.saveDir (h : c.Reachable) : c.saveDir = c.settings.saveDir := by
  refine Lasting.reachable (P := fun c => c.saveDir = c.settings.saveDir) ⟨?_, fun _ hc => hc⟩ ?_ h
  · intro c c' hc hsettings hdir _
    rw [hsettings, hdir, hc]
  · intro settings c hnew
    unfold Console.ofSettings at hnew
    split_ifs at hnew
    cases hnew
    rfl

end Console

end NesMachine
