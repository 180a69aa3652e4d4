import NesMachine.Console.Basic
import NesMachine.Simulation
import NesMachine.Proofs.Machine.Step

/-!
# Calls of the console

What the calls of the console do to its machine, on a modelled computer: each lets the machine act, or
starts it over before it acts.

* `call_called`, `calls_called`: the calls between two resets.
* `reset_called`, `finishLoad_called`: the calls that reset.
-/

namespace NesMachine

/-- A slot with a game that was read from a file, on its board, perhaps with its save. -/
def Slot.FromRom (slot : Slot) : Prop := ∃ bytes board, Cartridge.boardOf bytes = .ok board ∧
  (slot = some board ∨ ∃ saved, slot = some (Cartridge.restored board saved))

theorem Slot.FromRom.isSome {slot : Slot} (h : slot.FromRom) : slot.isSome = true := by
  obtain ⟨bytes, board, -, rfl | ⟨saved, rfl⟩⟩ := h <;> rfl

namespace Console

open Machine (Acts Act Quiet)

variable {α β : Type} {c c' c₁ : Console}

/-! ## Calls that return -/

variable {x : ExceptT Wreck Simulated α} {f : α → ExceptT Wreck Simulated β} {s s' : Simulation}

theorem bind_run {a : α} (h : x s = (.ok a, s')) : (x >>= f) s = f a s' := by
  show (match x s with
    | (r, s₁) => ExceptT.bindCont f r s₁) = _
  rw [h]
  rfl

theorem bind_run_error {w : Wreck} (h : x s = (.error w, s')) : (x >>= f) s = (.error w, s') := by
  show (match x s with
    | (r, s₁) => ExceptT.bindCont f r s₁) = _
  rw [h]
  rfl

theorem of_bind_run {b : β} (h : (x >>= f) s = (.ok b, s')) :
    ∃ a s₁, x s = (.ok a, s₁) ∧ f a s₁ = (.ok b, s') := by
  cases hx : x s with
  | mk r s₁ =>
    cases r with
    | ok a => exact ⟨a, s₁, rfl, (bind_run hx).symm.trans h⟩
    | error w => cases (bind_run_error hx).symm.trans h

/-- A call returns a value, on some computer. -/
def Returns (x : ExceptT Wreck Simulated α) (a : α) : Prop := ∃ s s', x s = (.ok a, s')

theorem Returns.bind {b : β} (h : Returns (x >>= f) b) : ∃ a, Returns x a ∧ Returns (f a) b := by
  obtain ⟨s, s', h⟩ := h
  obtain ⟨a, s₁, hx, hf⟩ := of_bind_run h
  exact ⟨a, ⟨s, s₁, hx⟩, s₁, s', hf⟩

theorem Returns.pure {a b : α} (h : Returns (Pure.pure a : ExceptT Wreck Simulated α) b) :
    b = a := by
  obtain ⟨s, s', h⟩ := h
  cases h
  rfl

theorem Returns.throw {e : Wreck} {a : α}
    (h : Returns (throw e : ExceptT Wreck Simulated α) a) : False := by
  obtain ⟨s, s', h⟩ := h
  cases h

/-! ## Runs of the machine -/

/-- The console behind a run of its machine. -/
def behind (c : Console) (m : Machine) : Console :=
  { c with
    machine := { m with shown := [], notices := [] }
    screen := ⟨c.screen.pictures + m.shown.length, m.shown.head?.or c.screen.last⟩ }

/-- A run of the machine, its reports, and what is left behind it. -/
theorem run_eq (part : Machine.Run α) (c : Console) :
    (run part c : ExceptT Wreck Simulated (α × Console)) =
      (match part c.machine with
      | .ok (a, m) => do
        noteAll m.notices
        return (a, c.behind m)
      | .error crash => do
        noteAll crash.notices
        throw ⟨.board crash.fault, ⟨crash.slot, c.saveDir, c.saveFile⟩⟩) := by
  unfold run
  simp only
  cases part c.machine with
  | error crash => rfl
  | ok r =>
    have hbehind : present { c with machine := { r.2 with notices := [] } } = c.behind r.2 := by
      obtain ⟨a, ⟨cpu, ppu, slot, pad, screen, shown, notices⟩⟩ := r
      cases shown <;> simp [present, behind, Nat.add_assoc]
    simp only
    rw [hbehind]

theorem run_returns {part : Machine.Run α} {a : α} (h : Returns (run part c) (a, c')) :
    ∃ m, part c.machine = .ok (a, m) ∧ c' = c.behind m := by
  rw [run_eq] at h
  split at h
  · rename_i hpart
    obtain ⟨-, -, h⟩ := h.bind
    cases h.pure
    exact ⟨_, hpart, rfl⟩
  · obtain ⟨-, -, h⟩ := h.bind
    exact h.throw.elim

/-- The machine of a console acted, and every picture it completed went to the screen. -/
structure Called (c c' : Console) : Prop where
  acts : ∃ es, Acts c.machine es c'.machine
  shown : c'.machine.shown = []
  ready : c'.machine.ppu.frameReady = false
  screen : c'.machine.screen = c.machine.screen
  pictures : c.machine.screen = true →
    c'.screen.pictures + c.machine.ppu.frameCount = c.screen.pictures + c'.machine.ppu.frameCount
  tv : c'.tv = c.tv
  game : c'.hasGame = true → c.hasGame = true

theorem Called.refl (hshown : c.machine.shown = []) (hready : c.machine.ppu.frameReady = false) :
    Called c c := ⟨⟨[], .nil⟩, hshown, hready, rfl, fun _ => rfl, rfl, id⟩

theorem Called.trans (h : Called c c₁) (h' : Called c₁ c') : Called c c' := by
  obtain ⟨es, hes⟩ := h.acts
  obtain ⟨fs, hfs⟩ := h'.acts
  refine ⟨⟨es ++ fs, hes.append hfs⟩, h'.shown, h'.ready, h'.screen.trans h.screen,
    fun hscreen => ?_, h'.tv.trans h.tv, h.game ∘ h'.game⟩
  have hfirst := h.pictures hscreen
  have hrest := h'.pictures (h.screen.trans hscreen)
  omega

/-- A call that the picture unit does not notice. -/
theorem Called.quiet (hshown : c.machine.shown = []) (hready : c.machine.ppu.frameReady = false)
    (h : Quiet c.machine c'.machine) (hpictures : c'.screen = c.screen) (htv : c'.tv = c.tv)
    (hslot : c'.machine.slot = c.machine.slot) : Called c c' := by
  have hppu := h.ppu
  refine ⟨⟨_, (Act.quiet h).single⟩, h.shown.trans hshown, by rw [hppu, hready], h.screen,
    fun _ => ?_, htv, fun hgame => ?_⟩
  · rw [hpictures, hppu]
  · rwa [hasGame, hslot] at hgame

/-- **A run of the machine, with its pictures handed to the screen.** -/
theorem run_called {part : Machine.Run α} {a : α} (hpart : Machine.Part part)
    (hgame : c.hasGame = true) (hshown : c.machine.shown = [])
    (hready : c.machine.ppu.frameReady = false) (h : Returns (run part c) (a, c')) :
    Called c c' := by
  obtain ⟨m, hrun, rfl⟩ := run_returns h
  obtain ⟨es, hes, hhand⟩ := hpart.acts hrun
  have hshows := hes.shows hready hhand
  refine ⟨⟨es ++ [.hand], hes.append Act.hand.single⟩, rfl, hshows.ready, hshows.screen,
    fun hscreen => ?_, rfl, fun _ => hgame⟩
  have hcount := hshows.count hscreen
  rw [hshown, List.length_nil] at hcount
  show c.screen.pictures + m.shown.length + _ = _ + m.ppu.frameCount
  omega

/-! ## Calls between resets -/

/-- What a program that embeds the console does to it while a game runs. -/
inductive Call where
  | runFrame
  | step
  | setPc (pc : UInt16)
  | setButtons (buttons : UInt8)
  | setIrq (irq : Bool)

/-- Makes a call. -/
def call (c : Console) : Call → ExceptT Wreck Simulated Console
  | .runFrame => c.runFrame
  | .step => do return (← c.step).2
  | .setPc pc => return c.setPc pc
  | .setButtons buttons => return c.setButtons buttons
  | .setIrq irq => return c.setIrq irq

/-- Makes calls, in order. -/
def calls (c : Console) : List Call → ExceptT Wreck Simulated Console
  | [] => return c
  | k :: ks => do (← c.call k).calls ks

theorem runFrame_called (hshown : c.machine.shown = [])
    (hready : c.machine.ppu.frameReady = false)
    (h : Returns (c.runFrame : ExceptT Wreck Simulated Console) c') : Called c c' := by
  unfold runFrame at h
  split at h
  · rename_i hgame
    obtain ⟨⟨a, c₁⟩, hrun, h⟩ := h.bind
    rw [h.pure]
    exact run_called .runFrame hgame hshown hready hrun
  · rw [h.pure]
    exact .refl hshown hready

theorem step_called {cycles : Nat} (hshown : c.machine.shown = [])
    (hready : c.machine.ppu.frameReady = false)
    (h : Returns (c.step : ExceptT Wreck Simulated (Nat × Console)) (cycles, c')) :
    Called c c' := by
  unfold step at h
  split at h
  · rename_i hgame
    obtain ⟨⟨a, c₁⟩, hrun, h⟩ := h.bind
    cases h.pure
    exact run_called .step hgame hshown hready hrun
  · cases h.pure
    exact .refl hshown hready

theorem call_called {k : Call} (hshown : c.machine.shown = [])
    (hready : c.machine.ppu.frameReady = false) (h : Returns (c.call k) c') : Called c c' := by
  have hquiet {m' : Machine} (hcpu : m'.cpu = { c.machine.cpu with
        registers := m'.cpu.registers, irq := m'.cpu.irq })
      (hm : m' = { c.machine with cpu := m'.cpu, pad := m'.pad }) :
      Called c { c with machine := m' } := by
    have hmachine : Quiet c.machine m' := by
      rw [hm, hcpu]
      exact ⟨rfl, rfl, rfl, rfl, rfl, rfl, rfl, rfl⟩
    exact .quiet hshown hready hmachine rfl rfl (by rw [hm])
  cases k with
  | runFrame => exact runFrame_called hshown hready h
  | step =>
    obtain ⟨⟨cycles, c₁⟩, hstep, h⟩ := h.bind
    rw [h.pure]
    exact step_called hshown hready hstep
  | setPc pc => rw [h.pure]; exact hquiet rfl rfl
  | setButtons buttons => rw [h.pure]; exact hquiet rfl rfl
  | setIrq irq => rw [h.pure]; exact hquiet rfl rfl

theorem calls_called {ks : List Call} (hshown : c.machine.shown = [])
    (hready : c.machine.ppu.frameReady = false) (h : Returns (c.calls ks) c') : Called c c' := by
  induction ks generalizing c with
  | nil =>
    rw [h.pure]
    exact .refl hshown hready
  | cons k ks ih =>
    obtain ⟨c₁, hcall, h⟩ := h.bind
    have hfirst := call_called hshown hready hcall
    exact hfirst.trans (ih hfirst.shown hfirst.ready h)

/-! ## Calls that reset -/

/-- The console as its reset begins: the picture unit has started over. -/
def restarted (c : Console) : Console :=
  { c with machine := { c.machine with ppu := c.machine.ppu.reset } }

/-- The console with a game in its slot, switched on. -/
def switchedOn (c : Console) (cartridge : Cartridge) : Console :=
  let tv := c.settings.tv.getD cartridge.slot.tv
  { c with
    tv
    saveFile := cartridge.saveFile
    machine := { c.machine with
      slot := cartridge.slot, cpu := ({} : Cpu).setTv tv, ppu := c.machine.ppu.setTv tv } }

theorem Called.remember {event : String} (h : Called c c') : Called c (c'.remember event) :=
  ⟨h.acts, h.shown, h.ready, h.screen, h.pictures, h.tv, h.game⟩

theorem reset_called (hgame : c.hasGame = true) (hshown : c.machine.shown = [])
    (h : Returns (c.reset : ExceptT Wreck Simulated Console) c') : Called c.restarted c' := by
  unfold reset at h
  rw [if_pos hgame] at h
  obtain ⟨⟨a, c₁⟩, hrun, h⟩ := h.bind
  have hrestarted : Returns (run Machine.resetCpu c.restarted) (a, c₁) := hrun
  have hpure := Returns.pure h
  rw [hpure]
  exact (run_called (c := c.restarted) .resetCpu hgame hshown rfl hrestarted).remember

theorem insert_slot {cartridge loaded : Cartridge} {board : Board} {saveFile : Option Path}
    (h : Returns (cartridge.insert board saveFile : ExceptT Wreck Simulated Cartridge) loaded) :
    loaded.slot = some board ∨ ∃ saved, loaded.slot = some (Cartridge.restored board saved) := by
  obtain ⟨emptied, -, h⟩ := h.bind
  cases saveFile with
  | none =>
    obtain ⟨board', hboard, h⟩ := h.bind
    obtain ⟨-, -, h⟩ := h.bind
    rw [h.pure, hboard.pure]
    exact .inl rfl
  | some path =>
    obtain ⟨board', hboard, h⟩ := h.bind
    obtain ⟨-, -, h⟩ := h.bind
    rw [h.pure]
    obtain ⟨result, -, hboard⟩ := hboard.bind
    split at hboard
    · rename_i saved
      obtain ⟨-, -, hboard⟩ := Returns.bind hboard
      rw [Returns.pure hboard]
      exact .inr ⟨saved, rfl⟩
    · rw [Returns.pure hboard]
      exact .inl rfl
    · obtain ⟨-, -, hboard⟩ := Returns.bind hboard
      rw [Returns.pure hboard]
      exact .inl rfl

theorem loadBytes_slot {cartridge loaded : Cartridge} {bytes : Digest.Bytes} {saveFile : Option Path}
    (h : Returns (cartridge.loadBytes bytes saveFile :
      ExceptT Wreck Simulated (Except LoadFailure Cartridge)) (.ok loaded)) :
    loaded.slot.FromRom := by
  unfold Cartridge.loadBytes at h
  split at h
  · rename_i board hboard
    obtain ⟨inserted, hinsert, h⟩ := h.bind
    cases h.pure
    exact ⟨bytes, board, hboard, insert_slot hinsert⟩
  · cases h.pure

theorem load_slot {cartridge loaded : Cartridge} {path : Path}
    (h : Returns (cartridge.load path :
      ExceptT Wreck Simulated (Except LoadFailure Cartridge)) (.ok loaded)) :
    loaded.slot.FromRom := by
  obtain ⟨result, -, h⟩ := h.bind
  split at h
  · exact loadBytes_slot h
  · cases h.pure
  · cases h.pure

/-- Whatever the host makes of the save, the slot is empty behind it. -/
theorem unload_slot {cartridge emptied : Cartridge}
    (h : Returns (cartridge.unload : ExceptT Wreck Simulated Cartridge) emptied) :
    emptied.slot = none := by
  obtain ⟨-, -, h⟩ := h.bind
  split at h
  · obtain ⟨_, -, h⟩ := Returns.bind h
    rw [Returns.pure h]
  · rw [Returns.pure h]

/-- A load that succeeds is a reset of the console with the new game in its slot. -/
theorem finishLoad_reset {source : String} {outcome : Except LoadFailure Cartridge}
    (h : Returns (c.finishLoad source outcome :
      ExceptT Wreck Simulated (Except LoadError Unit × Console)) (.ok (), c')) :
    ∃ cartridge c₁ event, outcome = .ok cartridge ∧
      Returns ((c.switchedOn cartridge).reset : ExceptT Wreck Simulated Console) c₁ ∧
        c' = c₁.remember event := by
  unfold finishLoad at h
  split at h
  · rename_i cartridge
    obtain ⟨c₁, hinstall, h⟩ := h.bind
    cases h.pure
    obtain ⟨c₂, hreset, hinstall⟩ := hinstall.bind
    exact ⟨cartridge, c₂, _, rfl, hreset, hinstall.pure⟩
  · obtain ⟨c₁, -, h⟩ := h.bind
    cases h.pure
  · exact h.throw.elim

theorem finishLoad_ok {source : String} {outcome : Except LoadFailure Cartridge}
    (hshown : c.machine.shown = [])
    (hsome : ∀ cartridge, outcome = .ok cartridge → cartridge.slot.isSome = true)
    (h : Returns (c.finishLoad source outcome :
      ExceptT Wreck Simulated (Except LoadError Unit × Console)) (.ok (), c')) :
    ∃ cartridge, outcome = .ok cartridge ∧ Called (c.switchedOn cartridge).restarted c' := by
  obtain ⟨cartridge, c₁, event, rfl, hreset, rfl⟩ := finishLoad_reset h
  have hcalled := reset_called (c := c.switchedOn cartridge) (hsome cartridge rfl) hshown hreset
  exact ⟨cartridge, rfl, hcalled.remember⟩

end Console

end NesMachine
