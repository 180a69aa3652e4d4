import NesMachine.Proofs.Console.Progress

/-!
# Lockstep

Since its last reset, whatever a program and its calls did, the picture unit has done as many dots as
the cycles of the processor ask for, and its position and its frames are functions of their number.

* `lockstep`: dots, position, frames and pictures after any calls since a reset.
-/

namespace NesMachine

namespace Console

open Machine (Acts Dot Event InPhase Moved Counted dotsOf skipsIn)
open Ppu (After)

variable {c c' c₀ c₁ c₂ : Console} {tv : TvSystem}

/-! ## Dots since a reset -/

/-- In a frame, numbered from the reset on, a dot was left out. -/
def LeavesOut (tv : TvSystem) (ds : List Dot) (frame : Nat) : Prop :=
  ∃ front d back, ds = front ++ d :: back ∧ d.skips = true ∧
    (front.length + skipsIn front) / (341 * tv.lines) = frame

/-- A machine in step with the dots since a reset that began when `start` cycles were counted. -/
structure Lockstep (tv : TvSystem) (start : Nat) (ds : List Dot) (m : Machine) : Prop where
  start_le : start ≤ m.cpu.cycles
  dots : ds.length = 3 * (m.cpu.cycles - start) +
    match tv with
    | .ntsc => 0
    | .pal => m.cpu.cycles / 5 - start / 5
  first : -1 ≤ m.ppu.beam.scanline
  last : m.ppu.beam.scanline ≤ tv.lines - 2
  dot : m.ppu.beam.dot ≤ 340
  position : 341 * (m.ppu.beam.scanline % tv.lines) + m.ppu.beam.dot =
    ((ds.length + skipsIn ds) % (341 * tv.lines) : Nat)
  frameCount : m.ppu.frameCount =
    (ds.length + skipsIn ds + 341 * tv.lines - 81841) / (341 * tv.lines)
  presents : ∀ d ∈ ds, d.Presents
  pal : tv = .pal → skipsIn ds = 0
  alternate : ∀ frame, ¬ (LeavesOut tv ds frame ∧ LeavesOut tv ds (frame + 1))

theorem after_of_counted {count : Nat} {ds front back : List Dot} {d : Dot}
    (h : Counted tv count ds) (hds : ds = front ++ d :: back) :
    After tv (count + front.length + skipsIn front) d.1.ppu := by
  rw [hds, Machine.counted_append] at h
  exact h.2.1

/-- Dots are left out in frames of one parity only. -/
theorem even_of_leavesOut {ds : List Dot} {frame : Nat} (h : Counted tv 0 ds)
    (hframe : LeavesOut tv ds frame) : frame % 2 = 0 := by
  obtain ⟨front, d, back, hds, hskips, rfl⟩ := hframe
  have hafter := after_of_counted h hds
  rw [Nat.zero_add] at hafter
  exact hafter.even_of_skips hskips

theorem skipsIn_pal {ds : List Dot} (h : Counted .pal 0 ds) : skipsIn ds = 0 := by
  unfold skipsIn
  rw [List.countP_eq_zero]
  intro d hd
  obtain ⟨front, back, hds⟩ := List.append_of_mem hd
  have hafter := after_of_counted h hds
  rw [Dot.skips, Beam.not_skips_pal hafter.system]
  exact Bool.false_ne_true

/-- **Everything that acts since a reset does is in step.** -/
theorem acts_lockstep {m m' : Machine} {es : List Event} (hphase : InPhase m.cpu)
    (hafter : After m.cpu.tv 0 m.ppu) (hready : m.ppu.frameReady = false) (h : Acts m es m') :
    Lockstep m.cpu.tv m.cpu.cycles (dotsOf es) m' := by
  have hclocked := h.clocked hphase
  have hmoved := h.moved hafter hready
  have hcount := hclocked.dots
  have hle := hclocked.le
  generalize m.cpu.tv = tv at *
  generalize dotsOf es = ds at *
  obtain ⟨hend, -, hcounted, hpresents⟩ := hmoved
  rw [Nat.zero_add] at hend
  obtain ⟨hfirst, hlast, hdot⟩ := hend.inFrame
  rw [hend.system] at hlast
  refine ⟨hle, ?_, hfirst, hlast, hdot, ?_, hend.frameCount, hpresents, ?_, ?_⟩
  · unfold Machine.dotsIn at hcount
    cases tv <;> simp only at hcount ⊢ <;> omega
  · have hindex := hend.index
    rw [Beam.index, hend.system] at hindex
    have hlines := tv.lines_ge
    have hnonneg := Int.emod_nonneg m'.ppu.beam.scanline (show (tv.lines : Int) ≠ 0 by omega)
    unfold TvSystem.frameDots at hindex
    omega
  · rintro rfl
    exact skipsIn_pal hcounted
  · rintro frame ⟨hframe, hnext⟩
    have heven := even_of_leavesOut hcounted hframe
    have heven' := even_of_leavesOut hcounted hnext
    omega

/-! ## Resets and calls -/

/-- The resets of a console, with the cycles that are counted when they begin: pressing reset while
a game is in the slot, and loading a game. -/
inductive Resets (c : Console) : Nat → Console → Prop where
  | reset {c' : Console} : c.hasGame = true →
      Returns (c.reset : ExceptT Wreck Simulated Console) c' → Resets c c.machine.cpu.cycles c'
  | loadFile {c' : Console} {path : Path} :
      Returns (c.loadFile path : ExceptT Wreck Simulated _) (.ok (), c') → Resets c 0 c'
  | loadBytes {c' : Console} {bytes : Digest.Bytes} {name : String} :
      Returns (c.loadBytes bytes name : ExceptT Wreck Simulated _) (.ok (), c') → Resets c 0 c'

/-- The console as a reset begins. -/
structure Begins (c : Console) (start : Nat) (c₀ : Console) : Prop where
  console : c₀ = c.restarted ∨ ∃ cartridge, c₀ = (c.switchedOn cartridge).restarted
  cycles : c₀.machine.cpu.cycles = start

theorem finishLoad_begins {source : String} {outcome : Except LoadFailure Cartridge}
    (hc : Sound c)
    (hsome : ∀ cartridge, outcome = .ok cartridge → cartridge.slot.isSome = true)
    (h : Returns (c.finishLoad source outcome : ExceptT Wreck Simulated _) (.ok (), c₁)) :
    ∃ c₀, Begins c 0 c₀ ∧ Sound c₀ ∧ c₀.hasGame = true ∧ Called c₀ c₁ := by
  obtain ⟨cartridge, houtcome, hcalled⟩ := finishLoad_ok hc.shown hsome h
  exact ⟨_, ⟨.inr ⟨cartridge, rfl⟩, rfl⟩, hc.switchedOn cartridge, hsome cartridge houtcome,
    hcalled⟩

theorem Resets.begins {start : Nat} (hc : Sound c) (h : Resets c start c₁) :
    ∃ c₀, Begins c start c₀ ∧ Sound c₀ ∧ c₀.hasGame = true ∧ Called c₀ c₁ := by
  cases h with
  | reset hgame hreset =>
    exact ⟨_, ⟨.inl rfl, rfl⟩, hc.restarted, hgame, reset_called hgame hc.shown hreset⟩
  | loadFile hload =>
    obtain ⟨outcome, hcartridge, hload⟩ := hload.bind
    refine finishLoad_begins hc ?_ hload
    rintro cartridge rfl
    exact (load_slot hcartridge).isSome
  | loadBytes hload =>
    obtain ⟨outcome, hcartridge, hload⟩ := hload.bind
    refine finishLoad_begins hc ?_ hload
    rintro cartridge rfl
    exact (loadBytes_slot hcartridge).isSome

/-- A reset keeps the screen, and the picture unit starts over in it. -/
theorem Begins.screen {start : Nat} (h : Begins c start c₀) :
    c₀.machine.screen = c.machine.screen ∧ c₀.screen = c.screen ∧ c₀.machine.ppu.frameCount = 0 ∧
      c₀.machine.ppu.beam = { tv := c₀.machine.ppu.beam.tv } := by
  rcases h with ⟨rfl | ⟨cartridge, rfl⟩, -⟩
  · exact ⟨rfl, rfl, rfl, rfl⟩
  · exact ⟨rfl, rfl, rfl, rfl⟩

/-- **Processor and picture unit stay in step from a reset on.** The acts since the reset, and any
other way to see the same run as acts, have as many dots as the cycles ask for; their number decides
position and frames, and every frame has gone to the screen. -/
theorem lockstep {start : Nat} {ks : List Call} (hc : c.Reachable) (hreset : c.Resets start c₁)
    (hcalls : Returns (c₁.calls ks) c₂) :
    ∃ c₀, c.Begins start c₀ ∧ (∃ es, Acts c₀.machine es c₂.machine) ∧
      (∀ es, Acts c₀.machine es c₂.machine →
        Lockstep c₂.tv start (dotsOf es) c₂.machine) ∧
      (c.machine.screen = true →
        c₂.screen.pictures = c.screen.pictures + c₂.machine.ppu.frameCount) := by
  obtain ⟨c₀, hbegins, hc₀, hgame, hcalled⟩ := hreset.begins hc.sound
  have hc₁ := hc₀.called hcalled
  have hall := hcalled.trans (calls_called hc₁.shown hc₁.ready hcalls)
  obtain ⟨hscreen, hpictures, hframes, hbeam⟩ := hbegins.screen
  refine ⟨c₀, hbegins, hall.acts, ?_, ?_⟩
  · intro es hes
    obtain ⟨count, hposition⟩ := hc₀.position
    rw [hposition.system] at hbeam
    have hlockstep := acts_lockstep hc₀.inPhase (.start hbeam hframes) hc₀.ready hes
    rw [hbegins.cycles, ← hc₀.tv hgame, ← hall.tv] at hlockstep
    exact hlockstep
  · intro hattached
    have hcount := hall.pictures (hscreen.trans hattached)
    rw [hframes, hpictures] at hcount
    exact hcount

/-- A game of 16 KB of zeros on a console with a screen, and calls of every kind. -/
theorem lockstep_small : ∃ c c₁ c₂ : Console, c.Reachable ∧ c.Resets 0 c₁ ∧
    Returns (c₁.calls [.setButtons 1, .runFrame, .setIrq true, .step, .setPc 0x8000, .step]) c₂ ∧
    c.machine.screen = true ∧
    ∃ c₀, c.Begins 0 c₀ ∧ (∃ es, Acts c₀.machine es c₂.machine) ∧
      (∀ es, Acts c₀.machine es c₂.machine → Lockstep c₂.tv 0 (dotsOf es) c₂.machine) ∧
      (c.machine.screen = true →
        c₂.screen.pictures = c.screen.pictures + c₂.machine.ppu.frameCount) := by
  obtain ⟨c, c₁, bytes, name, hc, hscreen, hload, hgame⟩ := exists_loaded
  obtain ⟨c₂, hcalls, -⟩ := (calls_always [.setButtons 1, .runFrame, .setIrq true, .step,
    .setPc 0x8000, .step] hgame).returns
  exact ⟨c, c₁, c₂, hc, .loadBytes hload, hcalls, hscreen, lockstep hc (.loadBytes hload) hcalls⟩

end Console

end NesMachine
