import NesMachine.Proofs.Console.Peers
import NesMachine.Proofs.Machine.Settling

/-!
# Runs that can be reproduced

A game that is loaded finds a new processor and a picture unit that was reset, whose memories are as the
game before left them, and the pad as it was. Nothing else is left of what happened before.

* `reproducible`: loads are followed by the same exactly if they find the same memories and pads that
  read alike.
* `residue`: a game can leave something in the memories, which the next one finds.
-/

namespace NesMachine

open Digest (Bytes)
open Ppu (SameMemories)

/-- Pads that read alike once the same buttons are held. -/
structure Pad.SameLatch (pad pad' : Pad) : Prop where
  strobe : pad'.strobe = pad.strobe
  shift : pad.strobe = false → pad'.shift = pad.shift

theorem Pad.setButtons_eq_iff {pad pad' : Pad} {buttons : UInt8} :
    pad'.setButtons buttons = pad.setButtons buttons ↔ SameLatch pad pad' := by
  constructor
  · intro h
    have hstrobe := congrArg Pad.strobe h
    have hshift := congrArg Pad.shift h
    unfold Pad.setButtons at hstrobe hshift
    refine ⟨hstrobe, fun hlow => ?_⟩
    rwa [hstrobe, hlow, if_neg Bool.false_ne_true, if_neg Bool.false_ne_true] at hshift
  · intro h
    unfold Pad.setButtons
    rw [h.strobe]
    cases hstrobe : pad.strobe with
    | true => rfl
    | false => rw [h.shift hstrobe]

namespace Console

variable {c c' c₁ c₁' : Console} {bytes : Bytes} {name name' : String}

/-! ## What a load comes to -/

/-- The console with a game in its slot that has no save file, as its reset begins. -/
def started (c : Console) (board : Board) : Console :=
  (c.switchedOn { c.cartridge with slot := some board, saveFile := none }).restarted

/-- A load that succeeds is a reset of the processor behind it. -/
theorem loadBytes_ok (h : Returns (c.loadBytes bytes name : ExceptT Wreck Simulated _) (.ok (), c₁)) :
    ∃ board m events, Cartridge.boardOf bytes = .ok board ∧
      Machine.resetCpu (c.started board).machine = .ok ((), m) ∧
        c₁ = { (c.started board).behind m with events } := by
  obtain ⟨outcome, hcartridge, h⟩ := h.bind
  have houtcome := (game_always c.cartridge bytes).of_returns hcartridge
  obtain ⟨cartridge, c₂, event, rfl, hreset, rfl⟩ := finishLoad_reset h
  cases hboard : Cartridge.boardOf bytes with
  | error failure =>
    rw [hboard] at houtcome
    cases houtcome
  | ok board =>
    rw [hboard] at houtcome
    cases houtcome
    unfold reset at hreset
    rw [if_pos (show (c.switchedOn _).hasGame = true from rfl)] at hreset
    obtain ⟨⟨a, c₃⟩, hrun, hreset⟩ := hreset.bind
    have hrestarted : Returns (run Machine.resetCpu (c.started board)) (a, c₃) := hrun
    obtain ⟨m, hm, rfl⟩ := run_returns hrestarted
    rw [Returns.pure hreset]
    exact ⟨board, m, _, rfl, hm, rfl⟩

/-- The picture units of two consoles with the same memories settle while a game is loaded. -/
theorem started_settling (board : Board) (hmemories : SameMemories c.machine.ppu c'.machine.ppu)
    (hsettings : c'.settings = c.settings) :
    Ppu.Settling (some board) 0 (c.started board).machine.ppu (c'.started board).machine.ppu := by
  refine .reset ⟨hmemories.nametables, hmemories.palette, hmemories.oam⟩ ?_
  show c'.settings.tv.getD _ = c.settings.tv.getD _
  rw [hsettings]

/-- A load leaves the memories and the pad as they were. -/
theorem loadBytes_kept (h : Returns (c.loadBytes bytes name : ExceptT Wreck Simulated _) (.ok (), c₁)) :
    SameMemories c.machine.ppu c₁.machine.ppu ∧ c₁.machine.pad = c.machine.pad := by
  obtain ⟨board, m, events, -, hm, rfl⟩ := loadBytes_ok h
  obtain ⟨hrest, -, hmemories⟩ :=
    Machine.resetCpu_settles rfl rfl (started_settling (c := c) board ⟨rfl, rfl, rfl⟩ rfl) hm hm
  refine ⟨⟨hmemories.nametables, hmemories.palette, hmemories.oam⟩, ?_⟩
  show m.pad = c.machine.pad
  rw [hrest]
  rfl

theorem loadBytes_peers (hc : c.Reachable) (hc' : c'.Reachable)
    (hsettings : c'.settings = c.settings) (hmemories : SameMemories c.machine.ppu c'.machine.ppu)
    (hpad : Pad.SameLatch c.machine.pad c'.machine.pad)
    (h : Returns (c.loadBytes bytes name : ExceptT Wreck Simulated _) (.ok (), c₁))
    (h' : Returns (c'.loadBytes bytes name' : ExceptT Wreck Simulated _) (.ok (), c₁'))
    (buttons : UInt8) :
    Peers c₁.screen c₁'.screen (c₁.setButtons buttons) (c₁'.setButtons buttons) := by
  obtain ⟨board, m, events, hboard, hm, rfl⟩ := loadBytes_ok h
  obtain ⟨board', m', events', hboard', hm', rfl⟩ := loadBytes_ok h'
  cases hboard.symm.trans hboard'
  have hcpu : (c'.started board).machine.cpu = (c.started board).machine.cpu := by
    show ({} : Cpu).setTv (c'.settings.tv.getD _) = ({} : Cpu).setTv (c.settings.tv.getD _)
    rw [hsettings]
  obtain ⟨hrest, hrest', -⟩ :=
    Machine.resetCpu_settles hcpu rfl (started_settling board hmemories hsettings) hm hm'
  have hpads : m'.pad.setButtons buttons = m.pad.setButtons buttons := by
    rw [hrest', hrest]
    exact Pad.setButtons_eq_iff.mpr hpad
  have hslot : m'.slot = m.slot := by
    rw [hrest', hrest]
    rfl
  have hsame : m'.cpu = m.cpu ∧ m'.ppu = m.ppu := by
    rw [hrest']
    exact ⟨rfl, rfl⟩
  refine ⟨?_, rfl, hsettings, ?_, ?_, rfl, fun _ _ => .inr ⟨[], rfl, rfl⟩⟩
  · show ({ m' with pad := m'.pad.setButtons buttons, shown := [], notices := [] } : Machine) =
      { m with pad := m.pad.setButtons buttons, shown := [], notices := [], screen := m'.screen }
    rw [hpads, hslot, hsame.1, hsame.2]
  · show c'.settings.tv.getD _ = c.settings.tv.getD _
    rw [hsettings]
  · show c'.saveDir = c.saveDir
    rw [hc'.saveDir, hc.saveDir, hsettings]

/-- What a load keeps shows behind it. -/
theorem Peers.before {first first' : Screen} {buttons : UInt8}
    (hpeers : Peers first first' (c₁.setButtons buttons) (c₁'.setButtons buttons))
    (h : Returns (c.loadBytes bytes name : ExceptT Wreck Simulated _) (.ok (), c₁))
    (h' : Returns (c'.loadBytes bytes name' : ExceptT Wreck Simulated _) (.ok (), c₁')) :
    SameMemories c.machine.ppu c'.machine.ppu ∧ Pad.SameLatch c.machine.pad c'.machine.pad := by
  obtain ⟨hmemories, hpad⟩ := loadBytes_kept h
  obtain ⟨hmemories', hpad'⟩ := loadBytes_kept h'
  have hppu : c₁'.machine.ppu = c₁.machine.ppu := by
    have hsame := congrArg (·.ppu) hpeers.machine
    exact hsame
  have hpressed : c₁'.machine.pad.setButtons buttons = c₁.machine.pad.setButtons buttons := by
    have hsame := congrArg (·.pad) hpeers.machine
    exact hsame
  rw [hppu] at hmemories'
  rw [hpad, hpad'] at hpressed
  exact ⟨⟨hmemories'.nametables.symm.trans hmemories.nametables,
    hmemories'.palette.symm.trans hmemories.palette, hmemories'.oam.symm.trans hmemories.oam⟩,
    Pad.setButtons_eq_iff.mp hpressed⟩

/-! ## What follows a load -/

/-- **Loads are followed by the same**, whatever happened before, exactly where they find the same
memories and pads that read alike: what is asked of the two consoles from the first press of buttons on
has the same answers, and leaves machines that differ in their screens only. -/
theorem reproducible (hc : c.Reachable) (hc' : c'.Reachable) (hsettings : c'.settings = c.settings)
    (h : Returns (c.loadBytes bytes name : ExceptT Wreck Simulated _) (.ok (), c₁))
    (h' : Returns (c'.loadBytes bytes name' : ExceptT Wreck Simulated _) (.ok (), c₁'))
    (buttons : UInt8) :
    (∀ requests : List Request, Mirrors (Behind (Peers c₁.screen c₁'.screen))
      ((c₁.setButtons buttons).serveAll requests) ((c₁'.setButtons buttons).serveAll requests)) ↔
    SameMemories c.machine.ppu c'.machine.ppu ∧ Pad.SameLatch c.machine.pad c'.machine.pad := by
  constructor
  · intro hmirrors
    have hnow := hmirrors [] {} {}
    cases hnow with
    | ok hbehind => exact hbehind.2.before h h'
  · rintro ⟨hmemories, hpad⟩ requests
    exact (loadBytes_peers hc hc' hsettings hmemories hpad h h' buttons).serveAll requests

/-- A new console, and one that played the game before, with another press and on a screen. -/
theorem reproducible_reloaded : ∃ (c c' c₁ c₁' : Console) (bytes : Bytes) (name : String),
    c.Reachable ∧ c'.Reachable ∧ c'.settings = c.settings ∧
    SameMemories c.machine.ppu c'.machine.ppu ∧ Pad.SameLatch c.machine.pad c'.machine.pad ∧
    Returns (c.loadBytes bytes name : ExceptT Wreck Simulated _) (.ok (), c₁) ∧
    Returns (c'.loadBytes bytes name : ExceptT Wreck Simulated _) (.ok (), c₁') ∧
    ∀ requests, Mirrors (Behind (Peers c₁.screen c₁'.screen)) ((c₁.setButtons 1).serveAll requests)
      ((c₁'.setButtons 1).serveAll requests) := by
  have hsize : (Array.replicate 0x4000 (0 : UInt8)).size = 0x4000 := Array.size_replicate
  obtain ⟨c, hc, hmachine, -⟩ := exists_new
  obtain ⟨board, hboard, hwhole⟩ := boardOf_small hsize
  obtain ⟨⟨result, c₁⟩, hload, hresult, -⟩ :=
    (loadBytes_always (c := c) "zeros" hboard hwhole).returns
  cases hresult
  obtain ⟨⟨result', c₂⟩, hagain, hresult', -⟩ :=
    (loadBytes_always (c := (c₁.setButtons 0xFF).attachScreen) "zeros" hboard hwhole).returns
  cases hresult'
  have hpressed : Returns (c₁.call (.setButtons 0xFF)) (c₁.setButtons 0xFF) := ⟨{}, {}, rfl⟩
  have hc' := ((hc.loadBytes hload).call hpressed).attachScreen
  obtain ⟨hmemories, hpad⟩ := loadBytes_kept hload
  have hkept : SameMemories c.machine.ppu (c₁.setButtons 0xFF).attachScreen.machine.ppu := hmemories
  have hlatch : Pad.SameLatch c.machine.pad (c₁.setButtons 0xFF).attachScreen.machine.pad := by
    show Pad.SameLatch c.machine.pad (c₁.machine.pad.setButtons 0xFF)
    rw [hpad, hmachine]
    exact ⟨rfl, fun _ => rfl⟩
  have hsettings : (c₁.setButtons 0xFF).attachScreen.settings = c.settings := by
    obtain ⟨_, m, events, -, -, rfl⟩ := loadBytes_ok hload
    rfl
  exact ⟨c, _, c₁, c₂, _, _, hc, hc', hsettings, hkept, hlatch, hload, hagain,
    (reproducible hc hc' hsettings hload hagain 1).mpr ⟨hkept, hlatch⟩⟩

/-! ## What a game leaves behind -/

/-- A program that turns the first byte of object memory from zero to `$FF`: it decrements the register
behind which that byte is. -/
def scribble : Bytes := ⟨0xCE :: 0x04 :: 0x20 :: List.replicate 0x3FFA 0 ++ [0x80, 0, 0]⟩

theorem size_scribble : scribble.size = 0x4000 := by
  rw [scribble, List.size_toArray, List.length_append, List.length_cons, List.length_cons,
    List.length_cons, List.length_replicate]
  rfl

/-- A machine with this program, on the way through the first reset. -/
def scribbling : Machine where
  slot := some (.ofImage .nrom (smallGame scribble))
  cpu := ({} : Cpu).setTv .ntsc
  ppu := (({} : Ppu).setTv .ntsc).reset

/-- The first reset and the first step behind it. -/
def firstStep : Machine.Run Unit := do
  Machine.resetCpu
  Operation.handOn
  Machine.step

theorem firstStep_scribbling :
    ((firstStep scribbling).toOption.map fun r => r.2.ppu.oam.get 0) = some 0xFF := by
  decide +kernel

theorem step_scribble {n : Nat} (hmachine : c.machine = {}) (hdefault : c.settings = {})
    (hload : Returns (c.loadBytes (smallHeader ++ scribble) name : ExceptT Wreck Simulated _)
      (.ok (), c₁))
    (hgame : c₁.hasGame = true)
    (hstep : Returns (c₁.step : ExceptT Wreck Simulated (Nat × Console)) (n, c')) :
    c'.settings = c.settings ∧ c'.machine.ppu.oam.get 0 = 0xFF := by
  unfold step at hstep
  rw [if_pos hgame] at hstep
  obtain ⟨⟨a, c₂⟩, hrun, hstep⟩ := hstep.bind
  cases hstep.pure
  obtain ⟨m', hm', rfl⟩ := run_returns hrun
  obtain ⟨board, m, events, hboard, hm, rfl⟩ := loadBytes_ok hload
  cases (boardOf_smallGame size_scribble).1.symm.trans hboard
  have hstart : (c.started (.ofImage .nrom (smallGame scribble))).machine = scribbling := by
    unfold started switchedOn restarted
    rw [hmachine, hdefault]
    rfl
  rw [hstart] at hm
  have hfirst : firstStep scribbling = .ok ((), m') := (Machine.run_eq hm).trans hm'
  have hoam := firstStep_scribbling
  rw [hfirst] at hoam
  exact ⟨rfl, Option.some.inj hoam⟩

/-- **A game can leave something behind**: loaded again after its first step, it finds in object memory
what a new console does not show. -/
theorem residue : ∃ c c' c₁ c₁' : Console, c.Reachable ∧ c'.Reachable ∧ c'.settings = c.settings ∧
    Returns (c.loadBytes (smallHeader ++ scribble) "scribble" : ExceptT Wreck Simulated _)
      (.ok (), c₁) ∧
    Returns (c'.loadBytes (smallHeader ++ scribble) "scribble" : ExceptT Wreck Simulated _)
      (.ok (), c₁') ∧
    (c₁.setButtons 0).machine.ppu.oam.get 0 = 0 ∧
    (c₁'.setButtons 0).machine.ppu.oam.get 0 = 0xFF := by
  obtain ⟨c, hc, hmachine, hdefault⟩ := exists_new
  obtain ⟨hboard, hwhole⟩ := boardOf_smallGame size_scribble
  obtain ⟨⟨result, c₁⟩, hload, hresult, hgame⟩ :=
    (loadBytes_always (c := c) "scribble" hboard hwhole).returns
  cases hresult
  obtain ⟨⟨n, c₂⟩, hstep, -⟩ := (step_always hgame).returns
  obtain ⟨⟨result', c₃⟩, hagain, hresult', -⟩ :=
    (loadBytes_always (c := c₂) "scribble" hboard hwhole).returns
  cases hresult'
  have hcall : Returns (c₁.call .step) c₂ := by
    obtain ⟨s, s', hrun⟩ := hstep
    exact ⟨s, s', bind_run hrun⟩
  have hbefore : c₁.machine.ppu.oam.get 0 = 0 := by
    rw [(loadBytes_kept hload).1.oam, hmachine]
    decide
  have hbehind := step_scribble hmachine hdefault hload (hasGame_of_whole hgame) hstep
  have hafter : c₃.machine.ppu.oam.get 0 = 0xFF := by
    rw [(loadBytes_kept hagain).1.oam]
    exact hbehind.2
  exact ⟨c, c₂, c₁, c₃, hc, (hc.loadBytes hload).call hcall, hbehind.1, hload, hagain, hbefore, hafter⟩

end Console

end NesMachine
