import NesMachine.Proofs.Console.Reachable
import NesMachine.Proofs.Machine.Progress

/-!
# Progress of the console

With a game in its slot that answers every access, no call breaks a console down, on any computer.
Any 16 KB of program make such a game.

* `loadBytes_always`, `calls_always`: such a game can be loaded, and then everything can be called.
-/

namespace NesMachine

open Digest (Bytes)

namespace Console

open Machine (Part)

variable {α β : Type} {c : Console}

/-! ## Calls that always return -/

/-- On every computer, a call returns a value with a property. -/
def Always (x : ExceptT Wreck Simulated α) (good : α → Prop) : Prop :=
  ∀ s, ∃ a s', x s = (.ok a, s') ∧ good a

variable {x : ExceptT Wreck Simulated α} {f : α → ExceptT Wreck Simulated β}
  {good other : α → Prop} {fine : β → Prop}

theorem Always.bind (hx : Always x good) (hf : ∀ a, good a → Always (f a) fine) :
    Always (x >>= f) fine := by
  intro s
  obtain ⟨a, s₁, hx, hgood⟩ := hx s
  obtain ⟨b, s', hf, hfine⟩ := hf a hgood s₁
  exact ⟨b, s', (bind_run hx).trans hf, hfine⟩

theorem Always.pure {a : α} (h : good a) : Always (Pure.pure a) good :=
  fun s => ⟨a, s, rfl, h⟩

theorem Always.returns (h : Always x good) : ∃ a, Returns x a ∧ good a := by
  obtain ⟨a, s', hx, hgood⟩ := h {}
  exact ⟨a, ⟨{}, s', hx⟩, hgood⟩

theorem Always.imp (h : Always x good) (himp : ∀ a, good a → other a) : Always x other := by
  intro s
  obtain ⟨a, s', hx, hgood⟩ := h s
  exact ⟨a, s', hx, himp a hgood⟩

/-- What a call returns that always returns so. -/
theorem Always.of_returns {a : α} (h : Always x good) (hx : Returns x a) : good a := by
  obtain ⟨s, s', hx⟩ := hx
  obtain ⟨a', s₁, hx', hgood⟩ := h s
  cases hx.symm.trans hx'
  exact hgood

theorem note_always (entry : JournalEntry) :
    Always (Host.note entry : ExceptT Wreck Simulated Unit) fun _ => True :=
  fun _ => ⟨(), _, rfl, trivial⟩

theorem noteAll_always (notices : List Notice) :
    Always (noteAll notices : ExceptT Wreck Simulated Unit) fun _ => True := by
  unfold noteAll
  induction notices.reverse with
  | nil => exact .pure trivial
  | cons notice rest ih => exact .bind (note_always _) fun _ _ => ih

/-- On every computer, a run that ends leaves the console behind it. -/
theorem run_behind {part : Machine.Run α} {a : α} {m : Machine}
    (hrun : part c.machine = .ok (a, m)) : Always (run part c) (· = (a, c.behind m)) := by
  rw [run_eq, hrun]
  exact .bind (noteAll_always _) fun _ _ => .pure rfl

/-! ## Calls on a game that answers -/

theorem run_always {part : Machine.Run α} (hpart : Part part) (h : c.machine.slot.Whole) :
    Always (run part c) fun r => r.2.machine.slot.Whole := by
  obtain ⟨a, m, hrun, hwhole⟩ := hpart.progress h
  refine (run_behind hrun).imp ?_
  rintro _ rfl
  exact hwhole

theorem hasGame_of_whole (h : c.machine.slot.Whole) : c.hasGame = true := by
  obtain ⟨board, hslot, -⟩ := h
  rw [hasGame, hslot]
  rfl

theorem reset_always (h : c.machine.slot.Whole) :
    Always (c.reset : ExceptT Wreck Simulated Console) (·.machine.slot.Whole) := by
  unfold reset
  rw [if_pos (hasGame_of_whole h)]
  exact .bind (run_always (c := c.restarted) .resetCpu h) fun r hr => .pure hr

theorem runFrame_always (h : c.machine.slot.Whole) :
    Always (c.runFrame : ExceptT Wreck Simulated Console) (·.machine.slot.Whole) := by
  unfold runFrame
  rw [if_pos (hasGame_of_whole h)]
  exact .bind (run_always .runFrame h) fun r hr => .pure hr

theorem step_always (h : c.machine.slot.Whole) :
    Always (c.step : ExceptT Wreck Simulated (Nat × Console)) (·.2.machine.slot.Whole) := by
  unfold step
  rw [if_pos (hasGame_of_whole h)]
  exact .bind (run_always .step h) fun r hr => .pure hr

theorem call_always (k : Call) (h : c.machine.slot.Whole) :
    Always (c.call k) (·.machine.slot.Whole) := by
  cases k with
  | runFrame => exact runFrame_always h
  | step => exact .bind (step_always h) fun r hr => .pure hr
  | setPc pc => exact .pure h
  | setButtons buttons => exact .pure h
  | setIrq irq => exact .pure h

/-- **A game that answers every access never breaks the console down.** -/
theorem calls_always (ks : List Call) (h : c.machine.slot.Whole) :
    Always (c.calls ks) (·.machine.slot.Whole) := by
  induction ks generalizing c with
  | nil => exact .pure h
  | cons k ks ih => exact .bind (call_always k h) fun c₁ hc₁ => ih hc₁

/-! ## Loading -/

theorem answer_always {β : Type} (x : Simulated β) :
    Always (ExceptT.lift x : ExceptT Wreck Simulated β) fun _ => True :=
  fun s => ⟨(x s).1, (x s).2, rfl, trivial⟩

theorem writeSave_always (path : Path) (bytes : Bytes) :
    Always (Cartridge.writeSave path bytes : ExceptT Wreck Simulated Unit) fun _ => True := by
  unfold Cartridge.writeSave
  simp only
  split
  · refine .bind (answer_always _) fun made _ => ?_
    split
    · exact .bind (note_always _) fun _ _ => .pure trivial
    · refine .bind (answer_always _) fun written _ => ?_
      split <;> exact note_always _
  · refine .bind (answer_always _) fun written _ => ?_
    split <;> exact note_always _

/-- A game always leaves the slot, whatever the host makes of its save. -/
theorem unload_always (cartridge : Cartridge) :
    Always (cartridge.unload : ExceptT Wreck Simulated Cartridge)
      (· = { cartridge with slot := none, saveFile := none }) := by
  have hpersist : Always (cartridge.persist : ExceptT Wreck Simulated Unit) fun _ => True := by
    unfold Cartridge.persist
    split
    · exact writeSave_always _ _
    · exact .pure trivial
  refine hpersist.bind fun _ _ => ?_
  split
  · exact .bind (note_always _) fun _ _ => .pure rfl
  · exact .pure rfl

theorem insert_always (cartridge : Cartridge) (board : Board) :
    Always (cartridge.insert board none : ExceptT Wreck Simulated Cartridge)
      (· = { cartridge with slot := some board, saveFile := none }) := by
  have hboard : Always (Pure.pure board : ExceptT Wreck Simulated Board) (· = board) := .pure rfl
  refine (unload_always cartridge).bind ?_
  rintro _ rfl
  refine hboard.bind ?_
  rintro _ rfl
  exact .bind (note_always _) fun _ _ => .pure rfl

/-- **The bytes decide what a load comes to.** -/
theorem game_always (cartridge : Cartridge) (bytes : Bytes) :
    Always (cartridge.loadBytes bytes none : ExceptT Wreck Simulated (Except LoadFailure Cartridge))
      (· = (Cartridge.boardOf bytes).map fun board =>
        { cartridge with slot := some board, saveFile := none }) := by
  unfold Cartridge.loadBytes
  cases Cartridge.boardOf bytes with
  | error failure => exact .pure rfl
  | ok board =>
    refine (insert_always cartridge board).bind ?_
    rintro _ rfl
    exact .pure rfl

/-- A game that answers every access can be loaded. -/
theorem loadBytes_always {bytes : Bytes} {board : Board} (name : String)
    (hboard : Cartridge.boardOf bytes = .ok board) (hwhole : board.Whole) :
    Always (c.loadBytes bytes name : ExceptT Wreck Simulated (Except LoadError Unit × Console))
      fun r => r.1 = .ok () ∧ r.2.machine.slot.Whole := by
  refine (game_always c.cartridge bytes).bind ?_
  rintro _ rfl
  rw [hboard]
  have hreset : Always ((c.switchedOn { c.cartridge with slot := some board, saveFile := none }).reset :
      ExceptT Wreck Simulated Console) (·.machine.slot.Whole) := reset_always ⟨board, rfl, hwhole⟩
  have hinstall : Always (c.install name { c.cartridge with slot := some board, saveFile := none } :
      ExceptT Wreck Simulated Console) (·.machine.slot.Whole) := hreset.bind fun c₁ hc₁ => .pure hc₁
  exact hinstall.bind fun c₁ hc₁ => .pure ⟨rfl, hc₁⟩

/-! ## Small games -/

/-- The header of a game with 16 KB of program and nothing else. -/
def smallHeader : Bytes := #[0x4E, 0x45, 0x53, 0x1A, 1, 0, 0, 0, 0, 0, 0, 0, 0, 0, 0, 0]

/-- What it declares. -/
def smallDeclared : Rom.Header where
  format := .ines
  mapper := 0
  mirroring := .horizontal
  hasBattery := false
  hasTrainer := false
  tv := .ntsc
  prgSize := 0x4000
  chrSize := 0
  prgRamSize := 0x2000

/-- The game behind it. -/
def smallGame (prg : Bytes) : Rom.Image where
  header := smallDeclared
  prg
  chr := Array.replicate 0x2000 0
  chrIsRam := true
  prgRam := Array.replicate 0x2000 0

theorem getD_smallHeader (prg : Bytes) {k : Nat} (h : k < 16) :
    (smallHeader ++ prg).getD k 0 = smallHeader.getD k 0 := by
  unfold Array.getD
  have hlt : k < (smallHeader ++ prg).size := by
    rw [Array.size_append]
    exact Nat.lt_add_right _ h
  rw [dif_pos hlt, dif_pos (show k < smallHeader.size from h)]
  exact Array.getElem_append_left h

theorem parse_smallHeader (prg : Bytes) :
    Rom.Header.parse (smallHeader ++ prg) = .ok smallDeclared := by
  have hopening : (smallHeader ++ prg).extract 0 4 = smallHeader.extract 0 4 := by
    rw [Array.extract_append, show 4 - smallHeader.size = 0 from rfl,
      show 0 - smallHeader.size = 0 from rfl, Array.extract_zero, Array.append_empty]
  have hsize : ¬ (smallHeader ++ prg).size < Rom.Header.length := by
    rw [Array.size_append]
    exact Nat.not_lt.mpr (Nat.le_add_right 16 _)
  unfold Rom.Header.parse
  rw [hopening, if_neg (by decide), if_neg hsize]
  simp only [getD_smallHeader prg (show 4 < 16 by decide), getD_smallHeader prg (show 5 < 16 by decide),
    getD_smallHeader prg (show 6 < 16 by decide), getD_smallHeader prg (show 7 < 16 by decide),
    getD_smallHeader prg (show 8 < 16 by decide), getD_smallHeader prg (show 9 < 16 by decide)]
  rfl

theorem extract_small {prg : Bytes} (h : prg.size = 0x4000) :
    (smallHeader ++ prg).extract 16 (16 + 0x4000) = prg := by
  have hheader : smallHeader.extract 16 (16 + prg.size) = #[] := by
    rw [Array.extract_empty_of_size_le_start]
    decide
  rw [Array.extract_append, show smallHeader.size = 16 from rfl, ← h, hheader]
  simp

theorem boardOf_smallGame {prg : Bytes} (h : prg.size = 0x4000) :
    Cartridge.boardOf (smallHeader ++ prg) = .ok (.ofImage .nrom (smallGame prg)) ∧
      (Board.ofImage .nrom (smallGame prg)).Whole := by
  have hsize : (smallHeader ++ prg).size = 16 + 0x4000 := by
    rw [Array.size_append, h]
    rfl
  have hcut : Rom.Image.cut (smallHeader ++ prg) 16 0x4000 .prg = .ok prg := by
    unfold Rom.Image.cut
    rw [hsize, if_neg (by decide), if_neg (by decide), extract_small h]
  have hnonempty : prg.isEmpty = false := by
    rw [Array.isEmpty_eq_false_iff, ← Array.size_pos_iff, h]
    decide
  have himage : Rom.Image.parse (smallHeader ++ prg) = .ok (smallGame prg) := by
    unfold Rom.Image.parse
    rw [parse_smallHeader]
    show (Rom.Image.cut (smallHeader ++ prg) 16 0x4000 .prg >>= _) = _
    rw [hcut]
    show (if prg.isEmpty = true then _ else _) = _
    rw [hnonempty]
    rfl
  refine ⟨?_, rfl, h, Array.size_replicate, Array.size_replicate⟩
  unfold Cartridge.boardOf
  rw [himage]
  rfl

/-- Any 16 KB of program make a game that answers every access. -/
theorem boardOf_small {prg : Bytes} (h : prg.size = 0x4000) :
    ∃ board, Cartridge.boardOf (smallHeader ++ prg) = .ok board ∧ board.Whole :=
  ⟨_, boardOf_smallGame h⟩

/-- Consoles with a screen play games that answer every access. -/
theorem exists_loaded : ∃ (c c₁ : Console) (bytes : Bytes) (name : String), c.Reachable ∧
    c.machine.screen = true ∧
    Returns (c.loadBytes bytes name : ExceptT Wreck Simulated _) (.ok (), c₁) ∧
    c₁.machine.slot.Whole := by
  have hsize : (Array.replicate 0x4000 (0 : UInt8)).size = 0x4000 := Array.size_replicate
  obtain ⟨board, hboard, hwhole⟩ := boardOf_small hsize
  obtain ⟨c, hc, -⟩ := exists_reachable
  obtain ⟨⟨result, c₁⟩, hload, hresult, hgame⟩ :=
    (loadBytes_always (c := c.attachScreen) "small" hboard hwhole).returns
  cases hresult
  exact ⟨c.attachScreen, c₁, _, _, hc.attachScreen, rfl, hload, hgame⟩

end Console

end NesMachine
