import NesMachine.Proofs.Machine.Step

/-!
# Runs that nobody looks at

The machine hands pictures on and never looks back: a run comes to the same whether a screen is attached
or not, but for the pictures on it.

* `Part.blind`: a machine that nobody looks at runs as it does with a screen.
-/

namespace NesMachine.Machine

variable {α β : Type} {x : Run α} {f : α → Run β} {m m' : Machine}

/-- The machine with nobody looking at its pictures. -/
def unseen (m : Machine) : Machine := { m with screen := false, shown := [] }

/-- Machines that differ in who looks only. -/
theorem eq_of_unseen (h : m'.unseen = m.unseen) (hshown : m'.shown = m.shown) :
    m' = { m with screen := m'.screen } :=
  calc m'
    _ = { m'.unseen with screen := m'.screen, shown := m'.shown } := rfl
    _ = { m.unseen with screen := m'.screen, shown := m.shown } := by rw [h, hshown]
    _ = { m with screen := m'.screen } := rfl

/-- A run that comes to the same when nobody looks, and sends nobody away. -/
structure Blind (x : Run α) : Prop where
  alone : ∀ m, x m.unseen = (x m).map fun r => (r.1, r.2.unseen)
  screen : ∀ m a m', x m = .ok (a, m') → m'.screen = m.screen

/-- Two machines that differ in what was seen of them end a run alike. -/
theorem Blind.alike (hx : Blind x) (h : m'.unseen = m.unseen) :
    (∃ crash, x m = .error crash ∧ x m' = .error crash) ∨
      ∃ a m₁ m₁', x m = .ok (a, m₁) ∧ x m' = .ok (a, m₁') ∧ m₁'.unseen = m₁.unseen := by
  have halone := hx.alone m
  have halone' := hx.alone m'
  rw [h, halone] at halone'
  cases hrun : x m with
  | error crash =>
    rw [hrun] at halone'
    cases hrun' : x m' with
    | error crash' =>
      rw [hrun'] at halone'
      cases halone'
      exact .inl ⟨crash, rfl, rfl⟩
    | ok r' =>
      rw [hrun'] at halone'
      cases halone'
  | ok r =>
    rw [hrun] at halone'
    cases hrun' : x m' with
    | error crash' =>
      rw [hrun'] at halone'
      cases halone'
    | ok r' =>
      rw [hrun'] at halone'
      obtain ⟨a, m₁⟩ := r
      obtain ⟨a', m₁'⟩ := r'
      injection halone' with hend
      injection hend with ha hunseen
      subst ha
      exact .inr ⟨a, m₁, m₁', rfl, rfl, hunseen.symm⟩

theorem Blind.pure (a : α) : Blind (Pure.pure a : Run α) := by
  refine ⟨fun _ => rfl, fun m b m' h => ?_⟩
  cases h
  rfl

theorem Blind.bind (hx : Blind x) (hf : ∀ a, Blind (f a)) : Blind (x >>= f) := by
  refine ⟨fun m => ?_, fun m b m' h => ?_⟩
  · have hfirst := hx.alone m
    cases hrun : x m with
    | error e =>
      rw [hrun] at hfirst
      rw [run_error hfirst, run_error hrun]
      rfl
    | ok r =>
      rw [hrun] at hfirst
      rw [run_eq hfirst, run_eq hrun]
      exact (hf r.1).alone r.2
  · obtain ⟨a, m₁, hfirst, hrest⟩ := bind_run h
    exact ((hf a).screen _ _ _ hrest).trans (hx.screen _ _ _ hfirst)

theorem Blind.modify {change : Machine → Machine}
    (h : ∀ m, change m.unseen = (change m).unseen ∧ (change m).screen = m.screen) :
    Blind (modify change : Run Unit) := by
  refine ⟨fun m => congrArg (fun m' => Except.ok ((), m')) (h m).1, fun m a m' hrun => ?_⟩
  cases hrun
  exact (h m).2

theorem dot_unseen (m : Machine) : m.unseen.dot = m.dot.map unseen := by
  unfold dot unseen
  simp only
  cases m.ppu.step m.slot with
  | error fault => rfl
  | ok q =>
    cases hready : q.frameReady
    all_goals
      simp only [hready]
      rfl

theorem dots_unseen (n : Nat) (m : Machine) : dots n m.unseen = (dots n m).map unseen := by
  induction n generalizing m with
  | zero => rfl
  | succ n ih =>
    unfold dots
    rw [dot_unseen]
    cases m.dot with
    | error e => rfl
    | ok m₁ => exact ih m₁

theorem Blind.cycle : Blind cycle := by
  refine ⟨fun m => ?_, fun m _ m' h => ?_⟩
  · have hdots := dots_unseen m.cpu.tick.1 { m with cpu := m.cpu.tick.2 }
    rw [cycle_eq, cycle_eq]
    refine (congrArg _ hdots).trans ?_
    cases dots m.cpu.tick.1 { m with cpu := m.cpu.tick.2 } <;> rfl
  · obtain ⟨ds, hact⟩ := cycle_ok h
    cases hact with
    | cycle hdots _ => exact hdots.cpu.2.1

theorem Blind.readPpu (addr : UInt16) : Blind (readPpu addr) := by
  refine ⟨fun m => ?_, fun m value m' h => (readPpu_ok h).2.screen⟩
  unfold Machine.readPpu unseen
  simp only
  cases m.ppu.readRegister m.slot addr <;> rfl

theorem Blind.writePpu (addr : UInt16) (value : UInt8) : Blind (writePpu addr value) := by
  refine ⟨fun m => ?_, fun m _ m' h => (writePpu_ok h).2.screen⟩
  unfold Machine.writePpu unseen
  simp only
  cases m.ppu.writeRegister m.slot addr value <;> rfl

theorem Blind.readCartridge (addr : UInt16) : Blind (readCartridge addr) := by
  refine ⟨fun m => ?_, fun m value m' h => ?_⟩
  · unfold Machine.readCartridge unseen
    simp only
    cases m.slot.readPrg addr <;> rfl
  · unfold Machine.readCartridge at h
    split at h <;> cases h
    rfl

theorem Blind.writeCartridge (addr : UInt16) (value : UInt8) : Blind (writeCartridge addr value) := by
  refine ⟨fun m => ?_, fun m _ m' h => ?_⟩
  · unfold Machine.writeCartridge unseen
    simp only
    cases m.slot.writePrg addr value <;> rfl
  · unfold Machine.writeCartridge at h
    simp only at h
    split at h <;> cases h
    rfl

theorem Plain.blind (hx : Plain x) : Blind x := by
  induction hx with
  | pure a => exact .pure a
  | bind _ _ ihx ihf => exact .bind ihx ihf
  | getCpu =>
    refine ⟨fun _ => rfl, fun m cpu m' h => ?_⟩
    cases h
    rfl
  | modifyRegisters f => exact .modify fun _ => ⟨rfl, rfl⟩
  | writeRam addr value => exact .modify fun _ => ⟨rfl, rfl⟩
  | cycle => exact .cycle
  | readPpu addr => exact .readPpu addr
  | writePpu value _ => exact .writePpu _ value
  | readPad =>
    refine ⟨fun _ => rfl, fun m value m' h => ?_⟩
    cases h
    rfl
  | writeStrobe value => exact .modify fun _ => ⟨rfl, rfl⟩
  | readCartridge addr => exact .readCartridge addr
  | writeCartridge addr value => exact .writeCartridge addr value

theorem Ending.blind (hx : Ending x) : Blind x := by
  induction hx with
  | plain hx => exact hx.blind
  | bind hx _ ih => exact .bind hx.blind ih
  | writePpu addr value => exact .writePpu addr value

/-- **No run depends on who looks.** -/
theorem Part.blind (hx : Part x) : Blind x := by
  induction hx with
  | ending hx => exact hx.blind
  | bind _ _ ihx ihf => exact .bind ihx ihf
  | lower | report | allot => exact .modify fun _ => ⟨rfl, rfl⟩

end NesMachine.Machine
