import NesMachine.Proofs.Console.Operations
import NesMachine.Proofs.Machine.Unseen

/-!
# Twins

What a console remembers, its error log and its events, is for people to read: no run looks at it. Two
consoles that differ in nothing else run alike, each on any computer.

* `Simulates.performAll`: what has to be shown of two consoles that cannot be told apart.
* `Twins.performAll`: twins do the same operations with the same values, or break down alike.
-/

namespace NesMachine

namespace Console

open Machine (Blind Part)

variable {α β γ δ : Type} {c c' : Console}

/-! ## Calls that end alike -/

/-- Two calls end alike: they return related values, or leave the same wreck. -/
inductive Alike (R : α → β → Prop) : Except Wreck α → Except Wreck β → Prop where
  | ok {a : α} {b : β} : R a b → Alike R (.ok a) (.ok b)
  | error (w : Wreck) : Alike R (.error w) (.error w)

/-- Two calls end alike, each on any computer. -/
def Mirrors (R : α → β → Prop) (x : ExceptT Wreck Simulated α) (y : ExceptT Wreck Simulated β) :
    Prop :=
  ∀ s s', Alike R (x s).1 (y s').1

theorem Mirrors.pure {R : α → β → Prop} {a : α} {b : β} (h : R a b) :
    Mirrors R (Pure.pure a) (Pure.pure b) :=
  fun _ _ => .ok h

theorem Mirrors.bind {R : α → β → Prop} {S : γ → δ → Prop} {x : ExceptT Wreck Simulated α}
    {y : ExceptT Wreck Simulated β} {f : α → ExceptT Wreck Simulated γ}
    {g : β → ExceptT Wreck Simulated δ} (hx : Mirrors R x y)
    (hf : ∀ a b, R a b → Mirrors S (f a) (g b)) : Mirrors S (x >>= f) (y >>= g) := by
  intro s s'
  have hbind := hx s s'
  show Alike S (match x s with
    | (r, s₁) => ExceptT.bindCont f r s₁).1 (match y s' with
    | (r, s₁) => ExceptT.bindCont g r s₁).1
  generalize x s = r, y s' = r' at hbind
  obtain ⟨r, s₁⟩ := r
  obtain ⟨r', s₁'⟩ := r'
  cases hbind with
  | ok hab => exact hf _ _ hab s₁ s₁'
  | error w => exact .error w

theorem Mirrors.always {x : ExceptT Wreck Simulated α} {y : ExceptT Wreck Simulated β}
    {good : α → Prop} {fine : β → Prop} (hx : Always x good) (hy : Always y fine) :
    Mirrors (fun a b => good a ∧ fine b) x y := by
  intro s s'
  obtain ⟨a, s₁, hx, hgood⟩ := hx s
  obtain ⟨b, s₁', hy, hfine⟩ := hy s'
  rw [hx, hy]
  exact .ok ⟨hgood, hfine⟩

/-! ## Consoles that cannot be told apart -/

/-- The same value, and related consoles behind it. -/
def Behind (R : Console → Console → Prop) (r r' : α × Console) : Prop := r.1 = r'.1 ∧ R r.2 r'.2

/-- A relation of consoles that shows in none of their answers and is kept by all that they do. -/
structure Simulates (R : Console → Console → Prop) : Prop where
  hasGame {c c' : Console} : R c c' → c'.hasGame = c.hasGame
  cycles {c c' : Console} : R c c' → c'.machine.cpu.cycles = c.machine.cpu.cycles
  peek {c c' : Console} (addr : UInt16) : R c c' → c'.peek addr = c.peek addr
  run {α : Type} {c c' : Console} {part : Machine.Run α} : Blind part → R c c' →
    Mirrors (Behind R) (run part c) (run part c')
  remember {c c' : Console} (event event' : String) : R c c' →
    R (c.remember event) (c'.remember event')
  input {c c' : Console} (f : Cpu → Cpu) (g : Pad → Pad) : R c c' →
    R { c with machine := { c.machine with cpu := f c.machine.cpu, pad := g c.machine.pad } }
      { c' with machine := { c'.machine with cpu := f c'.machine.cpu, pad := g c'.machine.pad } }

namespace Simulates

variable {R : Console → Console → Prop}

theorem runFrame (hR : Simulates R) (h : R c c') :
    Mirrors R (c.runFrame : ExceptT Wreck Simulated Console) c'.runFrame := by
  unfold Console.runFrame
  rw [hR.hasGame h]
  split_ifs
  · exact .bind (hR.run Part.runFrame.blind h) fun _ _ hbehind => .pure hbehind.2
  · exact .pure h

theorem step (hR : Simulates R) (h : R c c') :
    Mirrors (Behind R) (c.step : ExceptT Wreck Simulated (Nat × Console)) c'.step := by
  unfold Console.step
  rw [hR.hasGame h, hR.cycles h]
  split_ifs
  · refine .bind (hR.run Part.step.blind h) fun r r' hbehind => .pure ⟨?_, hbehind.2⟩
    rw [hR.cycles hbehind.2]
  · exact .pure ⟨rfl, h⟩

theorem reset (hR : Simulates R) (h : R c c') :
    Mirrors R (c.reset : ExceptT Wreck Simulated Console) c'.reset := by
  have hblind : Blind resetMachine :=
    .bind (.modify fun _ => ⟨rfl, rfl⟩) fun _ => Part.resetCpu.blind
  unfold Console.reset
  rw [hR.hasGame h]
  split_ifs
  · exact .bind (hR.run hblind h) fun _ _ hbehind => .pure (hR.remember _ _ hbehind.2)
  · exact .pure h

theorem perform (hR : Simulates R) (h : R c c') (op : Operation) :
    Mirrors (Behind R) (c.perform op) (c'.perform op) := by
  cases op with
  | runFrame => exact .bind (hR.runFrame h) fun _ _ hbehind => .pure ⟨rfl, hbehind⟩
  | step => exact hR.step h
  | reset => exact .bind (hR.reset h) fun _ _ hbehind => .pure ⟨rfl, hbehind⟩
  | setPc pc => exact .pure ⟨rfl, hR.input (·.mapRegisters fun r => { r with pc }) id h⟩
  | setButtons buttons => exact .pure ⟨rfl, hR.input id (·.setButtons buttons) h⟩
  | setIrq irq => exact .pure ⟨rfl, hR.input ({ · with irq }) id h⟩
  | peek addr =>
    unfold Console.perform
    simp only [hR.peek addr h]
    cases c.peek addr with
    | ok value => exact .pure ⟨rfl, h⟩
    | error w => exact fun _ _ => .error w

/-- **Related consoles run alike.** -/
theorem performAll (hR : Simulates R) (h : R c c') (ops : List Operation) :
    Mirrors (Behind R) (c.performAll ops) (c'.performAll ops) := by
  induction ops generalizing c c' with
  | nil => exact .pure ⟨rfl, h⟩
  | cons op ops ih =>
    refine .bind (hR.perform h op) ?_
    rintro ⟨value, c₁⟩ ⟨value', c₁'⟩ ⟨hvalue, hrelated⟩
    cases hvalue
    refine .bind (ih hrelated) ?_
    rintro ⟨values, c₂⟩ ⟨values', c₂'⟩ ⟨hvalues, hrelated⟩
    cases hvalues
    exact .pure ⟨rfl, hrelated⟩

end Simulates

/-! ## Twins -/

/-- Consoles that differ only in what they remember. -/
def Twins (c c' : Console) : Prop := c' = { c with errorLog := c'.errorLog, events := c'.events }

/-- The same value, and twins behind it. -/
def TwinsBehind (r r' : α × Console) : Prop := r.1 = r'.1 ∧ Twins r.2 r'.2

theorem Twins.run (part : Machine.Run α) (h : Twins c c') :
    Mirrors TwinsBehind (run part c) (run part c') := by
  rw [h, run_eq, run_eq]
  simp only
  cases part c.machine with
  | error crash =>
    exact .bind (.always (noteAll_always _) (noteAll_always _)) fun _ _ _ _ _ => .error _
  | ok r =>
    exact .bind (.always (noteAll_always _) (noteAll_always _)) fun _ _ _ => .pure ⟨rfl, rfl⟩

/-- What a console remembers shows in no answer. -/
theorem twins_simulate : Simulates Twins where
  hasGame h := by
    rw [h]
    rfl
  cycles h := by rw [h]
  peek addr h := by
    rw [h]
    rfl
  run _ h := h.run _
  remember event event' h := by
    rw [h]
    rfl
  input f g h := by
    rw [h]
    rfl

/-- **Twins run alike.** -/
theorem Twins.performAll (h : Twins c c') (ops : List Operation) :
    Mirrors TwinsBehind (c.performAll ops) (c'.performAll ops) :=
  twins_simulate.performAll h ops

end Console

end NesMachine
