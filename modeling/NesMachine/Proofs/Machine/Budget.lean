import NesMachine.Proofs.Machine.Crash
import NesMachine.Proofs.Machine.Timing

/-!
# The budget of a frame

A frame grants cycles, and every cycle that passes anywhere in a run is taken from what was granted.
A frame runs steps while cycles are left; the last of them may overdraw, by no more than it takes.

* `Turn.keeps`: the cycles used and those left add up to the same before and behind.
* `runFrame_spends`: a frame ends, whatever runs in it, and how much it leaves or overdraws.
-/

namespace NesMachine

/-! ## Games stay in their slots -/

section Slots

variable {p q : Ppu} {slot slot' : Slot} {addr : UInt16} {value : UInt8}

theorem Slot.writePrg_isSome (h : slot.writePrg addr value = .ok slot') :
    slot'.isSome = slot.isSome := by
  unfold Slot.writePrg at h
  split at h
  · split at h <;> cases h
    rfl
  · cases h
    rfl

theorem Slot.writeChr_isSome (h : slot.writeChr addr value = .ok slot') :
    slot'.isSome = slot.isSome := by
  unfold Slot.writeChr at h
  split at h
  · split at h <;> cases h
    rfl
  · cases h
    rfl

theorem Ppu.writeMemory_isSome (h : p.writeMemory slot addr value = .ok (q, slot')) :
    slot'.isSome = slot.isSome := by
  unfold writeMemory at h
  simp only at h
  split_ifs at h
  · cases hwrite : slot.writeChr (addr &&& 0x3FFF) value with
    | error e =>
      rw [hwrite] at h
      cases h
    | ok slot₁ =>
      rw [hwrite] at h
      cases h
      exact Slot.writeChr_isSome hwrite
  · cases h
    rfl
  · cases h
    rfl

theorem Ppu.writeRegister_isSome (h : p.writeRegister slot addr value = .ok (q, slot')) :
    slot'.isSome = slot.isSome := by
  unfold writeRegister at h
  simp only at h
  split at h
  case h_7 =>
    obtain ⟨⟨r, slot₁⟩, hwrite, h⟩ := bind_ok h
    cases h
    exact writeMemory_isSome hwrite
  all_goals
    cases h
    rfl

end Slots

namespace Machine

open Cpu (Registers)

variable {α β : Type} {m m₁ m' : Machine} {x : Run α} {f : α → Run β}

/-! ## What was granted -/

/-- The cycles granted since power-on: those used and those left. -/
def granted (m : Machine) : Int := m.cpu.cycles + m.cpu.remaining

/-- What a part leaves as it was that grants nothing and changes no game. -/
structure Kept (m m' : Machine) : Prop where
  granted : m'.granted = m.granted
  tv : m'.cpu.tv = m.cpu.tv
  game : m'.slot.isSome = m.slot.isSome

theorem Kept.trans (h : Kept m m₁) (h' : Kept m₁ m') : Kept m m' :=
  ⟨h'.granted.trans h.granted, h'.tv.trans h.tv, h'.game.trans h.game⟩

/-- The parts that grant nothing. -/
def Keeps (x : Run α) : Prop := ∀ m a m', x m = .ok (a, m') → Kept m m'

theorem Keeps.pure (a : α) : Keeps (Pure.pure a : Run α) := by
  intro m b m' h
  cases h
  exact ⟨rfl, rfl, rfl⟩

theorem Keeps.bind (hx : Keeps x) (hf : ∀ a, Keeps (f a)) : Keeps (x >>= f) := by
  intro m b m' h
  obtain ⟨a, m₁, hfirst, hrest⟩ := bind_run h
  exact (hx _ _ _ hfirst).trans (hf a _ _ _ hrest)

theorem Keeps.get : Keeps (MonadState.get : Run Machine) := by
  intro m a m' h
  cases h
  exact ⟨rfl, rfl, rfl⟩

theorem Keeps.modify {change : Machine → Machine} (h : ∀ m, Kept m (change m)) :
    Keeps (modify change : Run Unit) := by
  intro m a m' hrun
  cases hrun
  exact h m

theorem Keeps.modifyRegisters (f : Registers → Registers) : Keeps (modifyRegisters f) :=
  .modify fun _ => ⟨rfl, rfl, rfl⟩

theorem Dots.slot {ds : List Dot} (h : Dots m ds m') : m'.slot = m.slot := by
  induction h with
  | nil => rfl
  | cons hdot _ ih =>
    obtain ⟨q, -, rfl⟩ := dot_ok hdot
    exact ih

/-- A cycle is used, and no longer left. -/
theorem tick_granted (m : Machine) :
    { m with cpu := m.cpu.tick.2 }.granted = m.granted ∧ m.cpu.tick.2.tv = m.cpu.tv := by
  unfold granted Cpu.tick
  cases htv : m.cpu.tv <;> exact ⟨by simp only; omega, rfl⟩

theorem Keeps.cycle : Keeps cycle := by
  intro m _ m' h
  obtain ⟨ds, hact⟩ := cycle_ok h
  cases hact with
  | cycle hdots _ =>
    obtain ⟨hgranted, htv⟩ := tick_granted m
    have hcpu := hdots.cpu.1
    refine ⟨?_, ?_, by rw [hdots.slot]⟩
    · unfold granted at hgranted ⊢
      rw [hcpu]
      exact hgranted
    · rw [hcpu]
      exact htv

theorem Keeps.readPpu (addr : UInt16) : Keeps (readPpu addr) := by
  intro m value m' h
  unfold Machine.readPpu at h
  simp only at h
  split at h <;> cases h
  exact ⟨rfl, rfl, rfl⟩

theorem Keeps.writePpu (addr : UInt16) (value : UInt8) : Keeps (writePpu addr value) := by
  intro m _ m' h
  obtain ⟨hwrite, haccess⟩ := writePpu_ok h
  have hcpu := haccess.cpu
  exact ⟨by rw [granted, granted, hcpu], by rw [hcpu], Ppu.writeRegister_isSome hwrite⟩

theorem Keeps.readCartridge (addr : UInt16) : Keeps (readCartridge addr) := by
  intro m value m' h
  unfold Machine.readCartridge at h
  split at h <;> cases h
  exact ⟨rfl, rfl, rfl⟩

theorem Keeps.writeCartridge (addr : UInt16) (value : UInt8) :
    Keeps (writeCartridge addr value) := by
  intro m _ m' h
  unfold Machine.writeCartridge at h
  simp only at h
  split at h
  · rename_i hwrite
    cases h
    exact ⟨rfl, rfl, Slot.writePrg_isSome hwrite⟩
  · cases h

theorem Plain.keeps (hx : Plain x) : Keeps x := by
  induction hx with
  | pure a => exact .pure a
  | bind _ _ ihx ihf => exact .bind ihx ihf
  | getCpu => exact .bind .get fun _ => .pure _
  | modifyRegisters f => exact .modifyRegisters f
  | writeRam addr value => exact .modify fun _ => ⟨rfl, rfl, rfl⟩
  | cycle => exact .cycle
  | readPpu addr => exact .readPpu addr
  | writePpu value _ => exact .writePpu _ value
  | readPad =>
    intro m value m' h
    cases h
    exact ⟨rfl, rfl, rfl⟩
  | writeStrobe value => exact .modify fun _ => ⟨rfl, rfl, rfl⟩
  | readCartridge addr => exact .readCartridge addr
  | writeCartridge addr value => exact .writeCartridge addr value

theorem Ending.keeps (hx : Ending x) : Keeps x := by
  induction hx with
  | plain hx => exact hx.keeps
  | bind hx _ ih => exact .bind hx.keeps ih
  | writePpu addr value => exact .writePpu addr value

/-- **What a part spends, it takes from what was granted.** -/
theorem Turn.keeps (hx : Turn x) : Keeps x := by
  induction hx with
  | ending hx => exact hx.keeps
  | bind _ _ ihx ihf => exact .bind ihx ihf
  | lower => exact .modify fun _ => ⟨rfl, rfl, rfl⟩
  | report notice => exact .modify fun _ => ⟨rfl, rfl, rfl⟩

/-! ## A frame -/

/-- Steps while cycles are left, and how they end: behind the last of them, or with a crash. -/
inductive Spends : Machine → Nat → Except Crash Machine → Prop where
  | rest {m : Machine} : m.cpu.remaining ≤ 0 → Spends m 0 (.ok m)
  | crash {m : Machine} {e : Crash} :
      0 < m.cpu.remaining → Machine.step m = .error e → Spends m 0 (.error e)
  | step {m m₁ : Machine} {n : Nat} {outcome : Except Crash Machine} :
      0 < m.cpu.remaining → Machine.step m = .ok ((), m₁) → Spends m₁ n outcome →
        Spends m (n + 1) outcome

theorem step_remaining (h : step m = .ok ((), m')) :
    m.cpu.remaining - 521 ≤ m'.cpu.remaining ∧ m'.cpu.remaining ≤ m.cpu.remaining - 2 := by
  have hgranted := (Turn.step.keeps _ _ _ h).granted
  have hbounds := step_bounds h
  unfold granted at hgranted
  omega

/-- **The cycles that are left are fuel enough**: a run that is given so many steps ends as the loop
does. -/
theorem runRemaining_spends {fuel : Nat} (hfuel : m.cpu.remaining ≤ fuel) :
    ∃ n, Spends m n ((runRemaining fuel m).map Prod.snd) := by
  induction fuel generalizing m with
  | zero => exact ⟨0, .rest hfuel⟩
  | succ fuel ih =>
    have hif : runRemaining (fuel + 1) m = (if m.cpu.remaining > 0 then
        (step >>= fun _ => runRemaining fuel) else Pure.pure () : Run Unit) m := rfl
    rw [hif]
    split_ifs with hleft
    · cases hstep : step m with
      | error e =>
        rw [run_error hstep]
        exact ⟨0, .crash hleft hstep⟩
      | ok r =>
        have hless := (step_remaining hstep).2
        obtain ⟨n, hspends⟩ := ih (m := r.2) (by omega)
        rw [run_eq hstep]
        exact ⟨n + 1, .step hleft hstep hspends⟩
    · exact ⟨0, .rest (Int.not_lt.mp hleft)⟩

/-- **The last step overdraws by less than it takes.** -/
theorem Spends.remaining {n : Nat} (h : Spends m n (.ok m')) :
    m'.cpu.remaining ≤ 0 ∧ (0 < m.cpu.remaining → -520 ≤ m'.cpu.remaining) := by
  generalize houtcome : Except.ok m' = outcome at h
  induction h with
  | rest hnone =>
    cases houtcome
    exact ⟨hnone, by omega⟩
  | crash => cases houtcome
  | step hleft hstep hrest ih =>
    obtain ⟨hend, hover⟩ := ih houtcome
    refine ⟨hend, fun _ => ?_⟩
    have htaken := (step_remaining hstep).1
    cases hrest with
    | rest =>
      cases houtcome
      omega
    | crash => cases houtcome
    | step hleft' _ _ => exact hover hleft'

/-- Without cycles that are left there is no step. -/
theorem Spends.overdrawn {n : Nat} {outcome : Except Crash Machine} (h : Spends m n outcome)
    (hnone : m.cpu.remaining ≤ 0) : n = 0 := by
  cases h with
  | rest => rfl
  | crash hleft => omega
  | step hleft => omega

/-- The machine with the cycles of another frame. -/
def allotted (m : Machine) : Machine :=
  { m with cpu := { m.cpu with remaining := m.cpu.remaining + m.cpu.tv.frameCycles } }

theorem granted_allotted (m : Machine) :
    m.allotted.granted = m.granted + m.cpu.tv.frameCycles :=
  (Int.add_assoc ..).symm

theorem runFrame_eq (m : Machine) :
    runFrame m = runRemaining m.allotted.cpu.remaining.toNat m.allotted := rfl

/-- **A frame ends**: its steps, while cycles are left, come to what the frame comes to. -/
theorem runFrame_spends (m : Machine) :
    ∃ n, Spends m.allotted n ((runFrame m).map Prod.snd) := by
  rw [runFrame_eq]
  exact runRemaining_spends (Int.self_le_toNat _)

/-- A frame grants its cycles and nothing else. -/
theorem runFrame_granted (h : runFrame m = .ok ((), m')) : Kept m.allotted m' := by
  rw [runFrame_eq] at h
  exact (Turn.runRemaining _).keeps _ _ _ h

/-- A frame that is overdrawn before it begins has no step. -/
theorem runFrame_overdrawn (h : m.allotted.cpu.remaining ≤ 0) :
    runFrame m = .ok ((), m.allotted) := by
  rw [runFrame_eq, Int.toNat_of_nonpos h]
  rfl

end Machine

end NesMachine
