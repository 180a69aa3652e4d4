import NesMachine.Proofs.Machine.Parts
import NesMachine.Proofs.Ppu.Faults

/-!
# How a run ends early

Nothing but the game can end a run early, and it does so by a byte that its board does not have.

* `Part.candid`: a run that crashes does so on such a byte.
-/

namespace NesMachine.Machine

variable {α β : Type} {x : Run α} {f : α → Run β}

/-- A run that crashes only on bytes that the game in the slot does not have. -/
def Candid (x : Run α) : Prop := ∀ m e, x m = .error e → e.slot.Lacks e.fault

theorem Candid.pure (a : α) : Candid (Pure.pure a : Run α) := by
  intro m e h
  cases h

theorem Candid.get : Candid (MonadState.get : Run Machine) := by
  intro m e h
  cases h

theorem Candid.modify (f : Machine → Machine) : Candid (modify f : Run Unit) := by
  intro m e h
  cases h

theorem Candid.bind (hx : Candid x) (hf : ∀ a, Candid (f a)) : Candid (x >>= f) := by
  intro m e h
  rcases bind_error h with hfirst | ⟨a, m₁, -, hrest⟩
  · exact hx m e hfirst
  · exact hf a m₁ e hrest

theorem dots_lacks {n : Nat} {m : Machine} {e : Crash} (h : dots n m = .error e) :
    e.slot.Lacks e.fault := by
  induction n generalizing m with
  | zero => cases h
  | succ n ih =>
    unfold dots at h
    split at h
    · exact ih h
    · rename_i hdot
      cases h
      unfold dot at hdot
      simp only at hdot
      split at hdot
      · rename_i hstep
        cases hdot
        exact (Ppu.step_lacks hstep).1
      · cases hdot

theorem Candid.cycle : Candid cycle := by
  intro m e h
  unfold Machine.cycle at h
  simp only at h
  split at h
  · cases h
  · rename_i hdots
    cases h
    exact dots_lacks hdots

theorem Candid.readPpu (addr : UInt16) : Candid (readPpu addr) := by
  intro m e h
  unfold Machine.readPpu at h
  simp only at h
  split at h
  · cases h
  · rename_i hread
    cases h
    exact Ppu.readRegister_lacks hread

theorem Candid.writePpu (addr : UInt16) (value : UInt8) : Candid (writePpu addr value) := by
  intro m e h
  unfold Machine.writePpu at h
  simp only at h
  split at h
  · cases h
  · rename_i hwrite
    cases h
    exact Ppu.writeRegister_lacks hwrite

theorem Candid.readCartridge (addr : UInt16) : Candid (readCartridge addr) := by
  intro m e h
  unfold Machine.readCartridge at h
  split at h
  · cases h
  · rename_i hread
    cases h
    exact Slot.readPrg_lacks hread

theorem Candid.writeCartridge (addr : UInt16) (value : UInt8) :
    Candid (writeCartridge addr value) := by
  intro m e h
  unfold Machine.writeCartridge at h
  simp only at h
  split at h
  · cases h
  · rename_i hwrite
    cases h
    exact Slot.writePrg_lacks hwrite

theorem peek_lacks {m : Machine} {addr : UInt16} {fault : Board.Fault}
    (h : m.peek addr = .error fault) : m.slot.Lacks fault := by
  unfold peek at h
  split_ifs at h
  exact Slot.readPrg_lacks h

theorem Plain.candid (hx : Plain x) : Candid x := by
  induction hx with
  | pure a => exact .pure a
  | bind _ _ ihx ihf => exact .bind ihx ihf
  | getCpu => exact .bind .get fun _ => .pure _
  | modifyRegisters f => exact .modify _
  | writeRam addr value => exact .modify _
  | cycle => exact .cycle
  | readPpu addr => exact .readPpu addr
  | writePpu value _ => exact .writePpu _ value
  | readPad =>
    intro m e h
    cases h
  | writeStrobe value => exact .modify _
  | readCartridge addr => exact .readCartridge addr
  | writeCartridge addr value => exact .writeCartridge addr value

theorem Ending.candid (hx : Ending x) : Candid x := by
  induction hx with
  | plain hx => exact hx.candid
  | bind hx _ ih => exact .bind hx.candid ih
  | writePpu addr value => exact .writePpu addr value

/-- **A run that crashes does so on a byte that the game does not have.** -/
theorem Part.candid (hx : Part x) : Candid x := by
  induction hx with
  | ending hx => exact hx.candid
  | bind _ _ ihx ihf => exact .bind ihx ihf
  | lower | report | allot => exact .modify _

end NesMachine.Machine
