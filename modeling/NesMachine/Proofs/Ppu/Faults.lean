import NesMachine.Ppu.Dot
import NesMachine.Ppu.Register
import NesMachine.Proofs.Board.Access
import NesMachine.Proofs.Outcome

/-!
# Faults of the picture unit

The picture unit reads and writes patterns and nothing else on the cartridge, so all of its faults are
those of a pattern access.

* `step_lacks`, `readRegister_lacks`, `writeRegister_lacks`: a fault names a byte that the game in the
  slot does not have.
-/

namespace NesMachine

open Board (Fault)

variable {α β : Type} {P : Fault → Prop} {x : Except Fault α} {f : α → Except Fault β}
  {slot slot' : Slot} {p q : Ppu} {fault : Fault} {addr : UInt16} {value : UInt8}

/-- Every fault has a property. -/
def FaultsIn (P : Fault → Prop) (x : Except Fault α) : Prop := ∀ fault, x = .error fault → P fault

theorem FaultsIn.ok (a : α) : FaultsIn P (.ok a) := by
  intro fault h
  cases h

theorem FaultsIn.bind (hx : FaultsIn P x) (hf : ∀ a, FaultsIn P (f a)) : FaultsIn P (x >>= f) := by
  intro fault h
  cases x with
  | error fault' =>
    cases h
    exact hx _ rfl
  | ok a => exact hf a fault h

theorem FaultsIn.listMapM {g : α → Except Fault β} (hg : ∀ a, FaultsIn P (g a))
    (xs : List α) : FaultsIn P (xs.mapM g) := by
  induction xs with
  | nil => exact .ok []
  | cons a xs ih =>
    rw [List.mapM_cons]
    exact .bind (hg a) fun _ => .bind ih fun _ => .ok _

theorem FaultsIn.mapM {n : Nat} {g : α → Except Fault β} (hg : ∀ a, FaultsIn P (g a))
    (xs : Vector α n) : FaultsIn P (xs.mapM g) := by
  intro fault h
  have hlist := toList_mapM g xs
  rw [h] at hlist
  exact FaultsIn.listMapM hg _ fault hlist.symm

namespace Ppu

/-! ## Dots -/

section Dots

variable (hread : ∀ addr, FaultsIn P (slot.readChr addr))

include hread

theorem readMemory_faults (addr : UInt16) : FaultsIn P (p.readMemory slot addr) := by
  unfold readMemory
  simp only
  split_ifs
  · exact hread _
  · exact .ok _
  · exact .ok _

theorem fetchStep_faults (dot : Nat) : FaultsIn P (p.fetchStep slot dot) := by
  unfold fetchStep
  split
  · exact .ok _
  · exact .bind (readMemory_faults hread _) fun _ => .ok _
  · exact .ok _
  · exact .bind (readMemory_faults hread _) fun _ => .ok _
  · exact .ok _
  · exact .bind (readMemory_faults hread _) fun _ => .ok _
  · exact .ok _
  · exact .bind (.bind (readMemory_faults hread _) fun _ => .ok _) fun _ => .ok _

theorem spriteStep_faults : FaultsIn P (p.spriteStep slot) := by
  unfold spriteStep
  split
  · exact .ok _
  · exact .ok _
  · refine .bind (.mapM (fun s => ?_) _) fun _ => .ok _
    exact .bind (readMemory_faults hread _) fun _ => .bind (readMemory_faults hread _) fun _ =>
      .ok _
  · exact .ok _

theorem backgroundStep_faults : FaultsIn P (p.backgroundStep slot) := by
  unfold backgroundStep
  simp only
  split_ifs
  · exact fetchStep_faults hread _
  all_goals
    first
    | exact .ok _
    | exact .bind (readMemory_faults hread _) fun _ => .ok _
    | exact .bind (.bind (readMemory_faults hread _) fun _ => .ok _) fun _ => .ok _

/-- A dot has no faults but those of pattern reads. -/
theorem step_faults (p : Ppu) : FaultsIn P (p.step slot) := by
  unfold step
  simp only
  split_ifs
  · exact .bind (.bind (spriteStep_faults hread) fun _ => backgroundStep_faults hread) fun _ =>
      .ok _
  · exact .ok _

theorem readData_faults (p : Ppu) : FaultsIn P (p.readData slot) := by
  unfold readData
  refine .bind (readMemory_faults hread _) fun _ => ?_
  split
  · exact .bind (readMemory_faults hread _) fun _ => .ok _
  · exact .ok _

theorem readRegister_faults (p : Ppu) (addr : UInt16) : FaultsIn P (p.readRegister slot addr) := by
  unfold readRegister
  simp only
  split
  · exact .ok _
  · exact .ok _
  · exact .bind (readData_faults hread p) fun _ => .ok _
  · exact .ok _

end Dots

/-- **A dot that faults lacks a byte of pattern memory.** -/
theorem step_lacks (h : p.step slot = .error fault) : slot.Lacks fault ∧ fault.region = .chr :=
  step_faults (fun _ _ => Slot.readChr_lacks) p fault h

/-! ## Registers -/

theorem readRegister_lacks (h : p.readRegister slot addr = .error fault) : slot.Lacks fault :=
  (readRegister_faults (fun _ _ => Slot.readChr_lacks) p addr fault h).1

theorem writeRegister_lacks (h : p.writeRegister slot addr value = .error (fault, slot')) :
    slot'.Lacks fault := by
  have hmemory {r : Ppu} {addr : UInt16}
      (hr : r.writeMemory slot addr value = .error (fault, slot')) : slot'.Lacks fault := by
    unfold writeMemory at hr
    simp only at hr
    split_ifs at hr
    cases hwrite : slot.writeChr (addr &&& 0x3FFF) value with
    | ok s =>
      rw [hwrite] at hr
      cases hr
    | error e =>
      rw [hwrite] at hr
      cases hr
      exact Slot.writeChr_lacks hwrite
  unfold writeRegister at h
  simp only at h
  split at h
  case h_7 =>
    unfold writeData at h
    cases hwrite : writeMemory { p with openBus := value } slot
        (({ p with openBus := value } : Ppu).scroll.v &&& 0x3FFF) value with
    | ok r =>
      rw [hwrite] at h
      cases h
    | error e =>
      rw [hwrite] at h
      cases h
      exact hmemory hwrite
  all_goals cases h

end Ppu

end NesMachine
