import NesMachine.Machine.State

/-!
# The clock

Processor and picture unit share a clock: every cycle of the processor carries the beam three dots
on, or four. A finished picture is shown and an interrupt request latched on the dot that makes it.
-/

namespace NesMachine.Machine

/-- One dot. -/
def dot (m : Machine) : Except Crash Machine :=
  match m with
  | ⟨cpu, ppu, slot, pad, screen, shown, notices⟩ =>
    match ppu.step slot with
    | .error fault => .error ⟨fault, slot, notices⟩
    | .ok ppu =>
      let shown := if ppu.frameReady && screen then ppu.frame :: shown else shown
      let cpu := if ppu.nmi then { cpu with nmi := true } else cpu
      .ok ⟨cpu, { ppu with frameReady := false, nmi := false }, slot, pad, screen, shown, notices⟩

/-- Several dots. -/
def dots : Nat → Machine → Except Crash Machine
  | 0, m => .ok m
  | n + 1, m =>
    match m.dot with
    | .ok m => dots n m
    | .error e => .error e

/-- One cycle of the processor. -/
def cycle : Run Unit := fun m =>
  let (passing, cpu) := m.cpu.tick
  match dots passing { m with cpu } with
  | .ok m => .ok ((), m)
  | .error e => .error e

/-- Several cycles in which the processor does not use the bus. -/
def idle : Nat → Run Unit
  | 0 => pure ()
  | n + 1 => do
    cycle
    idle n

end NesMachine.Machine
