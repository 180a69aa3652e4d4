import NesMachine.Proofs.Checked.Dot
import NesMachine.Proofs.Machine.Code

/-!
# The machine, checked

A checked run goes through the same machines as the run without checks. It is given fewer than 2^63
cycles; a program that asks for more is turned away, which is not a panic.

* `Fit`: what every operation of the machine relies on.
* `Safe`: a checked run that does what the run does, and leaves a machine that the next can rely on.
* `Safe.cycle`: a cycle, with its dots.
-/

namespace NesMachine.Checked

open Board (Fault)
open Machine (InPhase Dots)
open Ppu (After)

variable {ε α β : Type} {m m' m₁ : Machine} {total : Int}

/-! ## Checked runs -/

/-- How a checked run ends early. -/
inductive Stop where
  /-- The cycle of the number 2^63 is not begun, behind the cycles that were counted. -/
  | length (cycles : Nat)
  | panic
  | crash (crash : Crash)

/-- A part of a checked run. -/
abbrev Run := StateT Machine (Except Stop)

/-- A checked computation as a part of a run, with the crash that its faults make. -/
def check (crash : ε → Crash) : Except (Panic ε) α → Except Stop α
  | .ok a => .ok a
  | .error .arithmetic => .error .panic
  | .error (.fault e) => .error (.crash (crash e))

/-- The crash of a fault that leaves the machine as it is. -/
def crashOf (m : Machine) (fault : Fault) : Crash := ⟨fault, m.slot, m.notices⟩

/-- The crash of a write that faults. -/
def crashOfWrite (m : Machine) (e : Fault × Slot) : Crash := ⟨e.1, e.2, m.notices⟩

@[simp] theorem check_ok (crash : ε → Crash) (a : α) : check crash (.ok a) = .ok a := rfl

theorem check_lift (crash : ε → Crash) (x : Except ε α) :
    check crash (lift x) = (x.mapError crash).mapError .crash := by
  cases x <;> rfl

/-! ## What the machine relies on -/

/-- Counters in range, a game whose banks can be counted, and a budget of cycles: what was granted
is what is left and what was used. -/
structure Fit (total : Int) (m : Machine) : Prop where
  ppu : m.ppu.InRange
  slot : m.slot.Bounded
  clock : InPhase m.cpu
  phase : m.cpu.palPhase < 5
  count : ∃ count ≤ 8 * m.cpu.cycles, After m.cpu.tv count m.ppu
  granted : 0 ≤ total
  budget : m.cpu.remaining + m.cpu.cycles = total
  remaining : m.cpu.remaining < 2 ^ 62

/-- From a machine, a checked run does what the run does, if that ends within the given cycles; if it
is longer, the checked run is turned away. -/
def Exact (x : Machine.Run α) (y : Run α) (m : Machine) : Prop :=
  y m = (x m).mapError .crash ∧ (∀ a m', x m = .ok (a, m') → m'.cpu.cycles < 2 ^ 63) ∨
    ∃ n, 2 ^ 63 ≤ n + 1 ∧ y m = .error (.length n) ∧
      ∀ a m', x m = .ok (a, m') → 2 ^ 63 ≤ m'.cpu.cycles

/-- A checked run that is exact from every machine with a property, and keeps it. -/
def Safe (I : Machine → Prop) (x : Machine.Run α) (y : Run α) : Prop :=
  ∀ m, I m → (m.cpu.cycles < 2 ^ 63 → Exact x y m) ∧
    ∀ a m', x m = .ok (a, m') → I m' ∧ m.cpu.cycles ≤ m'.cpu.cycles

variable {I : Machine → Prop} {x : Machine.Run α} {y : Run α} {f : α → Machine.Run β}
  {g : α → Run β}

/-- A part that takes no cycle is never too long. -/
theorem Safe.of_eq (heq : ∀ m, I m → m.cpu.cycles < 2 ^ 63 → y m = (x m).mapError .crash)
    (hkeeps : ∀ m a m', I m → x m = .ok (a, m') → I m' ∧ m'.cpu.cycles = m.cpu.cycles) :
    Safe I x y := by
  refine fun m hm => ⟨fun hshort => .inl ⟨heq m hm hshort, fun a m' h => ?_⟩, fun a m' h => ?_⟩
  all_goals obtain ⟨hm', hcycles⟩ := hkeeps m a m' hm h
  · exact hcycles.trans_lt hshort
  · exact ⟨hm', hcycles.ge⟩

theorem Safe.pure (a : α) : Safe I (Pure.pure a) (Pure.pure a) := by
  refine .of_eq (fun m _ _ => rfl) fun m b m' hm h => ?_
  cases h
  exact ⟨hm, rfl⟩

theorem Safe.get : Safe I (MonadState.get : Machine.Run Machine) (MonadState.get : Run Machine) := by
  refine .of_eq (fun m _ _ => rfl) fun m b m' hm h => ?_
  cases h
  exact ⟨hm, rfl⟩

theorem Safe.modify {h : Machine → Machine} (hkeeps : ∀ m, I m → I (h m))
    (hcycles : ∀ m, (h m).cpu.cycles = m.cpu.cycles) :
    Safe I (modify h : Machine.Run Unit) (modify h : Run Unit) := by
  refine .of_eq (fun m _ _ => rfl) fun m b m' hm hrun => ?_
  cases hrun
  exact ⟨hkeeps m hm, hcycles m⟩

theorem Safe.bind (hx : Safe I x y) (hf : ∀ a, Safe I (f a) (g a)) :
    Safe I (x >>= f) (y >>= g) := by
  intro m hm
  obtain ⟨hexact, hkeeps⟩ := hx m hm
  have hy : (y >>= g) m = (y m >>= fun r => g r.1 r.2) := rfl
  refine ⟨fun hshort => ?_, fun b m' h => ?_⟩
  · rcases hexact hshort with ⟨hsame, hshort'⟩ | ⟨n, hcounted, hlength, hlong⟩
    · cases hrun : x m with
      | error e =>
        have hxf : (x >>= f) m = .error e := Machine.run_error hrun
        rw [hrun] at hsame
        refine .inl ⟨by rw [hy, hsame, hxf]; rfl, fun b m' h => ?_⟩
        rw [hxf] at h
        cases h
      | ok r =>
        have hxf : (x >>= f) m = f r.1 r.2 := Machine.run_eq hrun
        rw [hrun] at hsame
        have hyg : (y >>= g) m = g r.1 r.2 := by rw [hy, hsame]; rfl
        have hrest := (hf r.1 r.2 (hkeeps r.1 r.2 hrun).1).1 (hshort' r.1 r.2 hrun)
        unfold Exact
        rwa [hyg, hxf]
    · refine .inr ⟨n, hcounted, by rw [hy, hlength]; rfl, fun b m' h => ?_⟩
      obtain ⟨a, m₁, hfirst, hrest⟩ := Machine.bind_run h
      exact (hlong a m₁ hfirst).trans ((hf a m₁ (hkeeps a m₁ hfirst).1).2 b m' hrest).2
  · obtain ⟨a, m₁, hfirst, hrest⟩ := Machine.bind_run h
    obtain ⟨hm₁, hle⟩ := hkeeps a m₁ hfirst
    obtain ⟨hm', hle'⟩ := (hf a m₁ hm₁).2 b m' hrest
    exact ⟨hm', hle.trans hle'⟩

/-! ## The clock -/

def dot (m : Machine) : Except Stop Machine := do
  let ppu ← check (crashOf m) (stepPpu m.ppu m.slot)
  return { m with
    cpu := if ppu.nmi then { m.cpu with nmi := true } else m.cpu
    ppu := { ppu with frameReady := false, nmi := false }
    shown := if ppu.frameReady && m.screen then ppu.frame :: m.shown else m.shown }

def dots : Nat → Machine → Except Stop Machine
  | 0, m => .ok m
  | n + 1, m => do dots n (← dot m)

/-- Counts one cycle. The counters have 64 bits, the phase has eight. -/
def tick (c : Cpu) : Except (Panic ε) (Nat × Cpu) := do
  let cycles ← below (2 ^ 64) (c.cycles + 1)
  let remaining ← signed 64 (c.remaining - 1)
  match c.tv with
  | .ntsc => return (3, { c with cycles, remaining })
  | .pal =>
    let phase ← below (2 ^ 8) (c.palPhase + 1)
    return (if phase = 5 then 4 else 3,
      { c with cycles, remaining, palPhase := if phase = 5 then 0 else phase })

def cycle : Run Unit := fun m => do
  if 2 ^ 63 ≤ m.cpu.cycles + 1 then throw (.length m.cpu.cycles)
  let (passing, cpu) ← check (crashOf m) (tick m.cpu)
  let m ← dots passing { m with cpu }
  return ((), m)

def idle : Nat → Run Unit
  | 0 => pure ()
  | n + 1 => do
    cycle
    idle n

/-- What a dot relies on, after a count of dots. -/
structure Ready (tv : TvSystem) (count : Nat) (m : Machine) : Prop where
  ppu : m.ppu.InRange
  slot : m.slot.Bounded
  after : After tv count m.ppu

variable {tv : TvSystem} {count n : Nat}

/-- The picture takes long enough for its number to stay within 64 bits. -/
theorem frameCount_lt {p : Ppu} (h : After tv count p) (hcount : count < 2 ^ 68) :
    p.frameCount + 1 < 2 ^ 64 := by
  rw [h.frameCount, Ppu.framesAfter]
  cases tv <;> simp only [TvSystem.frameDots, TvSystem.lines] <;> omega

theorem Ready.dot (h : Ready tv count m) (hdot : m.dot = .ok m') :
    Ready tv (count + 1 + m.ppu.skipped) m' := by
  obtain ⟨q, hstep, rfl⟩ := Machine.dot_ok hdot
  exact ⟨(h.ppu.step hstep).taken _ _, h.slot, (h.after.step (Ppu.step_clock hstep)).congr rfl rfl⟩

theorem Ready.dots (h : Ready tv count m) (hdots : Machine.dots n m = .ok m') :
    ∃ count' ≤ count + 2 * n, Ready tv count' m' := by
  induction n generalizing m count with
  | zero =>
    cases hdots
    exact ⟨count, Nat.le_refl _, h⟩
  | succ n ih =>
    unfold Machine.dots at hdots
    split at hdots
    · rename_i hdot
      obtain ⟨count', hle, hready⟩ := ih (h.dot hdot) hdots
      have hskip := m.ppu.skipped_le
      exact ⟨count', by omega, hready⟩
    · cases hdots

theorem dot_eq (h : Ready tv count m) (hcount : count < 2 ^ 68) :
    dot m = m.dot.mapError .crash := by
  unfold dot Machine.dot
  rw [stepPpu_eq h.slot h.ppu (frameCount_lt h.after hcount), check_lift]
  simp only
  cases m.ppu.step m.slot <;> rfl

theorem dots_eq (h : Ready tv count m) (hcount : count + 2 * n < 2 ^ 68) :
    dots n m = (Machine.dots n m).mapError .crash := by
  induction n generalizing m count with
  | zero => rfl
  | succ n ih =>
    unfold dots Machine.dots
    rw [dot_eq h (by omega)]
    cases hdot : m.dot with
    | error e => rfl
    | ok m₁ =>
      have hskip := m.ppu.skipped_le
      exact ih (h.dot hdot) (by omega)

theorem tick_eq {c : Cpu} (hcycles : c.cycles + 1 < 2 ^ 63) (hphase : c.palPhase < 5)
    (hlow : -2 ^ 63 < c.remaining) (hhigh : c.remaining < 2 ^ 62) :
    (tick c : Except (Panic ε) (Nat × Cpu)) = .ok c.tick := by
  have hremaining : (signed 64 (c.remaining - 1) : Except (Panic ε) Int) = .ok (c.remaining - 1) :=
    require_ok (by omega) _
  unfold tick Cpu.tick
  rw [below_ok (by omega), ok_bind, hremaining, ok_bind]
  cases c.tv with
  | ntsc => rfl
  | pal =>
    simp only
    rw [below_ok (by omega)]
    rfl

theorem tick_parts {c : Cpu} (hphase : c.palPhase < 5) : c.tick.1 ≤ 4 ∧ c.tick.2.palPhase < 5 ∧
    c.tick.2.remaining = c.remaining - 1 := by
  unfold Cpu.tick
  cases c.tv with
  | ntsc => exact ⟨show 3 ≤ 4 by decide, hphase, rfl⟩
  | pal =>
    refine ⟨?_, ?_, rfl⟩ <;> simp only <;> split <;> omega

theorem Fit.ready (h : Fit total m) :
    ∃ count ≤ 8 * m.cpu.cycles, Ready m.cpu.tv count { m with cpu := m.cpu.tick.2 } := by
  obtain ⟨count, hcount, hafter⟩ := h.count
  exact ⟨count, hcount, h.ppu, h.slot, hafter⟩

theorem Fit.cycle (h : Fit total m) (hrun : Machine.cycle m = .ok ((), m')) :
    Fit total m' ∧ m'.cpu.cycles = m.cpu.cycles + 1 := by
  obtain ⟨hclock, hcycles, htv, -, -⟩ := Machine.tick_spec h.clock
  obtain ⟨hpassing, hphase, hremaining⟩ := tick_parts h.phase
  obtain ⟨count, hcount, hready⟩ := h.ready
  unfold Machine.cycle at hrun
  simp only at hrun
  split at hrun
  · rename_i hdots
    cases hrun
    obtain ⟨count', hle, hready'⟩ := hready.dots hdots
    obtain ⟨ds, hds, -⟩ := Machine.dots_ok hdots
    have hcpu := hds.cpu.1
    have hbudget := h.budget
    refine ⟨⟨hready'.ppu, hready'.slot, ?_, ?_, ⟨count', ?_, ?_⟩, h.granted, ?_, ?_⟩, ?_⟩
    all_goals rw [hcpu]
    · exact hclock
    · exact hphase
    · show count' ≤ 8 * m.cpu.tick.2.cycles
      omega
    · show After m.cpu.tick.2.tv count' _
      rw [htv]
      exact hready'.after
    · show m.cpu.tick.2.remaining + m.cpu.tick.2.cycles = total
      omega
    · show m.cpu.tick.2.remaining < 2 ^ 62
      have hhigh := h.remaining
      omega
    · exact hcycles
  · cases hrun

/-- **A cycle is exact, and leaves the machine fit for the next.** -/
theorem Safe.cycle : Safe (Fit total) Machine.cycle cycle := by
  intro m hm
  refine ⟨fun hshort => ?_, fun a m' h => ?_⟩
  · unfold Exact Checked.cycle
    by_cases hlong : 2 ^ 63 ≤ m.cpu.cycles + 1
    · refine .inr ⟨m.cpu.cycles, hlong, by rw [if_pos hlong]; rfl, fun a m' h => ?_⟩
      exact hlong.trans (hm.cycle h).2.ge
    · obtain ⟨count, hcount, hready⟩ := hm.ready
      have hpassing := (tick_parts hm.phase).1
      have hbudget := hm.budget
      have hgranted := hm.granted
      refine .inl ⟨?_, fun a m' h => (hm.cycle h).2.trans_lt (Nat.lt_of_not_le hlong)⟩
      unfold Machine.cycle
      rw [if_neg hlong, tick_eq (by omega) hm.phase (by omega) hm.remaining]
      simp only [check_ok, ok_bind]
      rw [dots_eq hready (by omega)]
      cases Machine.dots m.cpu.tick.1 { m with cpu := m.cpu.tick.2 } <;> rfl
  · obtain ⟨hfit, hcycles⟩ := hm.cycle h
    exact ⟨hfit, by omega⟩

theorem Safe.idle (n : Nat) : Safe (Fit total) (Machine.idle n) (idle n) := by
  induction n with
  | zero => exact .pure ()
  | succ n ih => exact .bind .cycle fun _ => ih

end NesMachine.Checked
