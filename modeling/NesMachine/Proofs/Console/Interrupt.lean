import NesMachine.Proofs.Console.Progress
import NesMachine.Proofs.Ppu.Course

/-!
# Interrupts of the console

No edge of the non-maskable interrupt is lost between the picture unit, which makes it, and the
processor, which services it, whatever dots, accesses, transfers and instructions come between.

* `execute_executed`: what the processor does about interrupts in one execution.
* `nmi_exact`: requests are made on rising edges, and each of them is serviced.
-/

namespace NesMachine

namespace Console

open Machine (Acts Dot Event InPhase acknowledged dotsOf due?)

variable {m m' : Machine}

/-- The machines of reachable consoles, and those that come of them between the executions of a frame.
-/
inductive AtExecute : Machine → Prop where
  | console {c : Console} : c.Reachable → AtExecute c.machine
  | allot {m : Machine} (remaining : Int) :
      AtExecute m → AtExecute { m with cpu := { m.cpu with remaining } }
  | step {m m' : Machine} : AtExecute m → m.step = .ok ((), m') → AtExecute m'

theorem AtExecute.sound (h : AtExecute m) : Ppu.Reachable m.ppu ∧ InPhase m.cpu := by
  induction h with
  | console hc => exact ⟨hc.sound.reachable, hc.sound.inPhase⟩
  | allot remaining _ ih => exact ih
  | step _ hstep ih =>
    obtain ⟨es, hes, -⟩ := Machine.Part.step.acts hstep
    exact ⟨hes.reachable ih.1, (hes.clocked ih.2).inPhase⟩

theorem AtExecute.runRemaining {fuel : Nat} (hm : AtExecute m)
    (h : Machine.runRemaining fuel m = .ok ((), m')) : AtExecute m' := by
  induction fuel generalizing m with
  | zero =>
    cases h
    exact hm
  | succ fuel ih =>
    obtain ⟨_, m₁, hget, h⟩ := Machine.bind_run h
    cases hget
    split at h
    · obtain ⟨_, m₂, hstep, h⟩ := Machine.bind_run h
      exact ih (hm.step hstep) h
    · cases h
      exact hm

/-- The executions of a frame are among them. -/
theorem AtExecute.runFrame (hm : AtExecute m) (h : m.runFrame = .ok ((), m')) : AtExecute m' := by
  obtain ⟨_, m₁, hallot, h⟩ := Machine.bind_run h
  cases hallot
  obtain ⟨_, m₂, hget, h⟩ := Machine.bind_run h
  cases hget
  exact (hm.allot _).runRemaining h

/-- An execution services an interrupt: it says so, and nothing else. -/
def Services (interrupt : Interrupt) (m m' : Machine) : Prop :=
  m'.notices = .serviced interrupt m'.cpu.registers.pc :: m.notices

/-- What an execution does about interrupts. Its acts begin with the latch cleared. -/
structure Executed (m : Machine) (es : List Event) (m' : Machine) : Prop where
  acts : Acts m.acknowledged es m'
  nmi : Services .nmi m m' ↔ m.cpu.nmi = true
  irq : Services .irq m m' ↔
    m.cpu.nmi = false ∧ m.cpu.irq = true ∧ m.cpu.registers.flag .interruptDisable = false
  service : m.cpu.nmi = true → m.step = Machine.service .nmi m.acknowledged ∧
    m'.cpu.cycles = m.cpu.cycles + 7
  latch : m'.cpu.nmi = (m.ppu.nmi || (dotsOf es).any Dot.rises)
  request : m'.ppu.nmi = es.any Event.stores

theorem due_nmi (c : Cpu) : due? c = some .nmi ↔ c.nmi = true := by
  unfold due?
  cases c.nmi with
  | true => simp
  | false => cases c.irq && !c.registers.flag .interruptDisable <;> simp

theorem due_irq (c : Cpu) : due? c = some .irq ↔
    c.nmi = false ∧ c.irq = true ∧ c.registers.flag .interruptDisable = false := by
  unfold due?
  cases c.nmi <;> cases c.irq <;> cases c.registers.flag .interruptDisable <;> simp

theorem notices_ne {notice : Notice} {notices : List Notice} : notices ≠ notice :: notices :=
  fun h => absurd (congrArg List.length h) (by simp)

theorem services_iff {es : List Event} {interrupt : Interrupt} (h : Machine.Stepped m es m') :
    Services interrupt m m' ↔ due? m.cpu = some interrupt := by
  constructor
  · intro hservices
    cases hdue : due? m.cpu with
    | none => exact absurd ((h.unserved hdue).symm.trans hservices) notices_ne
    | some other =>
      have hother := ((h.served other hdue).2).symm.trans hservices
      injection hother with hnotice
      injection hnotice with hsame
      rw [hsame]
  · exact fun hdue => (h.served interrupt hdue).2

/-- **What the processor does about interrupts in one execution.** -/
theorem execute_executed (hm : AtExecute m) (h : m.step = .ok ((), m')) :
    ∃ es, Executed m es m' := by
  obtain ⟨hreachable, hphase⟩ := hm.sound
  obtain ⟨es, hstepped⟩ := Machine.step_stepped hreachable hphase h
  refine ⟨es, hstepped.acts, ?_, ?_, ?_, hstepped.latch, hstepped.request⟩
  · rw [services_iff hstepped, due_nmi]
  · rw [services_iff hstepped, due_irq]
  · intro hnmi
    have hdue := (due_nmi m.cpu).mpr hnmi
    refine ⟨?_, (hstepped.served .nmi hdue).1⟩
    rw [Machine.step_eq, hdue]

/-- **The non-maskable interrupt is exact.** In the picture unit every operation makes a request on a
rising edge and only then, and the vertical blank always begins with its flag down. In the processor
an edge within an execution is serviced by the next, and one that its store makes by the one after. -/
theorem nmi_exact :
    (∀ p : Ppu, p.Reachable →
      (∀ slot q, p.step slot = .ok q → q.nmi = (p.nmi || Ppu.rises p q)) ∧
      (∀ slot addr value q, p.readRegister slot addr = .ok (value, q) →
        q.nmi = (p.nmi || Ppu.rises p q)) ∧
      (∀ slot addr value q slot', p.writeRegister slot addr value = .ok (q, slot') →
        q.nmi = (p.nmi || Ppu.rises p q)) ∧
      (p.AtVblank → p.inVblank = false)) ∧
    (∀ m m' : Machine, AtExecute m → m.step = .ok ((), m') → ∃ es, Executed m es m' ∧
      ∀ m'', m'.step = .ok ((), m'') →
        ((dotsOf es).any Dot.rises = true → Services .nmi m' m'') ∧
        (es.any Event.stores = true → m''.cpu.nmi = true)) := by
  constructor
  · intro p hp
    exact ⟨fun _ _ h => Ppu.step_nmi hp h, fun _ _ _ _ h => (Ppu.readRegister_nmi h).1,
      fun _ _ _ _ _ h => Ppu.writeRegister_nmi h, hp.vblank_start⟩
  · intro m m' hm h
    obtain ⟨es, hes⟩ := execute_executed hm h
    refine ⟨es, hes, fun m'' h' => ?_⟩
    obtain ⟨fs, hfs⟩ := execute_executed (hm.step h) h'
    constructor
    · intro hrises
      rw [hfs.nmi, hes.latch, hrises, Bool.or_true]
    · intro hstores
      rw [hfs.latch, hes.request, hstores, Bool.true_or]

/-- The picture unit comes to its first vertical blank with the interrupt enabled and no request made. -/
theorem exists_armed : ∃ p : Ppu, p.Reachable ∧ p.AtVblank ∧ p.nmiEnabled = true ∧ p.nmi = false := by
  obtain ⟨ms, p, hcourse, hindex⟩ := Ppu.exists_course (show Ppu.vblankIndex < 89341 by decide)
  have hstart : Ppu.Starts (({} : Ppu).setTv .ntsc) := .inl ⟨.ntsc, rfl⟩
  have hat := (Ppu.atVblank_iff (hcourse.inFrame_of_starts hstart)).mpr hindex
  obtain ⟨q, hwrite⟩ : ∃ q, p.writeRegister none 0x2000 0x80 = .ok (q, none) := ⟨_, rfl⟩
  obtain ⟨⟨hbeam, -⟩, hctrl, -⟩ := Ppu.writeRegister_frame hwrite
  have henabled : q.nmiEnabled = true := by
    unfold Ppu.nmiEnabled
    rw [hctrl]
    decide
  refine ⟨q.takeNmi.2, .takeNmi (.write (hcourse.reachable hstart.reachable) hwrite), ?_, henabled, rfl⟩
  show q.AtVblank
  unfold Ppu.AtVblank
  rw [hbeam]
  exact hat

/-- The dot that begins the first vertical blank makes a request, and the first execution of a game of
16 KB of zeros is exact. -/
theorem nmi_exact_small :
    (∃ p q : Ppu, p.Reachable ∧ p.nmi = false ∧ p.step none = .ok q ∧ q.nmi = true ∧
      Ppu.rises p q = true) ∧
    ∃ m m' : Machine, AtExecute m ∧ m.step = .ok ((), m') ∧ ∃ es, Executed m es m' ∧
      ∀ m'', m'.step = .ok ((), m'') →
        ((dotsOf es).any Dot.rises = true → Services .nmi m' m'') ∧
        (es.any Event.stores = true → m''.cpu.nmi = true) := by
  constructor
  · obtain ⟨p, hp, hat, henabled, hnmi⟩ := exists_armed
    obtain ⟨q, hq⟩ := Ppu.step_progress Ppu.readable_none p
    have hrequest : q.nmi = true := by
      rw [(Ppu.step_clock hq).nmi, decide_eq_true hat, henabled, Bool.and_self, Bool.or_true]
    have hexact := (nmi_exact.1 p hp).1 none q hq
    rw [hrequest, hnmi, Bool.false_or] at hexact
    exact ⟨p, q, hp, hnmi, hq, hrequest, hexact.symm⟩
  · obtain ⟨c, c₁, bytes, name, hc, -, hload, hgame⟩ := exists_loaded
    obtain ⟨_, m', hstep, -⟩ := Machine.Part.step.progress hgame
    have hm : AtExecute c₁.machine := .console (.loadBytes hc hload)
    exact ⟨c₁.machine, m', hm, hstep, nmi_exact.2 _ _ hm hstep⟩

end Console

end NesMachine
