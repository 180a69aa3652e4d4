import NesMachine.Machine.Clock
import NesMachine.Machine.Bus
import NesMachine.Proofs.Ppu.Position

/-!
# What a run does to the picture unit

A run of the machine is a sequence of acts: cycles with their dots, register accesses, and steps that
the picture unit does not notice. What holds over every act holds over every run, whatever program
makes it.

* `Acts.inPhase`: the dots of a run are counted by its cycles.
* `Acts.position`: the dots of a run decide where the beam is.
* `Acts.latch`: the requests of a run, and whether the processor has taken notice of them.
-/

namespace NesMachine.Machine

variable {m m' m₁ m₂ : Machine}

/-! ## Acts -/

/-- A dot, as the machine before and the machine behind it. -/
abbrev Dot := Machine × Machine

/-- What an act is to the picture unit. -/
inductive Event where
  | cycle (dots : List Dot)
  | read (before after : Ppu)
  | write (before after : Ppu)
  /-- The processor forgets the edge that it is about to service. -/
  | lower
  | report (notice : Notice)
  /-- Pictures and reports are handed on. -/
  | hand
  | quiet

/-- A run of dots. -/
inductive Dots : Machine → List Dot → Machine → Prop where
  | nil {m : Machine} : Dots m [] m
  | cons {m m₁ m' : Machine} {ds : List Dot} :
      m.dot = .ok m₁ → Dots m₁ ds m' → Dots m ((m, m₁) :: ds) m'

/-- A step that leaves the clock, the latch and the picture unit alone. -/
structure Quiet (m m' : Machine) : Prop where
  ppu : m'.ppu = m.ppu
  screen : m'.screen = m.screen
  shown : m'.shown = m.shown
  notices : m'.notices = m.notices
  cycles : m'.cpu.cycles = m.cpu.cycles
  tv : m'.cpu.tv = m.cpu.tv
  palPhase : m'.cpu.palPhase = m.cpu.palPhase
  nmi : m'.cpu.nmi = m.cpu.nmi

/-- One act. -/
inductive Act : Machine → Event → Machine → Prop where
  | cycle {m m' : Machine} {ds : List Dot} :
      Dots { m with cpu := m.cpu.tick.2 } ds m' → ds.length = m.cpu.tick.1 → Act m (.cycle ds) m'
  | read {m m' : Machine} {addr : UInt16} {value : UInt8} :
      m.readPpu addr = .ok (value, m') → Act m (.read m.ppu m'.ppu) m'
  | write {m m' : Machine} {addr : UInt16} {value : UInt8} :
      m.writePpu addr value = .ok ((), m') → Act m (.write m.ppu m'.ppu) m'
  | lower {m : Machine} : Act m .lower { m with cpu := { m.cpu with nmi := false } }
  | report {m : Machine} {notice : Notice} :
      Act m (.report notice) { m with notices := notice :: m.notices }
  | hand {m : Machine} : Act m .hand { m with shown := [], notices := [] }
  | quiet {m m' : Machine} : Quiet m m' → Act m .quiet m'

/-- A run of acts. -/
inductive Acts : Machine → List Event → Machine → Prop where
  | nil {m : Machine} : Acts m [] m
  | cons {m m₁ m' : Machine} {e : Event} {es : List Event} :
      Act m e m₁ → Acts m₁ es m' → Acts m (e :: es) m'

theorem Acts.append {es fs : List Event} (h : Acts m es m₁) (h' : Acts m₁ fs m') :
    Acts m (es ++ fs) m' := by
  induction h with
  | nil => exact h'
  | cons hact _ ih => exact .cons hact (ih h')

theorem Act.single {e : Event} (h : Act m e m') : Acts m [e] m' := .cons h .nil

/-- The dots of an event. -/
def Event.dots : Event → List Dot
  | .cycle ds => ds
  | _ => []

/-- The dots of a run. -/
def dotsOf (es : List Event) : List Dot := es.flatMap Event.dots

theorem dotsOf_cons (e : Event) (es : List Event) : dotsOf (e :: es) = e.dots ++ dotsOf es :=
  List.flatMap_cons

theorem dotsOf_append (es fs : List Event) : dotsOf (es ++ fs) = dotsOf es ++ dotsOf fs :=
  List.flatMap_append

/-! ## What primitive steps do -/

/-- A dot: the picture unit does one, a finished picture is shown, a request is latched. -/
theorem dot_ok (h : m.dot = .ok m') : ∃ q, m.ppu.step m.slot = .ok q ∧ m' = { m with
    cpu := { m.cpu with nmi := m.cpu.nmi || q.nmi }
    ppu := { q with frameReady := false, nmi := false }
    shown := if q.frameReady && m.screen then q.frame :: m.shown else m.shown } := by
  unfold dot at h
  simp only at h
  split at h
  · cases h
  · rename_i q hq
    refine ⟨q, hq, ?_⟩
    injection h with h
    rw [← h]
    cases q.nmi <;> simp

/-- What stays in a register access. -/
structure Accessed (m m' : Machine) : Prop where
  cpu : m'.cpu = m.cpu
  screen : m'.screen = m.screen
  shown : m'.shown = m.shown
  notices : m'.notices = m.notices

theorem readPpu_ok {addr : UInt16} {value : UInt8} (h : m.readPpu addr = .ok (value, m')) :
    m.ppu.readRegister m.slot addr = .ok (value, m'.ppu) ∧ Accessed m m' := by
  unfold readPpu at h
  simp only at h
  split at h
  · rename_i hread
    cases h
    exact ⟨hread, rfl, rfl, rfl, rfl⟩
  · cases h

theorem writePpu_ok {addr : UInt16} {value : UInt8} (h : m.writePpu addr value = .ok ((), m')) :
    m.ppu.writeRegister m.slot addr value = .ok (m'.ppu, m'.slot) ∧ Accessed m m' := by
  unfold writePpu at h
  simp only at h
  split at h
  · rename_i hwrite
    cases h
    exact ⟨hwrite, rfl, rfl, rfl, rfl⟩
  · cases h

/-! ## The clock -/

/-- Dots that pass in a number of cycles. -/
def dotsIn (tv : TvSystem) (cycles : Nat) : Nat :=
  match tv with
  | .ntsc => 3 * cycles
  | .pal => 3 * cycles + cycles / 5

/-- The extra dots of PAL are due in every fifth cycle. -/
def InPhase (c : Cpu) : Prop := c.tv = .pal → c.palPhase = c.cycles % 5

theorem tick_spec {c : Cpu} (h : InPhase c) : InPhase c.tick.2 ∧
    c.tick.2.cycles = c.cycles + 1 ∧ c.tick.2.tv = c.tv ∧ c.tick.2.nmi = c.nmi ∧
      dotsIn c.tv (c.cycles + 1) = dotsIn c.tv c.cycles + c.tick.1 := by
  unfold InPhase at *
  unfold Cpu.tick
  cases htv : c.tv with
  | ntsc =>
    refine ⟨fun hpal => ?_, rfl, rfl, rfl, rfl⟩
    cases show TvSystem.ntsc = .pal from hpal
  | pal =>
    have hphase := h htv
    refine ⟨fun _ => ?_, rfl, rfl, rfl, ?_⟩
    · simp only
      split <;> omega
    · simp only [dotsIn]
      split <;> omega

/-- What dots leave to the processor. -/
theorem Dots.cpu {ds : List Dot} (h : Dots m ds m') :
    m'.cpu = { m.cpu with nmi := m'.cpu.nmi } ∧ m'.screen = m.screen ∧ m'.notices = m.notices := by
  induction h with
  | nil => exact ⟨rfl, rfl, rfl⟩
  | cons hdot _ ih =>
    obtain ⟨q, -, rfl⟩ := dot_ok hdot
    obtain ⟨hcpu, hscreen, hnotices⟩ := ih
    exact ⟨hcpu, hscreen, hnotices⟩

/-- The clock of the processor before and after some dots. -/
structure Clocked (m : Machine) (ds : List Dot) (m' : Machine) : Prop where
  inPhase : InPhase m'.cpu
  tv : m'.cpu.tv = m.cpu.tv
  le : m.cpu.cycles ≤ m'.cpu.cycles
  dots : dotsIn m.cpu.tv m'.cpu.cycles = dotsIn m.cpu.tv m.cpu.cycles + ds.length

theorem Clocked.same (hphase : InPhase m.cpu) (hcycles : m'.cpu.cycles = m.cpu.cycles)
    (htv : m'.cpu.tv = m.cpu.tv) (hpal : m'.cpu.palPhase = m.cpu.palPhase) : Clocked m [] m' := by
  refine ⟨?_, htv, hcycles.ge, by rw [hcycles]; rfl⟩
  unfold InPhase
  rw [htv, hcycles, hpal]
  exact hphase

theorem Act.clocked {e : Event} (hphase : InPhase m.cpu) (h : Act m e m') :
    Clocked m e.dots m' := by
  cases h with
  | @cycle _ ds hdots hlength =>
    obtain ⟨hin, hcycles, htv, -, hcount⟩ := tick_spec hphase
    have hcpu := hdots.cpu.1
    refine ⟨?_, ?_, ?_, ?_⟩
    · rw [hcpu]
      exact hin
    · rw [hcpu]
      exact htv
    · rw [hcpu]
      exact (Nat.le_succ _).trans hcycles.ge
    · rw [hcpu]
      show dotsIn m.cpu.tv m.cpu.tick.2.cycles = _ + ds.length
      rw [hcycles, hcount, hlength]
  | read hread =>
    have hcpu := (readPpu_ok hread).2.cpu
    exact .same hphase (by rw [hcpu]) (by rw [hcpu]) (by rw [hcpu])
  | write hwrite =>
    have hcpu := (writePpu_ok hwrite).2.cpu
    exact .same hphase (by rw [hcpu]) (by rw [hcpu]) (by rw [hcpu])
  | lower => exact .same hphase rfl rfl rfl
  | report => exact .same hphase rfl rfl rfl
  | hand => exact .same hphase rfl rfl rfl
  | quiet hquiet => exact .same hphase hquiet.cycles hquiet.tv hquiet.palPhase

theorem Acts.clocked {es : List Event} (h : Acts m es m') (hphase : InPhase m.cpu) :
    Clocked m (dotsOf es) m' := by
  induction h with
  | nil => exact .same hphase rfl rfl rfl
  | cons hact _ ih =>
    have hfirst := hact.clocked hphase
    have hrest := ih hfirst.inPhase
    refine ⟨hrest.inPhase, hrest.tv.trans hfirst.tv, hfirst.le.trans hrest.le, ?_⟩
    have hcount := hrest.dots
    rw [hfirst.tv, hfirst.dots] at hcount
    rw [hcount, dotsOf_cons, List.length_append, Nat.add_assoc]

/-! ## The position -/

open Ppu (After)

/-- Whether a dot leaves out the one behind it. -/
def Dot.skips (d : Dot) : Bool := d.1.ppu.beam.skipsDot d.1.ppu.rendering

/-- The dots left out in a run. -/
def skipsIn (ds : List Dot) : Nat := ds.countP Dot.skips

/-- A picture goes to the screen on the dot behind it, and only there. -/
def Dot.Presents (d : Dot) : Prop := d.2.shown =
  if d.1.screen = true ∧ d.1.ppu.BehindPicture then d.2.ppu.frame :: d.1.shown else d.1.shown

/-- Every dot is where its count says. -/
def Counted (tv : TvSystem) (count : Nat) : List Dot → Prop
  | [] => True
  | d :: ds => After tv count d.1.ppu ∧ Counted tv (count + 1 + d.1.ppu.skipped) ds

/-- A run of dots, as far as the position of the beam goes. -/
structure Moved (tv : TvSystem) (count : Nat) (ds : List Dot) (m' : Machine) : Prop where
  after : After tv (count + ds.length + skipsIn ds) m'.ppu
  ready : m'.ppu.frameReady = false
  counted : Counted tv count ds
  presents : ∀ d ∈ ds, d.Presents

variable {tv : TvSystem} {count : Nat}

theorem skipsIn_cons (d : Dot) (ds : List Dot) :
    skipsIn (d :: ds) = d.1.ppu.skipped + skipsIn ds := by
  unfold skipsIn Ppu.skipped
  rw [List.countP_cons, Nat.add_comm]
  rfl

theorem counted_append (ds es : List Dot) : Counted tv count (ds ++ es) ↔
    Counted tv count ds ∧ Counted tv (count + ds.length + skipsIn ds) es := by
  induction ds generalizing count with
  | nil => exact ⟨fun h => ⟨trivial, h⟩, And.right⟩
  | cons d ds ih =>
    have hcount : count + (d :: ds).length + skipsIn (d :: ds) =
        count + 1 + d.1.ppu.skipped + ds.length + skipsIn ds := by
      rw [skipsIn_cons, List.length_cons]
      omega
    rw [List.cons_append, Counted, Counted, ih, hcount, and_assoc]

theorem Moved.append {ds es : List Dot} (h : Moved tv count ds m₁)
    (h' : Moved tv (count + ds.length + skipsIn ds) es m') : Moved tv count (ds ++ es) m' := by
  refine ⟨?_, h'.ready, (counted_append ds es).mpr ⟨h.counted, h'.counted⟩, ?_⟩
  · have hcount : count + (ds ++ es).length + skipsIn (ds ++ es) =
        count + ds.length + skipsIn ds + es.length + skipsIn es := by
      rw [skipsIn, List.countP_append, List.length_append, skipsIn, skipsIn]
      omega
    rw [hcount]
    exact h'.after
  · intro d hd
    rcases List.mem_append.mp hd with hd | hd
    · exact h.presents d hd
    · exact h'.presents d hd

theorem Moved.same (hafter : After tv count m.ppu) (hready : m.ppu.frameReady = false)
    (hbeam : m'.ppu.beam = m.ppu.beam) (hframes : m'.ppu.frameCount = m.ppu.frameCount)
    (hsame : m'.ppu.frameReady = m.ppu.frameReady) : Moved tv count [] m' := by
  refine ⟨hafter.congr hbeam hframes, hsame.trans hready, trivial, ?_⟩
  intro d hd
  cases hd

/-- One dot. -/
theorem dot_moved (hafter : After tv count m.ppu) (hready : m.ppu.frameReady = false)
    (h : m.dot = .ok m') : Moved tv count [(m, m')] m' := by
  obtain ⟨q, hstep, rfl⟩ := dot_ok h
  have hdot := Ppu.step_clock hstep
  refine ⟨?_, rfl, ⟨hafter, trivial⟩, ?_⟩
  · rw [skipsIn_cons]
    exact (hafter.step hdot).congr rfl rfl
  · intro d hd
    rw [List.mem_singleton] at hd
    subst hd
    unfold Dot.Presents
    simp only [hdot.frameReady, hready, Bool.false_or, Bool.and_eq_true, decide_eq_true_iff,
      and_comm]

theorem Dots.moved {ds : List Dot} (h : Dots m ds m') (hafter : After tv count m.ppu)
    (hready : m.ppu.frameReady = false) : Moved tv count ds m' := by
  induction h generalizing count with
  | nil => exact .same hafter hready rfl rfl rfl
  | cons hdot _ ih =>
    have hfirst := dot_moved hafter hready hdot
    exact hfirst.append (ih hfirst.after hfirst.ready)

theorem Act.moved {e : Event} (hafter : After tv count m.ppu) (hready : m.ppu.frameReady = false)
    (h : Act m e m') : Moved tv count e.dots m' := by
  cases h with
  | cycle hdots => exact hdots.moved hafter hready
  | read hread =>
    have hframe := (Ppu.readRegister_frame (readPpu_ok hread).1).1
    exact .same hafter hready (by rw [hframe]) (by rw [hframe]) (by rw [hframe])
  | write hwrite =>
    obtain ⟨⟨hbeam, -, hframes, hsame⟩, -⟩ := Ppu.writeRegister_frame (writePpu_ok hwrite).1
    exact .same hafter hready hbeam hframes hsame
  | lower => exact .same hafter hready rfl rfl rfl
  | report => exact .same hafter hready rfl rfl rfl
  | hand => exact .same hafter hready rfl rfl rfl
  | quiet hquiet =>
    have hppu := hquiet.ppu
    exact .same hafter hready (by rw [hppu]) (by rw [hppu]) (by rw [hppu])

theorem Acts.moved {es : List Event} (h : Acts m es m') (hafter : After tv count m.ppu)
    (hready : m.ppu.frameReady = false) : Moved tv count (dotsOf es) m' := by
  induction h generalizing count with
  | nil => exact .same hafter hready rfl rfl rfl
  | cons hact _ ih =>
    have hfirst := hact.moved hafter hready
    rw [dotsOf_cons]
    exact hfirst.append (ih hfirst.after hfirst.ready)

/-! ## Pictures shown -/

/-- A run in which every picture that was completed was shown to whoever looks. -/
structure Shows (m m' : Machine) : Prop where
  screen : m'.screen = m.screen
  ready : m'.ppu.frameReady = false
  count : m.screen = true →
    m'.shown.length + m.ppu.frameCount = m.shown.length + m'.ppu.frameCount

theorem Shows.trans (h : Shows m m₁) (h' : Shows m₁ m') : Shows m m' := by
  refine ⟨h'.screen.trans h.screen, h'.ready, fun hscreen => ?_⟩
  have hfirst := h.count hscreen
  have hrest := h'.count (h.screen.trans hscreen)
  omega

theorem Shows.same (hready : m.ppu.frameReady = false) (hscreen : m'.screen = m.screen)
    (hshown : m'.shown = m.shown) (hframes : m'.ppu.frameCount = m.ppu.frameCount)
    (hsame : m'.ppu.frameReady = m.ppu.frameReady) : Shows m m' :=
  ⟨hscreen, hsame.trans hready, fun _ => by rw [hshown, hframes]⟩

theorem dot_shows (hready : m.ppu.frameReady = false) (h : m.dot = .ok m') : Shows m m' := by
  obtain ⟨q, hstep, rfl⟩ := dot_ok h
  have hdot := Ppu.step_clock hstep
  refine ⟨rfl, rfl, fun hscreen => ?_⟩
  simp only [hdot.frameReady, hdot.frameCount, hready, hscreen, Bool.false_or, Bool.and_true,
    decide_eq_true_iff]
  split
  · rw [List.length_cons, Nat.add_right_comm, Nat.add_assoc]
  · rfl

theorem Dots.shows {ds : List Dot} (h : Dots m ds m') (hready : m.ppu.frameReady = false) :
    Shows m m' := by
  induction h with
  | nil => exact .same hready rfl rfl rfl rfl
  | cons hdot _ ih =>
    have hfirst := dot_shows hready hdot
    exact hfirst.trans (ih hfirst.ready)

theorem Act.shows {e : Event} (hready : m.ppu.frameReady = false) (hhand : e ≠ .hand)
    (h : Act m e m') : Shows m m' := by
  cases h with
  | cycle hdots =>
    obtain ⟨hscreen, hend, hcount⟩ := hdots.shows hready
    exact ⟨hscreen, hend, hcount⟩
  | read hread =>
    obtain ⟨hread, haccess⟩ := readPpu_ok hread
    have hframe := (Ppu.readRegister_frame hread).1
    exact .same hready haccess.screen haccess.shown (by rw [hframe]) (by rw [hframe])
  | write hwrite =>
    obtain ⟨hwrite, haccess⟩ := writePpu_ok hwrite
    obtain ⟨⟨-, -, hframes, hsame⟩, -⟩ := Ppu.writeRegister_frame hwrite
    exact .same hready haccess.screen haccess.shown hframes hsame
  | lower => exact .same hready rfl rfl rfl rfl
  | report => exact .same hready rfl rfl rfl rfl
  | hand => exact absurd rfl hhand
  | quiet hquiet =>
    have hppu := hquiet.ppu
    exact .same hready hquiet.screen hquiet.shown (by rw [hppu]) (by rw [hppu])

theorem Acts.shows {es : List Event} (h : Acts m es m') (hready : m.ppu.frameReady = false)
    (hhand : ∀ e ∈ es, e ≠ .hand) : Shows m m' := by
  induction h with
  | nil => exact .same hready rfl rfl rfl rfl
  | cons hact _ ih =>
    obtain ⟨hhere, hthere⟩ := List.forall_mem_cons.mp hhand
    have hfirst := hact.shows hready hhere
    exact hfirst.trans (ih hfirst.ready hthere)

/-! ## Requests and the latch -/

/-- Whether the condition of the interrupt rises in a dot. -/
def Dot.rises (d : Dot) : Bool := Ppu.rises d.1.ppu d.2.ppu

/-- Whether the condition of the interrupt rises in a register write. -/
def Event.stores : Event → Bool
  | .write before after => Ppu.rises before after
  | _ => false

/-- An event that neither makes a request outside of a dot, nor forgets one, nor reports. -/
def Event.Silent : Event → Prop
  | .write before after => Ppu.rises before after = false
  | .lower | .report _ | .hand => False
  | .cycle _ | .read .. | .quiet => True

/-- A run of dots, as far as the requests go: the first dot passes on what was requested before it,
and every dot what it requests itself. -/
structure Latched (m : Machine) (ds : List Dot) (m' : Machine) : Prop where
  reachable : Ppu.Reachable m'.ppu
  latch : m'.cpu.nmi = (m.cpu.nmi || (!ds.isEmpty && m.ppu.nmi) || ds.any Dot.rises)
  request : m'.ppu.nmi = (ds.isEmpty && m.ppu.nmi)

theorem Latched.same (hp : Ppu.Reachable m'.ppu) (hlatch : m'.cpu.nmi = m.cpu.nmi)
    (hrequest : m'.ppu.nmi = m.ppu.nmi) : Latched m [] m' :=
  ⟨hp, by rw [hlatch]; simp, by rw [hrequest]; simp⟩

theorem Latched.append {ds es : List Dot} (h : Latched m ds m₁) (h' : Latched m₁ es m') :
    Latched m (ds ++ es) m' := by
  refine ⟨h'.reachable, ?_, ?_⟩
  · rw [h'.latch, h.latch, h.request, List.any_append]
    cases ds <;> cases es <;> simp [Bool.or_assoc, Bool.or_comm, Bool.or_left_comm]
  · rw [h'.request, h.request]
    cases ds <;> cases es <;> simp

theorem dot_latched (hp : Ppu.Reachable m.ppu) (h : m.dot = .ok m') : Latched m [(m, m')] m' := by
  obtain ⟨q, hstep, rfl⟩ := dot_ok h
  have hq : Ppu.Reachable q := hp.step hstep
  refine ⟨hq.takeFrameReady.takeNmi, ?_, rfl⟩
  show (m.cpu.nmi || q.nmi) = (m.cpu.nmi || m.ppu.nmi || (Ppu.rises m.ppu q || false))
  rw [Ppu.step_nmi hp hstep, Bool.or_false, Bool.or_assoc]

theorem Dots.latched {ds : List Dot} (h : Dots m ds m') (hp : Ppu.Reachable m.ppu) :
    Latched m ds m' := by
  induction h with
  | nil => exact .same hp rfl rfl
  | cons hdot _ ih =>
    have hfirst := dot_latched hp hdot
    exact hfirst.append (ih hfirst.reachable)

theorem cycle_latched {ds : List Dot} (h : Dots { m with cpu := m.cpu.tick.2 } ds m')
    (hp : Ppu.Reachable m.ppu) : Latched m ds m' := by
  obtain ⟨hreachable, hlatch, hrequest⟩ := h.latched hp
  have htick : m.cpu.tick.2.nmi = m.cpu.nmi := by
    unfold Cpu.tick
    cases m.cpu.tv <;> rfl
  exact ⟨hreachable, htick ▸ hlatch, hrequest⟩

theorem Act.reachable {e : Event} (hp : Ppu.Reachable m.ppu) (h : Act m e m') :
    Ppu.Reachable m'.ppu := by
  cases h with
  | cycle hdots => exact (cycle_latched hdots hp).reachable
  | read hread => exact hp.read (readPpu_ok hread).1
  | write hwrite => exact hp.write (writePpu_ok hwrite).1
  | lower => exact hp
  | report => exact hp
  | hand => exact hp
  | quiet hquiet => exact hquiet.ppu ▸ hp

theorem Acts.reachable {es : List Event} (h : Acts m es m') (hp : Ppu.Reachable m.ppu) :
    Ppu.Reachable m'.ppu := by
  induction h with
  | nil => exact hp
  | cons hact _ ih => exact ih (hact.reachable hp)

theorem Act.latched {e : Event} (hp : Ppu.Reachable m.ppu) (hsilent : e.Silent)
    (h : Act m e m') : Latched m e.dots m' := by
  have hp' := h.reachable hp
  cases h with
  | cycle hdots => exact cycle_latched hdots hp
  | read hread =>
    obtain ⟨hread, haccess⟩ := readPpu_ok hread
    have hframe := (Ppu.readRegister_frame hread).1
    exact .same hp' (by rw [haccess.cpu]) (by rw [hframe])
  | write hwrite =>
    obtain ⟨hwrite, haccess⟩ := writePpu_ok hwrite
    have hrequest := Ppu.writeRegister_nmi hwrite
    rw [show Ppu.rises m.ppu m'.ppu = false from hsilent, Bool.or_false] at hrequest
    exact .same hp' (by rw [haccess.cpu]) hrequest
  | lower => exact hsilent.elim
  | report => exact hsilent.elim
  | hand => exact hsilent.elim
  | quiet hquiet => exact .same hp' hquiet.nmi (by rw [hquiet.ppu])

theorem Acts.latched {es : List Event} (h : Acts m es m') (hp : Ppu.Reachable m.ppu)
    (hsilent : ∀ e ∈ es, e.Silent) : Latched m (dotsOf es) m' := by
  induction h with
  | nil => exact .same hp rfl rfl
  | cons hact _ ih =>
    obtain ⟨hhere, hthere⟩ := List.forall_mem_cons.mp hsilent
    have hfirst := hact.latched hp hhere
    rw [dotsOf_cons]
    exact hfirst.append (ih hfirst.reachable hthere)

theorem Act.notices {e : Event} (hsilent : e.Silent) (h : Act m e m') :
    m'.notices = m.notices := by
  cases h with
  | cycle hdots => exact hdots.cpu.2.2
  | read hread => exact (readPpu_ok hread).2.notices
  | write hwrite => exact (writePpu_ok hwrite).2.notices
  | lower => exact hsilent.elim
  | report => exact hsilent.elim
  | hand => exact hsilent.elim
  | quiet hquiet => exact hquiet.notices

theorem Acts.notices {es : List Event} (h : Acts m es m') (hsilent : ∀ e ∈ es, e.Silent) :
    m'.notices = m.notices := by
  induction h with
  | nil => rfl
  | cons hact _ ih =>
    obtain ⟨hhere, hthere⟩ := List.forall_mem_cons.mp hsilent
    exact (ih hthere).trans (hact.notices hhere)

end NesMachine.Machine
