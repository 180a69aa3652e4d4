import NesMachine.Proofs.Machine.Acts
import NesMachine.Proofs.Machine.Parts

/-!
# Steps

Every part of a run is a sequence of acts. A step services the interrupt that is due or runs an
instruction; it leaves the latch of the processor as the requests within it demand, and the request
of the picture unit as its last store does.

* `Part.acts`: a run of the machine is a sequence of acts.
* `step_stepped`: what a step does about interrupts.
-/

namespace NesMachine.Machine

open Cpu (Registers)

variable {α β : Type} {m m' : Machine} {x : Run α} {f : α → Run β}

/-! ## Runs as acts -/

theorem bind_run {b : β} (h : (x >>= f) m = .ok (b, m')) :
    ∃ a m₁, x m = .ok (a, m₁) ∧ f a m₁ = .ok (b, m') := by
  obtain ⟨⟨a, m₁⟩, hx, hf⟩ := bind_ok (show x m >>= (fun r => f r.1 r.2) = .ok (b, m') from h)
  exact ⟨a, m₁, hx, hf⟩

theorem dots_ok {n : Nat} (h : dots n m = .ok m') : ∃ ds, Dots m ds m' ∧ ds.length = n := by
  induction n generalizing m with
  | zero =>
    cases h
    exact ⟨[], .nil, rfl⟩
  | succ n ih =>
    unfold dots at h
    split at h
    · rename_i m₁ hdot
      obtain ⟨ds, hds, hlength⟩ := ih h
      exact ⟨(m, m₁) :: ds, .cons hdot hds, by rw [List.length_cons, hlength]⟩
    · cases h

theorem cycle_ok (h : cycle m = .ok ((), m')) : ∃ ds, Act m (.cycle ds) m' := by
  unfold cycle at h
  simp only at h
  split at h
  · rename_i hdots
    cases h
    obtain ⟨ds, hds, hlength⟩ := dots_ok hdots
    exact ⟨ds, .cycle hds hlength⟩
  · cases h

theorem writePpu_silent {addr : UInt16} {value : UInt8} (haddr : Ppu.registerOf addr ≠ 0)
    (h : m.writePpu addr value = .ok ((), m')) : Ppu.rises m.ppu m'.ppu = false := by
  obtain ⟨⟨-, hstatus, -, -⟩, hctrl⟩ := Ppu.writeRegister_frame (writePpu_ok h).1
  rw [if_neg haddr] at hctrl
  unfold Ppu.rises Ppu.requests
  rw [Ppu.inVblank_congr hstatus, Ppu.nmiEnabled_congr hctrl.1]
  exact Bool.not_and_self _

theorem act_acts {e : Event} (h : Act m e m') (hsilent : e.Silent) :
    ∃ es, Acts m es m' ∧ ∀ e ∈ es, e.Silent :=
  ⟨[e], h.single, by simpa using hsilent⟩

/-- A silent part is a sequence of silent acts. -/
theorem Plain.acts {a : α} (hx : Plain x) (h : x m = .ok (a, m')) :
    ∃ es, Acts m es m' ∧ ∀ e ∈ es, e.Silent := by
  induction hx generalizing m m' with
  | pure b =>
    cases h
    exact ⟨[], .nil, by simp⟩
  | bind _ _ ihx ihf =>
    obtain ⟨b, m₁, hfirst, hrest⟩ := bind_run h
    obtain ⟨es, hes, hsilent⟩ := ihx hfirst
    obtain ⟨fs, hfs, hsilent'⟩ := ihf b hrest
    exact ⟨es ++ fs, hes.append hfs, List.forall_mem_append.mpr ⟨hsilent, hsilent'⟩⟩
  | getCpu =>
    cases h
    exact ⟨[], .nil, by simp⟩
  | modifyRegisters f =>
    cases h
    exact act_acts (.quiet ⟨rfl, rfl, rfl, rfl, rfl, rfl, rfl, rfl⟩) trivial
  | writeRam addr value =>
    cases h
    exact act_acts (.quiet ⟨rfl, rfl, rfl, rfl, rfl, rfl, rfl, rfl⟩) trivial
  | cycle =>
    obtain ⟨ds, hact⟩ := cycle_ok h
    exact act_acts hact trivial
  | readPpu addr => exact act_acts (.read h) trivial
  | writePpu value haddr => exact act_acts (.write h) (writePpu_silent haddr h)
  | readPad =>
    cases h
    exact act_acts (.quiet ⟨rfl, rfl, rfl, rfl, rfl, rfl, rfl, rfl⟩) trivial
  | writeStrobe value =>
    cases h
    exact act_acts (.quiet ⟨rfl, rfl, rfl, rfl, rfl, rfl, rfl, rfl⟩) trivial
  | readCartridge addr =>
    unfold Machine.readCartridge at h
    split at h
    · cases h
      exact act_acts (.quiet ⟨rfl, rfl, rfl, rfl, rfl, rfl, rfl, rfl⟩) trivial
    · cases h
  | writeCartridge addr value =>
    unfold Machine.writeCartridge at h
    simp only at h
    split at h
    · cases h
      exact act_acts (.quiet ⟨rfl, rfl, rfl, rfl, rfl, rfl, rfl, rfl⟩) trivial
    · cases h

/-- A run whose acts are silent, but for a register write at the end. -/
def Ends (es : List Event) : Prop :=
  (∀ e ∈ es, e.Silent) ∨ ∃ fs before after, es = fs ++ [.write before after] ∧ ∀ e ∈ fs, e.Silent

theorem Ending.acts {a : α} (hx : Ending x) (h : x m = .ok (a, m')) :
    ∃ es, Acts m es m' ∧ Ends es := by
  induction hx generalizing m m' with
  | plain hx =>
    obtain ⟨es, hes, hsilent⟩ := hx.acts h
    exact ⟨es, hes, .inl hsilent⟩
  | bind hx _ ih =>
    obtain ⟨b, m₁, hfirst, hrest⟩ := bind_run h
    obtain ⟨es, hes, hsilent⟩ := hx.acts hfirst
    obtain ⟨fs, hfs, hends⟩ := ih b hrest
    refine ⟨es ++ fs, hes.append hfs, ?_⟩
    rcases hends with hsilent' | ⟨gs, before, after, rfl, hsilent'⟩
    · exact .inl (List.forall_mem_append.mpr ⟨hsilent, hsilent'⟩)
    · exact .inr ⟨es ++ gs, before, after, (List.append_assoc ..).symm,
        List.forall_mem_append.mpr ⟨hsilent, hsilent'⟩⟩
  | writePpu addr value => exact ⟨_, (Act.write h).single, .inr ⟨[], _, _, rfl, by simp⟩⟩

theorem Event.Silent.ne_hand {e : Event} (h : e.Silent) : e ≠ .hand := by
  rintro rfl
  exact h

theorem Ends.ne_hand {es : List Event} (h : Ends es) : ∀ e ∈ es, e ≠ .hand := by
  rcases h with hsilent | ⟨fs, before, after, rfl, hsilent⟩
  · exact fun e he => (hsilent e he).ne_hand
  · intro e he
    rcases List.mem_append.mp he with he | he
    · exact (hsilent e he).ne_hand
    · rw [List.mem_singleton.mp he]
      exact Event.noConfusion

/-- **A run is a sequence of acts.** Nothing is handed on in it. -/
theorem Part.acts {a : α} (hx : Part x) (h : x m = .ok (a, m')) :
    ∃ es, Acts m es m' ∧ ∀ e ∈ es, e ≠ .hand := by
  induction hx generalizing m m' with
  | ending hx =>
    obtain ⟨es, hes, hends⟩ := hx.acts h
    exact ⟨es, hes, hends.ne_hand⟩
  | bind _ _ ihx ihf =>
    obtain ⟨b, m₁, hfirst, hrest⟩ := bind_run h
    obtain ⟨es, hes, hhand⟩ := ihx hfirst
    obtain ⟨fs, hfs, hhand'⟩ := ihf b hrest
    exact ⟨es ++ fs, hes.append hfs, List.forall_mem_append.mpr ⟨hhand, hhand'⟩⟩
  | lower =>
    cases h
    exact ⟨[.lower], Act.lower.single, by simp⟩
  | report notice =>
    cases h
    exact ⟨[.report notice], Act.report.single, by simp⟩
  | allot =>
    cases h
    have hquiet : Act m .quiet { m with cpu := { m.cpu with
        remaining := m.cpu.remaining + m.cpu.tv.frameCycles } } :=
      .quiet ⟨rfl, rfl, rfl, rfl, rfl, rfl, rfl, rfl⟩
    exact ⟨[.quiet], hquiet.single, by simp⟩

/-! ## Cycles of an interrupt -/

/-- A part that takes a number of cycles. -/
def Takes (n : Nat) (x : Run α) : Prop :=
  ∀ m a m', x m = .ok (a, m') → m'.cpu.cycles = m.cpu.cycles + n

theorem Takes.bind {k n : Nat} (hx : Takes k x) (hf : ∀ a, Takes n (f a)) :
    Takes (k + n) (x >>= f) := by
  intro m b m' h
  obtain ⟨a, m₁, hfirst, hrest⟩ := bind_run h
  rw [hf a _ _ _ hrest, hx _ _ _ hfirst, Nat.add_assoc]

theorem Takes.pure (a : α) : Takes 0 (Pure.pure a : Run α) := by
  intro m b m' h
  cases h
  rfl

theorem Takes.registers : Takes 0 registers := by
  intro m a m' h
  cases h
  rfl

theorem Takes.modifyRegisters (f : Registers → Registers) : Takes 0 (modifyRegisters f) := by
  intro m a m' h
  cases h
  rfl

theorem Takes.cycle : Takes 1 cycle := by
  intro m _ m' h
  obtain ⟨ds, hact⟩ := cycle_ok h
  cases hact with
  | cycle hdots _ =>
    rw [hdots.cpu.1]
    show m.cpu.tick.2.cycles = m.cpu.cycles + 1
    unfold Cpu.tick
    cases m.cpu.tv <;> rfl

theorem Takes.fetchBus (addr : UInt16) : Takes 0 (fetchBus addr) := by
  intro m a m' h
  unfold Machine.fetchBus at h
  split_ifs at h
  · cases h
    rfl
  · rw [(readPpu_ok h).2.cpu]
    rfl
  · cases h
    rfl
  · cases h
    rfl
  · unfold Machine.readCartridge at h
    split at h <;> cases h
    rfl

theorem Takes.read (addr : UInt16) : Takes 1 (read addr) := .bind .cycle fun _ => .fetchBus addr

theorem Takes.fetchByte : Takes 1 fetchByte :=
  .bind .registers fun _ => .bind (.read _) fun _ => .bind (.modifyRegisters _) fun _ => .pure _

theorem Takes.readWord (addr : UInt16) : Takes 2 (readWord addr) :=
  .bind (.read _) fun _ => .bind (.read _) fun _ => .pure _

theorem Takes.writeStack (sp value : UInt8) : Takes 1 (write (stackAddress sp) value) := by
  refine Takes.bind (n := 0) .cycle fun _ => ?_
  unfold storeBus
  rw [if_pos (stackAddress_lt sp)]
  intro m _ m' h
  cases h
  rfl

theorem Takes.push (value : UInt8) : Takes 1 (push value) :=
  .bind .registers fun _ => .bind (.writeStack _ value) fun _ => .modifyRegisters _

theorem Takes.pushWord (value : UInt16) : Takes 2 (pushWord value) :=
  .bind (.push _) fun _ => .push _

/-- A part that ends with the report of an interrupt, after a number of cycles. -/
def Serves (interrupt : Interrupt) (n : Nat) (x : Run α) : Prop :=
  ∀ m a m', x m = .ok (a, m') → m'.cpu.cycles = m.cpu.cycles + n ∧
    ∃ es, Acts m (es ++ [.report (.serviced interrupt m'.cpu.registers.pc)]) m' ∧
      ∀ e ∈ es, e.Silent

theorem Serves.bind {interrupt : Interrupt} {k n : Nat} (hx : Plain x) (hk : Takes k x)
    (hf : ∀ a, Serves interrupt n (f a)) : Serves interrupt (k + n) (x >>= f) := by
  intro m b m' h
  obtain ⟨a, m₁, hfirst, hrest⟩ := bind_run h
  obtain ⟨es, hes, hsilent⟩ := hx.acts hfirst
  obtain ⟨hcycles, fs, hfs, hsilent'⟩ := hf a _ _ _ hrest
  refine ⟨by rw [hcycles, hk _ _ _ hfirst, Nat.add_assoc], es ++ fs, ?_, ?_⟩
  · rw [List.append_assoc]
    exact hes.append hfs
  · exact List.forall_mem_append.mpr ⟨hsilent, hsilent'⟩

theorem Serves.finish (interrupt : Interrupt) (pc : UInt16) :
    Serves interrupt 0 (jumpTo pc >>= fun _ => report (.serviced interrupt pc)) := by
  intro m a m' h
  cases h
  refine ⟨rfl, [.quiet], ?_, by simp [Event.Silent]⟩
  have hjump : Act m .quiet { m with cpu := m.cpu.mapRegisters fun r => { r with pc } } :=
    .quiet ⟨rfl, rfl, rfl, rfl, rfl, rfl, rfl, rfl⟩
  exact .cons hjump Act.report.single

/-- **An interrupt takes seven cycles.** -/
theorem Serves.service (interrupt : Interrupt) : Serves interrupt 7 (service interrupt) :=
  .bind (.idle 2) (.bind .cycle fun _ => .bind .cycle fun _ => .pure ()) fun _ =>
    .bind .registers .registers fun _ => .bind (.pushWord _) (.pushWord _) fun _ =>
      .bind .registers .registers fun _ => .bind (.push _) (.push _) fun _ =>
        .bind (.modifyRegisters _) (.modifyRegisters _) fun _ =>
          .bind (.readWord _) (.readWord _) fun pc => .finish interrupt pc

/-! ## Steps and requests -/

/-- The machine with the edge forgotten that a step may service. -/
def acknowledged (m : Machine) : Machine := { m with cpu := { m.cpu with nmi := false } }

/-- A step, as far as interrupts go. -/
structure Stepped (m : Machine) (es : List Event) (m' : Machine) : Prop where
  acts : Acts m.acknowledged es m'
  latch : m'.cpu.nmi = (m.ppu.nmi || (dotsOf es).any Dot.rises)
  request : m'.ppu.nmi = es.any Event.stores
  served : ∀ interrupt, due? m.cpu = some interrupt → m'.cpu.cycles = m.cpu.cycles + 7 ∧
    m'.notices = .serviced interrupt m'.cpu.registers.pc :: m.notices
  unserved : due? m.cpu = none → m'.notices = m.notices

theorem acknowledged_eq (h : m.cpu.nmi = false) : m.acknowledged = m := by
  unfold acknowledged
  rw [← h]

theorem nmi_of_due (h : due? m.cpu ≠ some .nmi) : m.cpu.nmi = false := by
  by_contra hset
  exact h (if_pos (Bool.of_not_eq_false hset))

theorem Acts.split {es fs : List Event} (h : Acts m (es ++ fs) m') :
    ∃ m₁, Acts m es m₁ ∧ Acts m₁ fs m' := by
  induction es generalizing m with
  | nil => exact ⟨m, .nil, h⟩
  | cons e es ih =>
    cases h with
    | cons hact hrest =>
      obtain ⟨m₁, hes, hfs⟩ := ih hrest
      exact ⟨m₁, .cons hact hes, hfs⟩

theorem Acts.split_last {es : List Event} {e : Event} (h : Acts m (es ++ [e]) m') :
    ∃ m₁, Acts m es m₁ ∧ Act m₁ e m' := by
  obtain ⟨m₁, hes, hlast⟩ := h.split
  cases hlast with
  | cons hact hnil =>
    cases hnil
    exact ⟨m₁, hes, hact⟩

theorem Clocked.dots_ne {ds : List Dot} (h : Clocked m ds m') (hlt : m.cpu.cycles < m'.cpu.cycles) :
    ds.isEmpty = false := by
  cases ds with
  | cons d ds => rfl
  | nil =>
    have hcount := h.dots
    unfold dotsIn at hcount
    cases htv : m.cpu.tv <;> simp only [htv, List.length_nil] at hcount <;> omega

theorem any_stores_of_silent {es : List Event} (h : ∀ e ∈ es, e.Silent) :
    es.any Event.stores = false := by
  rw [List.any_eq_false]
  intro e he
  have hsilent := h e he
  cases e with
  | write before after =>
    rw [Bool.not_eq_true]
    exact hsilent
  | _ => exact Bool.false_ne_true

/-- Silent acts with a cycle among them pass on what was requested before. -/
theorem Latched.of_dots {ds : List Dot} (h : Latched m ds m') (hnmi : m.cpu.nmi = false)
    (hds : ds.isEmpty = false) :
    m'.cpu.nmi = (m.ppu.nmi || ds.any Dot.rises) ∧ m'.ppu.nmi = false := by
  refine ⟨?_, by rw [h.request, hds, Bool.false_and]⟩
  rw [h.latch, hnmi, hds, Bool.not_false, Bool.true_and, Bool.false_or]

theorem Serves.spec {interrupt : Interrupt} (hp : Ppu.Reachable m.ppu) (hphase : InPhase m.cpu)
    (hnmi : m.cpu.nmi = false) (hx : Serves interrupt 7 x) {a : α} (h : x m = .ok (a, m')) :
    ∃ es, Acts m es m' ∧ m'.cpu.nmi = (m.ppu.nmi || (dotsOf es).any Dot.rises) ∧
      m'.ppu.nmi = es.any Event.stores ∧ m'.cpu.cycles = m.cpu.cycles + 7 ∧
        m'.notices = .serviced interrupt m'.cpu.registers.pc :: m.notices := by
  obtain ⟨hcycles, es, hacts, hsilent⟩ := hx _ _ _ h
  generalize hpc : m'.cpu.registers.pc = pc at hacts
  obtain ⟨m₁, hes, hlast⟩ := hacts.split_last
  have hclocked := hacts.clocked hphase
  have hne := hclocked.dots_ne (by omega)
  have hdots : dotsOf (es ++ [.report (.serviced interrupt pc)]) = dotsOf es := by
    rw [dotsOf_append]
    exact List.append_nil _
  rw [hdots] at hne
  have hlatched := (hes.latched hp hsilent).of_dots hnmi hne
  have hnotices := hes.notices hsilent
  refine ⟨_, hacts, ?_, ?_, hcycles, ?_⟩
  · rw [hdots, ← hlatched.1]
    cases hlast
    rfl
  · rw [List.any_append, any_stores_of_silent hsilent]
    cases hlast
    exact hlatched.2
  · cases hlast
    show _ :: m₁.notices = _
    rw [hnotices]

theorem Ending.spec (hp : Ppu.Reachable m.ppu) (hphase : InPhase m.cpu) (hnmi : m.cpu.nmi = false)
    (hx : Ending x) {a : α} (h : x m = .ok (a, m')) (hlt : m.cpu.cycles < m'.cpu.cycles) :
    ∃ es, Acts m es m' ∧ m'.cpu.nmi = (m.ppu.nmi || (dotsOf es).any Dot.rises) ∧
      m'.ppu.nmi = es.any Event.stores ∧ m'.notices = m.notices := by
  obtain ⟨es, hacts, hends⟩ := hx.acts h
  have hne := (hacts.clocked hphase).dots_ne hlt
  rcases hends with hsilent | ⟨fs, before, after, rfl, hsilent⟩
  · have hlatched := (hacts.latched hp hsilent).of_dots hnmi hne
    refine ⟨es, hacts, hlatched.1, ?_, hacts.notices hsilent⟩
    rw [hlatched.2, any_stores_of_silent hsilent]
  · obtain ⟨m₁, hfs, hlast⟩ := hacts.split_last
    have hdots : dotsOf (fs ++ [.write before after]) = dotsOf fs := by
      rw [dotsOf_append]
      exact List.append_nil _
    rw [hdots] at hne
    have hlatched := (hfs.latched hp hsilent).of_dots hnmi hne
    cases hlast with
    | write hwrite =>
    obtain ⟨hwrite, haccess⟩ := writePpu_ok hwrite
    refine ⟨_, hacts, ?_, ?_, ?_⟩
    · rw [haccess.cpu, hdots]
      exact hlatched.1
    · rw [Ppu.writeRegister_nmi hwrite, hlatched.2, List.any_append, any_stores_of_silent hsilent]
      simp [Event.stores]
    · rw [haccess.notices, hfs.notices hsilent]

theorem instruction_lt (hphase : InPhase m.cpu) (h : instruction m = .ok ((), m')) :
    m.cpu.cycles < m'.cpu.cycles := by
  obtain ⟨opcode, m₁, hfetch, hrest⟩ := bind_run h
  have hfirst := Takes.fetchByte _ _ _ hfetch
  obtain ⟨es, hes, -⟩ := Plain.fetchByte.acts hfetch
  have hphase₁ := (hes.clocked hphase).inPhase
  have hending : Ending (resolve (Cpu.decode opcode).op (Cpu.decode opcode).mode >>= fun operand =>
      perform (Cpu.decode opcode).op.effect operand) :=
    .bind (.resolve _ _) fun _ => .perform _ _
  obtain ⟨fs, hfs, -⟩ := hending.acts hrest
  have hle := (hfs.clocked hphase₁).le
  omega

theorem step_eq (m : Machine) : step m = match due? m.cpu with
    | some .nmi => service .nmi m.acknowledged
    | some .irq => service .irq m
    | none => instruction m := by
  unfold step
  show (match due? m.cpu with
    | some .nmi => modifyCpu ({ · with nmi := false }) >>= fun _ => service .nmi
    | some .irq => service .irq
    | none => instruction : Run Unit) m = _
  cases due? m.cpu with
  | none => rfl
  | some interrupt => cases interrupt <;> rfl

/-- **What a step does about interrupts.** -/
theorem step_stepped (hp : Ppu.Reachable m.ppu) (hphase : InPhase m.cpu)
    (h : step m = .ok ((), m')) : ∃ es, Stepped m es m' := by
  rw [step_eq] at h
  cases hdue : due? m.cpu with
  | none =>
    rw [hdue] at h
    have hnmi := nmi_of_due (by rw [hdue]; decide)
    obtain ⟨es, hacts, hlatch, hrequest, hnotices⟩ :=
      Ending.instruction.spec hp hphase hnmi h (instruction_lt hphase h)
    exact ⟨es, by rwa [acknowledged_eq hnmi], hlatch, hrequest, by simp [hdue],
      fun _ => hnotices⟩
  | some interrupt =>
    rw [hdue] at h
    have hserved : service interrupt m.acknowledged = .ok ((), m') := by
      cases interrupt with
      | nmi => exact h
      | irq =>
        rw [acknowledged_eq (nmi_of_due (by rw [hdue]; decide))]
        exact h
    obtain ⟨es, hacts, hlatch, hrequest, hcycles, hnotices⟩ :=
      Serves.spec (m := m.acknowledged) hp hphase rfl (.service interrupt) hserved
    refine ⟨es, hacts, hlatch, hrequest, ?_, by simp [hdue]⟩
    intro other hother
    cases hdue.symm.trans hother
    exact ⟨hcycles, hnotices⟩

end NesMachine.Machine
