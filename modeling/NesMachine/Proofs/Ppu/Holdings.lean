import NesMachine.Proofs.Ppu.Range

/-!
# What the picture unit holds for the processor

The registers and memories that the processor fills and reads back. Dots go by between two accesses;
apart from the counter in use, which rendering moves, they leave all of it as it was.

* `step_holdings`: a dot changes nothing but the counter, and with rendering off not even that.
* `readRegister_congr`, `writeRegister_congr`: an access depends on nothing else.
* **`visit_exact`**: while rendering stays off, how many dots pass between the accesses cannot be told.
-/

namespace NesMachine

open Board (Fault)

namespace Background

variable {e : Scenery} {line : Int} {dot : Nat} {b : Background}

/-- With rendering off, the counter stands still. -/
theorem next_scroll_dark (hdark : e.rendering = false) :
    (b.next e line dot).scroll = b.scroll := by
  unfold next
  simp only [hdark, Bool.false_eq_true, if_false]
  split_ifs <;> try rfl
  unfold fetch
  simp only [hdark, Bool.false_eq_true, if_false]
  split <;> rfl

end Background

namespace Ppu

variable {p q r : Ppu} {slot slot' : Slot} {addr : UInt16} {value : UInt8}

/-! ## Holdings -/

/-- The registers and memories behind the register accesses. -/
structure Holdings where
  ctrl : UInt8
  mask : UInt8
  oamAddr : UInt8
  readBuffer : UInt8
  scroll : Scroll
  nametables : NametableMemory
  palette : PaletteMemory
  oam : ObjectMemory
  deriving DecidableEq

def holdings (p : Ppu) : Holdings :=
  ⟨p.ctrl, p.mask, p.oamAddr, p.readBuffer, p.scroll, p.nametables, p.palette, p.oam⟩

/-! ## Dots -/

/-- **A dot changes nothing of what is held but the counter in use.** -/
theorem step_holdings (h : p.step slot = .ok q) :
    q.holdings = { p.holdings with scroll.v := q.scroll.v } := by
  by_cases hline : p.beam.scanline < Beam.postRender
  · have hdot := step_picture h hline
    have hscroll : q.scroll = { p.scroll with v := q.scroll.v } := by
      have hback : q.scroll = _ := congrArg Background.scroll hdot.background
      rw [hback, Background.next_scroll]
      rfl
    rw [hdot.rest, hscroll]
    rfl
  · rw [step_behind h (by omega)]
    rcases idleDot_cases p with ⟨-, -, hidle⟩ | ⟨-, -, hidle⟩ | ⟨-, -, hidle⟩ <;> rw [hidle] <;> rfl

/-- **With rendering off, it changes nothing at all.** -/
theorem step_holdings_dark (hdark : p.rendering = false) (h : p.step slot = .ok q) :
    q.holdings = p.holdings := by
  have hv : q.scroll.v = p.scroll.v := by
    by_cases hline : p.beam.scanline < Beam.postRender
    · have hback : q.scroll = _ := congrArg Background.scroll (step_picture h hline).background
      rw [hback, Background.next_scroll_dark hdark]
      rfl
    · rw [step_behind h (by omega)]
      rcases idleDot_cases p with ⟨-, -, hidle⟩ | ⟨-, -, hidle⟩ | ⟨-, -, hidle⟩ <;> rw [hidle]
  rw [step_holdings h, hv]
  rfl

/-- A number of dots. -/
def dots (slot : Slot) : Nat → Ppu → Except Fault Ppu
  | 0, p => .ok p
  | n + 1, p => do dots slot n (← p.step slot)

theorem rendering_of_holdings (h : p.holdings = q.holdings) : p.rendering = q.rendering := by
  have hmask : p.mask = q.mask := congrArg Holdings.mask h
  unfold rendering
  rw [hmask]

theorem dots_holdings_dark {n : Nat} (hdark : p.rendering = false) (h : dots slot n p = .ok q) :
    q.holdings = p.holdings := by
  induction n generalizing p with
  | zero =>
    cases h
    rfl
  | succ n ih =>
    obtain ⟨r, hr, h⟩ := bind_ok h
    have hfirst := step_holdings_dark hdark hr
    exact (ih ((rendering_of_holdings hfirst).trans hdark) h).trans hfirst

/-! ## Registers -/

/-- There are eight registers. -/
theorem registerOf_lt (addr : UInt16) : registerOf addr < 8 := by
  have hle : (addr &&& 7).toNat ≤ 7 := by
    rw [UInt16.toNat_and]
    exact Nat.and_le_right
  unfold registerOf
  omega

theorem readRegister_status (h : registerOf addr = 2) :
    p.readRegister slot addr = .ok (p.statusByte, { p with
      status := p.status &&& 0x7F, scroll.secondWrite := false, openBus := p.statusByte }) := by
  unfold readRegister
  simp only [h]
  rfl

theorem readRegister_objects (h : registerOf addr = 4) :
    p.readRegister slot addr =
      .ok (p.oam.read p.oamAddr, { p with openBus := p.oam.read p.oamAddr }) := by
  unfold readRegister
  simp only [h]
  rfl

theorem readRegister_data (h : registerOf addr = 7) :
    p.readRegister slot addr = (p.readData slot).map fun (value, q) =>
      (value, { q with openBus := value }) := by
  unfold readRegister
  simp only [h]
  cases p.readData slot <;> rfl

theorem readRegister_silent (h2 : registerOf addr ≠ 2) (h4 : registerOf addr ≠ 4)
    (h7 : registerOf addr ≠ 7) : p.readRegister slot addr = .ok (p.openBus, p) := by
  unfold readRegister
  simp only
  rfl

theorem writeRegister_objects (h : registerOf addr = 4) :
    p.writeRegister slot addr value = .ok ({ p with openBus := value }.writeOam value, slot) := by
  unfold writeRegister
  simp only [h]

theorem writeRegister_data (h : registerOf addr = 7) :
    p.writeRegister slot addr value = { p with openBus := value }.writeData slot value := by
  unfold writeRegister
  simp only [h]

/-! ## Accesses -/

/-- A register access. -/
inductive Access where
  | read (addr : UInt16)
  | write (addr : UInt16) (value : UInt8)
  deriving DecidableEq

/-- A read of memory: of object memory or through the data register. The other registers show the
flags, or what was last on their bus. -/
def ReadsMemory (addr : UInt16) : Prop := registerOf addr = 4 ∨ registerOf addr = 7

instance (addr : UInt16) : Decidable (ReadsMemory addr) := by unfold ReadsMemory; infer_instance

/-- What an access delivers from memory, and what it leads to. -/
def access (p : Ppu) (slot : Slot) : Access → Except Fault (Option UInt8 × Ppu × Slot)
  | .read addr => (p.readRegister slot addr).map fun r =>
      (if ReadsMemory addr then some r.1 else none, r.2, slot)
  | .write addr value => ((p.writeRegister slot addr value).mapError Prod.fst).map fun r =>
      (none, r)

section Congr

variable (h : p.holdings = q.holdings)

include h

theorem readMemory_congr (slot : Slot) (addr : UInt16) :
    p.readMemory slot addr = q.readMemory slot addr := by
  simp only [holdings, Holdings.mk.injEq] at h
  obtain ⟨-, hmask, -, -, -, hnametables, hpalette, -⟩ := h
  unfold readMemory readPalette greyscale
  rw [hnametables, hpalette, hmask]

theorem accessStep_congr : p.accessStep = q.accessStep := by
  have hctrl : p.ctrl = q.ctrl := congrArg Holdings.ctrl h
  unfold accessStep
  rw [hctrl]

theorem readData_congr (slot : Slot) :
    Alike (fun r r' => r.1 = r'.1 ∧ r.2.holdings = r'.2.holdings)
      (p.readData slot) (q.readData slot) := by
  have hread := readMemory_congr h slot
  have hstep := accessStep_congr h
  simp only [holdings, Holdings.mk.injEq] at h
  obtain ⟨hctrl, hmask, hoamAddr, hbuffer, hscroll, hnametables, hpalette, hoam⟩ := h
  unfold readData
  simp only [hread, hstep, hscroll]
  cases q.readMemory slot (q.scroll.v &&& 0x3FFF) with
  | error fault => exact .error fault
  | ok value =>
    show Alike _ (ite _ _ _) (ite _ _ _)
    split_ifs
    · cases q.readMemory slot ((q.scroll.v &&& 0x3FFF) - 0x1000) with
      | error fault => exact .error fault
      | ok beneath =>
        exact .ok ⟨rfl, by simp [holdings, hctrl, hmask, hoamAddr, hnametables, hpalette, hoam]⟩
    · exact .ok ⟨hbuffer, by simp [holdings, hctrl, hmask, hoamAddr, hnametables, hpalette, hoam]⟩

theorem writeMemory_congr (slot : Slot) (addr : UInt16) (value : UInt8) :
    Alike (fun r r' => r.1.holdings = r'.1.holdings ∧ r.2 = r'.2)
      (p.writeMemory slot addr value) (q.writeMemory slot addr value) := by
  unfold writeMemory
  simp only
  split_ifs
  · cases slot.writeChr (addr &&& 0x3FFF) value with
    | error e => exact .error e
    | ok slot' => exact .ok ⟨h, rfl⟩
  all_goals
    simp only [holdings, Holdings.mk.injEq] at h
    exact .ok ⟨by simp [holdings, h], rfl⟩

theorem writeData_congr (slot : Slot) (value : UInt8) :
    Alike (fun r r' => r.1.holdings = r'.1.holdings ∧ r.2 = r'.2)
      (p.writeData slot value) (q.writeData slot value) := by
  have hscroll : p.scroll = q.scroll := congrArg Holdings.scroll h
  unfold writeData
  rw [hscroll]
  refine (writeMemory_congr h slot _ value).bind fun r r' hr => .ok ⟨?_, hr.2⟩
  have hfields := hr.1
  simp only [holdings, Holdings.mk.injEq] at hfields
  simp [holdings, accessStep, hfields]

theorem readRegister_congr (slot : Slot) (addr : UInt16) :
    Alike (fun r r' => (ReadsMemory addr → r.1 = r'.1) ∧ r.2.holdings = r'.2.holdings)
      (p.readRegister slot addr) (q.readRegister slot addr) := by
  have hfields := h
  simp only [holdings, Holdings.mk.injEq] at hfields
  by_cases h2 : registerOf addr = 2
  · rw [readRegister_status h2, readRegister_status h2]
    exact .ok ⟨by simp [ReadsMemory, h2], by simp [holdings, hfields]⟩
  by_cases h4 : registerOf addr = 4
  · rw [readRegister_objects h4, readRegister_objects h4]
    exact .ok ⟨by simp [hfields], by simp [holdings, hfields]⟩
  by_cases h7 : registerOf addr = 7
  · rw [readRegister_data h7, readRegister_data h7]
    exact (readData_congr h slot).map fun r r' hr => ⟨fun _ => hr.1, hr.2⟩
  · rw [readRegister_silent h2 h4 h7, readRegister_silent h2 h4 h7]
    exact .ok ⟨by simp [ReadsMemory, h4, h7], h⟩

theorem writeRegister_congr (slot : Slot) (addr : UInt16) (value : UInt8) :
    Alike (fun r r' => r.1.holdings = r'.1.holdings ∧ r.2 = r'.2)
      (p.writeRegister slot addr value) (q.writeRegister slot addr value) := by
  have hfields := h
  simp only [holdings, Holdings.mk.injEq] at hfields
  by_cases h7 : registerOf addr = 7
  · rw [writeRegister_data h7, writeRegister_data h7]
    have hset : { p with openBus := value }.holdings = { q with openBus := value }.holdings := h
    exact writeData_congr hset slot value
  · have hlt := registerOf_lt addr
    unfold writeRegister
    obtain hreg | hreg | hreg | hreg | hreg | hreg | hreg : registerOf addr = 0 ∨
        registerOf addr = 1 ∨ registerOf addr = 2 ∨ registerOf addr = 3 ∨ registerOf addr = 4 ∨
        registerOf addr = 5 ∨ registerOf addr = 6 := by omega
    all_goals
      simp only [hreg]
      exact .ok ⟨by simp [holdings, writeCtrl, writeOam, hfields], rfl⟩

/-- **An access depends on nothing but what is held.** -/
theorem access_congr (slot : Slot) (a : Access) :
    Alike (fun r r' => r.1 = r'.1 ∧ r.2.1.holdings = r'.2.1.holdings ∧ r.2.2 = r'.2.2)
      (p.access slot a) (q.access slot a) := by
  cases a with
  | read addr =>
    refine (readRegister_congr h slot addr).map fun r r' hr => ⟨?_, hr.2, rfl⟩
    by_cases hmemory : ReadsMemory addr
    · simp [hmemory, hr.1 hmemory]
    · simp [hmemory]
  | write addr value =>
    exact ((writeRegister_congr h slot addr value).mapError _).map fun r r' hr => ⟨rfl, hr⟩

end Congr

/-! ## Accesses and dots in turn -/

/-- The access does not switch rendering on. -/
def Access.StaysDark : Access → Prop
  | .read _ => True
  | .write addr value => registerOf addr = 1 → value &&& 0x18 = 0

instance (a : Access) : Decidable a.StaysDark := by
  cases a <;> unfold Access.StaysDark <;> infer_instance

theorem writeRegister_mask (h : p.writeRegister slot addr value = .ok (q, slot')) :
    q.mask = if registerOf addr = 1 then value else p.mask := by
  unfold writeRegister at h
  simp only at h
  split at h
  case h_7 =>
    obtain ⟨⟨r, s⟩, hr, h⟩ := bind_ok h
    have hframe : r = _ := writeMemory_frame hr
    cases h
    rw [hframe]
    simp [*]
  all_goals
    cases h
    simp_all [writeCtrl, writeOam]

theorem access_dark {a : Access} {told : Option UInt8} (hdark : p.rendering = false)
    (ha : a.StaysDark) (h : p.access slot a = .ok (told, q, slot')) : q.rendering = false := by
  unfold rendering at *
  cases a with
  | read addr =>
    cases hread : p.readRegister slot addr with
    | error fault => simp [access, hread, Except.map] at h
    | ok r =>
      simp only [access, hread, Except.map, Except.ok.injEq, Prod.mk.injEq] at h
      obtain ⟨-, rfl, -⟩ := h
      rw [(readRegister_frame hread).1]
      exact hdark
  | write addr value =>
    cases hwrite : p.writeRegister slot addr value with
    | error fault => simp [access, hwrite, Except.map, Except.mapError] at h
    | ok r =>
      simp only [access, hwrite, Except.map, Except.mapError, Except.ok.injEq, Prod.mk.injEq] at h
      obtain ⟨-, rfl⟩ := h
      rw [writeRegister_mask hwrite]
      by_cases hmask : registerOf addr = 1
      · simpa [hmask] using ha hmask
      · simpa [hmask] using hdark

/-- Accesses, each behind a number of dots. -/
abbrev Schedule := List (Nat × Access)

/-- What can be told behind an access: what it delivered from memory, what the picture unit holds,
and the cartridge. -/
structure Report where
  delivered : Option UInt8
  holdings : Holdings
  slot : Slot

/-- What cuts a schedule short. -/
inductive Stop where
  | dot (fault : Fault)
  | access (fault : Fault)

/-- The reports of a schedule, and what cuts it short. -/
def visit (p : Ppu) (slot : Slot) : Schedule → List Report × Option Stop
  | [] => ([], none)
  | (n, a) :: rest =>
    match dots slot n p with
    | .error fault => ([], some (.dot fault))
    | .ok q =>
      match q.access slot a with
      | .error fault => ([], some (.access fault))
      | .ok (delivered, r, slot) =>
        let (reports, stop) := visit r slot rest
        (⟨delivered, r.holdings, slot⟩ :: reports, stop)

/-- The first visit reports what the second does, up to a dot that faults. -/
def CutShort (x y : List Report × Option Stop) : Prop :=
  x.1 <+: y.1 ∧ ∃ fault, x.2 = some (.dot fault)

theorem CutShort.cons {x y : List Report × Option Stop} (h : CutShort x y) (report : Report) :
    CutShort (report :: x.1, x.2) (report :: y.1, y.2) := by
  obtain ⟨hreports, hstop⟩ := h
  exact ⟨by simpa using hreports, hstop⟩

theorem visit_agrees {s s' : Schedule} (h : p.holdings = q.holdings) (hdark : p.rendering = false)
    (hsame : s.map Prod.snd = s'.map Prod.snd) (hstays : ∀ a ∈ s.map Prod.snd, a.StaysDark) :
    p.visit slot s = q.visit slot s' ∨ CutShort (p.visit slot s) (q.visit slot s') ∨
      CutShort (q.visit slot s') (p.visit slot s) := by
  -- on one schedule, access by access: dots may stop either run, but never part what both hold
  induction s generalizing p q slot s' with
  | nil =>
    rw [List.map_nil, eq_comm, List.map_eq_nil_iff] at hsame
    rw [hsame]
    exact .inl rfl
  | cons first rest ih =>
    obtain ⟨n, a⟩ := first
    obtain ⟨⟨m, b⟩, rest', rfl, hb, hrest⟩ := List.map_eq_cons_iff.mp hsame.symm
    obtain rfl : b = a := hb
    simp only [List.map_cons, List.mem_cons, forall_eq_or_imp] at hstays
    obtain ⟨ha, hstays⟩ := hstays
    unfold visit
    cases hp : dots slot n p with
    | error fault => exact .inr (.inl ⟨⟨_, rfl⟩, fault, rfl⟩)
    | ok p₁ =>
      cases hq : dots slot m q with
      | error fault => exact .inr (.inr ⟨⟨_, rfl⟩, fault, rfl⟩)
      | ok q₁ =>
        have hdark₁ : q.rendering = false := (rendering_of_holdings h).symm.trans hdark
        have hheld : p₁.holdings = q₁.holdings :=
          (dots_holdings_dark hdark hp).trans (h.trans (dots_holdings_dark hdark₁ hq).symm)
        have haccess := access_congr hheld slot b
        simp only
        generalize hx : p₁.access slot b = x at haccess
        generalize q₁.access slot b = y at haccess
        cases haccess with
        | error fault => exact .inl rfl
        | ok hheld₂ =>
          rename_i r r'
          obtain ⟨told, p₂, slot₂⟩ := r
          obtain ⟨told', q₂, slot₂'⟩ := r'
          obtain ⟨rfl, hheld₂, rfl⟩ := hheld₂
          have hdark₂ : p₂.rendering = false :=
            access_dark ((rendering_of_holdings (dots_holdings_dark hdark hp)).trans hdark) ha hx
          simp only [hheld₂]
          rcases ih hheld₂ hdark₂ hrest.symm hstays with heq | hcut | hcut
          · rw [heq]
            exact .inl rfl
          · exact .inr (.inl (hcut.cons _))
          · exact .inr (.inr (hcut.cons _))

theorem CutShort.agrees {x y : List Report × Option Stop} (h : CutShort x y) {i : Nat}
    {report report' : Report} (hx : x.1[i]? = some report) (hy : y.1[i]? = some report') :
    report = report' := by
  obtain ⟨hi, rfl⟩ := List.getElem?_eq_some_iff.mp hx
  have hsame := List.prefix_iff_getElem?.mp h.1 i hi
  rw [hy] at hsame
  exact (Option.some.inj hsame).symm

/-- **While rendering stays off, dots cannot be told from the accesses.** Two schedules of the same
accesses, whatever the dots between them, have the same reports as far as both go, and are the same
if no dot faults. More generally no dot changes more of what is held than the counter in use. -/
theorem visit_exact {s s' : Schedule} (hdark : p.mask &&& 0x18 = 0)
    (hsame : s.map Prod.snd = s'.map Prod.snd) (hstays : ∀ a ∈ s.map Prod.snd, a.StaysDark) :
    (∀ (i : Nat) (report report' : Report), (p.visit slot s).1[i]? = some report →
      (p.visit slot s').1[i]? = some report' → report = report') ∧
    ((∀ fault, (p.visit slot s).2 ≠ some (.dot fault)) →
      (∀ fault, (p.visit slot s').2 ≠ some (.dot fault)) →
      p.visit slot s = p.visit slot s') ∧
    ∀ (q r : Ppu) (slot : Slot), q.step slot = .ok r →
      r.holdings = { q.holdings with scroll.v := r.scroll.v } := by
  have hoff : p.rendering = false := by simpa [rendering] using hdark
  have hagrees : p.visit slot s = p.visit slot s' ∨ CutShort (p.visit slot s) (p.visit slot s') ∨
      CutShort (p.visit slot s') (p.visit slot s) := visit_agrees rfl hoff hsame hstays
  refine ⟨fun i report report' hs hs' => ?_, fun hdots hdots' => ?_, fun q r slot => step_holdings⟩
  · rcases hagrees with heq | hcut | hcut
    · rw [heq, hs'] at hs
      exact (Option.some.inj hs).symm
    · exact hcut.agrees hs hs'
    · exact (hcut.agrees hs' hs).symm
  · rcases hagrees with heq | ⟨-, fault, hcut⟩ | ⟨-, fault, hcut⟩
    · exact heq
    · exact absurd hcut (hdots fault)
    · exact absurd hcut (hdots' fault)

/-- A byte is written into a nametable and read back. -/
def roundTrip : List Access :=
  [.write 0x2006 0x21, .write 0x2006 0x08, .write 0x2007 0x55, .read 0x2002, .write 0x2006 0x21,
    .write 0x2006 0x08, .read 0x2007, .read 0x2007]

/-- With and without dots between the accesses, at power-on and with no cartridge. -/
theorem visit_exact_roundTrip :
    ({} : Ppu).visit none (roundTrip.map (0, ·)) = ({} : Ppu).visit none (roundTrip.map (3, ·)) ∧
    ((({} : Ppu).visit none (roundTrip.map (0, ·))).1[7]?.map (·.delivered)) = some (some 0x55) := by
  have hdone : (({} : Ppu).visit none (roundTrip.map (0, ·))).2 = none := rfl
  have hdone' : (({} : Ppu).visit none (roundTrip.map (3, ·))).2 = none := rfl
  refine ⟨(visit_exact (by decide) rfl (by decide)).2.1 (fun _ h => ?_) (fun _ h => ?_), rfl⟩
  · exact absurd (hdone.symm.trans h) (by simp)
  · exact absurd (hdone'.symm.trans h) (by simp)

end Ppu

end NesMachine
