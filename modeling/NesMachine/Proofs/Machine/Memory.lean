import NesMachine.Proofs.Machine.Code
import NesMachine.Proofs.Ppu.Faults

/-!
# Instructions and memory

An instruction that keeps to the work memory and the cartridge meets a machine that does nothing but
remember: the picture unit runs along, but it cannot answer and it cannot change what is stored.

* `Calm`: a log whose reads tell what is stored, and whose writes are to memory.
* `Orderly`: a log that does not read what it has written.
* `Code.comes_to`: a run whose log is calm comes to what its log says.
-/

namespace NesMachine.Machine

open Board (Fault)
open Cpu (Registers)

variable {α β : Type} {m m' : Machine} {x : Run α} {f : α → Run β} {log : List BusCycle}

/-! ## What is stored -/

/-- The memories that the processor reads and writes. -/
abbrev Store := WorkMemory × Slot

/-- The memories of a machine. -/
def store (m : Machine) : Store := (m.cpu.ram, m.slot)

namespace Store

/-- Whether an address is that of work memory or of the cartridge. -/
def holds (addr : Nat) : Prop := addr < 0x2000 ∨ 0x4020 ≤ addr

/-- The byte at such an address. -/
def read (s : Store) (addr : UInt16) : Except Fault UInt8 :=
  if addr < 0x2000 then .ok (s.1.get (Cpu.ramCell addr)) else s.2.readPrg addr

/-- A write at such an address, given in numbers. -/
def write (s : Store) (access : Nat × Nat) : Except (Fault × Slot) Store :=
  let addr := UInt16.ofNat access.1
  let value := UInt8.ofNat access.2
  if addr < 0x2000 then .ok (s.1.set (Cpu.ramCell addr).val value (Cpu.ramCell addr).isLt, s.2)
  else (s.2.writePrg addr value).map fun slot => (s.1, slot)

end Store

/-- The address read in a cycle. -/
def BusCycle.read? : BusCycle → Option Nat
  | .read addr _ => some addr.toNat
  | _ => none

/-- What is written in a cycle, and where. -/
def BusCycle.write? : BusCycle → Option (Nat × Nat)
  | .write addr value => some (addr.toNat, value.toNat)
  | _ => none

/-- The memories behind a log. -/
def stored (log : List BusCycle) (s : Store) : Except (Fault × Slot) Store :=
  (log.filterMap BusCycle.write?).foldlM Store.write s

/-- A log whose reads tell what is stored. Its writes are to memory, and a write to the cartridge,
which may change what is seen of it, comes last. -/
def Calm (s : Store) : List BusCycle → Prop
  | [] => True
  | .idle :: log => Calm s log
  | .read addr value :: log => Store.holds addr.toNat ∧ s.read addr = .ok value ∧ Calm s log
  | .write addr value :: log =>
    Store.holds addr.toNat ∧ (addr < 0x2000 ∨ log = []) ∧
      ∀ s', s.write (addr.toNat, value.toNat) = .ok s' → Calm s' log

theorem stored_append (log log' : List BusCycle) (s : Store) :
    stored (log ++ log') s = stored log s >>= stored log' := by
  simp only [stored, List.filterMap_append, List.foldlM_append]
  rfl

theorem Calm.append {log' : List BusCycle} {s : Store} (h : Calm s (log ++ log')) :
    Calm s log ∧ ∀ s', stored log s = .ok s' → Calm s' log' := by
  induction log generalizing s with
  | nil => exact ⟨trivial, fun s' hs => by cases hs; exact h⟩
  | cons e log ih =>
    cases e with
    | idle => exact ih h
    | read addr value =>
      obtain ⟨hholds, hread, hrest⟩ := h
      exact ⟨⟨hholds, hread, (ih hrest).1⟩, (ih hrest).2⟩
    | write addr value =>
      obtain ⟨hholds, hlast, hrest⟩ := h
      refine ⟨⟨hholds, ?_, fun s₁ hs₁ => (ih (hrest s₁ hs₁)).1⟩, fun s' hs' => ?_⟩
      · exact hlast.imp_right fun hnil => (List.append_eq_nil_iff.mp hnil).1
      · have hfold : stored (.write addr value :: log) s =
            s.write (addr.toNat, value.toNat) >>= stored log := rfl
        rw [hfold] at hs'
        cases hwrite : s.write (addr.toNat, value.toNat) with
        | ok s₁ =>
          rw [hwrite] at hs'
          exact (ih (hrest s₁ hwrite)).2 s' hs'
        | error e =>
          rw [hwrite] at hs'
          cases hs'

/-! ## Order -/

/-- A log that does not read what it has written, and writes at last to the cartridge. -/
def Orderly : List BusCycle → Prop
  | [] => True
  | .write addr _ :: log =>
    (addr < 0x2000 ∨ log = []) ∧ (∀ n ∈ log.filterMap BusCycle.read?, 0x2000 ≤ n) ∧ Orderly log
  | _ :: log => Orderly log

theorem Orderly.append {log' : List BusCycle} (hquiet : log.filterMap BusCycle.write? = [])
    (h : Orderly log') : Orderly (log ++ log') := by
  induction log with
  | nil => exact h
  | cons e log ih =>
    cases e with
    | idle => exact ih hquiet
    | read addr value => exact ih hquiet
    | write addr value => cases hquiet

/-- An orderly log is calm where its reads tell what is stored at first. -/
theorem Orderly.calm {s : Store} (h : Orderly log)
    (hreads : ∀ addr value, .read addr value ∈ log →
      Store.holds addr.toNat ∧ s.read addr = .ok value)
    (hwrites : ∀ access ∈ log.filterMap BusCycle.write?, Store.holds access.1) : Calm s log := by
  induction log generalizing s with
  | nil => trivial
  | cons e log ih =>
    have hrest := fun addr value hmem => hreads addr value (List.mem_cons_of_mem e hmem)
    cases e with
    | idle => exact ih h hrest hwrites
    | read addr value =>
      obtain ⟨hholds, hread⟩ := hreads addr value List.mem_cons_self
      exact ⟨hholds, hread, ih h hrest hwrites⟩
    | write addr value =>
      obtain ⟨hlast, hlate, horderly⟩ := h
      refine ⟨hwrites (addr.toNat, value.toNat) List.mem_cons_self, hlast, fun s' hs' => ?_⟩
      rcases hlast with hram | rfl
      · refine ih horderly (fun a v hmem => ?_) fun access hmem =>
          hwrites access (List.mem_cons_of_mem _ hmem)
        -- The write is to work memory, and what is read behind it is not.
        obtain ⟨hholds, hread⟩ := hrest a v hmem
        have ha : ¬a < 0x2000 := by
          have hle := hlate a.toNat (List.mem_filterMap.mpr ⟨_, hmem, rfl⟩)
          rw [UInt16.lt_iff_toNat_lt]
          exact Nat.not_lt.mpr hle
        have hslot : s'.2 = s.2 := by
          unfold Store.write at hs'
          simp only [UInt16.ofNat_toNat, if_pos hram] at hs'
          cases hs'
          rfl
        refine ⟨hholds, ?_⟩
        unfold Store.read at hread ⊢
        rw [if_neg ha] at hread ⊢
        rw [hslot, hread]
      · trivial

/-! ## Runs -/

/-- A machine with other memories. -/
def withStore (m : Machine) (s : Store) : Machine :=
  { m with cpu := { m.cpu with ram := s.1 }, slot := s.2 }

/-- A run that comes to an outcome. A write that the cartridge refuses ends it. -/
def ComesTo (x : Run α) (m : Machine) (out : Code.Outcome α) : Prop :=
  match stored out.log m.store with
  | .ok s => ∃ m', x m = .ok (out.value, m') ∧ m'.store = s ∧
      m'.cpu.registers = out.registers ∧ m'.notices = m.notices
  | .error (fault, slot) => x m = .error ⟨fault, slot, m.notices⟩

/-- A run that a pattern read of the picture unit ends. -/
def PatternFault (x : Run α) (m : Machine) : Prop :=
  ∃ crash, x m = .error crash ∧ crash.fault.region = .chr

theorem dots_calm (n : Nat) (m : Machine) :
    (∃ crash, dots n m = .error crash ∧ crash.fault.region = .chr) ∨
      ∃ m', dots n m = .ok m' ∧ m'.store = m.store ∧
        m'.cpu.registers = m.cpu.registers ∧ m'.notices = m.notices := by
  induction n generalizing m with
  | zero => exact .inr ⟨m, rfl, rfl, rfl, rfl⟩
  | succ n ih =>
    cases hdot : m.dot with
    | error crash =>
      refine .inl ⟨crash, by rw [dots, hdot], ?_⟩
      unfold dot at hdot
      simp only at hdot
      split at hdot
      · rename_i fault hstep
        cases hdot
        exact (Ppu.step_lacks hstep).2
      · cases hdot
    | ok m₁ =>
      have hdots : dots (n + 1) m = dots n m₁ := by rw [dots, hdot]
      obtain ⟨q, -, rfl⟩ := dot_ok hdot
      rw [hdots]
      exact ih _

theorem cycle_calm (m : Machine) : PatternFault cycle m ∨
    ∃ m', cycle m = .ok ((), m') ∧ m'.store = m.store ∧
      m'.cpu.registers = m.cpu.registers ∧ m'.notices = m.notices := by
  have htick : m.cpu.tick.2.ram = m.cpu.ram ∧ m.cpu.tick.2.registers = m.cpu.registers := by
    unfold Cpu.tick
    cases m.cpu.tv <;> exact ⟨rfl, rfl⟩
  unfold PatternFault cycle
  rcases dots_calm m.cpu.tick.1 { m with cpu := m.cpu.tick.2 } with
    ⟨crash, hdots, hregion⟩ | ⟨m', hdots, hstore, hregisters, hnotices⟩
  · exact .inl ⟨crash, by simp only [hdots], hregion⟩
  · refine .inr ⟨m', by simp only [hdots], ?_, hregisters.trans htick.2, hnotices⟩
    rw [hstore, store, store, htick.1]

theorem Store.holds.cases {addr : UInt16} (h : Store.holds addr.toNat) :
    addr < 0x2000 ∨ (¬addr < 0x2000 ∧ ¬addr < 0x4000 ∧ addr ≠ 0x4014 ∧ addr ≠ 0x4016 ∧
      ¬addr < 0x4020) := by
  simp only [UInt16.lt_iff_toNat_lt, ne_eq, ← UInt16.toNat_inj, UInt16.reduceToNat]
  rcases h with hlow | hhigh
  · exact .inl hlow
  · exact .inr ⟨by omega, by omega, by omega, by omega, by omega⟩

theorem fetchBus_calm {addr : UInt16} {value : UInt8} (hholds : Store.holds addr.toNat)
    (hread : m.store.read addr = .ok value) : fetchBus addr m = .ok (value, m) := by
  unfold Store.read at hread
  unfold fetchBus
  rcases hholds.cases with hram | ⟨hram, hppu, -, hpad, hcartridge⟩
  · rw [if_pos hram] at hread ⊢
    cases hread
    rfl
  · rw [if_neg hram] at hread ⊢
    rw [if_neg hppu, if_neg hpad, if_neg hcartridge]
    unfold readCartridge
    rw [show m.slot.readPrg addr = .ok value from hread]

/-- What a read delivers is what is stored. -/
theorem store_read {addr : UInt16} {value : UInt8} (hholds : Store.holds addr.toNat)
    (h : (fetchBus addr m).map Prod.fst = .ok value) : m.store.read addr = .ok value := by
  unfold Store.read
  rcases hholds.cases with hram | ⟨hram, hppu, -, hpad, hcartridge⟩
  · rw [if_pos hram]
    unfold fetchBus at h
    rw [if_pos hram] at h
    cases h
    rfl
  · rw [if_neg hram]
    unfold fetchBus readCartridge at h
    rw [if_neg hram, if_neg hppu, if_neg hpad, if_neg hcartridge] at h
    show m.slot.readPrg addr = _
    cases hread : m.slot.readPrg addr <;> simp_all [crash, Except.map]

theorem storeBus_calm {addr : UInt16} (value : UInt8) (hholds : Store.holds addr.toNat) :
    storeBus addr value m = match m.store.write (addr.toNat, value.toNat) with
      | .ok s => .ok ((), m.withStore s)
      | .error (fault, slot) => .error ⟨fault, slot, m.notices⟩ := by
  unfold Store.write storeBus
  simp only [UInt16.ofNat_toNat, UInt8.ofNat_toNat]
  rcases hholds.cases with hram | ⟨hram, hppu, htransfer, hpad, hcartridge⟩
  · rw [if_pos hram, if_pos hram]
    rfl
  · rw [if_neg hram, if_neg hram, if_neg hppu, if_neg htransfer, if_neg hpad, if_neg hcartridge]
    unfold writeCartridge store
    cases hwrite : m.slot.writePrg addr value <;> simp only [hwrite] <;> rfl

namespace Code

variable {answer : Nat → UInt16 → UInt8}

theorem comes_to_bind {c : Code x} {d : ∀ a, Code (f a)} {n : Nat}
    (hc : Calm m.store (c.eval answer n m.cpu.registers).log →
      PatternFault x m ∨ ComesTo x m (c.eval answer n m.cpu.registers))
    (hd : ∀ a m n, Calm m.store ((d a).eval answer n m.cpu.registers).log →
      PatternFault (f a) m ∨ ComesTo (f a) m ((d a).eval answer n m.cpu.registers))
    (h : Calm m.store ((c.bind d).eval answer n m.cpu.registers).log) :
    PatternFault (x >>= f) m ∨ ComesTo (x >>= f) m ((c.bind d).eval answer n m.cpu.registers) := by
  rw [eval_bind] at h ⊢
  generalize hfirst : c.eval answer n m.cpu.registers = first at *
  obtain ⟨hcalm, hrest⟩ := h.append
  unfold PatternFault ComesTo
  rw [stored_append]
  rcases hc hcalm with ⟨crash, hcrash, hregion⟩ | hcomes
  · exact .inl ⟨crash, run_error hcrash, hregion⟩
  · unfold ComesTo at hcomes
    cases hstored : stored first.log m.store with
    | error e =>
      rw [hstored] at hcomes
      exact .inr (run_error hcomes)
    | ok s =>
      rw [hstored] at hcomes
      obtain ⟨m₁, hx, rfl, hregisters, hnotices⟩ := hcomes
      rw [run_eq hx]
      have hcomes' := hd first.value m₁ (n + first.log.length)
      rw [hregisters] at hcomes'
      have hdone := hcomes' (hrest _ hstored)
      unfold PatternFault ComesTo at hdone
      rw [hnotices] at hdone
      exact hdone

/-- **A calm run comes to what its log says**, unless a pattern read ends it. -/
theorem comes_to (c : Code x) (m : Machine) (n : Nat)
    (h : Calm m.store (c.eval answer n m.cpu.registers).log) :
    PatternFault x m ∨ ComesTo x m (c.eval answer n m.cpu.registers) := by
  induction c generalizing m n with
  | pure a => exact .inr ⟨m, rfl, rfl, rfl, rfl⟩
  | bind c d ihc ihd => exact comes_to_bind (ihc m n) ihd h
  | registers => exact .inr ⟨m, rfl, rfl, rfl, rfl⟩
  | modifyRegisters f => exact .inr ⟨_, rfl, rfl, rfl, rfl⟩
  | idle => exact cycle_calm m
  | read addr =>
    obtain ⟨hholds, hread, -⟩ := h
    rcases cycle_calm m with ⟨crash, hcycle, hregion⟩ | ⟨m₁, hcycle, hstore, hregisters, hnotices⟩
    · exact .inl ⟨crash, run_error hcycle, hregion⟩
    · rw [← hstore] at hread
      have hrun : Machine.read addr m = fetchBus addr m₁ := run_eq hcycle
      rw [fetchBus_calm hholds hread] at hrun
      exact .inr ⟨m₁, hrun, hstore, hregisters, hnotices⟩
  | write addr value =>
    obtain ⟨hholds, -, -⟩ := h
    rcases cycle_calm m with ⟨crash, hcycle, hregion⟩ | ⟨m₁, hcycle, hstore, hregisters, hnotices⟩
    · exact .inl ⟨crash, run_error hcycle, hregion⟩
    · have hrun : Machine.write addr value m = storeBus addr value m₁ := run_eq hcycle
      have hstored : stored ((write addr value).eval answer n m.cpu.registers).log m.store =
          m.store.write (addr.toNat, value.toNat) := List.foldlM_cons.trans (bind_pure _)
      unfold ComesTo
      rw [hrun, hstored, storeBus_calm value hholds, hstore]
      cases m.store.write (addr.toNat, value.toNat) with
      | ok s => exact .inr ⟨m₁.withStore s, rfl, rfl, hregisters, hnotices⟩
      | error e => exact .inr (by rw [hnotices])

end Code

end NesMachine.Machine
