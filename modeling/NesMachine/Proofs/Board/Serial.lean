import Mathlib.Algebra.Group.Nat.Defs
import NesMachine.Proofs.Board.Access

/-!
# The serial port of the MMC1

The board counts the bits it received by a marker that travels through its shift register, and keeps
the banks that its registers select beside them. A `Port` does neither: it is the list of bits since
the last value was complete, and four registers of five bits.

* `receive_view`: a write keeps the shift register, the registers and the banks those of the port.
* `serial_exact`: so they are after any writes, on the board of any image.
-/

namespace NesMachine.Board

/-! ## The port -/

/-- The number that some bits make, lowest bit first. -/
def numberOf : List Bool → Nat
  | [] => 0
  | bit :: rest => bit.toNat + 2 * numberOf rest

theorem numberOf_lt (bits : List Bool) : numberOf bits < 2 ^ bits.length := by
  induction bits with
  | nil => exact Nat.one_pos
  | cons bit rest ih =>
    have hbit := bit.toNat_le
    simp only [numberOf, List.length_cons, Nat.pow_succ]
    omega

theorem numberOf_append (bits : List Bool) (bit : Bool) :
    numberOf (bits ++ [bit]) = numberOf bits + 2 ^ bits.length * bit.toNat := by
  induction bits with
  | nil => simp [numberOf]
  | cons first rest ih =>
    simp only [List.cons_append, numberOf, ih, List.length_cons, Nat.pow_succ]
    rw [Nat.mul_right_comm]
    omega

/-- The port, without a marker and without banks. -/
structure Port where
  /-- The bits received since the last value was complete, oldest first. -/
  received : List Bool := []
  control : Fin 32 := 0x0C
  chr0 : Fin 32 := 0
  chr1 : Fin 32 := 0
  prg : Fin 32 := 0
  incomplete : received.length < 5 := by decide

namespace Port

/-- Puts a value into the register that an address from `$8000` up names. -/
def store (p : Port) (addr : UInt16) (value : Fin 32) : Port :=
  match addr.toNat / 0x2000 with
  | 4 => { p with control := value }
  | 5 => { p with chr0 := value }
  | 6 => { p with chr1 := value }
  | _ => { p with prg := value }

/-- Forgets the bits received. -/
def clear (p : Port) : Port := { p with received := [], incomplete := Nat.zero_lt_succ 4 }

/-- Keeps one more bit. -/
def append (p : Port) (bit : Bool) (h : p.received.length < 4) : Port :=
  { p with received := p.received ++ [bit], incomplete := by simpa using Nat.succ_lt_succ h }

/-- Receives a bit; the fifth completes a value, and its address names the register. -/
def receive (p : Port) (addr : UInt16) (bit : Bool) : Port :=
  if h : p.received.length < 4 then p.append bit h
  else
    let value : Fin 32 := ⟨numberOf (p.received ++ [bit]), by
      have hlt := numberOf_lt (p.received ++ [bit])
      have hlength := p.incomplete
      rwa [List.length_append, show p.received.length = 4 by omega] at hlt⟩
    (p.store addr value).clear

/-- A write of the processor. Below `$8000` there is no port; a value with bit 7 forgets the bits
received and sets bits 2 and 3 of the control register; any other gives its lowest bit. -/
def write (p : Port) (addr : UInt16) (value : UInt8) : Port :=
  if addr.toNat < 0x8000 then p
  else if 0x80 ≤ value.toNat then
    { p.clear with control := p.control ||| 0x0C }
  else p.receive addr (value.toNat % 2 = 1)

/-- The 16 KB banks at `$8000` and `$C000`: a pair of neighbours, or one that can be chosen and the
first or the last one. -/
def prgBanks (p : Port) (last : Nat) : Nat × Nat :=
  let bank := p.prg.val % 16
  match p.control.val / 4 % 4 with
  | 0 | 1 => (bank / 2 * 2, bank / 2 * 2 + 1)
  | 2 => (0, bank)
  | _ => (bank, last)

/-- The 4 KB banks at `$0000` and `$1000`: a pair of neighbours, or two that can be chosen. -/
def chrBanks (p : Port) : Nat × Nat :=
  if p.control.val < 16 then (p.chr0.val / 2 * 2, p.chr0.val / 2 * 2 + 1)
  else (p.chr0.val, p.chr1.val)

/-- The arrangement of the nametables. -/
def mirroring (p : Port) : Mirroring :=
  match p.control.val % 4 with
  | 0 => .singleScreenA
  | 1 => .singleScreenB
  | 2 => .vertical
  | _ => .horizontal

/-- The shift register: the marker below the bits received, which come in at the top of five bits. -/
def shift (p : Port) : Nat := 2 ^ (4 - p.received.length) * numberOf (true :: p.received)

/-- All that a board with this port and this last bank keeps. -/
def view (p : Port) (last : Nat) : Mmc1 where
  shift := UInt8.ofNat p.shift
  control := UInt8.ofNat p.control
  chr0 := UInt8.ofNat p.chr0
  chr1 := UInt8.ofNat p.chr1
  prg := UInt8.ofNat p.prg
  prgWindows := p.prgBanks last
  chrWindows := p.chrBanks

variable {p : Port} {last : Nat}

/-! ## The marker -/

theorem shift_bounds (p : Port) : 0 < p.shift ∧ p.shift < 32 := by
  have hlt := numberOf_lt (true :: p.received)
  have hlength := p.incomplete
  rw [List.length_cons] at hlt
  have hpos : 0 < numberOf (true :: p.received) := by
    simp only [numberOf, Bool.toNat_true]
    omega
  unfold shift
  refine ⟨Nat.mul_pos (Nat.two_pow_pos _) hpos, ?_⟩
  calc 2 ^ (4 - p.received.length) * numberOf (true :: p.received)
      < 2 ^ (4 - p.received.length) * 2 ^ (p.received.length + 1) :=
        Nat.mul_lt_mul_of_pos_left hlt (Nat.two_pow_pos _)
    _ = 32 := by
        rw [← Nat.pow_add, show 4 - p.received.length + (p.received.length + 1) = 5 by omega]

/-- While bits are missing, the lowest bit of the shift register is not the marker. -/
theorem shift_even (h : p.received.length < 4) : p.shift % 2 = 0 := by
  unfold shift
  obtain ⟨k, hk⟩ := Nat.exists_eq_add_of_lt h
  rw [show 4 - p.received.length = k + 1 by omega, Nat.pow_succ, Nat.mul_assoc, Nat.mul_left_comm,
    Nat.mul_mod_right]

/-- With four bits received, the marker is the lowest bit. -/
theorem shift_full (h : p.received.length = 4) : p.shift = 1 + 2 * numberOf p.received := by
  unfold shift
  rw [h, Nat.sub_self, Nat.pow_zero, Nat.one_mul]
  rfl

/-- A bit moves the marker down and comes in at the top. -/
theorem shift_append (bit : Bool) (h : p.received.length < 4) :
    (p.append bit h).shift = p.shift / 2 + 16 * bit.toNat := by
  obtain ⟨k, hk⟩ := Nat.exists_eq_add_of_lt h
  have hhalf : p.shift = 2 ^ k * numberOf (true :: p.received) * 2 := by
    rw [shift, show 4 - p.received.length = k + 1 by omega, Nat.pow_succ, Nat.mul_right_comm]
  rw [hhalf, Nat.mul_div_cancel _ Nat.two_pos, shift, append, List.length_append,
    List.length_singleton, ← List.cons_append, numberOf_append, List.length_cons,
    show 4 - (p.received.length + 1) = k by omega, Nat.mul_add, ← Nat.mul_assoc, ← Nat.pow_add,
    show k + (p.received.length + 1) = 4 by omega]

/-! ## The banks -/

theorem selectPrg_eq (control prg : Fin 32) (banks : Nat) :
    Mmc1.selectPrg (UInt8.ofNat control) (UInt8.ofNat prg) banks =
      ({ control, prg } : Port).prgBanks (banks - 1) := by
  have hmode : ∀ c : Fin 32, ((UInt8.ofNat c >>> 2) &&& 3).toNat = c.val / 4 % 4 := by decide
  have hbank : ∀ b : Fin 32, (UInt8.ofNat b &&& 0x0F).toNat = b.val % 16 := by decide
  simp only [Mmc1.selectPrg, hmode, hbank]
  rfl

theorem selectChr_eq (control chr0 chr1 : Fin 32) :
    Mmc1.selectChr (UInt8.ofNat control) (UInt8.ofNat chr0) (UInt8.ofNat chr1) =
      ({ control, chr0, chr1 } : Port).chrBanks := by
  have hmode : ∀ c : Fin 32, UInt8.ofNat c &&& 0x10 = 0 ↔ c.val < 16 := by decide
  have hbank : ∀ b : Fin 32, (UInt8.ofNat b &&& 0x1E).toNat = b.val / 2 * 2 := by decide
  have hwhole : ∀ b : Fin 32, (UInt8.ofNat b).toNat = b.val := by decide
  simp only [Mmc1.selectChr, chrBanks, hmode, hbank, hwhole]

/-- With the banks brought up to date, the registers say it all. -/
theorem refresh_eq_view {m : Mmc1} {banks : Nat} (hshift : m.shift = UInt8.ofNat p.shift)
    (hcontrol : m.control = UInt8.ofNat p.control) (hchr0 : m.chr0 = UInt8.ofNat p.chr0)
    (hchr1 : m.chr1 = UInt8.ofNat p.chr1) (hprg : m.prg = UInt8.ofNat p.prg) :
    m.refresh banks = p.view (banks - 1) := by
  unfold Mmc1.refresh view
  rw [hshift, hcontrol, hchr0, hchr1, hprg, selectPrg_eq, selectChr_eq]
  rfl

theorem view_mirroring (p : Port) (last : Nat) : (p.view last).mirroring = p.mirroring := by
  have hscreen : ∀ c : Fin 32, (UInt8.ofNat c &&& 3).toNat = c.val % 4 := by decide
  simp only [Mmc1.mirroring, view, hscreen]
  rfl

/-! ## A write -/

theorem toNat_shift_view (p : Port) (last : Nat) : (p.view last).shift.toNat = p.shift := by
  have hbounds := p.shift_bounds
  exact UInt8.toNat_ofNat_of_lt' (Nat.lt_trans hbounds.2 (by decide))

/-- The shift register after a bit. -/
theorem shifted_eq (p : Port) (last : Nat) (value : UInt8) :
    ((p.view last).shift >>> 1) ||| ((value &&& 1) <<< 4) =
      UInt8.ofNat (p.shift / 2 + 16 * (decide (value.toNat % 2 = 1)).toNat) := by
  have hvalue : value &&& 1 = UInt8.ofNat (decide (value.toNat % 2 = 1)).toNat := by
    rw [← UInt8.toNat_inj, UInt8.toNat_and, show UInt8.toNat 1 = 1 from rfl, Nat.and_one_is_mod]
    rcases Nat.mod_two_eq_zero_or_one value.toNat with h | h <;> simp [h]
  have hshifted : ∀ (s : Fin 32) (bit : Bool),
      (UInt8.ofNat s >>> 1) ||| (UInt8.ofNat bit.toNat <<< 4) =
        UInt8.ofNat (s / 2 + 16 * bit.toNat) := by decide
  rw [hvalue]
  exact hshifted ⟨p.shift, p.shift_bounds.2⟩ _

/-- A complete value goes to the register that the address names, as the banks are selected anew. -/
theorem commit_eq (p : Port) {addr : UInt16} (value : Fin 32) (last banks : Nat)
    (haddr : 0x8000 ≤ addr.toNat) :
    { (p.view last).commit addr (UInt8.ofNat value) with shift := Mmc1.marker }.refresh banks =
      (p.store addr value).clear.view (banks - 1) := by
  have hlt := addr.toNat_lt
  simp only [Mmc1.commit, store, UInt16.lt_iff_toNat_lt]
  split_ifs with hcontrol hchr0 hchr1
  · rw [show addr.toNat / 0x2000 = 4 by simp at hcontrol; omega]
    exact refresh_eq_view rfl rfl rfl rfl rfl
  · rw [show addr.toNat / 0x2000 = 5 by simp at hcontrol hchr0; omega]
    exact refresh_eq_view rfl rfl rfl rfl rfl
  · rw [show addr.toNat / 0x2000 = 6 by simp at hchr0 hchr1; omega]
    exact refresh_eq_view rfl rfl rfl rfl rfl
  · rw [show addr.toNat / 0x2000 = 7 by simp at hchr1; omega]
    exact refresh_eq_view rfl rfl rfl rfl rfl

/-- **A write keeps what the board holds the view of its port.** -/
theorem receive_view (p : Port) {addr : UInt16} (value : UInt8) (banks : Nat)
    (haddr : 0x8000 ≤ addr.toNat) :
    (p.view (banks - 1)).receive banks addr value = (p.write addr value).view (banks - 1) := by
  have hreset : value &&& 0x80 ≠ 0 ↔ 0x80 ≤ value.toNat := by
    have hbit : ∀ v : Fin 256, UInt8.ofNat v &&& 0x80 ≠ 0 ↔ 0x80 ≤ v.val := by decide +kernel
    simpa using hbit ⟨value.toNat, value.toNat_lt⟩
  have hlow : ((p.view (banks - 1)).shift &&& 1).toNat = p.shift % 2 := by
    rw [UInt8.toNat_and, toNat_shift_view, show UInt8.toNat 1 = 1 from rfl, Nat.and_one_is_mod]
  have hmissing : (p.view (banks - 1)).shift &&& 1 = 0 ↔ p.received.length < 4 := by
    constructor
    · intro hmarker
      refine Nat.lt_of_not_le fun hlength => ?_
      have hodd := shift_full (p := p) (Nat.le_antisymm (Nat.le_of_lt_succ p.incomplete) hlength)
      rw [hmarker, hodd] at hlow
      simp at hlow
    · intro hlength
      exact UInt8.toNat_inj.mp (hlow.trans (shift_even hlength))
  unfold Mmc1.receive write
  rw [if_neg (Nat.not_lt.mpr haddr)]
  simp only [hreset, hmissing, shifted_eq]
  split_ifs with hvalue hlength
  · have hcontrol : ∀ c : Fin 32, UInt8.ofNat c ||| 0x0C = UInt8.ofNat (c ||| 0x0C : Fin 32) := by
      decide
    exact refresh_eq_view rfl (hcontrol p.control) rfl rfl rfl
  · rw [receive, dif_pos hlength, ← shift_append _ hlength]
    rfl
  · have hfour : p.received.length = 4 := by
      have hincomplete := p.incomplete
      omega
    have hvalue : p.shift / 2 + 16 * (decide (value.toNat % 2 = 1)).toNat =
        numberOf (p.received ++ [decide (value.toNat % 2 = 1)]) := by
      rw [numberOf_append, shift_full hfour, hfour]
      omega
    rw [receive, dif_neg hlength, ← commit_eq p _ (banks - 1) banks haddr, hvalue]

end Port

/-! ## Writes to a board -/

/-- Any number of writes of the processor. -/
def writeAll (b : Board) (writes : List (UInt16 × UInt8)) : Except (Fault × Board) Board :=
  writes.foldlM (fun b w => b.writePrg w.1 w.2) b

/-- The port at power-on. -/
def Port.powerOn : Port := {}

/-- The port after any number of writes. -/
def Port.writeAll (p : Port) (writes : List (UInt16 × UInt8)) : Port :=
  writes.foldl (fun p w => p.write w.1 w.2) p

/-- A board with a serial port in a state, for a program, and with all of its work memory. -/
structure Carries (b : Board) (p : Port) (program : Digest.Bytes) : Prop where
  latch : b.latch = .mmc1 (p.view (prgBanks program - 1))
  program : b.image.prg = program
  room : 0x2000 ≤ b.image.prgRam.size

variable {b : Board} {p : Port} {program : Digest.Bytes}

theorem Carries.ofImage (image : Rom.Image) : Carries (ofImage .mmc1 image) {} image.prg where
  latch := by
    have hpower : Mmc1.powerOn (prgBanks image.prg) =
        Port.view {} (prgBanks image.prg - 1) :=
      Port.refresh_eq_view rfl rfl rfl rfl rfl
    simp only [Board.ofImage, hpower]
  program := rfl
  room := by
    simp only [Board.ofImage, Array.size_append, Array.size_replicate]
    omega

/-- A write reaches the port, or the work memory, which is large enough for it. -/
theorem Carries.write (h : b.Carries p program) (addr : UInt16) (value : UInt8) :
    ∃ b', b.writePrg addr value = .ok b' ∧ b'.Carries (p.write addr value) program := by
  have hoffset : b.prgRamOffset addr < b.image.prgRam.size := by
    have hmod := Nat.mod_lt (addr.toNat - 0x6000) (show 0 < 0x2000 by decide)
    rw [prgRamOffset, prgRamPeriod, h.latch]
    exact Nat.lt_of_lt_of_le hmod h.room
  obtain ⟨prgRam, hsize, hwrite⟩ := writePrg_ok value hoffset
  refine ⟨_, hwrite, ?_, h.program, hsize ▸ h.room⟩
  have hport : 0x8000 ≤ addr ↔ 0x8000 ≤ addr.toNat := UInt16.le_iff_toNat_le
  simp only [h.latch, h.program, hport]
  split_ifs with haddr
  · rw [← Port.receive_view p value _ haddr]
    rfl
  · rw [Port.write, if_pos (Nat.lt_of_not_le haddr)]

theorem Carries.writeAll (h : b.Carries p program) (writes : List (UInt16 × UInt8)) :
    ∃ b', b.writeAll writes = .ok b' ∧ b'.Carries (p.writeAll writes) program := by
  induction writes generalizing b p with
  | nil => exact ⟨b, rfl, h⟩
  | cons w rest ih =>
    obtain ⟨b₁, hwrite, hb₁⟩ := h.write w.1 w.2
    obtain ⟨b', hrest, hb'⟩ := ih hb₁
    refine ⟨b', ?_, hb'⟩
    unfold Board.writeAll at hrest ⊢
    rw [List.foldlM_cons, hwrite]
    exact hrest

/-- **The serial port of a board is exact.** Whatever is written to the board of an image, the
writes succeed and the latch is the view of the port that received them. -/
theorem serial_exact (image : Rom.Image) (writes : List (UInt16 × UInt8)) :
    ∃ b, (ofImage .mmc1 image).writeAll writes = .ok b ∧
      ∃ m : Mmc1, b.latch = .mmc1 m ∧
        m = (Port.writeAll {} writes).view (max (image.prg.size / 0x4000) 1 - 1) ∧
        b.mirroring = (Port.writeAll {} writes).mirroring ∧
        m.shift ≠ 0 ∧ m.shift < 32 := by
  obtain ⟨b, hwrites, hb⟩ := (Carries.ofImage image).writeAll writes
  have hbounds := (Port.writeAll {} writes).shift_bounds
  have hshift := Port.toNat_shift_view (Port.writeAll {} writes) (prgBanks image.prg - 1)
  refine ⟨b, hwrites, _, hb.latch, rfl, ?_, ?_, ?_⟩
  · unfold mirroring
    rw [hb.latch]
    exact Port.view_mirroring _ _
  · intro hzero
    rw [hzero] at hshift
    exact Nat.ne_of_lt hbounds.1 hshift
  · rw [UInt8.lt_iff_toNat_lt, hshift]
    exact hbounds.2

end NesMachine.Board
