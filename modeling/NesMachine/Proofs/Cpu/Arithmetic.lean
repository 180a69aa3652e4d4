import Mathlib.Data.Nat.Bitwise
import Mathlib.Tactic.SplitIfs
import NesMachine.Cpu.Effect
import NesMachine.Proofs.Cpu.Manual

/-!
# The arithmetic of the processor

Bytes and masks compute what the manual says of numbers and flags.

* `Shows`: registers hold a state of the manual.
* `Meets`: a class of operations does to registers what an action does to the states they hold.
* `effect_meets`: every operation meets its action.
-/

namespace NesMachine.Cpu

open Manual (State Action signed)

/-- The position of a flag's bit. -/
def Flag.position : Flag → Nat
  | carry => 0
  | zero => 1
  | interruptDisable => 2
  | decimal => 3
  | brk => 4
  | unused => 5
  | overflow => 6
  | negative => 7

namespace Registers

/-- The state that registers hold. -/
def state (r : Registers) : State where
  a := r.a.toNat
  x := r.x.toNat
  y := r.y.toNat
  sp := r.sp.toNat
  pc := r.pc.toNat
  carry := r.flag .carry
  zero := r.flag .zero
  interruptDisable := r.flag .interruptDisable
  decimal := r.flag .decimal
  overflow := r.flag .overflow
  negative := r.flag .negative

/-- Registers that hold a state. Of the two bits that are no flags, one is set. -/
structure Shows (r : Registers) (s : State) : Prop where
  state : r.state = s
  unused : r.flag .unused = true
  brk : r.flag .brk = false

variable {r : Registers} {s : State}

/-! ## Flags -/

theorem flag_eq_testBit (r : Registers) (f : Flag) : r.flag f = r.p.toNat.testBit f.position := by
  have hmask : f.mask.toNat = 2 ^ f.position := by cases f <;> rfl
  have hzero : r.p &&& f.mask = 0 ↔ r.p.toNat.testBit f.position = false := by
    rw [← UInt8.toNat_inj, UInt8.toNat_and, hmask, Nat.and_two_pow]
    cases r.p.toNat.testBit f.position <;> simp
  unfold flag
  cases hbit : r.p.toNat.testBit f.position <;> simp [hzero, hbit]

theorem flag_setFlag (r : Registers) (f g : Flag) (on : Bool) :
    (r.setFlag f on).flag g = if g = .unused then true else if g = f then on else r.flag g := by
  have hmask : f.mask.toNat.testBit g.position = decide (g = f) := by cases f <;> cases g <;> rfl
  have hrest : (~~~f.mask).toNat.testBit g.position = !decide (g = f) := by
    cases f <;> cases g <;> rfl
  have hunused : Flag.unused.mask.toNat.testBit g.position = decide (g = .unused) := by
    cases g <;> rfl
  rw [flag_eq_testBit, flag_eq_testBit, setFlag]
  cases on <;>
    simp only [if_true, if_false, Bool.false_eq_true, UInt8.toNat_or, UInt8.toNat_and,
      Nat.testBit_or, Nat.testBit_and, hmask, hrest, hunused]
  all_goals
    by_cases hg : g = .unused <;> by_cases hf : g = f <;> simp [hg, hf]

/-- A flag of a state set or cleared; a state does not keep the two bits that are no flags. -/
def withFlag (s : State) (f : Flag) (on : Bool) : State :=
  match f with
  | .carry => { s with carry := on }
  | .zero => { s with zero := on }
  | .interruptDisable => { s with interruptDisable := on }
  | .decimal => { s with decimal := on }
  | .overflow => { s with overflow := on }
  | .negative => { s with negative := on }
  | .brk | .unused => s

theorem Shows.setFlag (h : r.Shows s) (f : Flag) (on : Bool) (hf : f ≠ .brk) :
    (r.setFlag f on).Shows (withFlag s f on) := by
  obtain ⟨rfl, hunused, hbrk⟩ := h
  refine ⟨?_, ?_, ?_⟩
  · simp only [Registers.state, flag_setFlag]
    cases f <;> rfl
  · rw [flag_setFlag, if_pos rfl]
  · rw [flag_setFlag, if_neg (by decide), if_neg hf.symm, hbrk]

/-- What holds of 256 numbers holds of every byte. -/
theorem forall_byte {p : UInt8 → Prop} (h : ∀ n : Fin 256, p (UInt8.ofNat n)) (value : UInt8) :
    p value := by
  simpa using h ⟨value.toNat, value.toNat_lt⟩

/-- A mask of one bit asks for that bit of the number. -/
theorem bit_iff {mask : UInt8} {k : Nat} (hmask : mask.toNat = 2 ^ k) (value : UInt8) :
    value &&& mask ≠ 0 ↔ value.toNat / 2 ^ k % 2 = 1 := by
  rw [ne_eq, ← UInt8.toNat_inj, UInt8.toNat_and, hmask, Nat.and_two_pow,
    Nat.testBit_eq_decide_div_mod_eq]
  by_cases hbit : value.toNat / 2 ^ k % 2 = 1 <;> simp [hbit]

theorem bit7_iff (value : UInt8) : value &&& 0x80 ≠ 0 ↔ 128 ≤ value.toNat := by
  have hlt := value.toNat_lt
  rw [bit_iff (show (0x80 : UInt8).toNat = 2 ^ 7 from rfl)]
  omega

theorem Shows.setZN (h : r.Shows s) (value : UInt8) : (r.setZN value).Shows (s.sign value.toNat) := by
  have hzero : value = 0 ↔ value.toNat = 0 := by rw [← UInt8.toNat_inj]; rfl
  have hset := (h.setFlag .zero (value = 0) (by decide)).setFlag .negative (value &&& 0x80 ≠ 0)
    (by decide)
  have hsign : withFlag (withFlag s .zero (value = 0)) .negative (value &&& 0x80 ≠ 0) =
      s.sign value.toNat := by
    simp only [withFlag, State.sign, hzero, bit7_iff]
  rwa [hsign] at hset

/-! ## The program counter and the stack pointer -/

theorem Shows.withPc {pc : UInt16} {n : Nat} (h : r.Shows s) (hpc : pc.toNat = n) :
    ({ r with pc } : Registers).Shows { s with pc := n } := by
  obtain ⟨rfl, hunused, hbrk⟩ := h
  exact ⟨by rw [← hpc]; rfl, hunused, hbrk⟩

theorem Shows.withSp {sp : UInt8} {n : Nat} (h : r.Shows s) (hsp : sp.toNat = n) :
    ({ r with sp } : Registers).Shows { s with sp := n } := by
  obtain ⟨rfl, hunused, hbrk⟩ := h
  exact ⟨by rw [← hsp]; rfl, hunused, hbrk⟩

/-! ## Loads -/

theorem Shows.withA {a : UInt8} {n : Nat} (h : r.Shows s) (ha : a.toNat = n) :
    ({ r with a } : Registers).Shows { s with a := n } := by
  obtain ⟨rfl, hunused, hbrk⟩ := h
  exact ⟨by rw [← ha]; rfl, hunused, hbrk⟩

theorem Shows.loadA (h : r.Shows s) (value : UInt8) :
    (r.loadA value).Shows (Manual.loadA s value.toNat) :=
  (h.withA rfl).setZN value

theorem Shows.loadX (h : r.Shows s) (value : UInt8) :
    (r.loadX value).Shows (Manual.loadX s value.toNat) := by
  obtain ⟨rfl, hunused, hbrk⟩ := h
  have hset : ({ r with x := value } : Registers).Shows { r.state with x := value.toNat } :=
    ⟨rfl, hunused, hbrk⟩
  exact hset.setZN value

theorem Shows.loadY (h : r.Shows s) (value : UInt8) :
    (r.loadY value).Shows (Manual.loadY s value.toNat) := by
  obtain ⟨rfl, hunused, hbrk⟩ := h
  have hset : ({ r with y := value } : Registers).Shows { r.state with y := value.toNat } :=
    ⟨rfl, hunused, hbrk⟩
  exact hset.setZN value

theorem toNat_increment (value : UInt8) : (value + 1).toNat = Manual.increment value.toNat := by
  rw [UInt8.toNat_add]
  rfl

theorem toNat_decrement (value : UInt8) : (value - 1).toNat = Manual.decrement value.toNat := by
  rw [UInt8.toNat_sub, Nat.add_comm]
  rfl

/-! ## Sums and differences -/

/-- The overflow mask: the operands agree in sign and the result does not. -/
theorem overflow_iff (a value out : UInt8) : (a ^^^ out) &&& (value ^^^ out) &&& 0x80 ≠ 0 ↔
    (128 ≤ a.toNat ↔ 128 ≤ value.toNat) ∧ ¬(128 ≤ a.toNat ↔ 128 ≤ out.toNat) := by
  have hhigh (v : UInt8) : 128 ≤ v.toNat ↔ v.toNat.testBit 7 = true := by
    have hlt := v.toNat_lt
    rw [Nat.testBit_eq_decide_div_mod_eq, decide_eq_true_iff]
    omega
  rw [bit7_iff, hhigh, hhigh, hhigh, hhigh, UInt8.toNat_and, UInt8.toNat_xor, UInt8.toNat_xor,
    Nat.testBit_and, Nat.testBit_xor, Nat.testBit_xor]
  cases a.toNat.testBit 7 <;> cases value.toNat.testBit 7 <;> cases out.toNat.testBit 7 <;> decide

/-- What that says of a sum: it is outside of the numbers that a byte with a sign can be. -/
theorem signed_sum_iff {a value carry : Nat} (ha : a < 256) (hvalue : value < 256)
    (hcarry : carry ≤ 1) :
    ((128 ≤ a ↔ 128 ≤ value) ∧ ¬(128 ≤ a ↔ 128 ≤ (a + value + carry) % 256)) ↔
      signed a + signed value + carry < -128 ∨ 127 < signed a + signed value + carry := by
  unfold signed
  split_ifs <;> omega

theorem Shows.adc (h : r.Shows s) (value : UInt8) :
    (r.adc value).Shows (Manual.adc s value.toNat) := by
  have hsum : ∀ sum, (UInt8.ofNat sum).toNat = sum % 256 := fun _ => UInt8.toNat_ofNat'
  have hset := fun carry overflow out =>
    ((h.setFlag .carry carry (by decide)).setFlag .overflow overflow (by decide)).loadA out
  obtain ⟨rfl, -, -⟩ := h
  have hoverflow := signed_sum_iff r.a.toNat_lt value.toNat_lt (r.flag .carry).toNat_le
  unfold Registers.adc
  simp only [overflow_iff, hsum, hoverflow]
  refine Eq.subst (motive := Shows _) ?_ (hset _ _ _)
  rw [hsum]
  rfl

/-- The complement of a byte subtracts it. -/
theorem sbc_eq {value : Nat} (s : State) (hvalue : value < 256) :
    Manual.adc s (255 - value) = Manual.sbc s value := by
  have hcarry := s.carry.toNat_le
  have hsigned : signed (255 - value) = -1 - signed value := by
    unfold signed
    split_ifs <;> omega
  have htotal : signed s.a + signed (255 - value) + s.carry.toNat =
      signed s.a - signed value - (1 - s.carry.toNat) := by omega
  have hborrow : 256 ≤ s.a + (255 - value) + s.carry.toNat ↔
      (0 : Int) ≤ s.a - value - (1 - s.carry.toNat) := by omega
  have hdifference : (s.a + (255 - value) + s.carry.toNat) % 256 =
      ((s.a - value - (1 - s.carry.toNat) : Int) % 256).toNat := by omega
  simp only [Manual.adc, Manual.sbc, htotal, hborrow, hdifference]

theorem Shows.sbc (h : r.Shows s) (value : UInt8) :
    (r.sbc value).Shows (Manual.sbc s value.toNat) := by
  have hadc := h.adc (~~~value)
  rw [UInt8.toNat_not] at hadc
  exact sbc_eq s value.toNat_lt ▸ hadc

theorem Shows.compare (h : r.Shows s) (register value : UInt8) :
    (r.compare register value).Shows (Manual.compare register.toNat s value.toNat) := by
  have hset := (h.setFlag .carry (value ≤ register) (by decide)).setZN (register - value)
  have hdifference : (register - value).toNat = (register.toNat + (256 - value.toNat)) % 256 := by
    rw [UInt8.toNat_sub, Nat.add_comm]
  rwa [hdifference] at hset

/-! ## Bits -/

theorem Shows.and (h : r.Shows s) (value : UInt8) :
    (r.and value).Shows (Manual.loadA s (s.a &&& value.toNat)) := by
  have hset := h.loadA (r.a &&& value)
  obtain ⟨rfl, -, -⟩ := h
  rwa [UInt8.toNat_and] at hset

theorem Shows.ora (h : r.Shows s) (value : UInt8) :
    (r.ora value).Shows (Manual.loadA s (s.a ||| value.toNat)) := by
  have hset := h.loadA (r.a ||| value)
  obtain ⟨rfl, -, -⟩ := h
  rwa [UInt8.toNat_or] at hset

theorem Shows.eor (h : r.Shows s) (value : UInt8) :
    (r.eor value).Shows (Manual.loadA s (s.a ^^^ value.toNat)) := by
  have hset := h.loadA (r.a ^^^ value)
  obtain ⟨rfl, -, -⟩ := h
  rwa [UInt8.toNat_xor] at hset

theorem Shows.bit (h : r.Shows s) (value : UInt8) :
    (r.bit value).Shows (Manual.bit s value.toNat) := by
  have hset := ((h.setFlag .zero (r.a &&& value = 0) (by decide)).setFlag .negative
    (value &&& 0x80 ≠ 0) (by decide)).setFlag .overflow (value &&& 0x40 ≠ 0) (by decide)
  obtain ⟨rfl, -, -⟩ := h
  have hzero : r.a &&& value = 0 ↔ r.a.toNat &&& value.toNat = 0 := by
    rw [← UInt8.toNat_inj, UInt8.toNat_and]
    rfl
  have hsix : value &&& 0x40 ≠ 0 ↔ value.toNat / 64 % 2 = 1 :=
    bit_iff (show (0x40 : UInt8).toNat = 2 ^ 6 from rfl) value
  have hbit : withFlag (withFlag (withFlag r.state .zero (r.a &&& value = 0)) .negative
      (value &&& 0x80 ≠ 0)) .overflow (value &&& 0x40 ≠ 0) = Manual.bit r.state value.toNat := by
    simp only [withFlag, Manual.bit, hzero, bit7_iff, hsix]
    rfl
  exact hbit ▸ hset

/-! ## Shifts and counts -/

/-- A shift: what the bit that leaves and the byte that remains are. -/
theorem Shows.shifted (h : r.Shows s) {carry : Bool} {value : UInt8} {out : Nat}
    (hvalue : value.toNat = out) :
    ((r.setFlag .carry carry).result value).1.toNat = (Manual.result s carry out).1 ∧
      ((r.setFlag .carry carry).result value).2.Shows (Manual.result s carry out).2 := by
  subst hvalue
  exact ⟨rfl, (h.setFlag .carry carry (by decide)).setZN value⟩

theorem Shows.asl (h : r.Shows s) (value : UInt8) :
    (r.asl value).1.toNat = (Manual.asl s value.toNat).1 ∧
      (r.asl value).2.Shows (Manual.asl s value.toNat).2 := by
  have hout : (value <<< 1).toNat = value.toNat * 2 % 256 := by
    rw [UInt8.toNat_shiftLeft, Nat.shiftLeft_eq]
    rfl
  simp only [Registers.asl, bit7_iff]
  exact h.shifted hout

theorem lowBit_iff (value : UInt8) : value &&& 0x01 ≠ 0 ↔ value.toNat % 2 = 1 := by
  rw [bit_iff (show (0x01 : UInt8).toNat = 2 ^ 0 from rfl), Nat.pow_zero, Nat.div_one]

theorem Shows.lsr (h : r.Shows s) (value : UInt8) :
    (r.lsr value).1.toNat = (Manual.lsr s value.toNat).1 ∧
      (r.lsr value).2.Shows (Manual.lsr s value.toNat).2 := by
  have hout : (value >>> 1).toNat = value.toNat / 2 := by
    rw [UInt8.toNat_shiftRight, Nat.shiftRight_eq_div_pow]
    rfl
  simp only [Registers.lsr, lowBit_iff]
  exact h.shifted hout

theorem Shows.rol (h : r.Shows s) (value : UInt8) :
    (r.rol value).1.toNat = (Manual.rol s value.toNat).1 ∧
      (r.rol value).2.Shows (Manual.rol s value.toNat).2 := by
  have hout : ∀ carry : Bool,
      ((value <<< 1) ||| carry.toUInt8).toNat = value.toNat * 2 % 256 + carry.toNat :=
    forall_byte (p := fun v => ∀ carry : Bool,
      ((v <<< 1) ||| carry.toUInt8).toNat = v.toNat * 2 % 256 + carry.toNat)
      (by decide +kernel) value
  simp only [Registers.rol, bit7_iff]
  obtain rfl := h.state
  exact h.shifted (hout _)

theorem Shows.ror (h : r.Shows s) (value : UInt8) :
    (r.ror value).1.toNat = (Manual.ror s value.toNat).1 ∧
      (r.ror value).2.Shows (Manual.ror s value.toNat).2 := by
  have hout : ∀ carry : Bool,
      ((value >>> 1) ||| if carry then 0x80 else 0).toNat = value.toNat / 2 + 128 * carry.toNat :=
    forall_byte (p := fun v => ∀ carry : Bool,
      ((v >>> 1) ||| if carry then 0x80 else 0).toNat = v.toNat / 2 + 128 * carry.toNat)
      (by decide +kernel) value
  simp only [Registers.ror, lowBit_iff]
  obtain rfl := h.state
  exact h.shifted (hout _)

/-! ## The status register -/

theorem Shows.toNat_statusPushed (h : r.Shows s) : r.statusPushed.toNat = s.status := by
  have hbits := forall_byte (p := fun p => (p ||| Flag.brk.mask ||| Flag.unused.mask).toNat =
      (decide (p &&& Flag.carry.mask ≠ 0)).toNat + 2 * (decide (p &&& Flag.zero.mask ≠ 0)).toNat +
        4 * (decide (p &&& Flag.interruptDisable.mask ≠ 0)).toNat +
        8 * (decide (p &&& Flag.decimal.mask ≠ 0)).toNat + 16 + 32 +
        64 * (decide (p &&& Flag.overflow.mask ≠ 0)).toNat +
        128 * (decide (p &&& Flag.negative.mask ≠ 0)).toNat) (by decide +kernel) r.p
  obtain rfl := h.state
  exact hbits

theorem Shows.pullStatus (h : r.Shows s) (value : UInt8) :
    (r.pullStatus value).Shows (s.pullStatus value.toNat) := by
  have hbits := forall_byte (p := fun v => ∀ p, p = (v &&& ~~~Flag.brk.mask) ||| Flag.unused.mask →
      (p &&& Flag.carry.mask ≠ 0 ↔ v.toNat % 2 = 1) ∧
      (p &&& Flag.zero.mask ≠ 0 ↔ v.toNat / 2 % 2 = 1) ∧
      (p &&& Flag.interruptDisable.mask ≠ 0 ↔ v.toNat / 4 % 2 = 1) ∧
      (p &&& Flag.decimal.mask ≠ 0 ↔ v.toNat / 8 % 2 = 1) ∧
      (p &&& Flag.overflow.mask ≠ 0 ↔ v.toNat / 64 % 2 = 1) ∧
      (p &&& Flag.negative.mask ≠ 0 ↔ v.toNat / 128 % 2 = 1) ∧
      p &&& Flag.unused.mask ≠ 0 ∧ p &&& Flag.brk.mask = 0)
    (by
      simp only [forall_eq]
      decide +kernel) value _ rfl
  obtain ⟨hcarry, hzero, hinterrupt, hdecimal, hoverflow, hnegative, hunused, hbrk⟩ := hbits
  obtain rfl := h.state
  refine ⟨?_, decide_eq_true hunused, ?_⟩
  · simp only [Registers.state, State.pullStatus, Registers.pullStatus, flag, hcarry, hzero,
      hinterrupt, hdecimal, hoverflow, hnegative]
  · simp only [flag, Registers.pullStatus, hbrk]
    rfl

end Registers

/-! ## Operations -/

open Registers (Shows)

/-- A class of operations that does to registers what an action does to the states they hold. -/
def Meets : Effect → Action → Prop
  | .read apply, .reads f => ∀ r s value, Shows r s → Shows (apply r value) (f s value.toNat)
  | .store value, .stores f => ∀ r s, Shows r s → (value r).toNat = f s
  | .modify apply, .modifies f => ∀ r s value, Shows r s →
      (apply r value).1.toNat = (f s value.toNat).1 ∧ Shows (apply r value).2 (f s value.toNat).2
  | .registers apply, .changes f => ∀ r s, Shows r s → Shows (apply r) (f s)
  | .branch taken, .branches f => ∀ r s, Shows r s → taken r = f s
  | .push value, .pushes f => ∀ r s, Shows r s → (value r).toNat = f s
  | .pull apply, .pulls f => ∀ r s value, Shows r s → Shows (apply r value) (f s value.toNat)
  | .jump, .jumps | .call, .calls | .leave, .returns | .leaveInterrupt, .resumes
  | .softwareInterrupt, .breaks => True
  | _, _ => False

/-- **Every operation does what the manual says.** -/
theorem effect_meets (op : Op) : Meets op.effect (Manual.action op) := by
  cases op
  case lda => exact fun r s value h => h.loadA value
  case ldx => exact fun r s value h => h.loadX value
  case ldy => exact fun r s value h => h.loadY value
  case adc => exact fun r s value h => h.adc value
  case sbc => exact fun r s value h => h.sbc value
  case and => exact fun r s value h => h.and value
  case ora => exact fun r s value h => h.ora value
  case eor => exact fun r s value h => h.eor value
  case bit => exact fun r s value h => h.bit value
  case nop => exact fun r s value h => h
  case asl => exact fun r s value h => h.asl value
  case lsr => exact fun r s value h => h.lsr value
  case rol => exact fun r s value h => h.rol value
  case ror => exact fun r s value h => h.ror value
  case plp => exact fun r s value h => h.pullStatus value
  case pla => exact fun r s value h => h.loadA value
  case php => exact fun r s h => h.toNat_statusPushed
  case jmp | jsr | rts | rti | brk => trivial
  case clc | sec => exact fun r s h => h.setFlag .carry _ (by decide)
  case cli | sei => exact fun r s h => h.setFlag .interruptDisable _ (by decide)
  case cld | sed => exact fun r s h => h.setFlag .decimal _ (by decide)
  case clv => exact fun r s h => h.setFlag .overflow _ (by decide)
  case inc =>
    intro r s value h
    have hvalue := Registers.toNat_increment value
    have hset := h.setZN (value + 1)
    rw [hvalue] at hset
    exact ⟨hvalue, hset⟩
  case dec =>
    intro r s value h
    have hvalue := Registers.toNat_decrement value
    have hset := h.setZN (value - 1)
    rw [hvalue] at hset
    exact ⟨hvalue, hset⟩
  case inx =>
    intro r s h
    obtain rfl := h.state
    have hload := h.loadX (r.x + 1)
    rw [Registers.toNat_increment] at hload
    exact hload
  case dex =>
    intro r s h
    obtain rfl := h.state
    have hload := h.loadX (r.x - 1)
    rw [Registers.toNat_decrement] at hload
    exact hload
  case iny =>
    intro r s h
    obtain rfl := h.state
    have hload := h.loadY (r.y + 1)
    rw [Registers.toNat_increment] at hload
    exact hload
  case dey =>
    intro r s h
    obtain rfl := h.state
    have hload := h.loadY (r.y - 1)
    rw [Registers.toNat_decrement] at hload
    exact hload
  case cmp | cpx | cpy =>
    intro r s value h
    obtain rfl := h.state
    exact h.compare _ value
  case sta | stx | sty | pha | bcc | bcs | bne | beq | bpl | bmi | bvc | bvs =>
    intro r s h
    obtain rfl := h.state
    rfl
  case tax | tsx =>
    intro r s h
    obtain rfl := h.state
    exact h.loadX _
  case tay =>
    intro r s h
    obtain rfl := h.state
    exact h.loadY r.a
  case txa | tya =>
    intro r s h
    obtain rfl := h.state
    exact h.loadA _
  case txs =>
    intro r s h
    obtain rfl := h.state
    exact ⟨rfl, h.unused, h.brk⟩

end NesMachine.Cpu
