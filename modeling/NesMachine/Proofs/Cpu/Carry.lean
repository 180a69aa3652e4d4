import Mathlib.Data.Nat.Digits.Lemmas
import NesMachine.Proofs.Cpu.Arithmetic

/-!
# Arithmetic on numbers of several bytes

A program adds and subtracts long numbers byte by byte, the lowest first: it loads a byte of the first
number, combines it with the byte of the second, and leaves the carry to the next pair. The carry behind
the last pair is that of the whole numbers, and so is the overflow, which is of no use before.

* `adc_carry`, `adc_overflow`, `toNat_adc`: one byte, whatever the status register holds.
* `Leaves`: what a chain of bytes leaves, its carry and its overflow.
* `chain_adc`: addition, by induction on the bytes; `chain_sbc`: subtraction adds the complement.
* `long_arithmetic_exact`: both, and the decimal flag has no part in either.
-/

namespace NesMachine.Cpu.Registers

open Manual (signed)

variable {r r' : Registers} {value : UInt8}

/-! ## One byte -/

theorem flag_loadA (r : Registers) (value : UInt8) {f : Flag} (hzero : f ≠ .zero)
    (hnegative : f ≠ .negative) (hunused : f ≠ .unused) : (r.loadA value).flag f = r.flag f := by
  unfold loadA setZN
  rw [flag_setFlag, if_neg hunused, if_neg hnegative, flag_setFlag, if_neg hunused, if_neg hzero]
  rfl

theorem adc_carry (r : Registers) (value : UInt8) : (r.adc value).flag .carry =
    decide (256 ≤ r.a.toNat + value.toNat + (r.flag .carry).toNat) := by
  unfold adc
  simp only
  rw [flag_loadA _ _ (by decide) (by decide) (by decide), flag_setFlag, flag_setFlag]
  rfl

theorem toNat_adc (r : Registers) (value : UInt8) : (r.adc value).a.toNat =
    (r.a.toNat + value.toNat + (r.flag .carry).toNat) % 256 :=
  UInt8.toNat_ofNat'

theorem adc_overflow (r : Registers) (value : UInt8) : (r.adc value).flag .overflow = true ↔
    signed r.a.toNat + signed value.toNat + (r.flag .carry).toNat < -128 ∨
      127 < signed r.a.toNat + signed value.toNat + (r.flag .carry).toNat := by
  rw [← signed_sum_iff r.a.toNat_lt value.toNat_lt (r.flag .carry).toNat_le]
  unfold adc
  simp only
  rw [flag_loadA _ _ (by decide) (by decide) (by decide), flag_setFlag, if_neg (by decide),
    if_pos rfl, decide_eq_true_iff, overflow_iff, UInt8.toNat_ofNat']

/-! ## Long numbers -/

/-- The number that some bytes are, the lowest byte first. -/
def number (bytes : List UInt8) : Nat := Nat.ofDigits 256 (bytes.map UInt8.toNat)

/-- The number that they are in two's complement. -/
def signedNumber (bytes : List UInt8) : Int :=
  if 2 * number bytes < 256 ^ bytes.length then number bytes
  else number bytes - 256 ^ bytes.length

/-- A number is none of those that `n` bytes can be in two's complement. -/
def Exceeds (n : Nat) (total : Int) : Prop := 2 * total < -256 ^ n ∨ 256 ^ n ≤ 2 * total

instance (n : Nat) (total : Int) : Decidable (Exceeds n total) :=
  inferInstanceAs (Decidable (_ ∨ _))

/-- Long arithmetic: an operation on the bytes of two numbers, pair by pair, with the bytes that the
accumulator holds behind each. -/
def chain (apply : Registers → UInt8 → Registers) :
    List (UInt8 × UInt8) → Registers → List UInt8 × Registers
  | [], r => ([], r)
  | (a, b) :: pairs, r =>
    let r := apply (r.loadA a) b
    let (bytes, last) := chain apply pairs r
    (r.a :: bytes, last)

theorem number_cons (byte : UInt8) (bytes : List UInt8) :
    number (byte :: bytes) = byte.toNat + 256 * number bytes :=
  Nat.ofDigits_cons ..

/-- As many bytes that are the same number are the same bytes. -/
theorem number_inj {bytes bytes' : List UInt8} (hlength : bytes.length = bytes'.length)
    (h : number bytes = number bytes') : bytes = bytes' := by
  have hdigit : ∀ bytes : List UInt8, ∀ d ∈ bytes.map UInt8.toNat, d < 256 := by
    intro bytes d hd
    obtain ⟨byte, -, rfl⟩ := List.mem_map.mp hd
    exact byte.toNat_lt
  have hdigits := Nat.ofDigits_inj_of_len_eq (by decide) (by simpa using hlength) (hdigit bytes)
    (hdigit bytes') h
  exact List.map_injective_iff.mpr (fun _ _ => UInt8.toNat_inj.mp) hdigits

/-- The sign is in the highest byte. -/
theorem signedNumber_cons (byte : UInt8) {bytes : List UInt8} (h : bytes ≠ []) :
    signedNumber (byte :: bytes) = byte.toNat + 256 * signedNumber bytes := by
  have hlt := byte.toNat_lt
  obtain ⟨n, hn⟩ := Nat.exists_eq_succ_of_ne_zero (mt List.length_eq_zero_iff.mp h)
  have heven : (256 : Nat) ^ bytes.length = 2 * (128 * 256 ^ n) := by
    rw [hn, Nat.pow_succ]
    omega
  unfold signedNumber
  rw [number_cons, List.length_cons, pow_succ, pow_succ]
  split_ifs <;> push_cast <;> omega

theorem number_singleton (byte : UInt8) : number [byte] = byte.toNat := Nat.ofDigits_singleton ..

theorem signedNumber_singleton (byte : UInt8) : signedNumber [byte] = signed byte.toNat := by
  unfold signedNumber signed
  rw [number_singleton, List.length_singleton]
  split_ifs <;> omega

/-- What long arithmetic on `n` bytes leaves: the bytes of a value, a carry, and the overflow of a
signed total. -/
structure Leaves (n : Nat) (value : Int) (carry : Prop) (total : Int)
    (out : List UInt8 × Registers) : Prop where
  length : out.1.length = n
  bytes : (number out.1 : Int) = value % 256 ^ n
  carry : out.2.flag .carry = true ↔ carry
  overflow : out.2.flag .overflow = true ↔ Exceeds n total

/-! ## Addition -/

/-- A pair of bytes in front: the rest starts with the carry of their sum. -/
theorem Leaves.cons {s n value : Nat} {low : UInt8} {carried : Bool} {total : Int}
    {out : List UInt8 × Registers} (hn : n ≠ 0) (hs : s = low.toNat + 256 * carried.toNat)
    (h : Leaves n (value + carried.toNat : Nat) (256 ^ n ≤ value + carried.toNat)
      (total + carried.toNat) out) :
    Leaves (n + 1) (s + 256 * value : Nat) (256 ^ (n + 1) ≤ s + 256 * value) (s + 256 * total)
      (low :: out.1, out.2) := by
  have hlt := low.toNat_lt
  obtain ⟨hlength, hbytes, hcarry, hoverflow⟩ := h
  refine ⟨by rw [List.length_cons, hlength], ?_, hcarry.trans ?_, hoverflow.trans ?_⟩
  · have hrest : number out.1 = (value + carried.toNat) % 256 ^ n := by exact_mod_cast hbytes
    have hfirst : (s + 256 * value) % 256 = low.toNat := by omega
    have hlater : (s + 256 * value) / 256 = value + carried.toNat := by omega
    have hmod : (s + 256 * value) % 256 ^ (n + 1) =
        low.toNat + 256 * ((value + carried.toNat) % 256 ^ n) := by
      rw [Nat.pow_succ, Nat.mul_comm (256 ^ n), Nat.mod_mul, hfirst, hlater]
    rw [number_cons, hrest, ← hmod]
    push_cast
    rfl
  · rw [pow_succ]
    omega
  · obtain ⟨k, rfl⟩ := Nat.exists_eq_succ_of_ne_zero hn
    unfold Exceeds
    rw [pow_succ (256 : Int) (k + 1), pow_succ]
    generalize (256 : Int) ^ k = modulus
    omega

/-- One pair of bytes. -/
theorem adc_leaves (r : Registers) (x y : UInt8) :
    let c := (r.flag .carry).toNat
    Leaves 1 (x.toNat + y.toNat + c : Nat) (256 ≤ x.toNat + y.toNat + c)
      (signed x.toNat + signed y.toNat + c) ([((r.loadA x).adc y).a], (r.loadA x).adc y) := by
  intro c
  have hkept : (r.loadA x).flag .carry = r.flag .carry :=
    flag_loadA r x (by decide) (by decide) (by decide)
  have hcarry := adc_carry (r.loadA x) y
  have hoverflow := adc_overflow (r.loadA x) y
  have hlow := toNat_adc (r.loadA x) y
  rw [hkept] at hcarry hoverflow hlow
  refine ⟨rfl, ?_, ?_, hoverflow.trans ?_⟩
  · rw [number_singleton, hlow]
    push_cast
    rfl
  · rw [hcarry, decide_eq_true_iff]
    rfl
  · unfold Exceeds
    show signed x.toNat + signed y.toNat + c < -128 ∨ 127 < signed x.toNat + signed y.toNat + c ↔ _
    omega

/-- **A long addition adds the numbers.** -/
theorem chain_adc {a b : List UInt8} (r : Registers) (hlength : a.length = b.length)
    (hne : a ≠ []) :
    let sum := number a + number b + (r.flag .carry).toNat
    Leaves a.length sum (256 ^ a.length ≤ sum)
      (signedNumber a + signedNumber b + (r.flag .carry).toNat) (chain adc (a.zip b) r) := by
  induction a generalizing b r with
  | nil => exact absurd rfl hne
  | cons x a ih =>
    obtain ⟨y, b, rfl⟩ := List.exists_cons_of_length_eq_add_one hlength.symm
    have hlength' : a.length = b.length := Nat.succ.inj hlength
    have hfirst := adc_leaves r x y
    intro sum
    generalize hnext : (r.loadA x).adc y = next at hfirst
    have hchain : chain adc ((x :: a).zip (y :: b)) r =
        (next.a :: (chain adc (a.zip b) next).1, (chain adc (a.zip b) next).2) := by
      rw [← hnext]
      rfl
    rw [hchain]
    rcases eq_or_ne a [] with rfl | hrest
    · obtain rfl := List.length_eq_zero_iff.mp hlength'.symm
      simp only [sum, number_singleton, signedNumber_singleton]
      exact hfirst
    · have hrest' : b ≠ [] := by
        rintro rfl
        exact hrest (List.length_eq_zero_iff.mp hlength')
      have hn : a.length ≠ 0 := mt List.length_eq_zero_iff.mp hrest
      -- The sum of the first pair is its byte and its carry.
      have hsum : x.toNat + y.toNat + (r.flag .carry).toNat =
          next.a.toNat + 256 * (next.flag .carry).toNat := by
        have hx := x.toNat_lt
        have hy := y.toNat_lt
        have hc := (r.flag .carry).toNat_le
        have hbyte := hfirst.bytes
        have hcarry := hfirst.carry
        rw [number_singleton] at hbyte
        cases hover : next.flag .carry <;> simp only [hover] at hcarry ⊢ <;> grind
      have hvalue : sum = x.toNat + y.toNat + (r.flag .carry).toNat +
          256 * (number a + number b) := by
        simp only [sum, number_cons]
        omega
      have htotal : signedNumber (x :: a) + signedNumber (y :: b) + (r.flag .carry).toNat =
          (x.toNat + y.toNat + (r.flag .carry).toNat : Nat) +
            256 * (signedNumber a + signedNumber b) := by
        rw [signedNumber_cons x hrest, signedNumber_cons y hrest']
        omega
      rw [hvalue, htotal]
      exact (ih next hlength' hrest).cons hn hsum

/-! ## Subtraction -/

/-- The complement of a number, byte by byte. -/
def complement (bytes : List UInt8) : List UInt8 := bytes.map (~~~·)

theorem number_complement (bytes : List UInt8) :
    number (complement bytes) + number bytes + 1 = 256 ^ bytes.length := by
  induction bytes with
  | nil => rfl
  | cons byte bytes ih =>
    have hlt := byte.toNat_lt
    have hnot : (~~~byte).toNat = 255 - byte.toNat := UInt8.toNat_not ..
    unfold complement at ih ⊢
    rw [List.map_cons, number_cons, number_cons, List.length_cons, Nat.pow_succ, hnot]
    omega

theorem signedNumber_complement {bytes : List UInt8} (h : bytes ≠ []) :
    signedNumber (complement bytes) = -1 - signedNumber bytes := by
  have hsum := number_complement bytes
  have hlength : (complement bytes).length = bytes.length := List.length_map ..
  obtain ⟨n, hn⟩ := Nat.exists_eq_succ_of_ne_zero (mt List.length_eq_zero_iff.mp h)
  have heven : 256 ^ bytes.length = 2 * (128 * 256 ^ n) := by
    rw [hn, Nat.pow_succ]
    omega
  have hmodulus : (256 : Int) ^ bytes.length = (256 ^ bytes.length : Nat) := by push_cast; rfl
  unfold signedNumber
  rw [hlength, hmodulus]
  generalize 256 ^ bytes.length = modulus at *
  split_ifs <;> omega

/-- Subtraction is the addition of complements. -/
theorem chain_sbc_eq (a b : List UInt8) (r : Registers) :
    chain sbc (a.zip b) r = chain adc (a.zip (complement b)) r := by
  induction a generalizing b r with
  | nil => rfl
  | cons x a ih =>
    cases b with
    | nil => rfl
    | cons y b =>
      show (_ :: (chain sbc (a.zip b) _).1, (chain sbc (a.zip b) _).2) = _
      rw [ih]
      rfl

/-- **A long subtraction subtracts them.** -/
theorem chain_sbc {a b : List UInt8} (r : Registers) (hlength : a.length = b.length)
    (hne : a ≠ []) :
    let difference : Int := number a - number b - (1 - (r.flag .carry).toNat)
    Leaves a.length difference (0 ≤ difference)
      (signedNumber a - signedNumber b - (1 - (r.flag .carry).toNat)) (chain sbc (a.zip b) r) := by
  intro difference
  have hb : b ≠ [] := by
    rintro rfl
    exact hne (List.length_eq_zero_iff.mp hlength)
  obtain ⟨hlong, hbytes, hcarry, hoverflow⟩ :=
    chain_adc r (hlength.trans (List.length_map ..).symm : a.length = (complement b).length) hne
  rw [← chain_sbc_eq] at hlong hbytes hcarry hoverflow
  have hcomplement := number_complement b
  rw [← hlength] at hcomplement
  have hsum : (number a + number (complement b) + (r.flag .carry).toNat : Nat) =
      difference + 256 ^ a.length := by
    have hmodulus : (256 : Int) ^ a.length = (256 ^ a.length : Nat) := by push_cast; rfl
    rw [hmodulus]
    omega
  refine ⟨hlong, ?_, hcarry.trans ?_, ?_⟩
  · rw [hbytes, hsum, Int.add_emod_right]
  · omega
  · rw [hoverflow, signedNumber_complement hb]
    refine iff_of_eq (congrArg (Exceeds a.length) ?_)
    omega

/-! ## Both -/

/-- What is left behind decides the bytes and both flags. -/
theorem Leaves.unique {n : Nat} {value total : Int} {carry : Prop}
    {out out' : List UInt8 × Registers} (h : Leaves n value carry total out)
    (h' : Leaves n value carry total out') : out.1 = out'.1 ∧
      out.2.flag .carry = out'.2.flag .carry ∧ out.2.flag .overflow = out'.2.flag .overflow := by
  refine ⟨number_inj (h.length.trans h'.length.symm) ?_, ?_, ?_⟩
  · exact_mod_cast h.bytes.trans h'.bytes.symm
  · exact Bool.eq_iff_iff.mpr (h.carry.trans h'.carry.symm)
  · exact Bool.eq_iff_iff.mpr (h.overflow.trans h'.overflow.symm)

/-- **Long arithmetic is exact.** The bytes that the accumulator holds in turn are those of the sum or
the difference of the numbers, the carry is theirs, and the overflow that of the signed numbers; the
decimal flag changes nothing of it. -/
theorem long_arithmetic_exact (a b : List UInt8) (r : Registers) (hlength : a.length = b.length)
    (hne : a ≠ []) :
    let n := a.length
    let c : Int := (r.flag .carry).toNat
    let sum : Int := number a + number b + c
    let difference : Int := number a - number b - (1 - c)
    Leaves n sum (256 ^ n ≤ sum) (signedNumber a + signedNumber b + c) (chain adc (a.zip b) r) ∧
      Leaves n difference (0 ≤ difference) (signedNumber a - signedNumber b - (1 - c))
        (chain sbc (a.zip b) r) ∧
      ∀ apply ∈ [adc, sbc], ∀ on,
        let out := chain apply (a.zip b) r
        let out' := chain apply (a.zip b) (r.setFlag .decimal on)
        out'.1 = out.1 ∧ out'.2.flag .carry = out.2.flag .carry ∧
          out'.2.flag .overflow = out.2.flag .overflow := by
  intro n c sum difference
  have hdecimal : ∀ on, (r.setFlag .decimal on).flag .carry = r.flag .carry := fun on => by
    rw [flag_setFlag]
    rfl
  refine ⟨?_, chain_sbc r hlength hne, ?_⟩
  · obtain ⟨hlong, hbytes, hcarry, hoverflow⟩ := chain_adc r hlength hne
    refine ⟨hlong, ?_, hcarry.trans ?_, hoverflow⟩
    · rw [hbytes]
      push_cast
      rfl
    · simp only [sum, n, c]
      exact_mod_cast Iff.rfl
  · intro apply happly on
    have hcases : apply = adc ∨ apply = sbc := by simpa using happly
    rcases hcases with rfl | rfl
    · have hadc := chain_adc (r.setFlag .decimal on) hlength hne
      rw [hdecimal] at hadc
      exact hadc.unique (chain_adc r hlength hne)
    · have hsbc := chain_sbc (r.setFlag .decimal on) hlength hne
      rw [hdecimal] at hsbc
      exact hsbc.unique (chain_sbc r hlength hne)

/-- Words: `$7FFF + $0001` is `$8000`, which is no positive number, and `$7FFF - $0001` with a borrow is
`$7FFD`. -/
theorem long_arithmetic_exact_words :
    let sum := chain adc ([0xFF, 0x7F].zip [0x01, 0x00]) {}
    let difference := chain sbc ([0xFF, 0x7F].zip [0x01, 0x00]) {}
    number sum.1 = 0x8000 ∧ sum.2.flag .carry = false ∧ sum.2.flag .overflow = true ∧
      number difference.1 = 0x7FFD ∧ difference.2.flag .carry = true ∧
      difference.2.flag .overflow = false := by
  intro sum difference
  obtain ⟨hsum, hdifference, -⟩ := long_arithmetic_exact [0xFF, 0x7F] [0x01, 0x00] {} rfl (by decide)
  refine ⟨?_, ?_, hsum.overflow.mpr (by decide), ?_, hdifference.carry.mpr (by decide), ?_⟩
  · exact Int.ofNat_inj.mp (hsum.bytes.trans (by decide))
  · exact Bool.eq_false_iff.mpr (mt hsum.carry.mp (by decide))
  · exact Int.ofNat_inj.mp (hdifference.bytes.trans (by decide))
  · exact Bool.eq_false_iff.mpr (mt hdifference.overflow.mp (by decide))

end NesMachine.Cpu.Registers
