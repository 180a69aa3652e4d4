import Mathlib.Algebra.Group.Nat.Defs
import NesMachine.Text.Blank
import NesMachine.Text.Integer
import NesMachine.Text.Radix

/-!
# Numbers in digits

A number is read back from any digits that spell it: as few as it needs, a fixed number of them, small
or capital letters.

* `Digits`: a text spells a number, said from its last digit.
* `digits_toDigits`, `digits_fixed`: numbers as they are written.
* `Digits.readNat`: a number within bounds is read back.
-/

namespace NesMachine.Integer

variable {base n bound : Nat} {text : List Char}

/-! ## Digits -/

/-- A text spells a number in digits of a base, leading zeros allowed. -/
inductive Digits (base : Nat) : Nat → List Char → Prop where
  | nil : Digits base 0 []
  | concat {n d : Nat} {text : List Char} {c : Char} (front : Digits base n text)
      (last : digitIn? base c = some d) : Digits base (n * base + d) (text ++ [c])

theorem digitIn?_digit {d : Nat} (hd : d < base) (hbase : base ≤ 16) :
    digitIn? base (Radix.digit d) = some d := by
  have hvalue : ∀ d : Fin 16, digitValue? (Radix.digit d) = some d.val := by decide
  have hlt : d < 16 := Nat.lt_of_lt_of_le hd hbase
  rw [digitIn?, show digitValue? (Radix.digit d) = some d from hvalue ⟨d, hlt⟩]
  exact Option.filter_some_pos (decide_eq_true hd)

theorem digitIn?_digitChar {d : Nat} (hd : d < base) (hbase : base ≤ 16) :
    digitIn? base d.digitChar = some d := by
  have hvalue : ∀ d : Fin 16, digitValue? (Nat.digitChar d) = some d.val := by decide
  have hlt : d < 16 := Nat.lt_of_lt_of_le hd hbase
  rw [digitIn?, show digitValue? d.digitChar = some d from hvalue ⟨d, hlt⟩]
  exact Option.filter_some_pos (decide_eq_true hd)

theorem digitIn?_lt {c : Char} {d : Nat} (h : digitIn? base c = some d) : d < base :=
  of_decide_eq_true (Option.filter_eq_some_iff.mp h).2

theorem Digits.singleton {c : Char} {d : Nat} (h : digitIn? base c = some d) :
    Digits base d [c] := by
  have hone := Digits.concat .nil h
  rwa [Nat.zero_mul, Nat.zero_add] at hone

/-- A number in as many digits as it needs. -/
theorem digits_toDigits (hbase : 1 < base) (hbase' : base ≤ 16) (n : Nat) :
    Digits base n (Nat.toDigits base n) := by
  induction n using Nat.strongRecOn with
  | ind n ih =>
    rw [Nat.toDigits_eq_if hbase]
    split
    · rename_i hn
      exact .singleton (digitIn?_digitChar hn hbase')
    · have hfront := ih (n / base) (Nat.div_lt_self (by omega) hbase)
      have hlast := hfront.concat (digitIn?_digitChar (Nat.mod_lt n (by omega)) hbase')
      rwa [Nat.div_add_mod'] at hlast

/-- The last digits of a number, in a fixed number. -/
theorem digits_fixed (hbase : 0 < base) (hbase' : base ≤ 16) (width n : Nat) :
    Digits base (n % base ^ width) (Radix.fixed base width n) := by
  induction width generalizing n with
  | zero =>
    rw [Nat.pow_zero, Nat.mod_one]
    exact .nil
  | succ width ih =>
    have hlast := (ih (n / base)).concat (digitIn?_digit (Nat.mod_lt n hbase) hbase')
    have hvalue : n / base % base ^ width * base + n % base = n % base ^ (width + 1) := by
      rw [Nat.pow_succ, Nat.mul_comm (base ^ width), Nat.mod_mul, Nat.mul_comm, Nat.add_comm]
    rwa [hvalue] at hlast

/-- Only zero begins with a zero. -/
theorem eq_zero_of_head?_toDigits (hbase : 1 < base) {n : Nat}
    (h : (Nat.toDigits base n).head? = some '0') : n = 0 := by
  induction n using Nat.strongRecOn with
  | ind n ih =>
    rw [Nat.toDigits_eq_if hbase] at h
    split at h <;> rename_i hn
    · exact Nat.digitChar_eq_zero.mp (Option.some.inj h)
    · have hfront : Nat.toDigits base (n / base) ≠ [] := Nat.toDigits_ne_nil
      obtain ⟨c, front, htext⟩ := List.exists_cons_of_ne_nil hfront
      rw [htext] at h
      have hzero := ih (n / base) (Nat.div_lt_self (by omega) hbase) (htext ▸ h)
      exact absurd ((Nat.div_eq_zero_iff_lt (by omega)).mp hzero) hn

theorem Digits.isDigit (h : Digits base n text) : ∀ c ∈ text, (digitIn? base c).isSome := by
  induction h with
  | nil => simp
  | concat front last ih =>
    intro c hc
    rcases List.mem_append.mp hc with hc | hc
    · exact ih c hc
    · rw [List.mem_singleton.mp hc, last]
      rfl

/-- A digit is no white space. -/
theorem not_isBlank_of_digit {c : Char} (h : (digitIn? base c).isSome) :
    Text.isBlank c = false := by
  obtain ⟨d, hd⟩ := Option.isSome_iff_exists.mp h
  have hvalue : (digitValue? c).isSome := by
    rw [(Option.filter_eq_some_iff.mp hd).1]
    rfl
  have hrange : '0'.toNat ≤ c.toNat ∧ c.toNat ≤ '9'.toNat ∨
      'a'.toNat ≤ c.toNat ∧ c.toNat ≤ 'z'.toNat ∨ 'A'.toNat ≤ c.toNat ∧ c.toNat ≤ 'Z'.toNat := by
    unfold digitValue? at hvalue
    split at hvalue
    · exact .inl ‹_›
    · split at hvalue
      · exact .inr (.inl ‹_›)
      · split at hvalue
        · exact .inr (.inr ‹_›)
        · cases hvalue
  simp only [Char.reduceToNat] at hrange
  simp only [Text.isBlank, Text.inRanges, Text.blankRanges, List.any_cons, List.any_nil,
    Bool.or_false, Bool.or_eq_false_iff, Bool.and_eq_false_iff, decide_eq_false_iff_not]
  omega

/-! ## Reading -/

theorem readDigits_append {m : Nat} {overflow : Error} {rest : List Char}
    (h : readDigits base bound overflow n text = .ok m) :
    readDigits base bound overflow n (text ++ rest) = readDigits base bound overflow m rest := by
  induction text generalizing n with
  | nil =>
    obtain rfl : n = m := by simpa [readDigits] using h
    rfl
  | cons c text ih =>
    simp only [readDigits, List.cons_append] at h ⊢
    split at h <;> rename_i hc
    · cases h
    · split at h <;> rename_i hle
      · rw [if_pos hle]
        exact ih h
      · cases h

theorem Digits.readDigits (h : Digits base n text) (hn : n ≤ bound) (overflow : Error) :
    readDigits base bound overflow 0 text = .ok n := by
  induction h with
  | nil => rfl
  | @concat n d text c front last ih =>
    have hbase : 0 < base := Nat.zero_lt_of_lt (digitIn?_lt last)
    have hfront : n ≤ bound :=
      Nat.le_trans (Nat.le_mul_of_pos_right n hbase) (Nat.le_trans (Nat.le_add_right ..) hn)
    rw [readDigits_append (ih hfront)]
    simp only [Integer.readDigits, last, if_pos hn]

/-- A text without a sign is digits alone. -/
theorem readNat_of_head (hne : text ≠ []) (hplus : '+' ∉ text) :
    readNat base bound text = readDigits base bound .tooLarge 0 text := by
  unfold readNat
  split <;> simp_all

theorem Digits.not_mem (h : Digits base n text) {c : Char} (hc : digitIn? base c = none) :
    c ∉ text := fun hmem => by
  have hsome := h.isDigit c hmem
  rw [hc] at hsome
  cases hsome

/-- A number within bounds is read back. -/
theorem Digits.readNat (h : Digits base n text) (hne : text ≠ []) (hn : n ≤ bound) :
    readNat base bound text = .ok n := by
  rw [readNat_of_head hne (h.not_mem rfl), h.readDigits hn]

theorem Digits.readUInt8 {b : UInt8} (h : Digits base b.toNat text) (hne : text ≠ []) :
    readUInt8 base text = .ok b := by
  rw [Integer.readUInt8, h.readNat hne (Nat.le_of_lt_succ b.toNat_lt)]
  exact congrArg Except.ok UInt8.ofNat_toNat

theorem Digits.readUInt16 {w : UInt16} (h : Digits base w.toNat text) (hne : text ≠ []) :
    readUInt16 base text = .ok w := by
  rw [Integer.readUInt16, h.readNat hne (Nat.le_of_lt_succ w.toNat_lt)]
  exact congrArg Except.ok UInt16.ofNat_toNat

theorem Digits.readUInt32 {w : UInt32} (h : Digits 10 w.toNat text) (hne : text ≠ []) :
    readUInt32 text = .ok w := by
  rw [Integer.readUInt32, h.readNat hne (Nat.le_of_lt_succ w.toNat_lt)]
  exact congrArg Except.ok UInt32.ofNat_toNat

theorem Digits.readUInt64 {w : UInt64} (h : Digits 10 w.toNat text) (hne : text ≠ []) :
    readUInt64 text = .ok w := by
  rw [Integer.readUInt64, h.readNat hne (Nat.le_of_lt_succ w.toNat_lt)]
  exact congrArg Except.ok UInt64.ofNat_toNat

/-! ## Decimal numbers -/

/-- A number in decimal. -/
theorem toList_toString (n : Nat) : (toString n).toList = Nat.toDigits 10 n := by
  rw [Nat.toString_eq_ofList_toDigits, String.toList_ofList]

theorem digits_toString (n : Nat) : Digits 10 n (toString n).toList :=
  toList_toString n ▸ digits_toDigits (by decide) (by decide) n

theorem toString_ne_nil (n : Nat) : (toString n).toList ≠ [] :=
  toList_toString n ▸ Nat.toDigits_ne_nil

/-- A number with a sign only if it is negative. -/
theorem toList_toString_int (i : Int) : (toString i).toList =
    if 0 ≤ i then Nat.toDigits 10 i.natAbs else '-' :: Nat.toDigits 10 i.natAbs := by
  rw [Int.toString_eq_repr, Int.repr_eq_if]
  split <;> rename_i hi
  · rw [Nat.repr_eq_ofList_toDigits, String.toList_ofList, show i.toNat = i.natAbs by omega]
  · rw [String.toList_append, Nat.repr_eq_ofList_toDigits, show (-i).toNat = i.natAbs by omega]
    exact congrArg _ String.toList_ofList

/-- A signed number has no character but digits and a minus sign. -/
theorem notMem_toString {c : Char} (hdigit : digitIn? 10 c = none) (hminus : c ≠ '-')
    (i : Int) : c ∉ (toString i).toList := by
  have hdigits : Digits 10 i.natAbs (Nat.toDigits 10 i.natAbs) :=
    digits_toDigits (by decide) (by decide) i.natAbs
  rw [toList_toString_int]
  split
  · exact hdigits.not_mem hdigit
  · simpa [hminus] using hdigits.not_mem hdigit

theorem toString_int_ne_nil (i : Int) : (toString i).toList ≠ [] := by
  rw [toList_toString_int]
  split
  · exact Nat.toDigits_ne_nil
  · exact List.cons_ne_nil _ _

/-- A signed word is read back. -/
theorem readInt16_toString (w : Int16) : readInt16 (toString w.toInt).toList = .ok w := by
  have hlow := w.le_toInt
  have hhigh := w.toInt_lt
  have hdigits : Digits 10 w.toInt.natAbs (Nat.toDigits 10 w.toInt.natAbs) :=
    digits_toDigits (by decide) (by decide) w.toInt.natAbs
  have hne : Nat.toDigits 10 w.toInt.natAbs ≠ [] := Nat.toDigits_ne_nil
  have hvalue : readInt 10 0x8000 0x7FFF (toString w.toInt).toList = .ok w.toInt := by
    rw [toList_toString_int]
    split <;> rename_i hsign
    · have hminus := hdigits.not_mem (c := '-') rfl
      have hread := hdigits.readNat hne (show w.toInt.natAbs ≤ 0x7FFF by omega)
      unfold readInt
      split
      · rename_i heq
        exact absurd (heq ▸ List.mem_cons_self) hminus
      · rename_i heq
        exact absurd (heq ▸ List.mem_cons_self) hminus
      · rw [hread]
        exact congrArg Except.ok (Int.natAbs_of_nonneg hsign)
    · have hread := hdigits.readDigits (show w.toInt.natAbs ≤ 0x8000 by omega) .tooSmall
      unfold readInt
      split
      · rename_i heq
        exact absurd (List.cons.inj heq).2 hne
      · rename_i heq
        rw [← (List.cons.inj heq).2, hread]
        exact congrArg Except.ok (show -(w.toInt.natAbs : Int) = w.toInt by omega)
      · rename_i hother
        exact absurd rfl (hother _)
  rw [readInt16, hvalue]
  exact congrArg Except.ok (Int16.ofInt_toInt w)

end NesMachine.Integer
