import NesMachine.Proofs.Text.Number
import NesMachine.Xml.Reference

/-!
# Values of attributes are read back

Within quotes a character stands for itself or is given by a reference: markup and the quote always are.

* `Reference`: the names that stand for a character.
* `Escaped`: the texts in which a value can be written.
* `Escaped.resolve?`: a value is read back from each of them.
-/

namespace NesMachine.Xml

/-! ## References -/

/-- What stands between `&` and `;` for a character: a name of its own, or its number. -/
inductive Reference : Char → List Char → Prop where
  | lt : Reference '<' ['l', 't']
  | gt : Reference '>' ['g', 't']
  | amp : Reference '&' ['a', 'm', 'p']
  | apos : Reference '\x27' ['a', 'p', 'o', 's']
  | quot : Reference '"' ['q', 'u', 'o', 't']
  | decimal {c : Char} {digits : List Char} (hdigits : Integer.Digits 10 c.toNat digits)
      (hne : digits ≠ []) (hc : c ≠ '\x00') : Reference c ('#' :: digits)
  | hexadecimal {c : Char} {digits : List Char} (hdigits : Integer.Digits 16 c.toNat digits)
      (hne : digits ≠ []) (hc : c ≠ '\x00') : Reference c ('#' :: 'x' :: digits)

theorem numbered?_digits {base : Nat} {c : Char} {digits : List Char}
    (hdigits : Integer.Digits base c.toNat digits) (hne : digits ≠ []) (hc : c ≠ '\x00')
    (hplus : Integer.digitIn? base '+' = none) : numbered? base digits = some c := by
  have hhead : digits.head? ≠ some '+' := fun h =>
    hdigits.not_mem hplus (List.mem_of_mem_head? h)
  have hvalid : c.toNat.isValidChar := c.valid
  have hbound : c.toNat ≤ 0x10FFFF := by
    rcases hvalid with h | h <;> omega
  have hzero : c.toNat ≠ 0 := fun h => hc (Char.toNat_inj.mp h)
  rw [numbered?, if_neg hhead, hdigits.readNat hne hbound]
  simp only [hzero, hvalid, ne_eq, not_false_eq_true, and_self, if_true, Char.ofNat_toNat]

/-- A reference stands for its character. -/
theorem Reference.referent? {c : Char} {name : List Char} (h : Reference c name) :
    referent? name = some c := by
  cases h with
  | lt | gt | amp | apos | quot => rfl
  | decimal hdigits hne hc =>
    rename_i digits
    have hread := numbered?_digits hdigits hne hc rfl
    have hx : ∀ rest, digits ≠ 'x' :: rest := fun rest h =>
      hdigits.not_mem (c := 'x') rfl (h ▸ List.mem_cons_self)
    unfold Xml.referent?
    split <;> simp_all
  | hexadecimal hdigits hne hc => exact numbered?_digits hdigits hne hc rfl

/-- A reference has neither quotes nor the marks at its ends. -/
theorem Reference.notMem {c d : Char} {name : List Char} (h : Reference c name)
    (hd : d ∈ ['&', ';', '"', '\x27']) : d ∉ name := by
  simp only [List.mem_cons, List.not_mem_nil, or_false] at hd
  have hnone : Integer.digitIn? 10 d = none ∧ Integer.digitIn? 16 d = none ∧ d ≠ '#' ∧ d ≠ 'x' := by
    rcases hd with rfl | rfl | rfl | rfl <;> decide
  cases h with
  | lt | gt | amp | apos | quot => rcases hd with rfl | rfl | rfl | rfl <;> decide
  | decimal hdigits => simp [hnone, hdigits.not_mem hnone.1]
  | hexadecimal hdigits => simp [hnone, hdigits.not_mem hnone.2.1]

/-! ## Values -/

/-- A value as it is written between quotes. -/
inductive Escaped (quote : Char) : List Char → List Char → Prop where
  | nil : Escaped quote [] []
  | plain {c : Char} {value text : List Char} (hlt : c ≠ '<') (hamp : c ≠ '&') (hquote : c ≠ quote)
      (rest : Escaped quote value text) : Escaped quote (c :: value) (c :: text)
  | reference {c : Char} {name value text : List Char} (href : Reference c name)
      (rest : Escaped quote value text) : Escaped quote (c :: value) ('&' :: (name ++ ';' :: text))

theorem resolveFrom_name {name : List Char} (hamp : '&' ∉ name) (hend : ';' ∉ name)
    (begun rest : List Char) : resolveFrom (some begun) (name ++ ';' :: rest) =
      (referent? (begun.reverse ++ name)).bind fun c => (resolveFrom none rest).map (c :: ·) := by
  induction name generalizing begun with
  | nil =>
    rw [List.nil_append, List.append_nil, resolveFrom]
    cases referent? begun.reverse with
    | none => rfl
    | some c => cases resolveFrom none rest <;> rfl
  | cons c name ih =>
    simp only [List.mem_cons, not_or] at hamp hend
    rw [List.cons_append, resolveFrom]
    simp only [Ne.symm hamp.1, Ne.symm hend.1, if_false]
    rw [ih hamp.2 hend.2, List.reverse_cons, List.append_assoc]
    rfl

variable {quote : Char} {value text : List Char}

/-- A value is read back from its text. -/
theorem Escaped.resolve? (h : Escaped quote value text) : resolve? text = some value := by
  rw [Xml.resolve?]
  induction h with
  | nil => rfl
  | plain _ hamp _ _ ih => rw [resolveFrom, if_neg hamp, ih]; rfl
  | reference href _ ih =>
    rw [resolveFrom, if_pos rfl, resolveFrom_name (href.notMem (by decide)) (href.notMem (by decide)),
      List.reverse_nil, List.nil_append, href.referent?, ih]
    rfl

/-- The quote does not stand in between. -/
theorem Escaped.quote_notMem (h : Escaped quote value text) (hquote : quote = '"' ∨ quote = '\x27') :
    quote ∉ text := by
  induction h with
  | nil => exact List.not_mem_nil
  | plain _ _ hne _ ih => exact List.not_mem_cons_of_ne_of_not_mem (Ne.symm hne) ih
  | reference href _ ih =>
    have hname := href.notMem (show quote ∈ ['&', ';', '"', '\x27'] by
      rcases hquote with rfl | rfl <;> decide)
    rcases hquote with rfl | rfl <;> simp [hname, ih]

/-- A value without markup is written as it is. -/
theorem escaped_self (hlt : '<' ∉ value) (hamp : '&' ∉ value) (hquote : quote ∉ value) :
    Escaped quote value value := by
  induction value with
  | nil => exact .nil
  | cons c value ih =>
    simp only [List.mem_cons, not_or] at hlt hamp hquote
    exact .plain (Ne.symm hlt.1) (Ne.symm hamp.1) (Ne.symm hquote.1) (ih hlt.2 hamp.2 hquote.2)

/-- Every value can be written between double quotes. -/
theorem exists_escaped (value : List Char) : ∃ text, Escaped '"' value text := by
  induction value with
  | nil => exact ⟨[], .nil⟩
  | cons c value ih =>
    obtain ⟨text, htext⟩ := ih
    by_cases hspecial : c = '<' ∨ c = '&' ∨ c = '"'
    · rcases hspecial with rfl | rfl | rfl
      · exact ⟨_, .reference .lt htext⟩
      · exact ⟨_, .reference .amp htext⟩
      · exact ⟨_, .reference .quot htext⟩
    · simp only [not_or] at hspecial
      exact ⟨_, .plain hspecial.1 hspecial.2.1 hspecial.2.2 htext⟩

end NesMachine.Xml
