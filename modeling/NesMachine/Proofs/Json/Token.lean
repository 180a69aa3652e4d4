import NesMachine.Json.Value
import NesMachine.Proofs.Text.Search

/-!
# JSON tokens are read back

Every token has a text, and the text is read back as the token. Only a number needs to see where it ends:
what follows must not go on with it.

* `stringPieces_flatMap`: a string in quotes has its characters, escaped or not.
* `token?_text`: the text of a token, followed by any text that does not go on with it.
* `Spells.tokens`: texts of tokens one after the other, white space between them.
-/

namespace NesMachine.Json

/-! ## Strings -/

/-- A code unit below the halves of pairs is a character. -/
theorem joinPieces_unit {n : Nat} (h : n < 0xD800) (pieces : List Piece) :
    joinPieces (.unit n :: pieces) = (joinPieces pieces).map (Char.ofNat n :: ·) := by
  have hhigh : isHighHalf n = false := by
    rw [isHighHalf, Bool.and_eq_false_iff]
    exact .inl (decide_eq_false (by omega))
  have hlow : isLowHalf n = false := by
    rw [isLowHalf, Bool.and_eq_false_iff]
    exact .inl (decide_eq_false (by omega))
  cases pieces with
  | nil => simp [joinPieces, hhigh, hlow]
  | cons piece pieces => cases piece <;> simp [joinPieces, hhigh, hlow]

/-- A control character is escaped by its number. -/
theorem codeUnit?_control {n : Nat} (h : n < 0x20) : ∃ a b c d,
    (Radix.fixed 16 4 n).map Char.toLower = [a, b, c, d] ∧ codeUnit? a b c d = some n := by
  have hall : ∀ n : Fin 0x20, ∃ a b c d,
      (Radix.fixed 16 4 n).map Char.toLower = [a, b, c, d] ∧ codeUnit? a b c d = some n.val := by
    intro n
    exact ⟨_, _, _, _, rfl, by revert n; decide⟩
  exact hall ⟨n, h⟩

/-- How a character is written within quotes: behind a backslash, by its number, or as it is. -/
theorem escape_cases (c : Char) :
    (∃ e, escape c = ['\\', e] ∧ shortEscape? e = some c) ∨
      c.toNat < 0x20 ∧
        escape c = '\\' :: 'u' :: (Radix.fixed 16 4 c.toNat).map Char.toLower ∨
      ¬ c.toNat < 0x20 ∧ c ≠ '"' ∧ c ≠ '\\' ∧ escape c = [c] := by
  unfold escape
  split
  case h_8 hquote hslash _ _ _ _ _ =>
    split <;> rename_i hcontrol
    · exact .inr (.inl ⟨hcontrol, rfl⟩)
    · exact .inr (.inr ⟨hcontrol, hquote, hslash, rfl⟩)
  all_goals exact .inl ⟨_, rfl, by rfl⟩

theorem stringPieces_short {e c : Char} (h : shortEscape? e = some c) (text : List Char) :
    stringPieces ('\\' :: e :: text) =
      (stringPieces text).map fun out => (.char c :: out.1, out.2) := by
  rw [stringPieces]
  · rw [h]
    cases stringPieces text <;> rfl
  · rintro _ _ _ _ _ rfl
    cases h

theorem stringPieces_plain {c : Char} (hcontrol : ¬ c.toNat < 0x20) (hquote : c ≠ '"')
    (hslash : c ≠ '\\') (text : List Char) : stringPieces (c :: text) =
      (stringPieces text).map fun out => (.char c :: out.1, out.2) := by
  rw [stringPieces]
  · simp only [hcontrol, hslash, decide_false, Bool.or_self, Bool.false_eq_true, if_false]
    cases stringPieces text <;> rfl
  all_goals simp_all

/-- A character within quotes is one piece. -/
theorem stringPieces_escape (c : Char) : ∃ piece,
    (∀ pieces, joinPieces (piece :: pieces) = (joinPieces pieces).map (c :: ·)) ∧
      ∀ text, stringPieces (escape c ++ text) =
        (stringPieces text).map fun out => (piece :: out.1, out.2) := by
  rcases escape_cases c with ⟨e, hescape, hshort⟩ | ⟨hcontrol, hescape⟩ |
    ⟨hcontrol, hquote, hslash, hescape⟩
  · exact ⟨.char c, fun _ => by rw [joinPieces], hescape ▸ stringPieces_short hshort⟩
  · obtain ⟨h₃, h₂, h₁, h₀, hdigits, hunit⟩ := codeUnit?_control hcontrol
    refine ⟨.unit c.toNat, fun pieces => ?_, fun text => ?_⟩
    · rw [joinPieces_unit (by omega), Char.ofNat_toNat]
    · rw [hescape, hdigits]
      simp only [List.cons_append, List.nil_append, stringPieces, hunit]
      cases stringPieces text <;> rfl
  · exact ⟨.char c, fun _ => by rw [joinPieces],
      hescape ▸ stringPieces_plain hcontrol hquote hslash⟩

/-- The characters of a string are read up to its quote. -/
theorem stringPieces_flatMap (content rest : List Char) : ∃ pieces,
    stringPieces (content.flatMap escape ++ '"' :: rest) = some (pieces, rest) ∧
      joinPieces pieces = some content := by
  induction content with
  | nil => exact ⟨[], by simp [stringPieces], rfl⟩
  | cons c content ih =>
    obtain ⟨pieces, hpieces, hjoin⟩ := ih
    obtain ⟨piece, hfirst, hpiece⟩ := stringPieces_escape c
    refine ⟨piece :: pieces, ?_, ?_⟩
    · rw [List.flatMap_cons, List.append_assoc, hpiece, hpieces]
      rfl
    · rw [hfirst, hjoin]
      rfl

/-! ## Numbers -/

/-- The text of a number. A fraction stands for whatever follows its digits. -/
def Number.text (n : Number) : List Char :=
  (if n.negative then ['-'] else []) ++ (n.whole ++ if n.plain then [] else ['.', '0'])

/-- A number has digits, and a zero in front only if it is alone. -/
structure Number.Sound (n : Number) : Prop where
  digits : ∀ c ∈ n.whole, c.isDigit = true
  nonempty : n.whole ≠ []
  zero : n.whole.head? = some '0' → n.whole.length = 1

/-- A text does not go on with a number. -/
def Delimited (rest : List Char) : Prop :=
  ∀ c ∈ rest.head?, c.isDigit = false ∧ c ≠ '.' ∧ c ≠ 'e' ∧ c ≠ 'E'

theorem digits_append {front rest : List Char} (hfront : ∀ c ∈ front, c.isDigit = true)
    (hrest : ∀ c ∈ rest.head?, c.isDigit = false) : digits (front ++ rest) = (front, rest) := by
  obtain ⟨htake, hdrop⟩ := Text.span_append hfront hrest
  rw [digits, htake, hdrop]

theorem skipFraction_of_delimited {rest : List Char} (h : Delimited rest) :
    skipFraction rest = some (false, rest) := by
  unfold skipFraction
  split
  · exact absurd rfl (h '.' rfl).2.1
  · rfl

theorem skipExponent_of_delimited {rest : List Char} (h : Delimited rest) :
    skipExponent rest = some (false, rest) := by
  cases rest with
  | nil => rfl
  | cons c rest =>
    obtain ⟨-, -, he, hE⟩ := h c rfl
    simp only [skipExponent, he, hE, decide_false, Bool.or_self, Bool.false_eq_true, if_false]

/-- A number without its sign is read up to where it ends. -/
theorem unsigned_append {n : Number} (h : n.Sound) {rest : List Char} (hrest : Delimited rest) :
    unsigned n.negative (n.whole ++ ((if n.plain then [] else ['.', '0']) ++ rest)) =
      some (n, rest) := by
  obtain ⟨negative, whole, plain⟩ := n
  obtain ⟨hdigits, hne, hzero⟩ := h
  have hform : (whole.isEmpty || (whole.head? = some '0' && whole.length > 1)) = false := by
    simp only [Bool.or_eq_false_iff, List.isEmpty_eq_false_iff, Bool.and_eq_false_iff,
      decide_eq_false_iff_not]
    refine ⟨hne, ?_⟩
    by_cases hhead : whole.head? = some '0'
    · exact .inr (by simp [hzero hhead])
    · exact .inl hhead
  have hend : ∀ c ∈ ((if plain then [] else ['.', '0']) ++ rest).head?, c.isDigit = false := by
    cases plain with
    | true => exact fun c hc => (hrest c hc).1
    | false => exact fun c hc => by cases hc; rfl
  have hexponent := skipExponent_of_delimited hrest
  rw [unsigned, digits_append hdigits hend]
  simp only [hform, Bool.false_eq_true, if_false, Option.bind_eq_bind, Option.pure_def]
  cases plain with
  | true =>
    simp only [if_true, List.nil_append, skipFraction_of_delimited hrest, hexponent,
      Option.bind_some]
    rfl
  | false =>
    have hzeros : digits ('0' :: rest) = (['0'], rest) :=
      digits_append (by simp : ∀ c ∈ ['0'], c.isDigit = true) fun c hc => (hrest c hc).1
    have hfraction : skipFraction ('.' :: '0' :: rest) = some (true, rest) := by
      simp only [skipFraction, hzeros]
      rfl
    simp only [Bool.false_eq_true, if_false, List.cons_append, List.nil_append, hfraction, hexponent,
      Option.bind_some]
    rfl

/-! ## Tokens -/

/-- The text of a token. Half of a pair stands for whatever string has no text. -/
def Token.text : Token → List Char
  | .openBrace => ['{']
  | .closeBrace => ['}']
  | .openBracket => ['[']
  | .closeBracket => [']']
  | .comma => [',']
  | .colon => [':']
  | .null => ['n', 'u', 'l', 'l']
  | .bool true => ['t', 'r', 'u', 'e']
  | .bool false => ['f', 'a', 'l', 's', 'e']
  | .number n => n.text
  | .string (some text) => '"' :: (text.toList.flatMap escape ++ ['"'])
  | .string none => ['"', '\\', 'u', 'd', '8', '0', '0', '"']

/-- The numbers among tokens have digits. -/
def Token.Sound : Token → Prop
  | .number n => n.Sound
  | _ => True

/-- A text may follow a token. -/
def Token.Ends : Token → List Char → Prop
  | .number _, rest => Delimited rest
  | _, _ => True

theorem token?_digit {c : Char} (hc : c.isDigit = true) (rest : List Char) :
    token? (c :: rest) = (unsigned false (c :: rest)).map fun out => (.number out.1, out.2) := by
  rw [token?]
  · cases unsigned false (c :: rest) <;> rfl
  all_goals
    intros
    rename_i h
    obtain ⟨rfl, -⟩ := List.cons.inj h
    exact absurd hc (by decide)

/-- **A token is read back from its text.** -/
theorem token?_text {t : Token} (h : t.Sound) {rest : List Char} (hends : t.Ends rest) :
    token? (t.text ++ rest) = some (t, rest) := by
  match t, h, hends with
  | .openBrace, _, _ | .closeBrace, _, _ | .openBracket, _, _ | .closeBracket, _, _ | .comma, _, _
  | .colon, _, _ | .null, _, _ | .bool true, _, _ | .bool false, _, _ => rfl
  | .number n, h, hends =>
    have hread := unsigned_append h hends
    obtain ⟨negative, whole, plain⟩ := n
    cases negative with
    | true =>
      simp only [Token.text, Number.text, if_true, List.cons_append, List.nil_append,
        List.append_assoc, token?]
      rw [hread]
      rfl
    | false =>
      obtain ⟨c, digits, hwhole⟩ := List.exists_cons_of_ne_nil h.nonempty
      have hc : c.isDigit = true := h.digits c (by rw [hwhole]; exact List.mem_cons_self)
      simp only [Token.text, Number.text, Bool.false_eq_true, if_false, List.nil_append,
        List.append_assoc] at hread ⊢
      rw [show whole = c :: digits from hwhole, List.cons_append] at hread ⊢
      rw [token?_digit hc, hread]
      rfl
  | .string (some text), _, _ =>
    obtain ⟨pieces, hpieces, hjoin⟩ := stringPieces_flatMap text.toList rest
    simp only [Token.text, List.cons_append, List.append_assoc, List.nil_append, token?, hpieces,
      hjoin, Option.bind_eq_bind, Option.bind_some, Option.pure_def, Option.map_some,
      String.ofList_toList]
  | .string none, _, _ => rfl

/-- No text of a token is empty or begins with white space. -/
theorem text_head {t : Token} (h : t.Sound) :
    ∃ c text, t.text = c :: text ∧ Text.isSpace c = false := by
  match t, h with
  | .openBrace, _ | .closeBrace, _ | .openBracket, _ | .closeBracket, _ | .comma, _ | .colon, _
  | .null, _ | .bool true, _ | .bool false, _ | .string (some _), _ | .string none, _ =>
    exact ⟨_, _, rfl, by decide⟩
  | .number n, h =>
    obtain ⟨c, digits, hwhole⟩ := List.exists_cons_of_ne_nil h.nonempty
    have hdigit : c.isDigit = true := h.digits c (by rw [hwhole]; exact List.mem_cons_self)
    have hc : Text.isSpace c = false := by
      rw [← Bool.not_eq_true]
      intro hspace
      simp only [Text.isSpace, Bool.or_eq_true, decide_eq_true_eq] at hspace
      rcases hspace with ((rfl | rfl) | rfl) | rfl <;> exact absurd hdigit (by decide)
    rw [Token.text, Number.text, hwhole]
    cases n.negative with
    | true => exact ⟨_, _, rfl, by decide⟩
    | false => exact ⟨_, _, rfl, hc⟩

/-! ## Texts -/

/-- A text has some tokens, white space between them. -/
inductive Spells : List Char → List Token → Prop where
  | blank {gap : List Char} (hgap : ∀ c ∈ gap, Text.isSpace c = true) : Spells gap []
  | cons {gap rest : List Char} {t : Token} {ts : List Token}
      (hgap : ∀ c ∈ gap, Text.isSpace c = true) (hsound : t.Sound) (hends : t.Ends rest)
      (hrest : Spells rest ts) : Spells (gap ++ (t.text ++ rest)) (t :: ts)

theorem Spells.token {rest : List Char} {ts : List Token} (h : Spells rest ts) (t : Token)
    (hsound : t.Sound) (hends : t.Ends rest) : Spells (t.text ++ rest) (t :: ts) :=
  .cons (by simp : ∀ c ∈ [], Text.isSpace c = true) hsound hends h

theorem Spells.tokensWithin {text : List Char} {ts : List Token} (h : Spells text ts) {bound : Nat}
    (hbound : text.length ≤ bound) : tokensWithin bound text = some ts := by
  induction h generalizing bound with
  | @blank gap hgap =>
    have hdrop : gap.dropWhile Text.isSpace = [] := Text.dropWhile_of_all hgap
    cases bound <;> simp [Json.tokensWithin, hdrop]
  | @cons gap rest t ts hgap hsound hends hrest ih =>
    obtain ⟨c, tail, htext, hc⟩ := text_head hsound
    have hdrop : (gap ++ (t.text ++ rest)).dropWhile Text.isSpace = t.text ++ rest := by
      rw [List.dropWhile_append_of_pos hgap, htext]
      exact Text.dropWhile_of_head? fun _ h => by cases h; exact hc
    have hne : (t.text ++ rest).isEmpty = false := by rw [htext]; rfl
    simp only [List.length_append, htext, List.length_cons] at hbound
    obtain ⟨bound, rfl⟩ : ∃ bound', bound = bound' + 1 := ⟨bound - 1, by omega⟩
    simp only [Json.tokensWithin, hdrop, hne, token?_text hsound hends,
      ih (show rest.length ≤ bound by omega), Bool.false_eq_true, if_false, Option.bind_eq_bind,
      Option.bind_some, Option.pure_def]

/-- **The tokens of a text are read back.** -/
theorem Spells.tokens {text : List Char} {ts : List Token} (h : Spells text ts) :
    tokens text = some ts :=
  h.tokensWithin (Nat.le_refl _)

end NesMachine.Json
