import NesMachine.Text.Blank

/-!
# Pieces of text

Where a piece of text is found, what trimming leaves, and which words a text has.

* `dropUntil?_append`: a piece that ends with a character of its own is found where it stands, if the
  text in front does not hold it.
* `trim_append`: trimming takes away exactly what was put around a text.
* `words_append`: words end where separators are.
-/

namespace NesMachine.Text

variable {piece front rest : List Char}

/-! ## Searching -/

/-- The last character of a piece stands only there. -/
def EndsOnce (piece : List Char) : Prop := ∃ start last, piece = start ++ [last] ∧ last ∉ start

theorem EndsOnce.ne_nil (h : EndsOnce piece) : piece ≠ [] := by
  obtain ⟨start, last, rfl, -⟩ := h
  simp

/-- Behind a text that does not hold a piece, the piece cannot begin before its own start. -/
theorem EndsOnce.not_infix (h : EndsOnce piece) (hfront : ¬ piece <:+: front) :
    ¬ piece <:+: front ++ piece.dropLast := by
  obtain ⟨start, last, rfl, hlast⟩ := h
  rw [List.dropLast_concat]
  rintro ⟨before, behind, heq⟩
  rcases List.append_eq_append_iff.mp heq with ⟨middle, hmiddle, -⟩ | ⟨middle, hmiddle, hstart⟩
  · exact hfront ⟨before, middle, hmiddle.symm⟩
  · rcases List.eq_nil_or_concat middle with rfl | ⟨middle', c, rfl⟩
    · exact hfront ⟨before, [], by rw [hmiddle, List.append_nil]; simp⟩
    · -- The piece ends within its own start, which its last character does not.
      have hlast' : last = c := by
        have hends := congrArg List.getLast? hmiddle
        simpa using hends
      exact hlast (hstart ▸ by simp [hlast'])

theorem dropUntil?_of_not_infix (hne : piece ≠ []) (h : ¬ piece <:+: front ++ piece.dropLast) :
    dropUntil? piece (front ++ (piece ++ rest)) = some (piece ++ rest) := by
  induction front with
  | nil =>
    obtain ⟨c, tail, rfl⟩ := List.exists_cons_of_ne_nil hne
    exact if_pos (List.isPrefixOf_iff_prefix.mpr (List.prefix_append ..))
  | cons c front ih =>
    have hlater : ¬ piece <:+: front ++ piece.dropLast :=
      mt (fun hlater => hlater.trans (List.suffix_cons c _).isInfix) h
    rw [List.cons_append, dropUntil?, if_neg, ih hlater]
    intro hprefix
    rw [List.isPrefixOf_iff_prefix] at hprefix
    have hlength : piece.length ≤ (c :: (front ++ piece.dropLast)).length := by
      simp only [List.length_cons, List.length_append, List.length_dropLast]
      omega
    have hwhole : c :: (front ++ piece.dropLast) <+: c :: (front ++ (piece ++ rest)) := by
      rw [List.cons_prefix_cons]
      exact ⟨rfl, List.prefix_append_right_inj _ |>.mpr
        ((List.dropLast_prefix piece).trans (List.prefix_append ..))⟩
    exact h (List.prefix_of_prefix_length_le hprefix hwhole hlength).isInfix

/-- A piece is found behind a text that does not hold it. -/
theorem dropUntil?_append (h : EndsOnce piece) (hfront : ¬ piece <:+: front) :
    dropUntil? piece (front ++ (piece ++ rest)) = some (piece ++ rest) :=
  dropUntil?_of_not_infix h.ne_nil (h.not_infix hfront)

theorem after?_append (h : EndsOnce piece) (hfront : ¬ piece <:+: front) :
    after? piece (front ++ (piece ++ rest)) = some rest := by
  rw [after?, dropUntil?_append h hfront, Option.map_some, List.drop_left]

theorem cut?_append (h : EndsOnce piece) (hfront : ¬ piece <:+: front) :
    cut? piece (front ++ (piece ++ rest)) = some (front, rest) := by
  rw [cut?, dropUntil?_append h hfront, Option.map_some, List.drop_left, List.length_append,
    Nat.add_sub_cancel, List.take_left]

/-! ## Trimming -/

variable {drop : Char → Bool}

/-- A text stays as it is if it does not begin with a character of the class. -/
theorem dropWhile_of_head? {text : List Char} (h : ∀ c ∈ text.head?, drop c = false) :
    text.dropWhile drop = text := by
  cases text with
  | nil => rfl
  | cons c rest => exact List.dropWhile_cons_of_neg (by simp [h c rfl])

theorem dropWhile_of_all {text : List Char} (h : ∀ c ∈ text, drop c = true) :
    text.dropWhile drop = [] := by
  rw [← List.append_nil text, List.dropWhile_append_of_pos h]
  rfl

/-- Where characters of a class end, the text is cut. -/
theorem span_append {keep : Char → Bool} (hfront : ∀ c ∈ front, keep c = true)
    (hrest : ∀ c ∈ rest.head?, keep c = false) :
    (front ++ rest).takeWhile keep = front ∧ (front ++ rest).dropWhile keep = rest := by
  have htake : rest.takeWhile keep = [] := by
    cases rest with
    | nil => rfl
    | cons c rest => exact List.takeWhile_cons_of_neg (by simp [hrest c rfl])
  rw [List.takeWhile_append_of_pos hfront, List.dropWhile_append_of_pos hfront, htake,
    dropWhile_of_head? hrest, List.append_nil]
  exact ⟨rfl, rfl⟩

theorem trimEnd_append {text behind : List Char} (h : ∀ c ∈ behind, drop c = true)
    (htext : ∀ c ∈ text.getLast?, drop c = false) : trimEnd drop (text ++ behind) = text := by
  rw [trimEnd, List.reverse_append, List.dropWhile_append_of_pos (by simpa using h),
    dropWhile_of_head? (by simpa using htext), List.reverse_reverse]

/-- Trimming a text that neither begins nor ends with characters of the class. -/
theorem trim_append {before text behind : List Char} (hbefore : ∀ c ∈ before, drop c = true)
    (hbehind : ∀ c ∈ behind, drop c = true) (hhead : ∀ c ∈ text.head?, drop c = false)
    (hlast : ∀ c ∈ text.getLast?, drop c = false) :
    trim drop (before ++ (text ++ behind)) = text := by
  rw [trim, List.dropWhile_append_of_pos hbefore]
  cases text with
  | nil =>
    rw [List.nil_append, dropWhile_of_all hbehind]
    rfl
  | cons c text =>
    rw [List.cons_append, dropWhile_of_head? (by simpa using hhead), ← List.cons_append]
    exact trimEnd_append hbehind hlast

/-! ## Words -/

variable {separator : Char → Bool}

theorem wordsFrom_append (begun : List Char) {word : List Char}
    (h : ∀ c ∈ word, separator c = false) (rest : List Char) :
    wordsFrom separator begun (word ++ rest) = wordsFrom separator (word.reverse ++ begun) rest := by
  induction word generalizing begun with
  | nil => rfl
  | cons c word ih =>
    rw [List.cons_append, wordsFrom, if_neg (by simp [h c List.mem_cons_self]),
      ih _ fun c' hmem => h c' (List.mem_cons_of_mem _ hmem)]
    simp

/-- Separators in front of a text begin no word. -/
theorem words_skip {front : List Char} (h : ∀ c ∈ front, separator c = true) (rest : List Char) :
    words separator (front ++ rest) = words separator rest := by
  induction front with
  | nil => rfl
  | cons c front ih =>
    rw [List.cons_append, words, wordsFrom, if_pos (h c List.mem_cons_self)]
    exact ih fun c' hmem => h c' (List.mem_cons_of_mem _ hmem)

/-- A word ends at a separator. -/
theorem words_append {word : List Char} (hne : word ≠ []) (h : ∀ c ∈ word, separator c = false)
    {c : Char} (hc : separator c = true) (rest : List Char) :
    words separator (word ++ c :: rest) = word :: words separator rest := by
  rw [words, wordsFrom_append _ h, wordsFrom, if_pos hc, piece, List.append_nil,
    if_neg (by simpa using hne), List.reverse_reverse]
  rfl

/-- A text without separators is one word. -/
theorem words_of_all {word : List Char} (hne : word ≠ []) (h : ∀ c ∈ word, separator c = false) :
    words separator word = [word] := by
  have hwhole := wordsFrom_append [] h []
  rw [List.append_nil, List.append_nil, wordsFrom, piece, if_neg (by simpa using hne),
    List.reverse_reverse] at hwhole
  exact hwhole

end NesMachine.Text
