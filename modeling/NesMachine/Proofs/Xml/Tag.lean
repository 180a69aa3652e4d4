import NesMachine.Proofs.Text.Search
import NesMachine.Proofs.Xml.Reference
import NesMachine.Xml.Event

/-!
# Tags are read back

A tag ends at its closing bracket, which does not count in quotes, and its attributes are read back in
order.

* `Attributes`: attributes as they are written.
* `tagText?_append`: a tag is cut off where it ends.
* `Attributes.read`: attributes of different names are read back.
-/

namespace NesMachine.Xml

open Event (tagLength? tagText?)

/-! ## Names and attributes -/

/-- A text is white space. -/
def Blank (text : List Char) : Prop := ∀ c ∈ text, Text.isSpace c = true

theorem blank_nil : Blank [] := fun _ hc => absurd hc List.not_mem_nil

theorem blank_space : Blank [' '] := List.all_eq_true.mp (by decide)

/-- A character of a name. -/
def isNameChar (c : Char) : Bool :=
  !Text.isSpace c && !(['<', '>', '&', '"', '\x27', '=', '/', '!', '?'].contains c)

/-- The name of an element or of an attribute. -/
structure IsName (name : List Char) : Prop where
  nonempty : name ≠ []
  chars : ∀ c ∈ name, isNameChar c = true

/-- Attributes with their values, as they are written behind the name of a tag. -/
inductive Attributes : List (List Char × List Char) → List Char → Prop where
  | nil {gap : List Char} (hgap : Blank gap) : Attributes [] gap
  | cons {gap name before after value text rest : List Char} {quote : Char}
      {attributes : List (List Char × List Char)} (hgap : Blank gap) (hne : gap ≠ [])
      (hname : IsName name) (hbefore : Blank before) (hafter : Blank after)
      (hquote : quote = '"' ∨ quote = '\x27') (hvalue : Escaped quote value text)
      (hrest : Attributes attributes rest) :
      Attributes ((name, value) :: attributes)
        (gap ++ (name ++ (before ++ '=' :: (after ++ quote :: (text ++ quote :: rest)))))

theorem isName_of_all {name : List Char} (hne : name ≠ []) (h : name.all isNameChar = true) :
    IsName name :=
  ⟨hne, List.all_eq_true.mp h⟩

theorem isNameChar_ne {c : Char} (h : isNameChar c = true) :
    Text.isSpace c = false ∧ c ∉ ['<', '>', '&', '"', '\x27', '=', '/', '!', '?'] := by
  simpa [isNameChar] using h

/-- An attribute may be written between double quotes as it is. -/
theorem Attributes.plain {values : List (List Char × List Char)} {name value rest : List Char}
    (h : Attributes values rest) (hname : IsName name) (hlt : '<' ∉ value) (hamp : '&' ∉ value)
    (hquote : '"' ∉ value) :
    Attributes ((name, value) :: values) (' ' :: (name ++ '=' :: '"' :: (value ++ '"' :: rest))) :=
  .cons blank_space (List.cons_ne_nil _ _) hname blank_nil blank_nil (.inl rfl)
    (escaped_self hlt hamp hquote) h

/-- Every list of attributes can be written. -/
theorem exists_attributes (values : List (List Char × List Char))
    (hnames : ∀ value ∈ values, IsName value.1) : ∃ text, Attributes values text := by
  induction values with
  | nil => exact ⟨[], .nil blank_nil⟩
  | cons value values ih =>
    obtain ⟨hname, hnames⟩ := List.forall_mem_cons.mp hnames
    obtain ⟨rest, hrest⟩ := ih hnames
    obtain ⟨text, hvalue⟩ := exists_escaped value.2
    exact ⟨_, .cons blank_space (List.cons_ne_nil _ _) hname blank_nil blank_nil (.inl rfl) hvalue
      hrest⟩

/-! ## The end of a tag -/

/-- The closing bracket of a tag is not in a text, and quotes that open there close there. -/
def Closed (text : List Char) : Prop :=
  ∀ length rest, tagLength? none length (text ++ rest) =
    tagLength? none (length + text.length) rest

theorem Closed.append {front back : List Char} (hfront : Closed front) (hback : Closed back) :
    Closed (front ++ back) := by
  intro length rest
  rw [List.append_assoc, hfront, hback, List.length_append, Nat.add_assoc]

theorem closed_plain {text : List Char} (h : ∀ c ∈ text, c ≠ '>' ∧ c ≠ '"' ∧ c ≠ '\x27') :
    Closed text := by
  induction text with
  | nil => exact fun _ _ => rfl
  | cons c text ih =>
    intro length rest
    obtain ⟨hbracket, hdouble, hsingle⟩ := h c List.mem_cons_self
    have hrest := ih (fun c hc => h c (List.mem_cons_of_mem _ hc)) (length + 1) rest
    simp only [List.cons_append, tagLength?, hbracket, hdouble, hsingle, decide_false, Bool.or_self,
      Bool.false_eq_true, if_false, hrest, List.length_cons]
    rw [Nat.add_assoc, Nat.add_comm 1]

theorem tagLength?_quoted {quote : Char} {text : List Char} (h : quote ∉ text) (length : Nat)
    (rest : List Char) : tagLength? (some quote) length (text ++ quote :: rest) =
      tagLength? none (length + text.length + 1) rest := by
  induction text generalizing length with
  | nil => simp [tagLength?]
  | cons c text ih =>
    simp only [List.mem_cons, not_or] at h
    simp only [List.cons_append, tagLength?, Ne.symm h.1, if_false, ih h.2, List.length_cons]
    rw [Nat.add_assoc length 1, Nat.add_comm 1]

theorem closed_quoted {quote : Char} (hquote : quote = '"' ∨ quote = '\x27') {text : List Char}
    (h : quote ∉ text) : Closed (quote :: (text ++ [quote])) := by
  intro length rest
  have hopen : quote ≠ '>' ∧ (decide (quote = '"') || decide (quote = '\x27')) = true := by
    rcases hquote with rfl | rfl <;> decide
  simp only [List.cons_append, List.append_assoc, List.nil_append, tagLength?, hopen.1, hopen.2,
    if_true, if_false, tagLength?_quoted h, List.length_cons, List.length_append, List.length_nil]
  congr 1
  omega

theorem closed_blank {text : List Char} (h : Blank text) : Closed text :=
  closed_plain fun c hc => by
    have hspace := h c hc
    refine ⟨?_, ?_, ?_⟩ <;> rintro rfl <;> exact absurd hspace (by decide)

theorem closed_name {name : List Char} (h : IsName name) : Closed name :=
  closed_plain fun c hc => by
    have hother := (isNameChar_ne (h.chars c hc)).2
    simp only [List.mem_cons, List.not_mem_nil, or_false, not_or] at hother
    exact ⟨hother.2.1, hother.2.2.2.1, hother.2.2.2.2.1⟩

theorem Attributes.closed {attributes : List (List Char × List Char)} {text : List Char}
    (h : Attributes attributes text) : Closed text := by
  induction h with
  | nil hgap => exact closed_blank hgap
  | @cons gap name before after value text rest quote attributes hgap hne hname hbefore hafter hquote
      hvalue hrest ih =>
    have hequals : Closed ['='] := closed_plain (by simp)
    have hquoted := closed_quoted hquote (hvalue.quote_notMem hquote)
    have hall := (closed_blank hgap).append ((closed_name hname).append ((closed_blank hbefore).append
      (hequals.append ((closed_blank hafter).append (hquoted.append ih)))))
    simpa only [List.cons_append, List.nil_append, List.append_assoc] using hall

/-- A tag is cut off at its closing bracket. -/
theorem tagText?_append {text : List Char} (h : Closed text) (rest : List Char) :
    tagText? (text ++ '>' :: rest) = some (text, rest) := by
  have hlength : tagLength? none 0 (text ++ '>' :: rest) = some text.length := by
    rw [h, Nat.zero_add]
    rfl
  rw [tagText?, hlength, Option.map_some, List.take_left, ← List.singleton_append,
    ← List.append_assoc, ← List.length_singleton (a := '>'), ← List.length_append, List.drop_left]

/-! ## Attributes -/

/-- Behind white space a text begins with what follows it. -/
theorem dropWhile_blank {gap rest : List Char} (hgap : Blank gap)
    (hrest : ∀ c ∈ rest.head?, Text.isSpace c = false) :
    (gap ++ rest).dropWhile Text.isSpace = rest :=
  (Text.span_append hgap hrest).2

/-- A name ends at white space or an equals sign. -/
theorem isNamed_of_head? {before rest : List Char} (hbefore : Blank before) :
    ∀ c ∈ (before ++ '=' :: rest).head?, Tag.isNamed c = false := by
  intro c hc
  cases before with
  | nil => cases hc; rfl
  | cons d before =>
    cases hc
    simp [Tag.isNamed, hbefore c List.mem_cons_self]

theorem readValue_quoted {after text rest : List Char} {quote : Char} (hafter : Blank after)
    (hquote : quote = '"' ∨ quote = '\x27') (htext : quote ∉ text) :
    Tag.readValue (after ++ quote :: (text ++ quote :: rest)) = .quoted text rest := by
  have hspace : Text.isSpace quote = false ∧
      (decide (quote = '"') || decide (quote = '\x27')) = true := by
    rcases hquote with rfl | rfl <;> decide
  have hdrop : (after ++ quote :: (text ++ quote :: rest)).dropWhile Text.isSpace =
      quote :: (text ++ quote :: rest) :=
    dropWhile_blank hafter (by rintro c ⟨⟩; exact hspace.1)
  have hkeep : ∀ c ∈ text, (c != quote) = true := by
    intro c hc
    rw [bne_iff_ne]
    exact fun h => htext (h ▸ hc)
  have hspan : (text ++ quote :: rest).takeWhile (· != quote) = text ∧
      (text ++ quote :: rest).dropWhile (· != quote) = quote :: rest :=
    Text.span_append hkeep (by rintro c ⟨⟩; simp)
  simp only [Tag.readValue, hdrop, hspace, hspan, if_true]

variable {gap name before after value text rest : List Char} {quote : Char}

/-- An attribute is read, and reading goes on behind it. -/
theorem readAttributes_cons (hgap : Blank gap) (hname : IsName name) (hbefore : Blank before)
    (hafter : Blank after) (hquote : quote = '"' ∨ quote = '\x27') (hvalue : Escaped quote value text)
    {seen : List (List Char)} (hseen : name ∉ seen) (bound : Nat) :
    Tag.readAttributes (bound + 1) seen
        (gap ++ (name ++ (before ++ '=' :: (after ++ quote :: (text ++ quote :: rest))))) =
      (name, value) :: Tag.readAttributes bound (name :: seen) rest := by
  have hread : Tag.readValue (after ++ quote :: (text ++ quote :: rest)) = .quoted text rest :=
    readValue_quoted hafter hquote (hvalue.quote_notMem hquote)
  generalize after ++ quote :: (text ++ quote :: rest) = behind at hread
  obtain ⟨first, tail, rfl⟩ := List.exists_cons_of_ne_nil hname.nonempty
  have hfirst := isNameChar_ne (hname.chars first List.mem_cons_self)
  have hdrop : (gap ++ (first :: tail ++ (before ++ '=' :: behind))).dropWhile Text.isSpace =
      first :: (tail ++ (before ++ '=' :: behind)) :=
    dropWhile_blank hgap (by rintro c ⟨⟩; exact hfirst.1)
  have htail : ∀ c ∈ tail, Tag.isNamed c = true := by
    intro c hc
    have hother := isNameChar_ne (hname.chars c (List.mem_cons_of_mem _ hc))
    have hequals : c ≠ '=' := by
      rintro rfl
      exact absurd hother.2 (by decide)
    simp [Tag.isNamed, hother.1, hequals]
  have hspan : (tail ++ (before ++ '=' :: behind)).takeWhile Tag.isNamed = tail ∧
      (tail ++ (before ++ '=' :: behind)).dropWhile Tag.isNamed = before ++ '=' :: behind :=
    Text.span_append htail (isNamed_of_head? hbefore)
  have hequals : (before ++ '=' :: behind).dropWhile Text.isSpace = '=' :: behind :=
    dropWhile_blank hbefore (by rintro c ⟨⟩; rfl)
  have hnew : seen.contains (first :: tail) = false := by simpa using hseen
  rw [Tag.readAttributes, hdrop]
  simp only [hspan, hequals, hnew, Bool.false_eq_true, if_false, hread, hvalue.resolve?,
    Option.getD_some]

/-- Attributes of different names are read back. -/
theorem Attributes.read {attributes : List (List Char × List Char)} {text : List Char}
    (h : Attributes attributes text) (hnodup : (attributes.map Prod.fst).Nodup)
    {seen : List (List Char)} (hseen : ∀ name ∈ attributes.map Prod.fst, name ∉ seen) {bound : Nat}
    (hbound : text.length ≤ bound) : Tag.readAttributes bound seen text = attributes := by
  induction h generalizing seen bound with
  | nil hgap =>
    cases bound with
    | zero => rfl
    | succ bound => simp only [Tag.readAttributes, Text.dropWhile_of_all hgap]
  | @cons gap name before after value text rest quote attributes hgap hne hname hbefore hafter hquote
      hvalue hrest ih =>
    simp only [List.length_append, List.length_cons] at hbound
    obtain ⟨bound, rfl⟩ : ∃ bound', bound = bound' + 1 := ⟨bound - 1, by omega⟩
    rw [List.map_cons, List.nodup_cons] at hnodup
    have hlater : ∀ name' ∈ attributes.map Prod.fst, name' ∉ name :: seen :=
      fun name' hname' => List.not_mem_cons_of_ne_of_not_mem (fun h => hnodup.1 (h ▸ hname'))
        (hseen name' (List.mem_cons_of_mem _ hname'))
    rw [readAttributes_cons hgap hname hbefore hafter hquote hvalue (hseen name List.mem_cons_self),
      ih hnodup.2 hlater (by omega)]

/-! ## Tags -/

/-- Attributes are set off from the name of a tag. -/
theorem Attributes.head? {attributes : List (List Char × List Char)} {text : List Char}
    (h : Attributes attributes text) : ∀ c ∈ text.head?, Text.isSpace c = true := by
  intro c hc
  cases h with
  | nil hgap => exact hgap c (List.mem_of_mem_head? hc)
  | @cons gap _ _ _ _ _ _ _ _ hgap hne =>
    obtain ⟨d, gap, rfl⟩ := List.exists_cons_of_ne_nil hne
    cases hc
    exact hgap c List.mem_cons_self

/-- The name of a tag ends where white space follows. -/
theorem ofText_append {name text : List Char} (hname : IsName name)
    (htext : ∀ c ∈ text.head?, Text.isSpace c = true) :
    Tag.ofText (name ++ text) = ⟨name, Tag.readAttributes text.length [] text⟩ := by
  have hspan : (name ++ text).takeWhile (!Text.isSpace ·) = name ∧
      (name ++ text).dropWhile (!Text.isSpace ·) = text :=
    Text.span_append (fun c hc => by simp [(isNameChar_ne (hname.chars c hc)).1])
      (fun c hc => by simp [htext c hc])
  simp only [Tag.ofText, Tag.skipWord, hspan]

end NesMachine.Xml
