import NesMachine.Proofs.Xml.Tag

/-!
# Documents are read back

A document is texts with markup between them. Each piece has its events whatever surrounds it, only a
text needs markup behind it, so that events are put together like the documents themselves.

* `Marks`, `Texts`: pieces of documents with their events.
* `marks_comment`, `marks_opening`, …: each kind of markup.
* `Balanced`: the elements that open in some events close there.
* `ofText?_of_texts`: a document has the events of its pieces.
-/

namespace NesMachine.Xml

open Event (isPlain markup? next? nested ofContent ofText? readWithin reference?)

/-! ## Markup as it is written -/

/-- A comment. -/
def comment (content : List Char) : List Char :=
  '<' :: '!' :: '-' :: '-' :: (content ++ ['-', '-', '>'])

/-- A character data section. -/
def dataSection (content : List Char) : List Char :=
  '<' :: '!' :: '[' :: 'C' :: 'D' :: 'A' :: 'T' :: 'A' :: '[' :: (content ++ [']', ']', '>'])

/-- An instruction. -/
def instruction (content : List Char) : List Char := '<' :: '?' :: (content ++ ['?', '>'])

/-- A reference in a text. -/
def reference (name : List Char) : List Char := '&' :: (name ++ [';'])

/-- The tag that opens an element. -/
def openingTag (name attributes : List Char) : List Char := '<' :: (name ++ (attributes ++ ['>']))

/-- The tag that closes an element. -/
def closingTag (name gap : List Char) : List Char := '<' :: '/' :: (name ++ (gap ++ ['>']))

/-- The only tag of an element without content. -/
def emptyTag (name attributes : List Char) : List Char :=
  '<' :: (name ++ (attributes ++ ['/', '>']))

/-- A text has neither markup nor references. -/
def Plain (text : List Char) : Prop := ∀ c ∈ text, isPlain c = true

theorem plain_nil : Plain [] := fun _ hc => absurd hc List.not_mem_nil

/-! ## Pieces -/

/-- The events of a document, read piece by piece. -/
inductive Reads : List Char → List Event → Prop where
  | nil : Reads [] []
  | piece {document rest : List Char} {events more : List Event}
      (hnext : next? document = some (events, rest)) (hshorter : rest.length < document.length)
      (hrest : Reads rest more) : Reads document (events ++ more)

theorem Reads.append {mark rest : List Char} {events more : List Event} (h : Reads rest more)
    (hne : mark ≠ []) (hnext : next? (mark ++ rest) = some (events, rest)) :
    Reads (mark ++ rest) (events ++ more) := by
  have hlength := List.length_pos_iff.mpr hne
  exact .piece hnext (by rw [List.length_append]; omega) h

theorem Reads.readWithin {document : List Char} {events : List Event} (h : Reads document events)
    {bound : Nat} (hbound : document.length ≤ bound) (found : List Event) :
    readWithin bound found document = some (found.reverse ++ events) := by
  induction h generalizing bound found with
  | nil => simp [Event.readWithin]
  | @piece document rest events more hnext hshorter hrest ih =>
    obtain ⟨bound, rfl⟩ : ∃ bound', bound = bound' + 1 := ⟨bound - 1, by omega⟩
    have hne : document ≠ [] := List.ne_nil_of_length_pos (by omega)
    rw [Event.readWithin]
    · simp only [hnext, Option.bind_eq_bind, Option.bind_some]
      rw [ih (show rest.length ≤ bound by omega)]
      simp
    · exact hne

/-- Markup has events, whatever follows. -/
structure Marks (mark : List Char) (events : List Event) : Prop where
  head : ∃ c, mark.head? = some c ∧ isPlain c = false
  reads : ∀ ⦃rest more⦄, Reads rest more → Reads (mark ++ rest) (events ++ more)

/-- A text ends where markup begins. -/
theorem Marks.stops {mark rest : List Char} {events : List Event} (h : Marks mark events) :
    ∀ c ∈ (mark ++ rest).head?, isPlain c = false := by
  obtain ⟨d, hhead, hd⟩ := h.head
  rw [List.head?_append, hhead]
  rintro c ⟨⟩
  exact hd

/-- A text with markup in it has events if it ends or other markup follows. -/
def Texts (text : List Char) (events : List Event) : Prop :=
  ∀ ⦃rest more⦄, (∀ c ∈ rest.head?, isPlain c = false) → Reads rest more →
    Reads (text ++ rest) (events ++ more)

theorem texts_plain {text : List Char} (h : Plain text) : Texts text (ofContent text) := by
  intro rest more hrest hreads
  cases text with
  | nil => exact hreads
  | cons c text =>
    have hc : c ≠ '<' ∧ c ≠ '&' := by simpa [isPlain] using h c List.mem_cons_self
    have hspan : (c :: text ++ rest).takeWhile isPlain = c :: text ∧
        (c :: text ++ rest).dropWhile isPlain = rest := Text.span_append h hrest
    have hnext : next? (c :: text ++ rest) = some (ofContent (c :: text), rest) := by
      rw [List.cons_append, next?, ← List.cons_append, hspan.1, hspan.2]
      · rintro _ h
        exact hc.1 (List.cons.inj h).1
      · rintro _ h
        exact hc.2 (List.cons.inj h).1
    exact hreads.append (List.cons_ne_nil _ _) hnext

theorem Texts.append {front mark back : List Char} {before events behind : List Event}
    (hfront : Texts front before) (hmark : Marks mark events) (hback : Texts back behind) :
    Texts (front ++ (mark ++ back)) (before ++ (events ++ behind)) := by
  intro rest more hrest hreads
  have hall := hfront hmark.stops (hmark.reads (hback hrest hreads))
  simpa only [List.append_assoc] using hall

/-- An element has its tags around its content. -/
theorem Marks.element {opening content closing : List Char} {tag : Tag} {name : List Char}
    {events : List Event} (hopening : Marks opening [.opening tag]) (hcontent : Texts content events)
    (hclosing : Marks closing [.closing name]) :
    Marks (opening ++ (content ++ closing)) (.opening tag :: (events ++ [.closing name])) := by
  obtain ⟨c, hhead, hc⟩ := hopening.head
  refine ⟨⟨c, by rw [List.head?_append, hhead]; rfl, hc⟩, fun rest more hreads => ?_⟩
  have hall := hopening.reads (hcontent hclosing.stops (hclosing.reads hreads))
  simpa only [List.append_assoc, List.cons_append, List.nil_append] using hall

/-! ## Kinds of markup -/

theorem marks_of_markup? {text : List Char} {events : List Event}
    (h : ∀ rest, markup? (text ++ rest) = some (events, rest)) : Marks ('<' :: text) events where
  head := ⟨'<', rfl, rfl⟩
  reads := fun rest _ hreads => hreads.append (List.cons_ne_nil _ _) (h rest)

theorem marks_comment {content : List Char} (h : ¬ ['-', '-', '>'] <:+: content) :
    Marks (comment content) [] := by
  refine marks_of_markup? fun rest => ?_
  have hafter : Text.after? ['-', '-', '>'] (content ++ '-' :: '-' :: '>' :: rest) = some rest :=
    Text.after?_append ⟨['-', '-'], '>', rfl, by decide⟩ h
  simp only [List.cons_append, List.append_assoc, List.nil_append, markup?, hafter, Option.map_some]

theorem marks_dataSection {content : List Char} (h : ¬ [']', ']', '>'] <:+: content) :
    Marks (dataSection content) [.text content] := by
  refine marks_of_markup? fun rest => ?_
  have hcut : Text.cut? [']', ']', '>'] (content ++ ']' :: ']' :: '>' :: rest) =
      some (content, rest) :=
    Text.cut?_append ⟨[']', ']'], '>', rfl, by decide⟩ h
  simp only [List.cons_append, List.append_assoc, List.nil_append, markup?, hcut, Option.map_some]

theorem marks_instruction {content : List Char} (h : ¬ ['?', '>'] <:+: content)
    (hhead : content.head? ≠ some '>') : Marks (instruction content) [] := by
  refine marks_of_markup? fun rest => ?_
  have hafter : Text.after? ['?', '>'] (content ++ '?' :: '>' :: rest) = some rest :=
    Text.after?_append ⟨['?'], '>', rfl, by decide⟩ h
  simp only [List.cons_append, List.append_assoc, List.nil_append]
  rw [markup?, hafter, Option.map_some]
  intro behind heq
  cases content with
  | nil => cases heq
  | cons c content => exact hhead (by rw [(List.cons.inj heq).1]; rfl)

theorem marks_reference {name : List Char} (hname : Plain name) (hend : ';' ∉ name) :
    Marks (reference name) [] where
  head := ⟨'&', rfl, rfl⟩
  reads := fun rest more hreads => by
    have hkeep : ∀ c ∈ name, (isPlain c && c != ';') = true := by
      intro c hc
      have hne : c ≠ ';' := fun h => hend (h ▸ hc)
      simp [hname c hc, hne]
    have hdrop : (name ++ ';' :: rest).dropWhile (fun c => isPlain c && c != ';') = ';' :: rest :=
      (Text.span_append hkeep (by rintro c ⟨⟩; rfl)).2
    have hnext : next? (reference name ++ rest) = some ([], rest) := by
      simp only [Xml.reference, List.cons_append, List.append_assoc, List.nil_append, next?, reference?,
        hdrop, Option.map_some]
    exact hreads.append (List.cons_ne_nil _ _) hnext

/-! ## Tags -/

/-- Markup that begins with a name is a tag. -/
theorem markup?_tag {c : Char} (hc : isNameChar c = true) (text : List Char) :
    markup? (c :: text) = (Event.tagText? (c :: text)).map fun (content, rest) =>
      (if content.getLast? = some '/' then [] else [.opening (Tag.ofText content)], rest) := by
  have hother := (isNameChar_ne hc).2
  simp only [List.mem_cons, List.not_mem_nil, or_false, not_or] at hother
  rw [markup?]
  all_goals simp [hother]

variable {name attributes : List Char} {values : List (List Char × List Char)}

/-- Attributes do not end with a slash. -/
theorem Attributes.getLast? (h : Attributes values attributes) :
    attributes.getLast? ≠ some '/' := by
  induction h with
  | nil hgap =>
    intro hlast
    exact absurd (hgap '/' (List.mem_of_getLast? hlast)) (by decide)
  | @cons gap name before after value text rest quote attributes hgap hne hname hbefore hafter hquote
      hvalue hrest ih =>
    have hslash : quote ≠ '/' := by rcases hquote with rfl | rfl <;> decide
    simp only [List.getLast?_append, List.getLast?_cons]
    cases hlast : rest.getLast? with
    | none => simpa using hslash
    | some c => simpa [hlast] using ih

theorem IsName.getLast? (h : IsName name) : ∃ c, name.getLast? = some c ∧ isNameChar c = true := by
  refine ⟨name.getLast h.nonempty, List.getLast?_eq_some_getLast h.nonempty, ?_⟩
  exact h.chars _ (List.getLast_mem h.nonempty)

theorem marks_tag (hname : IsName name) {text : List Char} (hclosed : Closed text) :
    Marks ('<' :: (name ++ (text ++ ['>']))) (if (name ++ text).getLast? = some '/' then []
      else [.opening (Tag.ofText (name ++ text))]) := by
  refine marks_of_markup? fun rest => ?_
  have htag := tagText?_append ((closed_name hname).append hclosed) rest
  obtain ⟨c, tail, rfl⟩ := List.exists_cons_of_ne_nil hname.nonempty
  have hread := markup?_tag (hname.chars c List.mem_cons_self) (tail ++ (text ++ '>' :: rest))
  simp only [List.cons_append, List.append_assoc, List.nil_append] at htag hread ⊢
  rw [hread, htag, Option.map_some]

/-- An opening tag has its name, and its attributes as they are read. -/
theorem marks_opening (hname : IsName name) (hattributes : Attributes values attributes) :
    Marks (openingTag name attributes)
      [.opening ⟨name, Tag.readAttributes attributes.length [] attributes⟩] := by
  have hmark := marks_tag hname hattributes.closed
  have hlast : (name ++ attributes).getLast? ≠ some '/' := by
    obtain ⟨c, hlast, hc⟩ := hname.getLast?
    rw [List.getLast?_append, hlast]
    cases hend : attributes.getLast? with
    | none =>
      rintro ⟨⟩
      exact absurd hc (by decide)
    | some d => exact fun h => hattributes.getLast? (hend.trans h)
  rwa [if_neg hlast, ofText_append hname hattributes.head?] at hmark

theorem marks_emptyTag (hname : IsName name) (hattributes : Attributes values attributes) :
    Marks (emptyTag name attributes) [] := by
  have hslash : Closed ['/'] := closed_plain (by simp)
  have hmark := marks_tag hname (hattributes.closed.append hslash)
  have hlast : (name ++ (attributes ++ ['/'])).getLast? = some '/' := by
    rw [← List.append_assoc, List.getLast?_concat]
  rw [if_pos hlast, List.append_assoc] at hmark
  exact hmark

/-- A closing tag has its name; white space may follow it. -/
theorem marks_closing (hname : IsName name) {gap : List Char} (hgap : Blank gap) :
    Marks (closingTag name gap) [.closing name] := by
  refine marks_of_markup? fun rest => ?_
  have htag := tagText?_append ((closed_name hname).append (closed_blank hgap)) rest
  have htrim : Text.trimEnd Text.isSpace (name ++ gap) = name := by
    refine Text.trimEnd_append hgap fun c hc => ?_
    exact (isNameChar_ne (hname.chars c (List.mem_of_getLast? hc))).1
  have hempty : name.isEmpty = false := List.isEmpty_eq_false_iff.mpr hname.nonempty
  simp only [List.cons_append, List.append_assoc, List.nil_append] at htag ⊢
  simp only [markup?, htag, Option.map_some, Event.closingName, htrim, hempty, Bool.false_eq_true,
    if_false]

/-! ## Documents -/

/-- The elements that open in some events close there. -/
def Balanced (events : List Event) : Prop :=
  ∀ opened more, nested opened (events ++ more) = nested opened more

theorem balanced_nil : Balanced [] := fun _ _ => rfl

theorem Balanced.append {front back : List Event} (hfront : Balanced front) (hback : Balanced back) :
    Balanced (front ++ back) := by
  intro opened more
  rw [List.append_assoc, hfront, hback]

theorem balanced_texts (pieces : List (List Char)) : Balanced (pieces.map Event.text) := by
  intro opened more
  induction pieces with
  | nil => rfl
  | cons piece pieces ih => exact ih

theorem balanced_ofContent (content : List Char) : Balanced (ofContent content) := by
  simp only [ofContent]
  split
  · exact balanced_nil
  · exact balanced_texts [_]

theorem Balanced.element {events : List Event} (h : Balanced events) (tag : Tag) :
    Balanced (.opening tag :: (events ++ [.closing tag.name])) := by
  intro opened more
  have hcontent := h (tag.name :: opened) (.closing tag.name :: more)
  simpa [nested] using hcontent

/-- **A document has the events of its pieces**, behind a byte order mark or not. -/
theorem ofText?_of_texts {document : List Char} {events : List Event} (h : Texts document events)
    (hbalanced : Balanced events) : ofText? ('\uFEFF' :: document) = some events ∧
      (document.head? ≠ some '\uFEFF' → ofText? document = some events) := by
  have hreads := h (by simp) Reads.nil
  have hnested := hbalanced [] []
  rw [List.append_nil] at hreads hnested
  rw [List.append_nil] at hreads
  have hread := hreads.readWithin (Nat.le_refl _) []
  rw [List.reverse_nil, List.nil_append] at hread
  rw [nested] at hnested
  have hdocument {text : List Char}
      (htext : (if text.head? = some '\uFEFF' then text.tail else text) = document) :
      ofText? text = some events := by
    simp only [ofText?, htext, hread, Option.bind_eq_bind, Option.bind_some, hnested, if_true,
      Option.pure_def]
  exact ⟨hdocument rfl, fun hmark => hdocument (if_neg hmark)⟩

end NesMachine.Xml
