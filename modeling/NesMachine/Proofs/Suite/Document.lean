import NesMachine.Digest.Base64
import NesMachine.Proofs.Suite.Reader
import NesMachine.Proofs.Xml.Event

/-!
# Suite files are read back

A suite file may be written in many ways: attributes and elements of a test in any order, characters as
they are or as references, and white space, comments, instructions and elements of other names around
everything. All of them are read as the tests they were written for.

* `Content`, `Field`, `Entry`: digests, their elements and tests as they are written.
* `Around`: what may surround tests and their parts.
* `Around.events`: the events of a suite, which are those of its tests with anything around them.
* `tests_read_back`: a suite file has the tests it was written for.
-/

namespace NesMachine.Suite

open Xml (Attributes Balanced Blank Event IsName Marks Plain Tag Texts blank_nil blank_space closingTag
  comment dataSection emptyTag escaped_self instruction isName_of_all openingTag plain_nil reference)

/-! ## Base64 -/

/-- Whether a character belongs to base64. -/
def isCode (c : Char) : Bool := ('=' :: (List.range 64).map Digest.Base64.letter).contains c

/-- A text is over the alphabet of base64. -/
def Coded (text : List Char) : Prop := ∀ c ∈ text, isCode c = true

theorem Coded.char {text : List Char} (h : Coded text) {c : Char} (hc : c ∈ text) :
    Text.isBlank c = false ∧ Text.isSpace c = false ∧ Event.isPlain c = true ∧ c ≠ ']' := by
  have hletter : ∀ six : Fin 64, Text.isBlank (Digest.Base64.letter six) = false ∧
      Text.isSpace (Digest.Base64.letter six) = false ∧
        Event.isPlain (Digest.Base64.letter six) = true ∧ Digest.Base64.letter six ≠ ']' := by
    decide
  have hcode := h c hc
  simp only [isCode, List.contains_iff_mem, List.mem_cons, List.mem_map, List.mem_range] at hcode
  rcases hcode with rfl | ⟨six, hsix, rfl⟩
  · decide
  · exact hletter ⟨six, hsix⟩

theorem Coded.trimmed {text : String} (h : Coded text.toList) : Reader.trimmed text = text := by
  have hnone : ∀ c ∈ ([] : List Char), Text.isBlank c = true := by simp
  have htrim := Text.trim_append hnone hnone
    (fun c hc => (h.char (List.mem_of_mem_head? hc)).1)
    (fun c hc => (h.char (List.mem_of_getLast? hc)).1)
  rw [List.nil_append, List.append_nil] at htrim
  rw [Reader.trimmed, htrim, String.ofList_toList]

/-! ## Writing -/

/-- The content of a digest or an input: code with white space around it, comments, and character data
sections. -/
inductive Content : List Char → List Char → Prop where
  | text {before code behind : List Char} (hbefore : Blank before) (hcode : Coded code)
      (hbehind : Blank behind) : Content code (before ++ (code ++ behind))
  | comment {before code behind note later rest : List Char} (hbefore : Blank before)
      (hcode : Coded code) (hbehind : Blank behind) (hnote : ¬ ['-', '-', '>'] <:+: note)
      (hrest : Content later rest) :
      Content (code ++ later) (before ++ (code ++ behind) ++ (comment note ++ rest))
  | data {before code behind inner later rest : List Char} (hbefore : Blank before)
      (hcode : Coded code) (hbehind : Blank behind) (hinner : Coded inner)
      (hrest : Content later rest) :
      Content (code ++ (inner ++ later)) (before ++ (code ++ behind) ++ (dataSection inner ++ rest))

/-- The element of a part with its code. -/
inductive Field (part : Part) : List Char → List Char → Prop where
  | element {values : List (List Char × List Char)} {attributes code content gap : List Char}
      (hattributes : Attributes values attributes) (hcontent : Content code content)
      (hgap : Blank gap) : Field part code (openingTag part.element.name.toList attributes ++
        (content ++ closingTag part.element.name.toList gap))
  | empty {values : List (List Char × List Char)} {attributes : List Char}
      (hattributes : Attributes values attributes) :
      Field part [] (emptyTag part.element.name.toList attributes)

/-- Markup that means nothing by itself. -/
inductive Idle : List Char → Prop where
  | comment {note : List Char} (hnote : ¬ ['-', '-', '>'] <:+: note) : Idle (comment note)
  | data {content : List Char} (hcontent : ¬ [']', ']', '>'] <:+: content) :
      Idle (dataSection content)
  | instruction {content : List Char} (hcontent : ¬ ['?', '>'] <:+: content)
      (hhead : content.head? ≠ some '>') : Idle (instruction content)
  | reference {name : List Char} (hname : Plain name) (hend : ';' ∉ name) : Idle (reference name)
  | emptyTag {name attributes : List Char} {values : List (List Char × List Char)}
      (hname : IsName name) (hother : ∀ e : Element, e.name.toList ≠ name)
      (hattributes : Attributes values attributes) : Idle (emptyTag name attributes)

/-- Entries with anything that means nothing around them: text, markup and elements of other names,
which may hold entries as well. -/
inductive Around (Entry : Test → List Char → Prop) : List Test → List Char → Prop where
  | text {lead : List Char} (hlead : Plain lead) : Around Entry [] lead
  | idle {lead mark rest : List Char} {tests : List Test} (hlead : Plain lead) (hmark : Idle mark)
      (hrest : Around Entry tests rest) : Around Entry tests (lead ++ (mark ++ rest))
  | element {lead name attributes content gap rest : List Char} {tests later : List Test}
      {values : List (List Char × List Char)} (hlead : Plain lead) (hname : IsName name)
      (hother : ∀ e : Element, e.name.toList ≠ name) (hattributes : Attributes values attributes)
      (hcontent : Around Entry tests content) (hgap : Blank gap)
      (hrest : Around Entry later rest) : Around Entry (tests ++ later)
        (lead ++ ((openingTag name attributes ++ (content ++ closingTag name gap)) ++ rest))
  | entry {lead text rest : List Char} {t : Test} {tests : List Test} (hlead : Plain lead)
      (hentry : Entry t text) (hrest : Around Entry tests rest) :
      Around Entry (t :: tests) (lead ++ (text ++ rest))

/-- What may stand between the parts of a test. -/
def Gap : List Char → Prop := Around (fun _ _ => False) []

/-- Parts of a test, one after the other. -/
inductive Parts (t : Test) : List Part → List Char → Prop where
  | nil {gap : List Char} (hgap : Gap gap) : Parts t [] gap
  | cons {part : Part} {parts : List Part} {gap text rest : List Char} (hgap : Gap gap)
      (hfield : Field part (part.text t).toList text) (hrest : Parts t parts rest) :
      Parts t (part :: parts) (gap ++ (text ++ rest))

/-- The element of a test: its attributes in any order, its frames in decimal digits, and its parts in
any order, those without text left out or not. -/
inductive Entry : Test → List Char → Prop where
  | element {t : Test} {values : List (List Char × List Char)} {parts : List Part}
      {frames attributes content gap : List Char} (hframes : Integer.Digits 10 t.frames.toNat frames)
      (hne : frames ≠ []) (hvalues : values.Perm [("filename".toList, t.file.toList),
        ("system".toList, t.system.toList), ("runframes".toList, frames)])
      (hattributes : Attributes values attributes) (hnodup : parts.Nodup)
      (hmissing : ∀ part, part ∉ parts → part.text t = "") (hparts : Parts t parts content)
      (hgap : Blank gap) : Entry t (openingTag Element.test.name.toList attributes ++
        (content ++ closingTag Element.test.name.toList gap))

/-! ## Reading -/

theorem blank_plain {text : List Char} (h : Blank text) : Plain text := by
  intro c hc
  have hspace := h c hc
  simp only [Event.isPlain, Bool.and_eq_true, bne_iff_ne]
  refine ⟨?_, ?_⟩ <;> rintro rfl <;> exact absurd hspace (by decide)

/-- Code with white space around it is plain, and is its only text if there is any. -/
theorem ofContent_code {before code behind : List Char} (hbefore : Blank before) (hcode : Coded code)
    (hbehind : Blank behind) : ∃ pieces : List (List Char), pieces.flatten = code ∧
      Texts (before ++ (code ++ behind)) (pieces.map Event.text) := by
  have hplain : Plain (before ++ (code ++ behind)) := by
    intro c hc
    rcases List.mem_append.mp hc with hc | hc
    · exact blank_plain hbefore c hc
    · rcases List.mem_append.mp hc with hc | hc
      · exact (hcode.char hc).2.2.1
      · exact blank_plain hbehind c hc
  have htrim := Text.trim_append hbefore hbehind
    (fun c hc => (hcode.char (List.mem_of_mem_head? hc)).2.1)
    (fun c hc => (hcode.char (List.mem_of_getLast? hc)).2.1)
  have htexts := Xml.texts_plain hplain
  simp only [Event.ofContent, htrim] at htexts
  cases code with
  | nil => exact ⟨[], rfl, htexts⟩
  | cons c code => exact ⟨[c :: code], by simp, htexts⟩

theorem Content.events {code text : List Char} (h : Content code text) :
    ∃ pieces : List (List Char), pieces.flatten = code ∧ Texts text (pieces.map Event.text) := by
  induction h with
  | text hbefore hcode hbehind => exact ofContent_code hbefore hcode hbehind
  | comment hbefore hcode hbehind hnote _ ih =>
    obtain ⟨front, hfront, hlead⟩ := ofContent_code hbefore hcode hbehind
    obtain ⟨back, hback, hrest⟩ := ih
    refine ⟨front ++ back, by rw [List.flatten_append, hfront, hback], ?_⟩
    rw [List.map_append]
    exact hlead.append (Xml.marks_comment hnote) hrest
  | @data _ _ _ inner _ _ hbefore hcode hbehind hinner _ ih =>
    obtain ⟨front, hfront, hlead⟩ := ofContent_code hbefore hcode hbehind
    obtain ⟨back, hback, hrest⟩ := ih
    have hend : ¬ [']', ']', '>'] <:+: inner := fun h =>
      (hinner.char (h.subset List.mem_cons_self)).2.2.2 rfl
    refine ⟨front ++ (inner :: back), by rw [List.flatten_append, List.flatten_cons, hfront, hback], ?_⟩
    rw [List.map_append, List.map_cons]
    exact hlead.append (Xml.marks_dataSection hend) hrest

theorem Content.coded {code text : List Char} (h : Content code text) : Coded code := by
  have happend {front back : List Char} (hfront : Coded front) (hback : Coded back) :
      Coded (front ++ back) := fun c hc => (List.mem_append.mp hc).elim (hfront c) (hback c)
  induction h with
  | text _ hcode _ => exact hcode
  | comment _ hcode _ _ _ ih => exact happend hcode ih
  | data _ hcode _ hinner _ ih => exact happend hcode (happend hinner ih)

theorem isName_element (e : Element) : IsName e.name.toList := by
  cases e <;> exact isName_of_all (by decide) (by decide)

theorem isName_attributes :
    IsName "filename".toList ∧ IsName "system".toList ∧ IsName "runframes".toList :=
  ⟨isName_of_all (by decide) (by decide), isName_of_all (by decide) (by decide),
    isName_of_all (by decide) (by decide)⟩

/-- The element of a part has the events of the part. -/
theorem Field.events {part : Part} {code text : List Char} (h : Field part code text) :
    ∃ events, Marks text events ∧ Balanced events ∧ Events.Field part code events := by
  have hname := isName_element part.element
  cases h with
  | element hattributes hcontent hgap =>
    obtain ⟨pieces, rfl, htexts⟩ := hcontent.events
    exact ⟨_, .element (Xml.marks_opening hname hattributes) htexts (Xml.marks_closing hname hgap),
      (Xml.balanced_texts pieces).element _, .element pieces rfl⟩
  | empty hattributes =>
    exact ⟨[], Xml.marks_emptyTag hname hattributes, Xml.balanced_nil, .empty⟩

theorem Field.coded {part : Part} {code text : List Char} (h : Field part code text) :
    Coded code := by
  cases h with
  | element _ hcontent _ => exact hcontent.coded
  | empty _ => exact fun _ hc => absurd hc List.not_mem_nil

variable {EntryForm : Test → List Char → Prop} {EntryEvents : Test → List Event → Prop}
  {tests : List Test} {text : List Char}

theorem Idle.events {mark : List Char} (h : Idle mark) :
    ∃ events, Marks mark events ∧ Balanced events ∧ Events.Around EntryEvents [] events := by
  cases h with
  | comment hnote => exact ⟨[], Xml.marks_comment hnote, Xml.balanced_nil, .nil⟩
  | data hcontent =>
    exact ⟨_, Xml.marks_dataSection hcontent, Xml.balanced_texts [_], .text .nil⟩
  | instruction hcontent hhead =>
    exact ⟨[], Xml.marks_instruction hcontent hhead, Xml.balanced_nil, .nil⟩
  | reference hname hend => exact ⟨[], Xml.marks_reference hname hend, Xml.balanced_nil, .nil⟩
  | emptyTag hname _ hattributes =>
    exact ⟨[], Xml.marks_emptyTag hname hattributes, Xml.balanced_nil, .nil⟩

/-- Entries with anything around them have their events with anything around them. -/
theorem Around.events (h : Around EntryForm tests text) (hentry : ∀ t text, EntryForm t text →
      ∃ events, Marks text events ∧ Balanced events ∧ EntryEvents t events) :
    ∃ events, Texts text events ∧ Balanced events ∧ Events.Around EntryEvents tests events := by
  induction h with
  | text hlead =>
    exact ⟨_, Xml.texts_plain hlead, Xml.balanced_ofContent _, Events.around_ofContent _⟩
  | idle hlead hmark _ ih =>
    obtain ⟨events, hmarks, hbalanced, haround⟩ := hmark.events
    obtain ⟨more, htexts, hbalanced', haround'⟩ := ih
    exact ⟨_, (Xml.texts_plain hlead).append hmarks htexts,
      (Xml.balanced_ofContent _).append (hbalanced.append hbalanced'),
      (Events.around_ofContent _).append (haround.append haround')⟩
  | element hlead hname hother hattributes _ hgap _ ihcontent ihrest =>
    obtain ⟨events, htexts, hbalanced, haround⟩ := ihcontent
    obtain ⟨more, htexts', hbalanced', haround'⟩ := ihrest
    have hmarks := Marks.element (Xml.marks_opening hname hattributes) htexts
      (Xml.marks_closing hname hgap)
    exact ⟨_, (Xml.texts_plain hlead).append hmarks htexts',
      (Xml.balanced_ofContent _).append ((hbalanced.element _).append hbalanced'),
      (Events.around_ofContent _).append
        (.element ⟨_, _⟩ (Element.ofName?_eq_none hother) haround haround')⟩
  | entry hlead hform _ ih =>
    obtain ⟨events, hmarks, hbalanced, hevents⟩ := hentry _ _ hform
    obtain ⟨more, htexts, hbalanced', haround⟩ := ih
    exact ⟨_, (Xml.texts_plain hlead).append hmarks htexts,
      (Xml.balanced_ofContent _).append (hbalanced.append hbalanced'),
      (Events.around_ofContent _).append (.entry hevents haround)⟩

theorem Gap.events (h : Gap text) :
    ∃ events, Texts text events ∧ Balanced events ∧ Events.Gap events :=
  Around.events h fun _ _ hnone => hnone.elim

theorem Parts.events {t : Test} {parts : List Part} (h : Parts t parts text) :
    ∃ events, Texts text events ∧ Balanced events ∧ Events.Parts t parts events := by
  induction h with
  | nil hgap =>
    obtain ⟨events, htexts, hbalanced, hsilent⟩ := hgap.events
    exact ⟨events, htexts, hbalanced, .nil hsilent⟩
  | cons hgap hfield _ ih =>
    obtain ⟨silent, hlead, hbalanced, hsilent⟩ := hgap.events
    obtain ⟨events, hmarks, hbalanced', hevents⟩ := hfield.events
    obtain ⟨more, htexts, hbalanced'', hparts⟩ := ih
    exact ⟨_, hlead.append hmarks htexts, hbalanced.append (hbalanced'.append hbalanced''),
      .cons hsilent hevents hparts⟩

theorem Parts.trimmed {t : Test} {parts : List Part} (h : Parts t parts text) :
    ∀ part ∈ parts, Reader.trimmed (part.text t) = part.text t := by
  induction h with
  | nil _ => simp
  | cons _ hfield _ ih =>
    exact List.forall_mem_cons.mpr ⟨hfield.coded.trimmed, ih⟩

/-- The element of a test has the events of the test. -/
theorem Entry.events {t : Test} (h : Entry t text) :
    ∃ events, Marks text events ∧ Balanced events ∧ Events.Entry t events := by
  cases h with
  | @element values parts frames attributes content gap hframes hne hvalues hattributes hnodup
      hmissing hparts hgap =>
    have hname := isName_element .test
    obtain ⟨events, htexts, hbalanced, hevents⟩ := hparts.events
    have hnames : (values.map Prod.fst).Nodup := by
      rw [(hvalues.map Prod.fst).nodup_iff]
      show ["filename".toList, "system".toList, "runframes".toList].Nodup
      decide
    have hread : Tag.readAttributes attributes.length [] attributes = values :=
      hattributes.read hnames (fun _ _ => List.not_mem_nil) (Nat.le_refl _)
    have hmarks := Marks.element (Xml.marks_opening hname hattributes) htexts
      (Xml.marks_closing hname hgap)
    rw [hread] at hmarks
    have htrim (part : Part) : Reader.trimmed (part.text t) = part.text t := by
      by_cases hpart : part ∈ parts
      · exact hparts.trimmed part hpart
      · rw [hmissing part hpart]
        rfl
    exact ⟨_, hmarks, hbalanced.element ⟨_, values⟩,
      .element ⟨_, values⟩ rfl hframes hne hvalues hnodup hmissing htrim hevents⟩

/-! ## Every suite can be written -/

theorem gap_nil : Gap [] := .text plain_nil

theorem exists_parts {t : Test} (hcoded : ∀ part : Part, Coded (part.text t).toList)
    (parts : List Part) : ∃ text, Parts t parts text := by
  induction parts with
  | nil => exact ⟨[], .nil gap_nil⟩
  | cons part parts ih =>
    obtain ⟨rest, hrest⟩ := ih
    have hcontent := Content.text blank_nil (hcoded part) blank_nil
    exact ⟨_, .cons gap_nil (.element (.nil blank_nil) hcontent blank_nil) hrest⟩

theorem exists_entry {t : Test} (hcoded : ∀ part : Part, Coded (part.text t).toList) :
    ∃ text, Entry t text := by
  obtain ⟨hfile, hsystem, hcount⟩ := isName_attributes
  obtain ⟨attributes, hattributes⟩ := Xml.exists_attributes [("filename".toList, t.file.toList),
    ("system".toList, t.system.toList), ("runframes".toList, (toString t.frames.toNat).toList)] (by
      simp only [List.forall_mem_cons]
      exact ⟨hfile, hsystem, hcount, by simp⟩)
  obtain ⟨content, hparts⟩ := exists_parts hcoded [.digest, .input]
  have hall : ∀ part : Part, part ∈ [Part.digest, Part.input] := by rintro ⟨⟩ <;> decide
  exact ⟨_, .element (Integer.digits_toString _) (Integer.toString_ne_nil _) (.refl _) hattributes
    (by decide) (fun part hpart => absurd (hall part) hpart) hparts blank_nil⟩

theorem exists_around {tests : List Test}
    (hcoded : ∀ t ∈ tests, ∀ part : Part, Coded (part.text t).toList) :
    ∃ text, Around Entry tests text := by
  induction tests with
  | nil => exact ⟨[], .text plain_nil⟩
  | cons t tests ih =>
    obtain ⟨text, hentry⟩ := exists_entry (hcoded t List.mem_cons_self)
    obtain ⟨rest, hrest⟩ := ih fun t' ht' => hcoded t' (List.mem_cons_of_mem _ ht')
    exact ⟨_, .entry plain_nil hentry hrest⟩

/-- **Suite files are read back.** Every list of tests whose digests and inputs are base64 can be
written, and however it is written, the file has exactly these tests, in order: the text of a digest or
an input is its own, and no text around it counts. A byte order mark may start the file. -/
theorem tests_read_back :
    (∀ tests : List Test, (∀ t ∈ tests, ∀ part : Part, Coded (part.text t).toList) →
      ∃ text, Around Entry tests text) ∧
    ∀ (tests : List Test) (text : List Char), Around Entry tests text →
      parse? (String.ofList ('\uFEFF' :: text)) = some tests ∧
        (text.head? ≠ some '\uFEFF' → parse? (String.ofList text) = some tests) := by
  refine ⟨fun tests hcoded => exists_around hcoded, fun tests text hwritten => ?_⟩
  obtain ⟨events, htexts, hbalanced, haround⟩ := hwritten.events fun _ _ hentry => hentry.events
  obtain ⟨hmarked, hunmarked⟩ := Xml.ofText?_of_texts htexts hbalanced
  have hparse {document : List Char} (h : Event.ofText? document = some events) :
      parse? (String.ofList document) = some tests := by
    rw [parse?, String.toList_ofList, h, Option.map_some, ofEvents_of_around haround]
  exact ⟨hparse hmarked, fun hhead => hparse (hunmarked hhead)⟩

/-- Two tests in a suite. The first has its input before its digest, a comment that looks like a tag, and
an element of another name between. -/
theorem tests_read_back_nested :
    let tests : List Test := [⟨"a<b", "pal", 7, "+/=", "AA=="⟩, ⟨"c", "ntsc", 30, "x", ""⟩]
    let text := ("<s><test runframes='07' filename=\"a&lt;b\" system=\"pal\">" ++
      "<recordedinput>AA<!--</test>-->==</recordedinput><n>y</n>\n<tvsha1> +/= </tvsha1></test>z" ++
      "<test filename=\"c\" system=\"ntsc\" runframes=\"30\"><tvsha1>x</tvsha1></test></s>").toList
    Around Entry tests text ∧ text.head? ≠ some '\uFEFF' ∧
      parse? (String.ofList text) = some tests := by
  intro tests text
  obtain ⟨hfile, hsystem, hcount⟩ := isName_attributes
  have hcode {text : List Char} (h : text.all isCode = true) : Coded text := List.all_eq_true.mp h
  have hplain {text : List Char} (h : text.all Event.isPlain = true) : Plain text :=
    List.all_eq_true.mp h
  have hlast := (Attributes.nil blank_nil).plain hsystem (show '<' ∉ ['p', 'a', 'l'] by decide)
    (by decide) (by decide)
  have hvalues := Attributes.cons blank_space (List.cons_ne_nil _ _) hcount blank_nil blank_nil
    (.inr rfl) (escaped_self (show '<' ∉ ['0', '7'] by decide) (by decide) (by decide))
    (.cons blank_space (List.cons_ne_nil _ _) hfile blank_nil blank_nil (.inl rfl)
      (.plain (show 'a' ≠ '<' by decide) (by decide) (by decide) (.reference .lt
        (escaped_self (show '<' ∉ ['b'] by decide) (by decide) (by decide)))) hlast)
  have hlast' := (Attributes.nil blank_nil).plain hcount (show '<' ∉ ['3', '0'] by decide)
    (by decide) (by decide)
  have hvalues' := (hlast'.plain hsystem (show '<' ∉ ['n', 't', 's', 'c'] by decide) (by decide)
    (by decide)).plain hfile (show '<' ∉ ['c'] by decide) (by decide) (by decide)
  have hinput := Content.comment blank_nil (hcode (show ['A', 'A'].all isCode = true by decide))
    blank_nil (show ¬ ['-', '-', '>'] <:+: ['<', '/', 't', 'e', 's', 't', '>'] by decide)
    (.text blank_nil (hcode (show ['=', '='].all isCode = true by decide)) blank_nil)
  have hdigest := Content.text blank_space
    (hcode (show ['+', '/', '='].all isCode = true by decide)) blank_space
  have hdigest' := Content.text blank_nil (hcode (show ['x'].all isCode = true by decide)) blank_nil
  have hgap : Gap _ :=
    .element plain_nil (isName_of_all (show ['n'] ≠ [] by decide) (by decide))
      (by rintro ⟨⟩ <;> decide) (.nil blank_nil)
      (.text (hplain (show ['y'].all Event.isPlain = true by decide))) blank_nil
      (.text (hplain (show ['\n'].all Event.isPlain = true by decide)))
  have hparts : Parts ⟨"a<b", "pal", 7, "+/=", "AA=="⟩ [.input, .digest] _ :=
    .cons gap_nil (.element (.nil blank_nil) hinput blank_nil)
      (.cons hgap (.element (.nil blank_nil) hdigest blank_nil) (.nil gap_nil))
  have hparts' : Parts ⟨"c", "ntsc", 30, "x", ""⟩ [.digest] _ :=
    .cons gap_nil (.element (.nil blank_nil) hdigest' blank_nil) (.nil gap_nil)
  have hentry : Entry ⟨"a<b", "pal", 7, "+/=", "AA=="⟩ _ :=
    .element (Integer.digits_fixed (by decide) (by decide) 2 7) (List.cons_ne_nil _ _) (by decide)
      hvalues (by decide) (by rintro ⟨⟩ <;> decide) hparts blank_nil
  have hentry' : Entry ⟨"c", "ntsc", 30, "x", ""⟩ _ :=
    .element (Integer.digits_fixed (by decide) (by decide) 2 30) (List.cons_ne_nil _ _) (by decide)
      hvalues' (by decide) (by rintro ⟨⟩ <;> decide) hparts' blank_nil
  have hentries := Around.entry plain_nil hentry
    (.entry (hplain (show ['z'].all Event.isPlain = true by decide)) hentry' (.text plain_nil))
  have hwritten := Around.element plain_nil (isName_of_all (show ['s'] ≠ [] by decide) (by decide))
    (by rintro ⟨⟩ <;> decide) (.nil blank_nil) hentries blank_nil (.text plain_nil)
  have htext : Around Entry tests text := by
    simp only [text, String.toList_append, String.reduceToList]
    exact hwritten
  have hhead : text.head? ≠ some '\uFEFF' := by
    simp only [text, String.toList_append, String.reduceToList, List.cons_append, List.head?_cons]
    decide
  exact ⟨htext, hhead, (tests_read_back.2 tests text htext).2 hhead⟩

end NesMachine.Suite
