import NesMachine.Proofs.Text.Number
import NesMachine.Suite.Reading

/-!
# What events do to a suite

Outside the elements whose text counts, events fall into two kinds: those that add complete tests, and
those that fill in the test being read. Both are put together by appending events.

* `Adds.append`, `Adds.element`: nothing but tests adds anything.
* `changes_part`: the digest and the input are the texts within their elements.
* `adds_test`: an element of a test adds it.
* `Events.Entry`, `Events.Around`: the events of tests, and what may surround them.
* `ofEvents_of_around`: the tests of such events are those that they are of.
-/

namespace NesMachine.Suite

open Xml (Event Tag)

/-! ## Outside of digests and inputs -/

/-- No element is open whose text counts. -/
def Reader.Outside (r : Reader) : Prop := r.inDigest = false ∧ r.inInput = false

/-- The reader behind a test. -/
def Reader.push (r : Reader) (t : Test) : Reader :=
  { r with complete := t :: r.complete, current := none }

/-- Events add tests to those that are complete, and do nothing else if there are none. -/
def Adds (tests : List Test) (events : List Event) : Prop :=
  ∀ r : Reader, r.Outside → events.foldl Reader.take r = tests.foldl Reader.push r

/-- Events change the test being read, if there is one, and do nothing else. -/
def Changes (f : Test → Test) (events : List Event) : Prop :=
  ∀ r : Reader, r.Outside → events.foldl Reader.take r = { r with current := r.current.map f }

theorem Reader.Outside.foldl_push {r : Reader} (h : r.Outside) (tests : List Test) :
    (tests.foldl Reader.push r).Outside := by
  induction tests generalizing r with
  | nil => exact h
  | cons t tests ih => exact ih (r := r.push t) h

variable {tests later : List Test} {front back events : List Event} {f g : Test → Test}

theorem Adds.append (hfront : Adds tests front) (hback : Adds later back) :
    Adds (tests ++ later) (front ++ back) := by
  intro r hr
  rw [List.foldl_append, List.foldl_append, hfront r hr, hback _ (hr.foldl_push tests)]

theorem Changes.append (hfront : Changes f front) (hback : Changes g back) :
    Changes (g ∘ f) (front ++ back) := by
  intro r hr
  rw [List.foldl_append, hfront r hr, hback { r with current := r.current.map f } hr,
    Option.map_map]

/-- Events that add no test leave the test being read as it is. -/
theorem Adds.changes (h : Adds [] events) : Changes id events := by
  intro r hr
  rw [h r hr, Option.map_id]
  rfl

theorem adds_nil : Adds [] [] := fun _ _ => rfl

/-- A text outside of digests and inputs does nothing. -/
theorem adds_text (content : List Char) : Adds [] [.text content] := by
  rintro r ⟨hdigest, hinput⟩
  simp [Reader.take, hdigest, hinput]

/-- An element of another name adds what its content adds. -/
theorem Adds.element (h : Adds tests events) (tag : Tag)
    (hname : Element.ofName? tag.name = none) :
    Adds tests (.opening tag :: (events ++ [.closing tag.name])) := by
  intro r hr
  simp only [List.foldl_cons, List.foldl_append, List.foldl_nil, Reader.take, hname]
  exact h r hr

/-! ## Digests and inputs -/

namespace Element

theorem ofName?_name (e : Element) : ofName? e.name.toList = some e := by
  cases e <;> rfl

theorem ofName?_eq_none {name : List Char} (h : ∀ e : Element, e.name.toList ≠ name) :
    ofName? name = none :=
  List.find?_eq_none.mpr fun e _ => by simpa using h e

end Element

/-- The parts of a test that are texts of elements. -/
inductive Part where
  | digest
  | input
  deriving DecidableEq, Repr

namespace Part

/-- The element of a part. -/
def element : Part → Element
  | digest => .digest
  | input => .input

/-- The text of a part. -/
def text : Part → Test → String
  | digest, t => t.digest
  | input, t => t.input

/-- A test with text added to a part. -/
def add : Part → List Char → Test → Test
  | digest => Reader.addDigest
  | input => Reader.addInput

/-- The reader in the element of a part. -/
def opened : Part → Reader → Reader
  | digest, r => { r with inDigest := true }
  | input, r => { r with inInput := true }

theorem add_nil (part : Part) (t : Test) : part.add [] t = t := by
  cases part <;> simp [add, Reader.addDigest, Reader.addInput]

theorem add_append (part : Part) (front back : List Char) (t : Test) :
    part.add (front ++ back) t = part.add back (part.add front t) := by
  cases part <;> simp [add, Reader.addDigest, Reader.addInput, String.append_assoc]

/-- Texts in the element of a part are added to it. -/
theorem foldl_texts (part : Part) (pieces : List (List Char)) {r : Reader} (hr : r.Outside) :
    (pieces.map Event.text).foldl Reader.take (part.opened r) =
      part.opened { r with current := r.current.map (part.add pieces.flatten) } := by
  induction pieces generalizing r with
  | nil =>
    have hid : part.add [] = id := funext part.add_nil
    simp [hid]
  | cons piece pieces ih =>
    have hpiece : (part.opened r).take (.text piece) =
        part.opened { r with current := r.current.map (part.add piece) } := by
      cases part <;> simp [opened, Reader.take, hr.1, add]
    have hadd : part.add pieces.flatten ∘ part.add piece = part.add (piece :: pieces).flatten :=
      funext fun t => (part.add_append piece pieces.flatten t).symm
    rw [List.map_cons, List.foldl_cons, hpiece,
      ih (r := { r with current := r.current.map (part.add piece) }) hr]
    rw [Option.map_map, hadd]

end Part

/-- An element of a part fills in the texts within it. -/
theorem changes_part (part : Part) (pieces : List (List Char)) {tag : Tag}
    (hname : tag.name = part.element.name.toList) :
    Changes (part.add pieces.flatten)
      (.opening tag :: (pieces.map Event.text ++ [.closing tag.name])) := by
  intro r hr
  have hopening : r.take (.opening tag) = part.opened r := by
    rw [Reader.take, hname, Element.ofName?_name]
    cases part <;> rfl
  have hclosing (r : Reader) (hr : r.Outside) : (part.opened r).take (.closing tag.name) = r := by
    rw [Reader.take, hname, Element.ofName?_name]
    obtain ⟨complete, current, inDigest, inInput⟩ := r
    obtain ⟨rfl, rfl⟩ := hr
    cases part <;> rfl
  rw [List.foldl_cons, hopening, List.foldl_append, part.foldl_texts pieces hr]
  exact hclosing _ hr

/-! ## Tests -/

/-- The attributes of a test count in any order. -/
theorem testOf_perm {t : Test} {name frames : List Char} {attributes : List (List Char × List Char)}
    (hframes : Integer.readUInt32 frames = .ok t.frames)
    (hattributes : attributes.Perm [("filename".toList, t.file.toList),
      ("system".toList, t.system.toList), ("runframes".toList, frames)]) :
    Reader.testOf ⟨name, attributes⟩ = { t with digest := "", input := "" } := by
  have hfile (s : Test) (value : List Char) : Reader.setAttribute s "filename".toList value =
      { s with file := String.ofList value } := if_pos rfl
  have hsystem (s : Test) (value : List Char) : Reader.setAttribute s "system".toList value =
      { s with system := String.ofList value } := by
    rw [Reader.setAttribute, if_neg (by decide), if_pos rfl]
  have hcount (s : Test) (value : List Char) : Reader.setAttribute s "runframes".toList value =
      { s with frames := (Integer.readUInt32 value).toOption.getD 0 } := by
    rw [Reader.setAttribute, if_neg (by decide), if_neg (by decide), if_pos rfl]
  rw [Reader.testOf, ← hattributes.symm.foldl_eq']
  · simp only [List.foldl_cons, List.foldl_nil, hfile, hsystem, hcount, hframes, Except.toOption,
      Option.getD_some, String.ofList_toList]
  · intro a ha b hb s
    simp only [List.mem_cons, List.not_mem_nil, or_false] at ha hb
    rcases ha with rfl | rfl | rfl <;> rcases hb with rfl | rfl | rfl <;>
      simp only [hfile, hsystem, hcount]

/-- A test with some parts of another one added. -/
def fill (t : Test) (parts : List Part) (start : Test) : Test :=
  parts.foldl (fun s part => part.add (part.text t).toList s) start

theorem Part.text_add (part other : Part) (content : List Char) (t : Test) :
    part.text (other.add content t) =
      part.text t ++ if part = other then String.ofList content else "" := by
  cases part <;> cases other <;> simp [add, text, Reader.addDigest, Reader.addInput]

/-- Each part is added where it stands. -/
theorem text_fill (t start : Test) {parts : List Part} (hnodup : parts.Nodup) (part : Part) :
    part.text (fill t parts start) =
      part.text start ++ if part ∈ parts then part.text t else "" := by
  induction parts generalizing start with
  | nil => simp [fill]
  | cons first parts ih =>
    obtain ⟨hfirst, hnodup⟩ := List.nodup_cons.mp hnodup
    have hrest := ih (first.add (first.text t).toList start) hnodup
    rw [Part.text_add, String.ofList_toList] at hrest
    refine hrest.trans ?_
    by_cases hpart : part = first
    · subst hpart
      simp [hfirst]
    · simp [hpart]

/-- Nothing else is changed. -/
theorem fill_eq (t start : Test) (parts : List Part) :
    fill t parts start = { start with
      digest := (fill t parts start).digest, input := (fill t parts start).input } := by
  induction parts generalizing start with
  | nil => rfl
  | cons first parts ih =>
    refine (ih (first.add (first.text t).toList start)).trans ?_
    cases first <;> rfl

/-- A test is made of its attributes and its parts, if those left out have no text. -/
theorem finished_fill {t : Test} {parts : List Part} (hnodup : parts.Nodup)
    (hmissing : ∀ part, part ∉ parts → part.text t = "")
    (htrim : ∀ part : Part, Reader.trimmed (part.text t) = part.text t) :
    Reader.finished (fill t parts { t with digest := "", input := "" }) = t := by
  have htext (part : Part) :
      part.text (fill t parts { t with digest := "", input := "" }) = part.text t := by
    rw [text_fill t _ hnodup]
    by_cases hpart : part ∈ parts
    · cases part <;> simp [hpart, Part.text]
    · rw [if_neg hpart, hmissing part hpart]
      cases part <;> rfl
  have hdigest := htext .digest
  have hinput := htext .input
  simp only [Part.text] at hdigest hinput
  rw [fill_eq, hdigest, hinput, Reader.finished]
  have hd := htrim .digest
  have hi := htrim .input
  simp only [Part.text] at hd hi
  rw [hd, hi]

/-- An element of a test adds the test that its content makes of its attributes. -/
theorem adds_test (h : Changes f events) (tag : Tag) (hname : tag.name = Element.test.name.toList) :
    Adds [Reader.finished (f (Reader.testOf tag))]
      (.opening tag :: (events ++ [.closing tag.name])) := by
  intro r hr
  have hopening : r.take (.opening tag) = { r with current := some (Reader.testOf tag) } := by
    rw [Reader.take, hname, Element.ofName?_name]
  rw [List.foldl_cons, hopening, List.foldl_append,
    h { r with current := some (Reader.testOf tag) } hr, List.foldl_cons, Reader.take, hname,
    Element.ofName?_name]
  rfl

/-! ## Events of a suite -/

namespace Events

/-- The events of a part with its code: texts in its element, or nothing for a part without code. -/
inductive Field (part : Part) : List Char → List Event → Prop where
  | element {tag : Tag} (pieces : List (List Char)) (hname : tag.name = part.element.name.toList) :
      Field part pieces.flatten (.opening tag :: (pieces.map Event.text ++ [.closing tag.name]))
  | empty : Field part [] []

/-- The events of entries with anything that means nothing around them: texts and elements of other
names, which may hold entries as well. -/
inductive Around (Entry : Test → List Event → Prop) : List Test → List Event → Prop where
  | nil : Around Entry [] []
  | text {content : List Char} {rest : List Event} {tests : List Test}
      (hrest : Around Entry tests rest) : Around Entry tests (.text content :: rest)
  | element (tag : Tag) {content rest : List Event} {tests later : List Test}
      (hname : Element.ofName? tag.name = none) (hcontent : Around Entry tests content)
      (hrest : Around Entry later rest) :
      Around Entry (tests ++ later) ((.opening tag :: (content ++ [.closing tag.name])) ++ rest)
  | entry {events rest : List Event} {t : Test} {tests : List Test} (hentry : Entry t events)
      (hrest : Around Entry tests rest) : Around Entry (t :: tests) (events ++ rest)

/-- The events between the parts of a test. -/
def Gap : List Event → Prop := Around (fun _ _ => False) []

/-- The events of parts of a test, one after the other. -/
inductive Parts (t : Test) : List Part → List Event → Prop where
  | nil {gap : List Event} (hgap : Gap gap) : Parts t [] gap
  | cons {part : Part} {parts : List Part} {gap events rest : List Event} (hgap : Gap gap)
      (hfield : Field part (part.text t).toList events) (hrest : Parts t parts rest) :
      Parts t (part :: parts) (gap ++ (events ++ rest))

/-- The events of a test whose parts have no white space at their ends: its attributes in any order,
its frames in decimal digits, and its parts in any order, those without text left out or not. -/
inductive Entry : Test → List Event → Prop where
  | element {t : Test} (tag : Tag) {parts : List Part} {frames : List Char} {content : List Event}
      (hname : tag.name = Element.test.name.toList)
      (hframes : Integer.Digits 10 t.frames.toNat frames) (hne : frames ≠ [])
      (hattributes : tag.attributes.Perm [("filename".toList, t.file.toList),
        ("system".toList, t.system.toList), ("runframes".toList, frames)])
      (hnodup : parts.Nodup) (hmissing : ∀ part, part ∉ parts → part.text t = "")
      (htrim : ∀ part : Part, Reader.trimmed (part.text t) = part.text t)
      (hparts : Parts t parts content) :
      Entry t (.opening tag :: (content ++ [.closing tag.name]))

variable {EntryEvents : Test → List Event → Prop} {t : Test} {part : Part} {parts : List Part}
  {code : List Char}

theorem Around.append (hfront : Around EntryEvents tests front)
    (hback : Around EntryEvents later back) :
    Around EntryEvents (tests ++ later) (front ++ back) := by
  induction hfront with
  | nil => exact hback
  | text _ ih => exact .text ih
  | element tag hname hcontent _ _ ih =>
    rw [List.append_assoc, List.append_assoc]
    exact .element tag hname hcontent ih
  | entry hentry _ ih =>
    rw [List.append_assoc]
    exact .entry hentry ih

theorem around_ofContent (content : List Char) :
    Around EntryEvents [] (Event.ofContent content) := by
  simp only [Event.ofContent]
  split
  · exact .nil
  · exact .text .nil

/-- Whatever surrounds entries adds nothing to what they add. -/
theorem Around.adds (hentry : ∀ t events, EntryEvents t events → Adds [t] events)
    (h : Around EntryEvents tests events) : Adds tests events := by
  induction h with
  | nil => exact adds_nil
  | text _ ih => exact (adds_text _).append ih
  | element tag hname _ _ ihcontent ihrest =>
    exact (ihcontent.element tag hname).append ihrest
  | entry hform _ ih => exact (hentry _ _ hform).append ih

theorem Gap.changes (h : Gap events) : Changes id events :=
  (Around.adds (fun _ _ hnone => hnone.elim) h).changes

/-- The element of a part adds its code to the part. -/
theorem Field.changes (h : Field part code events) : Changes (part.add code) events := by
  cases h with
  | element pieces hname => exact changes_part part pieces hname
  | empty =>
    have hid : part.add [] = id := funext part.add_nil
    exact hid ▸ adds_nil.changes

theorem Parts.changes (h : Parts t parts events) : Changes (fill t parts) events := by
  induction h with
  | nil hgap => exact hgap.changes
  | cons hgap hfield _ ih => exact hgap.changes.append (hfield.changes.append ih)

/-- The element of a test adds the test. -/
theorem Entry.adds (h : Entry t events) : Adds [t] events := by
  cases h with
  | element tag hname hframes hne hattributes hnodup hmissing htrim hparts =>
    have hadds := adds_test hparts.changes tag hname
    rwa [testOf_perm (hframes.readUInt32 hne) hattributes,
      finished_fill hnodup hmissing htrim] at hadds

end Events

/-- **The events of tests are read back**: the automaton gives exactly the tests, in order, whatever
surrounds them and their parts. -/
theorem ofEvents_of_around (h : Events.Around Events.Entry tests events) :
    ofEvents events = tests := by
  have hpush (r : Reader) (tests : List Test) :
      (tests.foldl Reader.push r).complete = tests.reverse ++ r.complete := by
    induction tests generalizing r with
    | nil => rfl
    | cons t tests ih => simp [ih, Reader.push]
  have hrun := h.adds (fun _ _ => Events.Entry.adds) {} ⟨rfl, rfl⟩
  rw [ofEvents, hrun, hpush]
  simp

end NesMachine.Suite
