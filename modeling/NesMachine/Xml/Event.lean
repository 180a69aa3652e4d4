import NesMachine.Xml.Tag

/-!
# XML events

A document as the tags that open and close its elements and the texts between them. Comments,
instructions and document types are left out, as are elements written as one tag. A text is trimmed;
a reference ends it and adds nothing; a character data section is taken as it is. Every closing tag
has to close the element opened last, but elements may stay open to the end.
-/

namespace NesMachine.Xml

/-- An event. -/
inductive Event where
  /-- An element opens. -/
  | opening (tag : Tag)
  | text (content : List Char)
  /-- An element closes. -/
  | closing (name : List Char)
  deriving DecidableEq, Repr

namespace Event

/-! ## Document types -/

/-- The length of a document type up to its closing bracket; `depth` brackets are open. Brackets
count wherever they stand, in quotes and comments as well. -/
def doctypeLength? (depth length : Nat) : List Char → Option Nat
  | [] => none
  | c :: rest =>
    if c = '<' then doctypeLength? (depth + 1) (length + 1) rest
    else if c = '>' then
      if depth = 0 then some length else doctypeLength? (depth - 1) (length + 1) rest
    else doctypeLength? depth (length + 1) rest

/-- The text behind a document type that has a name. -/
def doctype? (text : List Char) : Option (List Char) := do
  let length ← doctypeLength? 0 0 text
  let content := text.take length
  if (content.take 7).map Char.toLower = "doctype".toList &&
      (content.drop 7).any (!Text.isSpace ·) then
    some (text.drop (length + 1))
  else none

/-! ## Markup -/

/-- The length of a tag up to its closing bracket, which does not count in quotes. -/
def tagLength? (quote : Option Char) (length : Nat) : List Char → Option Nat
  | [] => none
  | c :: rest =>
    match quote with
    | some q => tagLength? (if c = q then none else some q) (length + 1) rest
    | none =>
      if c = '>' then some length
      else tagLength? (if c = '"' || c = '\x27' then some c else none) (length + 1) rest

/-- The text of a tag, and the text behind its closing bracket. -/
def tagText? (text : List Char) : Option (List Char × List Char) :=
  (tagLength? none 0 text).map fun length => (text.take length, text.drop (length + 1))

/-- The name in a closing tag: without white space behind it, unless there is nothing else. -/
def closingName (content : List Char) : List Char :=
  let name := Text.trimEnd Text.isSpace content
  if name.isEmpty then content else name

/-- Reads markup behind its opening bracket. -/
def markup? : List Char → Option (List Event × List Char)
  | [] => none
  | '!' :: '-' :: '-' :: rest => (Text.after? ['-', '-', '>'] rest).map fun rest => ([], rest)
  | '!' :: '[' :: 'C' :: 'D' :: 'A' :: 'T' :: 'A' :: '[' :: rest =>
    (Text.cut? [']', ']', '>'] rest).map fun (content, rest) => ([.text content], rest)
  | '!' :: rest => (doctype? rest).map fun rest => ([], rest)
  | '?' :: '>' :: _ => none
  | '?' :: rest => (Text.after? ['?', '>'] rest).map fun rest => ([], rest)
  | '/' :: rest =>
    (tagText? rest).map fun (content, rest) => ([.closing (closingName content)], rest)
  | document =>
    (tagText? document).map fun (content, rest) =>
      (if content.getLast? = some '/' then [] else [.opening (Tag.ofText content)], rest)

/-! ## Documents -/

/-- Whether a character belongs to text between markup and references. -/
def isPlain (c : Char) : Bool := c != '<' && c != '&'

/-- Passes over a reference behind its `&`. -/
def reference? (text : List Char) : Option (List Char) :=
  match text.dropWhile (fun c => isPlain c && c != ';') with
  | ';' :: rest => some rest
  | _ => none

/-- The event of a text, unless it is blank. -/
def ofContent (content : List Char) : List Event :=
  let content := Text.trim Text.isSpace content
  if content.isEmpty then [] else [.text content]

/-- Reads the next piece of a document. -/
def next? : List Char → Option (List Event × List Char)
  | '<' :: rest => markup? rest
  | '&' :: rest => (reference? rest).map fun rest => ([], rest)
  | document => some (ofContent (document.takeWhile isPlain), document.dropWhile isPlain)

/-- The events of a document, behind those read before, last first. Every piece takes a character
at least, which bounds their number. -/
def readWithin : Nat → List Event → List Char → Option (List Event)
  | _, found, [] => some found.reverse
  | 0, _, _ => none
  | bound + 1, found, document => do
    let (events, rest) ← next? document
    readWithin bound (events.reverse ++ found) rest

/-- Whether every closing tag closes the element opened last; `opened` are the names of the open
elements, innermost first. -/
def nested (opened : List (List Char)) : List Event → Bool
  | [] => true
  | .opening tag :: rest => nested (tag.name :: opened) rest
  | .text _ :: rest => nested opened rest
  | .closing name :: rest =>
    match opened with
    | innermost :: opened => name = innermost && nested opened rest
    | [] => false

/-- The events of a document, if it is well formed. A byte order mark may start it. -/
def ofText? (document : List Char) : Option (List Event) := do
  let document := if document.head? = some '\uFEFF' then document.tail else document
  let events ← readWithin document.length [] document
  if nested [] events then return events else none

end Event

end NesMachine.Xml
