import NesMachine.Suite.Test
import NesMachine.Text.Integer
import NesMachine.Xml.Event

/-!
# Suite files

A suite file is an XML document. A `test` element gives the file, the system and the frames in its
attributes, and the digest and the input in elements within. Text counts for the digest or the input
while such an element is open, and nothing else in the document counts.
-/

namespace NesMachine.Suite

open Xml (Event Tag)

/-- The elements of a suite file that count. -/
inductive Element where
  | test
  | digest
  | input
  deriving DecidableEq, Repr

namespace Element

/-- The name of an element. -/
def name : Element → String
  | test => "test"
  | digest => "tvsha1"
  | input => "recordedinput"

/-- The element of a name. -/
def ofName? (name : List Char) : Option Element :=
  [test, digest, input].find? (·.name.toList = name)

end Element

/-- What has been read of a suite. -/
structure Reader where
  /-- The tests that are complete, last first. -/
  complete : List Test := []
  /-- The test being read. -/
  current : Option Test := none
  inDigest : Bool := false
  inInput : Bool := false
  deriving Repr

namespace Reader

/-- A test with an attribute of its element. A number that cannot be read is zero. -/
def setAttribute (t : Test) (name value : List Char) : Test :=
  if name = "filename".toList then { t with file := String.ofList value }
  else if name = "system".toList then { t with system := String.ofList value }
  else if name = "runframes".toList then
    { t with frames := (Integer.readUInt32 value).toOption.getD 0 }
  else t

/-- The test that a tag opens. -/
def testOf (tag : Tag) : Test :=
  tag.attributes.foldl (fun t (name, value) => setAttribute t name value) {}

/-- A text without white space at its ends. -/
def trimmed (text : String) : String := String.ofList (Text.trim Text.isBlank text.toList)

/-- Adds text to the digest of a test. -/
def addDigest (text : List Char) (t : Test) : Test :=
  { t with digest := t.digest ++ String.ofList text }

/-- Adds text to the input of a test. -/
def addInput (text : List Char) (t : Test) : Test :=
  { t with input := t.input ++ String.ofList text }

/-- A test that is complete. -/
def finished (t : Test) : Test :=
  { t with digest := trimmed t.digest, input := trimmed t.input }

/-- Takes an event. -/
def take (r : Reader) : Event → Reader
  | .opening tag =>
    match Element.ofName? tag.name with
    | some .test => { r with current := some (testOf tag) }
    | some .digest => { r with inDigest := true }
    | some .input => { r with inInput := true }
    | none => r
  | .text content =>
    if r.inDigest then { r with current := r.current.map (addDigest content) }
    else if r.inInput then { r with current := r.current.map (addInput content) }
    else r
  | .closing name =>
    match Element.ofName? name with
    | some .test =>
      { r with complete := (r.current.map finished).toList ++ r.complete, current := none }
    | some .digest => { r with inDigest := false }
    | some .input => { r with inInput := false }
    | none => r

end Reader

/-- The tests that the events of a document describe. -/
def ofEvents (events : List Event) : List Test :=
  (events.foldl Reader.take {}).complete.reverse

/-- The tests of a suite file, if it is a well-formed document. -/
def parse? (text : String) : Option (List Test) :=
  (Event.ofText? text.toList).map ofEvents

end NesMachine.Suite
