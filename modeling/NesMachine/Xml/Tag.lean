import NesMachine.Text.Blank
import NesMachine.Xml.Reference

/-!
# XML tags

A tag has a name and attributes. An attribute that is not well formed is passed over, and so is one
whose name was there before: reading goes on where the next name can start.
-/

namespace NesMachine.Xml

/-- An opening tag. -/
structure Tag where
  name : List Char
  /-- Names and values, in order. -/
  attributes : List (List Char × List Char)
  deriving DecidableEq, Repr

namespace Tag

/-- Whether a character belongs to the name of an attribute, its first one apart. -/
def isNamed (c : Char) : Bool := !Text.isSpace c && c != '='

/-- The text from the next white space on. -/
def skipWord (text : List Char) : List Char := text.dropWhile (!Text.isSpace ·)

/-- What follows the equals sign of an attribute. -/
inductive Value where
  /-- A text in quotes, and the text behind it. -/
  | quoted (value rest : List Char)
  /-- A value without quotes, and the text behind it. -/
  | bare (rest : List Char)
  /-- No value, or one without its second quote. -/
  | missing
  deriving DecidableEq, Repr

/-- Reads what follows an equals sign. -/
def readValue (text : List Char) : Value :=
  match text.dropWhile Text.isSpace with
  | [] => .missing
  | quote :: rest =>
    if quote = '"' || quote = '\x27' then
      match rest.dropWhile (· != quote) with
      | [] => .missing
      | _ :: behind => .quoted (rest.takeWhile (· != quote)) behind
    else .bare (skipWord (quote :: rest))

/-- Reads attributes; `seen` are the names read before. Every one takes a character at least, which
bounds their number. A value with a reference that stands for nothing is empty. -/
def readAttributes : Nat → List (List Char) → List Char → List (List Char × List Char)
  | 0, _, _ => []
  | bound + 1, seen, text =>
    match text.dropWhile Text.isSpace with
    | [] => []
    | first :: rest =>
      let name := first :: rest.takeWhile isNamed
      match (rest.dropWhile isNamed).dropWhile Text.isSpace with
      | '=' :: rest =>
        if seen.contains name then readAttributes bound seen (skipWord rest)
        else
          match readValue rest with
          | .quoted value rest =>
            (name, (resolve? value).getD []) :: readAttributes bound (name :: seen) rest
          | .bare rest => readAttributes bound (name :: seen) rest
          | .missing => []
      | rest => readAttributes bound seen rest

/-- The tag with a text between its angle brackets. -/
def ofText (text : List Char) : Tag where
  name := text.takeWhile (!Text.isSpace ·)
  attributes :=
    let rest := skipWord text
    readAttributes rest.length [] rest

end Tag

end NesMachine.Xml
