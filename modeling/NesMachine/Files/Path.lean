/-!
# File paths

A path is a text of names between slashes. Empty names and single dots count for nothing. The last
name is the file's, unless it is a double dot; its extension starts at its last dot, which must not
be its first character.
-/

namespace NesMachine

/-- A path of a file or directory. -/
structure Path where
  text : String
  deriving DecidableEq, Repr, Inhabited

namespace Path

/-- The pieces between the slashes of a text, given from its end. -/
def pieces (text : List Char) : List (List Char) :=
  text.foldr (fun c acc =>
    match acc with
    | [] => [[c]]
    | first :: rest => if c = '/' then [] :: first :: rest else (c :: first) :: rest) [[]]

/-- The steps of a path: what stands between its slashes, where something does. -/
def steps (p : Path) : List (List Char) := (pieces p.text.toList).filter (!·.isEmpty)

/-- The names on the way of a path: its steps without single dots. -/
def names (p : Path) : List (List Char) := p.steps.filter (· != ['.'])

/-- Whether a path starts at the root. -/
def isAbsolute (p : Path) : Bool := p.text.toList.head? = some '/'

/-- Whether a path ends in a slash. -/
def endsInSlash (p : Path) : Bool := p.text.toList.getLast? = some '/'

/-- The text up to the end of the last name, what counts for nothing behind it left out. -/
def upToName (text : List Char) : List Char :=
  trimBack text.reverse |>.reverse
where
  /-- Drops slashes and lone dots from the front of a text given backwards. -/
  trimBack : List Char → List Char
    | '/' :: rest => trimBack rest
    | '.' :: '/' :: rest => trimBack rest
    | rest => rest

/-- The file's name, if the path names a file. -/
def fileName? (p : Path) : Option (List Char) :=
  match p.names.getLast? with
  | some name => if name = ['.', '.'] then none else some name
  | none => none

/-- A file's name without its extension. -/
def stemOf (name : List Char) : List Char :=
  match name.reverse.dropWhile (· != '.') with
  | [] => name
  | _ :: before => if before.isEmpty then name else before.reverse

/-- The file's name without its extension; empty if the path names no file. -/
def stem (p : Path) : List Char :=
  match p.fileName? with
  | some name => stemOf name
  | none => []

/-- The path with another extension; unchanged if the path names no file. The old extension goes
first. If that leaves a double dot at the end, as it does of `..b`, no name is left to extend. -/
def withExtension (p : Path) (extension : String) : Path :=
  match p.fileName? with
  | none => p
  | some name =>
    let text := upToName p.text.toList
    let kept := text.take (text.length - (name.length - (stemOf name).length))
    let isLast := text.length = p.text.length
    ⟨String.ofList kept ++ "." ++ if stemOf name = ['.'] ∧ isLast then "" else extension⟩

/-- A path below a directory. An absolute path stays as it is. -/
def join (dir p : Path) : Path :=
  if p.isAbsolute then p
  else if dir.text.isEmpty || dir.endsInSlash then ⟨dir.text ++ p.text⟩
  else ⟨dir.text ++ "/" ++ p.text⟩

/-- The directory of a path, empty for a lone name; a path without names has none. -/
def parent? (p : Path) : Option Path :=
  match p.names.getLast? with
  | none => none
  | some name =>
    let text := upToName p.text.toList
    let before := text.take (text.length - name.length)
    let kept := upToName before
    some ⟨String.ofList (if kept.isEmpty && before.head? = some '/' then ['/'] else kept)⟩

/-- A path and the directories above it, at most `count` of them, the nearest first. -/
def ancestorsWithin : Nat → Path → List Path
  | 0, _ => []
  | count + 1, p =>
    if p.text.isEmpty then []
    else p :: (p.parent?.map (ancestorsWithin count)).getD []

/-- A path and the directories above it, the nearest first. -/
def ancestors (p : Path) : List Path := ancestorsWithin (p.names.length + 1) p

end Path

end NesMachine
