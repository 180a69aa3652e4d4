import NesMachine.Digest.Sha1
import NesMachine.Files.Error
import NesMachine.Files.Path

/-!
# A tree of files

Files and directories below a root, and a working directory from which relative paths start. A path
is followed name by name. Every name but the last has to be a directory that is there; the last may
be missing, and each operation has its own rules for it.
-/

namespace NesMachine.Files

open Digest (Bytes)

/-- The names from the root to an entry. -/
abbrev Key := List String

/-- The directory from which relative paths start. -/
def workDir : Key := ["tmp", "work"]

/-- The file that takes whatever is written to it and stays empty. -/
def nullDevice : Key := ["dev", "null"]

/-- A tree of files. A new one has the directories that every computer has. -/
structure Tree where
  files : List (Key × Bytes) := [(nullDevice, #[])]
  /-- The directories below the root. -/
  dirs : List Key :=
    [workDir, ["tmp"], ["bin"], ["dev"], ["etc"], ["home"], ["proc"], ["root"], ["sys"], ["usr"],
      ["var"]]
  deriving Repr

/-- Where a path leads. -/
inductive Target where
  /-- A directory, for a path that ends in dots or at the root. -/
  | dir (key : Key)
  /-- A name in a directory, with or without slashes behind it. -/
  | entry (dir : Key) (name : String) (slash : Bool)
  deriving DecidableEq, Repr

namespace Tree

/-- The bytes of a file. -/
def file? (t : Tree) (key : Key) : Option Bytes := t.files.lookup key

/-- Whether an entry is a file. -/
def isFile (t : Tree) (key : Key) : Bool := (t.file? key).isSome

/-- Whether an entry is a directory. -/
def isDir (t : Tree) (key : Key) : Bool := key.isEmpty || t.dirs.contains key

/-- Stores a file. -/
def put (t : Tree) (key : Key) (bytes : Bytes) : Tree :=
  if key = nullDevice then t
  else { t with files := (key, bytes) :: t.files.filter (·.1 != key) }

/-! ## Following paths -/

/-- The most bytes of a name. -/
def maxName : Nat := 255

/-- The most bytes of a path. -/
def maxPath : Nat := 4095

/-- The key of a name in a directory. -/
def keyOf (dir : Key) (name : String) : Except Error Key :=
  if name.utf8ByteSize > maxName then .error .nameTooLong else .ok (dir ++ [name])

/-- Steps from a directory into another one. The root is above itself. -/
def enter (t : Tree) (dir : Key) (name : String) : Except Error Key :=
  if name = "." then .ok dir
  else if name = ".." then .ok dir.dropLast
  else do
    let key ← keyOf dir name
    if t.isDir key then return key
    else throw (if t.isFile key then .notDirectory else .notFound)

/-- Follows a path up to its last name. -/
def follow (t : Tree) (p : Path) : Except Error Target := do
  if p.text.toList.contains '\x00' then throw .nulInName
  if p.text.isEmpty then throw .notFound
  if p.text.utf8ByteSize > maxPath then throw .nameTooLong
  let steps := p.steps.map String.ofList
  let dir ← steps.dropLast.foldlM t.enter (if p.isAbsolute then [] else workDir)
  match steps.getLast? with
  | none => return .dir dir
  | some name =>
    if name = "." || name = ".." then return .dir (← t.enter dir name)
    else return .entry dir name p.endsInSlash

/-! ## Operations -/

/-- Reads a file. -/
def read (t : Tree) (p : Path) : Except Error Bytes := do
  match ← t.follow p with
  | .dir _ => throw .isDirectory
  | .entry dir name slash =>
    let key ← keyOf dir name
    if t.isDir key then throw .isDirectory
    match t.file? key with
    | none => throw .notFound
    | some bytes => if slash then throw .notDirectory else return bytes

/-- The key of a file that is to be written. A name with a slash behind it is no file's, whatever is
there. -/
def fileKey (t : Tree) (p : Path) : Except Error Key := do
  match ← t.follow p with
  | .dir _ | .entry _ _ true => throw .isDirectory
  | .entry dir name false =>
    let key ← keyOf dir name
    if t.isDir key then throw .isDirectory else return key

/-- Writes a whole file. -/
def write (t : Tree) (p : Path) (bytes : Bytes) : Except Error Tree := do
  return t.put (← t.fileKey p) bytes

/-- Writes behind the end of a file, which is made if it is missing. -/
def append (t : Tree) (p : Path) (bytes : Bytes) : Except Error Tree := do
  let key ← t.fileKey p
  return t.put key ((t.file? key).getD #[] ++ bytes)

/-- Makes a directory, unless it is there. The directory above has to be there. -/
def createDir (t : Tree) (p : Path) : Except Error Tree := do
  match ← t.follow p with
  | .dir _ => return t
  | .entry dir name _ =>
    let key ← keyOf dir name
    if t.isDir key then return t
    if t.isFile key then throw .alreadyExists
    return { t with dirs := key :: t.dirs }

/-- Makes the first of some directories, each of which lies in the next one. Those that it needs are
made before it, and stay if it cannot be made. -/
def createFirst (t : Tree) : List Path → Except Error Unit × Tree
  | [] => (.ok (), t)
  | p :: above =>
    match t.createDir p with
    | .ok t => (.ok (), t)
    | .error .notFound =>
      match t.createFirst above with
      | (.error e, t) => (.error e, t)
      | (.ok (), t) =>
        match t.createDir p with
        | .ok t => (.ok (), t)
        | .error e => (.error e, t)
    | .error e => (.error e, t)

/-- Makes a directory and those above it that are missing. -/
def createDirs (t : Tree) (p : Path) : Except Error Unit × Tree := t.createFirst p.ancestors

/-- The files below the working directory, by their names from there. -/
def workFiles (t : Tree) : List (String × Bytes) :=
  t.files.filterMap fun (key, bytes) =>
    if workDir.isPrefixOf key then some ("/".intercalate (key.drop workDir.length), bytes) else none

end Tree

end NesMachine.Files
