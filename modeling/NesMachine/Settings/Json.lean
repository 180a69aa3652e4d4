import NesMachine.Json.Value
import NesMachine.Settings.Basic

/-!
# Settings files

Settings are kept as a JSON object with a member for each of them, or as an array of their values.
A member that is missing leaves the default; unknown members are ignored; a known one may not
repeat.
-/

namespace NesMachine.Settings

/-- The members of a settings object. -/
inductive Key where
  | saveDir
  | errorLog
  | tv
  | eventCapacity
  deriving DecidableEq, Repr

namespace Key

/-- All keys, in the order in which they are written. -/
def all : List Key := [saveDir, errorLog, tv, eventCapacity]

/-- The name of a key. -/
def name : Key → String
  | saveDir => "save_dir"
  | errorLog => "error_log"
  | tv => "tv_system"
  | eventCapacity => "debug_event_capacity"

/-- The key of a name. -/
def ofName? (name : String) : Option Key := all.find? (·.name = name)

end Key

/-! ## Reading -/

/-- An optional path. -/
def readPath? : Json → Option (Option Path)
  | .null => some none
  | .string (some text) => some (some ⟨text⟩)
  | _ => none

/-- An optional television system: its word, or an object that holds the word as a key of `null`. -/
def readTv? : Json → Option (Option TvSystem)
  | .null => some none
  | .string (some word) => (TvSystem.ofKeyword? word).map some
  | .object [(some word, .null)] => (TvSystem.ofKeyword? word).map some
  | _ => none

/-- A count, written as a whole number without sign, fraction or exponent. -/
def readCount? : Json → Option UInt64
  | .number ⟨false, whole, true⟩ => (Integer.readUInt64 whole).toOption
  | _ => none

/-- Settings with one of them read from a value. -/
def set? (s : Settings) (key : Key) (value : Json) : Option Settings :=
  match key with
  | .saveDir => (readPath? value).map fun saveDir => { s with saveDir }
  | .errorLog => (readPath? value).map fun errorLog => { s with errorLog }
  | .tv => (readTv? value).map fun tv => { s with tv }
  | .eventCapacity => (readCount? value).map fun eventCapacity => { s with eventCapacity }

/-- Settings with the members of an object read into them; `seen` are the keys read before. -/
def setMembers? (s : Settings) (seen : List Key) : List (Option String × Json) → Option Settings
  | [] => some s
  | (none, _) :: _ => none
  | (some name, value) :: rest =>
    match Key.ofName? name with
    | none => setMembers? s seen rest
    | some key =>
      if seen.contains key then none
      else do
        let s ← s.set? key value
        setMembers? s (key :: seen) rest

/-- Settings with the first of them read from the items of an array. -/
def setItems? (s : Settings) : List Key → List Json → Option Settings
  | _, [] => some s
  | [], _ :: _ => none
  | key :: keys, value :: rest => do
    let s ← s.set? key value
    setItems? s keys rest

/-- The settings that a value spells. -/
def ofJson? : Json → Option Settings
  | .object members => setMembers? {} [] members
  | .array items => setItems? {} Key.all items
  | _ => none

/-- The settings that a text spells. -/
def parse? (text : String) : Option Settings := do
  ofJson? (← Json.parse? text)

/-! ## Writing -/

/-- An optional text in quotes. -/
def writeText : Option String → String
  | some text => Json.quote text
  | none => "null"

/-- The value of a setting. -/
def write (s : Settings) : Key → String
  | .saveDir => writeText (s.saveDir.map Path.text)
  | .errorLog => writeText (s.errorLog.map Path.text)
  | .tv => writeText (s.tv.map TvSystem.keyword)
  | .eventCapacity => toString s.eventCapacity.toNat

/-- Settings as an object without spaces. -/
def render (s : Settings) : String :=
  "\x7b" ++ ",".intercalate (Key.all.map fun key => Json.quote key.name ++ ":" ++ s.write key) ++
    "\x7d"

end NesMachine.Settings
