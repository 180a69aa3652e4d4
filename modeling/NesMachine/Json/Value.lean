import NesMachine.Json.Token
import NesMachine.Text.Radix

/-!
# JSON values

Values as trees, read from tokens and written as compact text. The reader keeps the arrays and
objects that are still open on a stack of its own, so nesting has no limit.
-/

namespace NesMachine

/-- A JSON value. Members keep their order, and a key may repeat. -/
inductive Json where
  | null
  | bool (value : Bool)
  | number (value : Json.Number)
  /-- A string; its text is missing if it has none. -/
  | string (text : Option String)
  | array (items : List Json)
  | object (members : List (Option String × Json))

namespace Json

/-! ## Reading -/

/-- An array or object that is still open, with what it holds so far, last first. -/
inductive Open where
  | array (items : List Json)
  /-- An object, and the key whose value comes next. -/
  | object (members : List (Option String × Json)) (key : Option String)

/-- What the reader waits for. -/
inductive Expect where
  | value
  /-- The first item of an array, or its end. -/
  | itemOrEnd
  /-- The first key of an object, or its end. -/
  | keyOrEnd (members : List (Option String × Json))
  /-- A key behind a comma. -/
  | key (members : List (Option String × Json))
  | colon
  /-- What follows a finished value: a comma or an end. -/
  | more (value : Json)

/-- The reader between two tokens: the open arrays and objects, innermost first, and what may come
next. While an object waits for a key it is not among the open ones. -/
structure Reader where
  stack : List Open
  expect : Expect

/-- A value that is complete at its first token. -/
def ofToken? : Token → Option Json
  | .null => some .null
  | .bool b => some (.bool b)
  | .number n => some (.number n)
  | .string s => some (.string s)
  | _ => none

/-- Starts a value. -/
def Reader.start (stack : List Open) (token : Token) : Option Reader :=
  match token with
  | .openBracket => some ⟨.array [] :: stack, .itemOrEnd⟩
  | .openBrace => some ⟨stack, .keyOrEnd []⟩
  | token => (ofToken? token).map fun value => ⟨stack, .more value⟩

/-- Takes one token. -/
def Reader.take (r : Reader) (token : Token) : Option Reader :=
  match r.expect, token with
  | .value, token => Reader.start r.stack token
  | .itemOrEnd, .closeBracket =>
    match r.stack with
    | _ :: stack => some ⟨stack, .more (.array [])⟩
    | [] => none
  | .itemOrEnd, token => Reader.start r.stack token
  | .keyOrEnd members, .closeBrace => some ⟨r.stack, .more (.object members.reverse)⟩
  | .keyOrEnd members, .string key => some ⟨.object members key :: r.stack, .colon⟩
  | .key members, .string key => some ⟨.object members key :: r.stack, .colon⟩
  | .colon, .colon => some { r with expect := .value }
  | .more value, .comma =>
    match r.stack with
    | .array items :: stack => some ⟨.array (value :: items) :: stack, .value⟩
    | .object members key :: stack => some ⟨stack, .key ((key, value) :: members)⟩
    | [] => none
  | .more value, .closeBracket =>
    match r.stack with
    | .array items :: stack => some ⟨stack, .more (.array (value :: items).reverse)⟩
    | _ => none
  | .more value, .closeBrace =>
    match r.stack with
    | .object members key :: stack =>
      some ⟨stack, .more (.object ((key, value) :: members).reverse)⟩
    | _ => none
  | _, _ => none

/-- The value that some tokens spell. -/
def ofTokens? (tokens : List Token) : Option Json := do
  let r ← tokens.foldlM Reader.take ⟨[], .value⟩
  match r with
  | ⟨[], .more value⟩ => some value
  | _ => none

/-- The value that a text spells. -/
def parse? (text : String) : Option Json := do
  ofTokens? (← tokens text.toList)

/-! ## Writing -/

/-- A character within a string: quotes, backslashes and control characters are escaped. -/
def escape (c : Char) : List Char :=
  match c with
  | '"' => ['\\', '"']
  | '\\' => ['\\', '\\']
  | '\x08' => ['\\', 'b']
  | '\x0c' => ['\\', 'f']
  | '\n' => ['\\', 'n']
  | '\r' => ['\\', 'r']
  | '\t' => ['\\', 't']
  | c =>
    if c.toNat < 0x20 then '\\' :: 'u' :: (Radix.fixed 16 4 c.toNat).map Char.toLower
    else [c]

/-- A text in quotes. -/
def quote (text : String) : String :=
  "\"" ++ String.ofList (text.toList.flatMap escape) ++ "\""

end Json

end NesMachine
