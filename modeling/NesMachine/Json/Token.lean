import NesMachine.Text.Blank
import NesMachine.Text.Integer

/-!
# JSON tokens

The punctuation, words, strings and numbers of a JSON text. A string may hold halves of surrogate
pairs that do not fit together: such a string has a form but no text.
-/

namespace NesMachine.Json

/-- A number as it is written. -/
structure Number where
  negative : Bool
  /-- The digits before the point. -/
  whole : List Char
  /-- Whether a fraction or an exponent follows. -/
  plain : Bool
  deriving DecidableEq, Repr

/-- A token. -/
inductive Token where
  | openBrace
  | closeBrace
  | openBracket
  | closeBracket
  | comma
  | colon
  | null
  | bool (value : Bool)
  | number (value : Number)
  /-- A string; its text is missing if it has none. -/
  | string (text : Option String)
  deriving DecidableEq, Repr

/-! ## Strings -/

/-- A piece of a string: a character, or a code unit given by its number. -/
inductive Piece where
  | char (c : Char)
  | unit (n : Nat)
  deriving DecidableEq, Repr

/-- The character behind a short escape. -/
def shortEscape? : Char → Option Char
  | '"' => some '"'
  | '\\' => some '\\'
  | '/' => some '/'
  | 'b' => some '\x08'
  | 'f' => some '\x0c'
  | 'n' => some '\n'
  | 'r' => some '\r'
  | 't' => some '\t'
  | _ => none

/-- The code unit of four hexadecimal digits. -/
def codeUnit? (a b c d : Char) : Option Nat := do
  let a ← Integer.digitIn? 16 a
  let b ← Integer.digitIn? 16 b
  let c ← Integer.digitIn? 16 c
  let d ← Integer.digitIn? 16 d
  return ((a * 16 + b) * 16 + c) * 16 + d

/-- The pieces of a string up to its closing quote, and the text behind it. -/
def stringPieces : List Char → Option (List Piece × List Char)
  | [] => none
  | '"' :: rest => some ([], rest)
  | '\\' :: 'u' :: a :: b :: c :: d :: rest => do
    let n ← codeUnit? a b c d
    let (pieces, rest) ← stringPieces rest
    return (.unit n :: pieces, rest)
  | '\\' :: e :: rest => do
    let c ← shortEscape? e
    let (pieces, rest) ← stringPieces rest
    return (.char c :: pieces, rest)
  | c :: rest =>
    if c.toNat < 0x20 || c = '\\' then none
    else do
      let (pieces, rest) ← stringPieces rest
      return (.char c :: pieces, rest)

/-- Whether a code unit is the first half of a pair. -/
def isHighHalf (n : Nat) : Bool := 0xD800 ≤ n && n ≤ 0xDBFF

/-- Whether a code unit is the second half of a pair. -/
def isLowHalf (n : Nat) : Bool := 0xDC00 ≤ n && n ≤ 0xDFFF

/-- The characters of some pieces, if the halves among them pair up. -/
def joinPieces : List Piece → Option (List Char)
  | [] => some []
  | .char c :: rest => (joinPieces rest).map (c :: ·)
  | .unit high :: .unit low :: rest =>
    if isHighHalf high then
      if isLowHalf low then
        (joinPieces rest).map (Char.ofNat (0x10000 + (high - 0xD800) * 0x400 + (low - 0xDC00)) :: ·)
      else none
    else if isLowHalf high then none
    else (joinPieces (.unit low :: rest)).map (Char.ofNat high :: ·)
  | .unit n :: rest =>
    if isHighHalf n || isLowHalf n then none else (joinPieces rest).map (Char.ofNat n :: ·)

/-! ## Numbers -/

/-- The digits at the start of a text, and the text behind them. -/
def digits (text : List Char) : List Char × List Char :=
  (text.takeWhile Char.isDigit, text.dropWhile Char.isDigit)

/-- Skips a fraction, if there is one; tells whether there was. -/
def skipFraction : List Char → Option (Bool × List Char)
  | '.' :: rest =>
    let (found, rest) := digits rest
    if found.isEmpty then none else some (true, rest)
  | text => some (false, text)

/-- Skips an exponent, if there is one; tells whether there was. -/
def skipExponent : List Char → Option (Bool × List Char)
  | e :: rest =>
    if e = 'e' || e = 'E' then
      let rest := match rest with
        | '+' :: rest | '-' :: rest => rest
        | rest => rest
      let (found, rest) := digits rest
      if found.isEmpty then none else some (true, rest)
    else some (false, e :: rest)
  | [] => some (false, [])

/-- Reads a number without its sign. A zero cannot lead other digits. -/
def unsigned (negative : Bool) (text : List Char) : Option (Number × List Char) := do
  let (whole, rest) := digits text
  if whole.isEmpty || (whole.head? = some '0' && whole.length > 1) then none
  let (fraction, rest) ← skipFraction rest
  let (exponent, rest) ← skipExponent rest
  return (⟨negative, whole, !fraction && !exponent⟩, rest)

/-! ## Texts -/

/-- The token at the start of a text, and the text behind it. -/
def token? : List Char → Option (Token × List Char)
  | '{' :: rest => some (.openBrace, rest)
  | '}' :: rest => some (.closeBrace, rest)
  | '[' :: rest => some (.openBracket, rest)
  | ']' :: rest => some (.closeBracket, rest)
  | ',' :: rest => some (.comma, rest)
  | ':' :: rest => some (.colon, rest)
  | 'n' :: 'u' :: 'l' :: 'l' :: rest => some (.null, rest)
  | 't' :: 'r' :: 'u' :: 'e' :: rest => some (.bool true, rest)
  | 'f' :: 'a' :: 'l' :: 's' :: 'e' :: rest => some (.bool false, rest)
  | '"' :: rest => do
    let (pieces, rest) ← stringPieces rest
    return (.string ((joinPieces pieces).map String.ofList), rest)
  | '-' :: rest => do
    let (n, rest) ← unsigned true rest
    return (.number n, rest)
  | text => do
    let (n, rest) ← unsigned false text
    return (.number n, rest)

/-- The tokens of a text; every token takes a character at least, which bounds their number. -/
def tokensWithin : Nat → List Char → Option (List Token)
  | 0, text => if (text.dropWhile Text.isSpace).isEmpty then some [] else none
  | bound + 1, text => do
    let text := text.dropWhile Text.isSpace
    if text.isEmpty then return []
    let (token, rest) ← token? text
    return token :: (← tokensWithin bound rest)

/-- The tokens of a text. -/
def tokens (text : List Char) : Option (List Token) := tokensWithin text.length text

end NesMachine.Json
