/-!
# Pieces of text

White space as Unicode defines it, texts cut at separators and line ends, and the search for a piece
of text.
-/

namespace NesMachine.Text

/-- The ranges of white space. -/
def blankRanges : List (Nat × Nat) :=
  [(0x09, 0x0D), (0x20, 0x20), (0x85, 0x85), (0xA0, 0xA0), (0x1680, 0x1680), (0x2000, 0x200A),
    (0x2028, 0x2029), (0x202F, 0x202F), (0x205F, 0x205F), (0x3000, 0x3000)]

/-- Whether one of some ranges holds a character. -/
def inRanges (ranges : List (Nat × Nat)) (c : Char) : Bool :=
  ranges.any fun (first, last) => first ≤ c.toNat && c.toNat ≤ last

/-- Whether a character is white space. -/
def isBlank (c : Char) : Bool := inRanges blankRanges c

/-- Whether a character is white space in a data format: a space, a tab or the end of a line. -/
def isSpace (c : Char) : Bool := c = ' ' || c = '\t' || c = '\n' || c = '\r'

/-- The text without the characters of a class at its end. -/
def trimEnd (drop : Char → Bool) (text : List Char) : List Char :=
  (text.reverse.dropWhile drop).reverse

/-- The text without the characters of a class at both ends. -/
def trim (drop : Char → Bool) (text : List Char) : List Char :=
  trimEnd drop (text.dropWhile drop)

/-! ## Cutting -/

/-- The piece whose characters were collected last to first, unless it is empty. -/
def piece {α : Type} (collected : List α) : List (List α) :=
  if collected.isEmpty then [] else [collected.reverse]

/-- The pieces between separators, a piece already begun in front of them. -/
def wordsFrom (separator : Char → Bool) (begun : List Char) : List Char → List (List Char)
  | [] => piece begun
  | c :: rest =>
    if separator c then piece begun ++ wordsFrom separator [] rest
    else wordsFrom separator (c :: begun) rest

/-- The pieces between separators, empty pieces left out. -/
def words (separator : Char → Bool) (text : List Char) : List (List Char) :=
  wordsFrom separator [] text

/-- The lines of a text, a line already begun in front of them. -/
def linesFrom {α : Type} [DecidableEq α] (feed ret : α) (begun : List α) : List α → List (List α)
  | [] => piece begun
  | c :: rest =>
    if c = feed then
      let line := if begun.head? = some ret then begun.tail else begun
      line.reverse :: linesFrom feed ret [] rest
    else linesFrom feed ret (c :: begun) rest

/-- The lines of a text. A line feed ends a line, and a carriage return before it belongs to the
line end; behind the last line feed there is only a line if there is text. -/
def lines (text : List Char) : List (List Char) := linesFrom '\n' '\r' [] text

/-- The lines of a string of bytes. -/
def byteLines (bytes : List UInt8) : List (List UInt8) := linesFrom 10 13 [] bytes

/-! ## Searching -/

/-- The text from the first occurrence of a piece on. -/
def dropUntil? (piece : List Char) : List Char → Option (List Char)
  | [] => if piece.isEmpty then some [] else none
  | c :: rest =>
    if piece.isPrefixOf (c :: rest) then some (c :: rest) else dropUntil? piece rest

/-- The text behind the first occurrence of a piece. -/
def after? (piece text : List Char) : Option (List Char) :=
  (dropUntil? piece text).map (·.drop piece.length)

/-- The text before the first occurrence of a piece, and the text behind it. -/
def cut? (piece text : List Char) : Option (List Char × List Char) :=
  (dropUntil? piece text).map fun rest =>
    (text.take (text.length - rest.length), rest.drop piece.length)

/-- Whether a piece occurs in a text. -/
def contains (text piece : List Char) : Bool := (dropUntil? piece text).isSome

end NesMachine.Text
