import NesMachine.Text.Casing

/-!
# Texts in small letters

Every capital letter becomes its small one. The capital I with a dot keeps its dot as a mark, and a
sigma takes its final form where it ends a word.
-/

namespace NesMachine.Text

/-- Whether the next character that counts has a case. -/
def casedNext (text : List Char) : Bool :=
  match text.dropWhile isCaseIgnorable with
  | c :: _ => isCased c
  | [] => false

/-- The small letters of a character; `before` is the text in front of it, last character first,
and `behind` the text that follows. -/
def lowercaseChar (before : List Char) (c : Char) (behind : List Char) : List Char :=
  if c = 'Σ' then
    [if casedNext before && !casedNext behind then 'ς' else 'σ']
  else if c = 'İ' then ['i', '\u0307']
  else [smallLetter c]

/-- Goes on with a text after `before`, whose small letters are `small`, both last character
first. -/
def lowercaseFrom (before small : List Char) : List Char → List Char
  | [] => small.reverse
  | c :: behind =>
    lowercaseFrom (c :: before) ((lowercaseChar before c behind).reverse ++ small) behind

/-- A text in small letters. -/
def lowercase (text : List Char) : List Char := lowercaseFrom [] [] text

end NesMachine.Text
