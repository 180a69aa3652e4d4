import NesMachine.Text.Integer

/-!
# References in XML

A reference stands for one character: `&lt;` for one that markup needs, `&#65;` or `&#x41;` for one
given by its number. A text is resolved as a whole or not at all.
-/

namespace NesMachine.Xml

/-- The character of a number in digits without a sign. There is none of number zero. -/
def numbered? (base : Nat) (digits : List Char) : Option Char :=
  if digits.head? = some '+' then none
  else
    match Integer.readNat base 0x10FFFF digits with
    | .ok n => if n ≠ 0 ∧ n.isValidChar then some (Char.ofNat n) else none
    | .error _ => none

/-- The character that the text between `&` and `;` stands for. -/
def referent? : List Char → Option Char
  | '#' :: 'x' :: digits => numbered? 16 digits
  | '#' :: digits => numbered? 10 digits
  | ['l', 't'] => some '<'
  | ['g', 't'] => some '>'
  | ['a', 'm', 'p'] => some '&'
  | ['a', 'p', 'o', 's'] => some '\x27'
  | ['q', 'u', 'o', 't'] => some '"'
  | _ => none

/-- A text with its references resolved; `begun` is a reference that is still open, its last
character first. -/
def resolveFrom (begun : Option (List Char)) : List Char → Option (List Char)
  | [] => if begun.isNone then some [] else none
  | c :: rest =>
    match begun with
    | none => if c = '&' then resolveFrom (some []) rest else (resolveFrom none rest).map (c :: ·)
    | some name =>
      if c = ';' then do
        let referent ← referent? name.reverse
        return referent :: (← resolveFrom none rest)
      else if c = '&' then none
      else resolveFrom (some (c :: name)) rest

/-- A text with its references resolved, if all of them stand for something. -/
def resolve? (text : List Char) : Option (List Char) := resolveFrom none text

end NesMachine.Xml
