import NesMachine.Digest.Sha1

/-!
# Base64

Three bytes are written as four characters of a 64-letter alphabet; a short last group is filled
with `=`. `pictureDigest` is the text by which test suites name a picture.
-/

namespace NesMachine.Digest

namespace Base64

/-- The character for six bits. -/
def letter (six : Nat) : Char :=
  if six < 26 then Char.ofNat (65 + six)
  else if six < 52 then Char.ofNat (71 + six)
  else if six < 62 then Char.ofNat (six - 4)
  else if six = 62 then '+'
  else '/'

/-- The characters of a list of bytes. -/
def encode : List UInt8 → List Char
  | [] => []
  | [x] =>
    let n := x.toNat * 16
    [letter (n / 64), letter (n % 64), '=', '=']
  | [x, y] =>
    let n := (x.toNat * 256 + y.toNat) * 4
    [letter (n / 4096), letter (n / 64 % 64), letter (n % 64), '=']
  | x :: y :: z :: rest =>
    let n := (x.toNat * 256 + y.toNat) * 256 + z.toNat
    letter (n / 262144) :: letter (n / 4096 % 64) :: letter (n / 64 % 64) :: letter (n % 64) ::
      encode rest

end Base64

/-- The SHA-1 digest of some bytes, in base64. -/
def sha1Base64 (bytes : Bytes) : String :=
  String.ofList (Base64.encode (Sha1.digest bytes).toList)

/-- Every group of four bytes without its last byte; an incomplete group at the end is dropped. -/
def dropEveryFourth : List UInt8 → List UInt8
  | r :: g :: b :: _ :: rest => r :: g :: b :: dropEveryFourth rest
  | _ => []

/-- The digest of a picture's colours alone, its opacity bytes left out. -/
def sha1Base64OfColours (rgba : Bytes) : String :=
  sha1Base64 (dropEveryFourth rgba.toList).toArray

end NesMachine.Digest
