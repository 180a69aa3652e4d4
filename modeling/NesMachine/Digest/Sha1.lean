/-!
# SHA-1

The digest that names a picture: the message is padded to whole 64-byte blocks, each block is
stretched to eighty words, and eighty rounds fold the words into five running words.
-/

namespace NesMachine.Digest

/-- A string of bytes: a file, a memory bank, a picture. -/
abbrev Bytes := Array UInt8

namespace Sha1

/-- The five running words. -/
structure Chain where
  a : UInt32
  b : UInt32
  c : UInt32
  d : UInt32
  e : UInt32

/-- The words before the first block. -/
def Chain.start : Chain :=
  ⟨0x67452301, 0xEFCDAB89, 0x98BADCFE, 0x10325476, 0xC3D2E1F0⟩

/-- Rotation of a word to the left by an amount between 1 and 31. -/
def rotateLeft (w : UInt32) (amount : UInt32) : UInt32 :=
  (w <<< amount) ||| (w >>> (32 - amount))

/-- The lowest `width` bytes of a number, highest first. -/
def bigEndian : Nat → Nat → List UInt8
  | 0, _ => []
  | width + 1, n => bigEndian width (n / 256) ++ [UInt8.ofNat n]

/-- The message followed by a one bit, zero bits, and its length in bits as eight bytes; the result
fills whole blocks. -/
def padded (message : Bytes) : Bytes :=
  let zeros := (119 - message.size % 64) % 64
  (message.push 0x80 ++ Array.replicate zeros 0) ++ (bigEndian 8 (8 * message.size)).toArray

/-- The word of four bytes at a position. -/
def wordAt (bytes : Bytes) (pos : Nat) : UInt32 :=
  let byte := fun k => (bytes.getD (pos + k) 0).toUInt32
  (byte 0 <<< 24) ||| (byte 1 <<< 16) ||| (byte 2 <<< 8) ||| byte 3

/-- The eighty words of a block: sixteen read from it, each later one mixed from four before. -/
def schedule (bytes : Bytes) (start : Nat) : Array UInt32 :=
  let given := (Array.range 16).map fun k => wordAt bytes (start + 4 * k)
  (List.range' 16 64).foldl (fun words k =>
    let word := fun back => words.getD (k - back) 0
    words.push (rotateLeft (word 3 ^^^ word 8 ^^^ word 14 ^^^ word 16) 1)) given

/-- The mixing function and constant of a round. -/
def roundMix (round : Nat) (c : Chain) : UInt32 × UInt32 :=
  if round < 20 then ((c.b &&& c.c) ||| (~~~c.b &&& c.d), 0x5A827999)
  else if round < 40 then (c.b ^^^ c.c ^^^ c.d, 0x6ED9EBA1)
  else if round < 60 then ((c.b &&& c.c) ||| (c.b &&& c.d) ||| (c.c &&& c.d), 0x8F1BBCDC)
  else (c.b ^^^ c.c ^^^ c.d, 0xCA62C1D6)

/-- One round with the word scheduled for it. -/
def step (c : Chain) (round : Nat) (word : UInt32) : Chain :=
  let (mixed, constant) := roundMix round c
  ⟨rotateLeft c.a 5 + mixed + c.e + constant + word, c.a, rotateLeft c.b 30, c.c, c.d⟩

/-- Folds one block into the running words. -/
def absorb (bytes : Bytes) (c : Chain) (start : Nat) : Chain :=
  let words := schedule bytes start
  let r := (List.range 80).foldl (fun r round => step r round (words.getD round 0)) c
  ⟨c.a + r.a, c.b + r.b, c.c + r.c, c.d + r.d, c.e + r.e⟩

/-- The twenty bytes of the digest. -/
def digest (message : Bytes) : Bytes :=
  let bytes := padded message
  let c := (List.range (bytes.size / 64)).foldl (fun c k => absorb bytes c (64 * k)) Chain.start
  ([c.a, c.b, c.c, c.d, c.e].flatMap fun w => bigEndian 4 w.toNat).toArray

end Sha1

end NesMachine.Digest
