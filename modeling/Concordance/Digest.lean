/-! # SHA-256

The digest of a text's bytes, as eight words of thirty-two bits.
-/

namespace Concordance.Digest

/-- The first thirty-two bits of the fractional parts of the cube roots of the first primes. -/
def roundConstants : List UInt32 := [
  0x428a2f98, 0x71374491, 0xb5c0fbcf, 0xe9b5dba5, 0x3956c25b, 0x59f111f1, 0x923f82a4, 0xab1c5ed5,
  0xd807aa98, 0x12835b01, 0x243185be, 0x550c7dc3, 0x72be5d74, 0x80deb1fe, 0x9bdc06a7, 0xc19bf174,
  0xe49b69c1, 0xefbe4786, 0x0fc19dc6, 0x240ca1cc, 0x2de92c6f, 0x4a7484aa, 0x5cb0a9dc, 0x76f988da,
  0x983e5152, 0xa831c66d, 0xb00327c8, 0xbf597fc7, 0xc6e00bf3, 0xd5a79147, 0x06ca6351, 0x14292967,
  0x27b70a85, 0x2e1b2138, 0x4d2c6dfc, 0x53380d13, 0x650a7354, 0x766a0abb, 0x81c2c92e, 0x92722c85,
  0xa2bfe8a1, 0xa81a664b, 0xc24b8b70, 0xc76c51a3, 0xd192e819, 0xd6990624, 0xf40e3585, 0x106aa070,
  0x19a4c116, 0x1e376c08, 0x2748774c, 0x34b0bcb5, 0x391c0cb3, 0x4ed8aa4a, 0x5b9cca4f, 0x682e6ff3,
  0x748f82ee, 0x78a5636f, 0x84c87814, 0x8cc70208, 0x90befffa, 0xa4506ceb, 0xbef9a3f7, 0xc67178f2]

/-- The eight words that the digest of a message is built up in. -/
structure Words where
  a : UInt32
  b : UInt32
  c : UInt32
  d : UInt32
  e : UInt32
  f : UInt32
  g : UInt32
  h : UInt32
  deriving Repr, DecidableEq

namespace Words

/-- The first thirty-two bits of the fractional parts of the square roots of the first primes. -/
def initial : Words :=
  ⟨0x6a09e667, 0xbb67ae85, 0x3c6ef372, 0xa54ff53a, 0x510e527f, 0x9b05688c, 0x1f83d9ab, 0x5be0cd19⟩

/-- Add word by word, modulo two to the thirty-second. -/
def add (x y : Words) : Words :=
  ⟨x.a + y.a, x.b + y.b, x.c + y.c, x.d + y.d, x.e + y.e, x.f + y.f, x.g + y.g, x.h + y.h⟩

def toList (w : Words) : List UInt32 := [w.a, w.b, w.c, w.d, w.e, w.f, w.g, w.h]

end Words

/-- Rotate a word to the right. -/
def rotate (x : UInt32) (n : UInt32) : UInt32 :=
  (x >>> n) ||| (x <<< (32 - n))

/-- One round, with its scheduled word and its constant added up. -/
def round (w : Words) (input : UInt32) : Words :=
  let s1 := rotate w.e 6 ^^^ rotate w.e 11 ^^^ rotate w.e 25
  let choice := (w.e &&& w.f) ^^^ ((w.e ^^^ 0xffffffff) &&& w.g)
  let t1 := w.h + s1 + choice + input
  let s0 := rotate w.a 2 ^^^ rotate w.a 13 ^^^ rotate w.a 22
  let majority := (w.a &&& w.b) ^^^ (w.a &&& w.c) ^^^ (w.b &&& w.c)
  ⟨t1 + (s0 + majority), w.a, w.b, w.c, w.d + t1, w.e, w.f, w.g⟩

/-- The next scheduled word from the sixteen before it, latest first. -/
def scheduleNext (latest : List UInt32) : UInt32 :=
  let at_ (n : Nat) := latest.getD n 0
  let s0 := rotate (at_ 14) 7 ^^^ rotate (at_ 14) 18 ^^^ (at_ 14 >>> 3)
  let s1 := rotate (at_ 1) 17 ^^^ rotate (at_ 1) 19 ^^^ (at_ 1 >>> 10)
  at_ 15 + s0 + at_ 6 + s1

/-- The schedule of a block: its sixteen words, and those that follow from them. -/
def schedule (block : List UInt32) : List UInt32 :=
  (Nat.repeat (fun latest => scheduleNext latest :: latest) 48 block.reverse).reverse

/-- Take one block of sixteen words into the digest. -/
def absorb (state : Words) (block : List UInt32) : Words :=
  state.add (((schedule block).zip roundConstants).foldl
    (fun w (input, constant) => round w (input + constant)) state)

/-- Bytes as words, the most significant byte first. -/
def words : List UInt8 → List UInt32
  | a :: b :: c :: d :: rest =>
      ((a.toUInt32 <<< 24) ||| (b.toUInt32 <<< 16) ||| (c.toUInt32 <<< 8) ||| d.toUInt32)
        :: words rest
  | _ => []

def bigEndian (n width : Nat) : List UInt8 :=
  (List.range width).reverse.map fun k => UInt8.ofNat (n >>> (8 * k))

/-- The message with a one bit, zeros up to a whole block, and its length in bits. -/
def padded (message : List UInt8) : List UInt8 :=
  let zeros := (119 - message.length % 64) % 64
  message ++ 0x80 :: List.replicate zeros 0 ++ bigEndian (8 * message.length) 8

/-- Words in blocks of sixteen. -/
def blocks (ws : List UInt32) : List (List UInt32) :=
  (List.range (ws.length / 16)).map fun k => (ws.drop (16 * k)).take 16

def digest (message : List UInt8) : Words :=
  (blocks (words (padded message))).foldl absorb Words.initial

def utf8 (s : String) : List UInt8 :=
  s.toUTF8.toList

/-- A word as eight hexadecimal digits. -/
def hexWord (w : UInt32) : List Char :=
  (List.range 8).reverse.map fun k => Nat.digitChar ((w.toNat >>> (4 * k)) % 16)

def hex (s : String) : String :=
  String.ofList ((digest (utf8 s)).toList.flatMap hexWord)

/-- The first word of a text's digest, as a number. -/
def firstWord (s : String) : Nat :=
  (digest (utf8 s)).a.toNat

end Concordance.Digest
