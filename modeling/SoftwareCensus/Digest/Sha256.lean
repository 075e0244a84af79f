/-!
# SHA-256

The digest of a text, by which two contents are told apart: padding to blocks of 64 bytes, a
schedule of 64 words for every block, and 64 rounds of mixing.
-/

namespace SoftwareCensus.Sha256

/-! ## Constants -/

/-- The words of the state before the first block. -/
def initialWords : List UInt32 :=
  [0x6a09e667, 0xbb67ae85, 0x3c6ef372, 0xa54ff53a, 0x510e527f, 0x9b05688c, 0x1f83d9ab, 0x5be0cd19]

/-- The word that each round adds. -/
def roundWords : List UInt32 :=
  [0x428a2f98, 0x71374491, 0xb5c0fbcf, 0xe9b5dba5, 0x3956c25b, 0x59f111f1, 0x923f82a4, 0xab1c5ed5,
   0xd807aa98, 0x12835b01, 0x243185be, 0x550c7dc3, 0x72be5d74, 0x80deb1fe, 0x9bdc06a7, 0xc19bf174,
   0xe49b69c1, 0xefbe4786, 0x0fc19dc6, 0x240ca1cc, 0x2de92c6f, 0x4a7484aa, 0x5cb0a9dc, 0x76f988da,
   0x983e5152, 0xa831c66d, 0xb00327c8, 0xbf597fc7, 0xc6e00bf3, 0xd5a79147, 0x06ca6351, 0x14292967,
   0x27b70a85, 0x2e1b2138, 0x4d2c6dfc, 0x53380d13, 0x650a7354, 0x766a0abb, 0x81c2c92e, 0x92722c85,
   0xa2bfe8a1, 0xa81a664b, 0xc24b8b70, 0xc76c51a3, 0xd192e819, 0xd6990624, 0xf40e3585, 0x106aa070,
   0x19a4c116, 0x1e376c08, 0x2748774c, 0x34b0bcb5, 0x391c0cb3, 0x4ed8aa4a, 0x5b9cca4f, 0x682e6ff3,
   0x748f82ee, 0x78a5636f, 0x84c87814, 0x8cc70208, 0x90befffa, 0xa4506ceb, 0xbef9a3f7, 0xc67178f2]

/-! ## Padding -/

/-- The bytes of a number, the highest first. -/
def bytesOf (count n : Nat) : List UInt8 :=
  (List.range count).reverse.map fun i => UInt8.ofNat (n >>> (8 * i))

/-- Pads a message to whole blocks: a mark, zeros and the number of bits. -/
def pad (message : List UInt8) : List UInt8 :=
  let zeros := (119 - message.length % 64) % 64
  message ++ 0x80 :: List.replicate zeros 0 ++ bytesOf 8 (8 * message.length)

/-- The words of four bytes each, the highest byte first. -/
def wordsOf : List UInt8 → List UInt32
  | a :: b :: c :: d :: rest =>
    (a.toUInt32 <<< 24 ||| b.toUInt32 <<< 16 ||| c.toUInt32 <<< 8 ||| d.toUInt32) :: wordsOf rest
  | _ => []

/-! ## Mixing -/

/-- Rotates a word to the right. -/
def rotate (x : UInt32) (n : UInt32) : UInt32 := (x >>> n) ||| (x <<< (32 - n))

/-- Adds words to the schedule of a block. The latest word comes first. -/
def extend : Nat → List UInt32 → List UInt32
  | 0, words => words
  | count + 1, words =>
    let early := words.getD 14 0
    let late := words.getD 1 0
    let s0 := rotate early 7 ^^^ rotate early 18 ^^^ (early >>> 3)
    let s1 := rotate late 17 ^^^ rotate late 19 ^^^ (late >>> 10)
    extend count ((words.getD 15 0 + s0 + words.getD 6 0 + s1) :: words)

/-- The schedule of a block of 16 words. -/
def schedule (block : List UInt32) : List UInt32 := (extend 48 block.reverse).reverse

/-- What is mixed. -/
structure State where
  a : UInt32
  b : UInt32
  c : UInt32
  d : UInt32
  e : UInt32
  f : UInt32
  g : UInt32
  h : UInt32

namespace State

/-- The state with these words. -/
def ofWords (words : List UInt32) : State :=
  let word (i : Nat) : UInt32 := words.getD i 0
  ⟨word 0, word 1, word 2, word 3, word 4, word 5, word 6, word 7⟩

/-- The words of a state. -/
def words (s : State) : List UInt32 := [s.a, s.b, s.c, s.d, s.e, s.f, s.g, s.h]

/-- One round, with a word of the schedule and the word of the round. -/
def round (s : State) (w k : UInt32) : State :=
  let s1 := rotate s.e 6 ^^^ rotate s.e 11 ^^^ rotate s.e 25
  let choice := (s.e &&& s.f) ^^^ (~~~s.e &&& s.g)
  let t1 := s.h + s1 + choice + k + w
  let s0 := rotate s.a 2 ^^^ rotate s.a 13 ^^^ rotate s.a 22
  let majority := (s.a &&& s.b) ^^^ (s.a &&& s.c) ^^^ (s.b &&& s.c)
  { a := t1 + (s0 + majority), b := s.a, c := s.b, d := s.c, e := s.d + t1, f := s.e, g := s.f,
    h := s.g }

/-- Mixes a block into a state. -/
def mix (s : State) (block : List UInt32) : State :=
  let mixed := ((schedule block).zip roundWords).foldl (fun t (w, k) => t.round w k) s
  ofWords ((s.words.zip mixed.words).map fun (x, y) => x + y)

/-- Mixes blocks of 16 words into a state. The first argument bounds their number. -/
def mixAll : Nat → State → List UInt32 → State
  | 0, s, _ => s
  | _, s, [] => s
  | count + 1, s, words => mixAll count (s.mix (words.take 16)) (words.drop 16)

end State

/-! ## Digests -/

/-- The words of the digest of a message. -/
def digest (message : List UInt8) : List UInt32 :=
  let words := wordsOf (pad message)
  (State.mixAll words.length (.ofWords initialWords) words).words

/-- The hexadecimal digits of a word. -/
def hexDigits (w : UInt32) : List Char :=
  [7, 6, 5, 4, 3, 2, 1, 0].map fun i => Nat.digitChar (w.toNat >>> (4 * i) % 16)

/-- The digest of a text in hexadecimal digits. -/
def hex (text : String) : String :=
  String.ofList ((digest text.toUTF8.toList).flatMap hexDigits)

end SoftwareCensus.Sha256
