import Prepaid.Decimal.Power

/-!
# SHA-256

The digest of a row of bytes. The message is padded to whole
blocks of 64 bytes; each block is spread into a schedule of 64 words, which are
mixed into eight words of state one after the other.
-/

namespace Prepaid.Digest

/-- A word of 32 bits; addition wraps around. -/
abbrev Word : Type := UInt32

namespace Sha256

/-- The first 32 bits of the fractional parts of the cube roots of the first 64 primes. -/
def roundConstants : List Word :=
  [0x428a2f98, 0x71374491, 0xb5c0fbcf, 0xe9b5dba5, 0x3956c25b, 0x59f111f1, 0x923f82a4, 0xab1c5ed5,
    0xd807aa98, 0x12835b01, 0x243185be, 0x550c7dc3, 0x72be5d74, 0x80deb1fe, 0x9bdc06a7, 0xc19bf174,
    0xe49b69c1, 0xefbe4786, 0x0fc19dc6, 0x240ca1cc, 0x2de92c6f, 0x4a7484aa, 0x5cb0a9dc, 0x76f988da,
    0x983e5152, 0xa831c66d, 0xb00327c8, 0xbf597fc7, 0xc6e00bf3, 0xd5a79147, 0x06ca6351, 0x14292967,
    0x27b70a85, 0x2e1b2138, 0x4d2c6dfc, 0x53380d13, 0x650a7354, 0x766a0abb, 0x81c2c92e, 0x92722c85,
    0xa2bfe8a1, 0xa81a664b, 0xc24b8b70, 0xc76c51a3, 0xd192e819, 0xd6990624, 0xf40e3585, 0x106aa070,
    0x19a4c116, 0x1e376c08, 0x2748774c, 0x34b0bcb5, 0x391c0cb3, 0x4ed8aa4a, 0x5b9cca4f, 0x682e6ff3,
    0x748f82ee, 0x78a5636f, 0x84c87814, 0x8cc70208, 0x90befffa, 0xa4506ceb, 0xbef9a3f7, 0xc67178f2]

/-- The state between two blocks. -/
structure State where
  a : Word
  b : Word
  c : Word
  d : Word
  e : Word
  f : Word
  g : Word
  h : Word
  deriving DecidableEq, Repr

/-- The first 32 bits of the fractional parts of the square roots of the first eight primes. -/
def State.initial : State :=
  ⟨0x6a09e667, 0xbb67ae85, 0x3c6ef372, 0xa54ff53a, 0x510e527f, 0x9b05688c, 0x1f83d9ab, 0x5be0cd19⟩

/-- The sums of corresponding words. -/
def State.add (left right : State) : State :=
  ⟨left.a + right.a, left.b + right.b, left.c + right.c, left.d + right.d,
    left.e + right.e, left.f + right.f, left.g + right.g, left.h + right.h⟩

/-- The words of a state in their order. -/
def State.words (state : State) : List Word :=
  [state.a, state.b, state.c, state.d, state.e, state.f, state.g, state.h]

/-- Turns a word to the right, for fewer than 32 bits and at least one. -/
def rotate (bits : Word) (word : Word) : Word :=
  (word >>> bits) ||| (word <<< (32 - bits))

/-- The word that is mixed in after those in `recent`, of which the latest comes first. -/
def extend (recent : List Word) : List Word :=
  let early := recent.getD 14 0
  let late := recent.getD 1 0
  let spreadEarly := rotate 7 early ^^^ rotate 18 early ^^^ (early >>> 3)
  let spreadLate := rotate 17 late ^^^ rotate 19 late ^^^ (late >>> 10)
  (recent.getD 15 0 + spreadEarly + recent.getD 6 0 + spreadLate) :: recent

/-- The schedule of a block of sixteen words. -/
def schedule (block : List Word) : List Word :=
  (Nat.repeat extend 48 block.reverse).reverse

/-- Mixes a word of the schedule and its constant into the state. -/
def round (state : State) (step : Word × Word) : State :=
  let choice := (state.e &&& state.f) ^^^ (~~~state.e &&& state.g)
  let majority := (state.a &&& state.b) ^^^ (state.a &&& state.c) ^^^ (state.b &&& state.c)
  let first := state.h + (rotate 6 state.e ^^^ rotate 11 state.e ^^^ rotate 25 state.e) + choice +
    step.1 + step.2
  let second := (rotate 2 state.a ^^^ rotate 13 state.a ^^^ rotate 22 state.a) + majority
  ⟨first + second, state.a, state.b, state.c, state.d + first, state.e, state.f, state.g⟩

/-- Mixes a block into the state. -/
def compress (state : State) (block : List Word) : State :=
  state.add ((roundConstants.zip (schedule block)).foldl round state)

/-- The bytes of a natural, the highest first. -/
def bytesOfNat : (width : Nat) → Nat → List UInt8
  | 0, _ => []
  | width + 1, value => UInt8.ofNat (value / twoTo (8 * width)) :: bytesOfNat width value

/-- A message with a one bit, zeros and its length in bits behind it, in whole blocks. -/
def pad (message : List UInt8) : List UInt8 :=
  message ++ 0x80 :: (List.replicate ((119 - message.length % 64) % 64) 0 ++
    bytesOfNat 8 (8 * message.length))

/-- Four bytes at a time as words, the highest byte first. -/
def wordsOfBytes : List UInt8 → List Word
  | b0 :: b1 :: b2 :: b3 :: rest =>
    (b0.toUInt32 <<< 24 ||| b1.toUInt32 <<< 16 ||| b2.toUInt32 <<< 8 ||| b3.toUInt32) ::
      wordsOfBytes rest
  | _ => []

/-- Mixes so many blocks of sixteen words into the state. -/
def absorb : (blocks : Nat) → List Word → State → State
  | 0, _, state => state
  | blocks + 1, words, state => absorb blocks (words.drop 16) (compress state (words.take 16))

end Sha256

/-- The SHA-256 digest of a message, 32 bytes. -/
def sha256 (message : List UInt8) : List UInt8 :=
  let words := Sha256.wordsOfBytes (Sha256.pad message)
  (Sha256.absorb (words.length / 16) words .initial).words.flatMap fun word =>
    Sha256.bytesOfNat 4 word.toNat

end Prepaid.Digest
