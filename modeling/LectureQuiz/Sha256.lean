/-!
# SHA-256

The digest of FIPS 180-4 over a list of bytes.
-/

namespace LectureQuiz.Sha256

/-- The eight chaining words. -/
structure State where
  a : UInt32
  b : UInt32
  c : UInt32
  d : UInt32
  e : UInt32
  f : UInt32
  g : UInt32
  h : UInt32

/-- The state before the first block. -/
def initial : State :=
  ⟨0x6a09e667, 0xbb67ae85, 0x3c6ef372, 0xa54ff53a, 0x510e527f, 0x9b05688c,
    0x1f83d9ab, 0x5be0cd19⟩

/-- The constants of the sixty-four rounds. -/
def roundConstants : List UInt32 :=
  [0x428a2f98, 0x71374491, 0xb5c0fbcf, 0xe9b5dba5, 0x3956c25b, 0x59f111f1,
    0x923f82a4, 0xab1c5ed5, 0xd807aa98, 0x12835b01, 0x243185be, 0x550c7dc3,
    0x72be5d74, 0x80deb1fe, 0x9bdc06a7, 0xc19bf174, 0xe49b69c1, 0xefbe4786,
    0x0fc19dc6, 0x240ca1cc, 0x2de92c6f, 0x4a7484aa, 0x5cb0a9dc, 0x76f988da,
    0x983e5152, 0xa831c66d, 0xb00327c8, 0xbf597fc7, 0xc6e00bf3, 0xd5a79147,
    0x06ca6351, 0x14292967, 0x27b70a85, 0x2e1b2138, 0x4d2c6dfc, 0x53380d13,
    0x650a7354, 0x766a0abb, 0x81c2c92e, 0x92722c85, 0xa2bfe8a1, 0xa81a664b,
    0xc24b8b70, 0xc76c51a3, 0xd192e819, 0xd6990624, 0xf40e3585, 0x106aa070,
    0x19a4c116, 0x1e376c08, 0x2748774c, 0x34b0bcb5, 0x391c0cb3, 0x4ed8aa4a,
    0x5b9cca4f, 0x682e6ff3, 0x748f82ee, 0x78a5636f, 0x84c87814, 0x8cc70208,
    0x90befffa, 0xa4506ceb, 0xbef9a3f7, 0xc67178f2]

def rotateRight (word : UInt32) (count : UInt32) : UInt32 :=
  (word >>> count) ||| (word <<< (32 - count))

def smallSigma0 (word : UInt32) : UInt32 :=
  rotateRight word 7 ^^^ rotateRight word 18 ^^^ (word >>> 3)

def smallSigma1 (word : UInt32) : UInt32 :=
  rotateRight word 17 ^^^ rotateRight word 19 ^^^ (word >>> 10)

/-- The big-endian words of the bytes. -/
def wordsOf : List UInt8 → List UInt32
  | first :: second :: third :: fourth :: rest =>
      ((first.toUInt32 <<< 24) ||| (second.toUInt32 <<< 16) |||
        (third.toUInt32 <<< 8) ||| fourth.toUInt32) :: wordsOf rest
  | _ => []

/-- The words that follow the last sixteen ones, each computed from the sixteen
in front of it. -/
def extendSchedule (count : Nat) (recent : List UInt32) : List UInt32 :=
  match count, recent with
  | count + 1, w0 :: w1 :: w2 :: w3 :: w4 :: w5 :: w6 :: w7 :: w8 :: w9 ::
      w10 :: w11 :: w12 :: w13 :: w14 :: w15 :: _ =>
      let next := smallSigma1 w14 + w9 + smallSigma0 w1 + w0
      next :: extendSchedule count
        [w1, w2, w3, w4, w5, w6, w7, w8, w9, w10, w11, w12, w13, w14, w15, next]
  | _, _ => []

/-- The sixty-four words of a block. -/
def schedule (block : List UInt32) : List UInt32 :=
  block ++ extendSchedule 48 block

def bigSigma0 (word : UInt32) : UInt32 :=
  rotateRight word 2 ^^^ rotateRight word 13 ^^^ rotateRight word 22

def bigSigma1 (word : UInt32) : UInt32 :=
  rotateRight word 6 ^^^ rotateRight word 11 ^^^ rotateRight word 25

def choose (x y z : UInt32) : UInt32 :=
  (x &&& y) ^^^ ((~~~x) &&& z)

def majority (x y z : UInt32) : UInt32 :=
  (x &&& y) ^^^ (x &&& z) ^^^ (y &&& z)

def round (state : State) (input : UInt32 × UInt32) : State :=
  let first := state.h + bigSigma1 state.e + choose state.e state.f state.g +
    input.1 + input.2
  let second := bigSigma0 state.a + majority state.a state.b state.c
  ⟨first + second, state.a, state.b, state.c, state.d + first, state.e, state.f,
    state.g⟩

def compress (state : State) (block : List UInt32) : State :=
  let mixed := (roundConstants.zip (schedule block)).foldl round state
  ⟨state.a + mixed.a, state.b + mixed.b, state.c + mixed.c, state.d + mixed.d,
    state.e + mixed.e, state.f + mixed.f, state.g + mixed.g, state.h + mixed.h⟩

/-- The state after the words, taken sixteen at a time. -/
def absorb (blocks : Nat) (state : State) (words : List UInt32) : State :=
  match blocks with
  | 0 => state
  | blocks + 1 =>
      absorb blocks (compress state (words.take 16)) (words.drop 16)

/-- The bytes of a number, the most significant first. -/
def bigEndian (count value : Nat) : List UInt8 :=
  (List.range count).reverse.map fun place => (value >>> (8 * place)).toUInt8

/-- The message with a closing bit, zeros up to a whole block, and its length in
bits. -/
def pad (message : List UInt8) : List UInt8 :=
  message ++ 0x80 :: (List.replicate ((119 - message.length % 64) % 64) 0 ++
    bigEndian 8 (8 * message.length))

/-- The words of the digest of a message. -/
def digestWords (message : List UInt8) : List UInt32 :=
  let words := wordsOf (pad message)
  let state := absorb (words.length / 16) initial words
  [state.a, state.b, state.c, state.d, state.e, state.f, state.g, state.h]

/-- The thirty-two bytes of the digest of a message. -/
def digest (message : List UInt8) : List UInt8 :=
  (digestWords message).flatMap fun word => bigEndian 4 word.toNat

/-- Two hexadecimal digits for each byte. -/
def hexText (bytes : List UInt8) : String :=
  String.ofList <| bytes.flatMap fun byte =>
    [Nat.digitChar (byte.toNat / 16), Nat.digitChar (byte.toNat % 16)]

/-- The digest of a text's encoding, in hexadecimal digits. -/
def ofText (text : String) : String :=
  hexText (digest text.toUTF8.data.toList)

/-- The first eight bytes of the digest of a text's encoding, as a number. -/
def leadingNumber (text : String) : Nat :=
  ((digest text.toUTF8.data.toList).take 8).foldl
    (fun value byte => 256 * value + byte.toNat) 0

end LectureQuiz.Sha256
