import SegmentRetrieval.Bytes

/-! # The SHA-256 hash function

The message is padded to whole blocks of 64 bytes, and each block updates a state of eight words in
64 rounds.  A hasher takes the message piece by piece and keeps only the state, the bytes of the
block that is not yet full, and the length so far.  A digest is 32 bytes long (`length_digest`).
-/

namespace SegmentRetrieval.Sha256

/-- The eight words carried from block to block. -/
structure State where
  a : UInt32
  b : UInt32
  c : UInt32
  d : UInt32
  e : UInt32
  f : UInt32
  g : UInt32
  h : UInt32
deriving DecidableEq, Repr

/-- The state before the first block. -/
def initial : State :=
  ⟨0x6a09e667, 0xbb67ae85, 0x3c6ef372, 0xa54ff53a, 0x510e527f, 0x9b05688c, 0x1f83d9ab, 0x5be0cd19⟩

/-- The constants of the 64 rounds. -/
def roundConstants : List UInt32 :=
  [0x428a2f98, 0x71374491, 0xb5c0fbcf, 0xe9b5dba5, 0x3956c25b, 0x59f111f1, 0x923f82a4, 0xab1c5ed5,
   0xd807aa98, 0x12835b01, 0x243185be, 0x550c7dc3, 0x72be5d74, 0x80deb1fe, 0x9bdc06a7, 0xc19bf174,
   0xe49b69c1, 0xefbe4786, 0x0fc19dc6, 0x240ca1cc, 0x2de92c6f, 0x4a7484aa, 0x5cb0a9dc, 0x76f988da,
   0x983e5152, 0xa831c66d, 0xb00327c8, 0xbf597fc7, 0xc6e00bf3, 0xd5a79147, 0x06ca6351, 0x14292967,
   0x27b70a85, 0x2e1b2138, 0x4d2c6dfc, 0x53380d13, 0x650a7354, 0x766a0abb, 0x81c2c92e, 0x92722c85,
   0xa2bfe8a1, 0xa81a664b, 0xc24b8b70, 0xc76c51a3, 0xd192e819, 0xd6990624, 0xf40e3585, 0x106aa070,
   0x19a4c116, 0x1e376c08, 0x2748774c, 0x34b0bcb5, 0x391c0cb3, 0x4ed8aa4a, 0x5b9cca4f, 0x682e6ff3,
   0x748f82ee, 0x78a5636f, 0x84c87814, 0x8cc70208, 0x90befffa, 0xa4506ceb, 0xbef9a3f7, 0xc67178f2]

/-! ## One block -/

def rotateRight (word : UInt32) (count : UInt32) : UInt32 :=
  word >>> count ||| word <<< (32 - count)

/-- The 64 words of a block's schedule: its own sixteen, and 48 that each mix four earlier ones. -/
def schedule (block : Bytes) : List UInt32 :=
  let own := (block.pieces 4).map fun word => UInt32.ofNat word.ofBigEndian
  let extend (words : Array UInt32) (i : Nat) : Array UInt32 :=
    let early := words.getD (i + 1) 0
    let late := words.getD (i + 14) 0
    let mixedEarly := rotateRight early 7 ^^^ rotateRight early 18 ^^^ early >>> 3
    let mixedLate := rotateRight late 17 ^^^ rotateRight late 19 ^^^ late >>> 10
    words.push (words.getD i 0 + mixedEarly + words.getD (i + 9) 0 + mixedLate)
  ((List.range 48).foldl extend own.toArray).toList

def round (s : State) (constant word : UInt32) : State :=
  let mixedE := rotateRight s.e 6 ^^^ rotateRight s.e 11 ^^^ rotateRight s.e 25
  let choice := (s.e &&& s.f) ^^^ (~~~ s.e &&& s.g)
  let t := s.h + mixedE + choice + constant + word
  let mixedA := rotateRight s.a 2 ^^^ rotateRight s.a 13 ^^^ rotateRight s.a 22
  let majority := (s.a &&& s.b) ^^^ (s.a &&& s.c) ^^^ (s.b &&& s.c)
  ⟨t + (mixedA + majority), s.a, s.b, s.c, s.d + t, s.e, s.f, s.g⟩

def compress (s : State) (block : Bytes) : State :=
  let mixed := (roundConstants.zip (schedule block)).foldl
    (fun s (constant, word) => round s constant word) s
  ⟨s.a + mixed.a, s.b + mixed.b, s.c + mixed.c, s.d + mixed.d,
   s.e + mixed.e, s.f + mixed.f, s.g + mixed.g, s.h + mixed.h⟩

/-! ## Whole messages -/

/-- A message under way: the state after its full blocks, the bytes behind them, and its length. -/
structure Hasher where
  state : State := initial
  rest : Bytes := []
  length : Nat := 0

/-- A full block updates the state; a shorter piece waits. -/
def Hasher.addPiece (hasher : Hasher) (piece : Bytes) : Hasher :=
  if piece.length = 64 then { hasher with state := compress hasher.state piece }
  else { hasher with rest := piece }

def Hasher.add (hasher : Hasher) (bytes : Bytes) : Hasher :=
  (Bytes.pieces 64 (hasher.rest ++ bytes)).foldl Hasher.addPiece
    { hasher with rest := [], length := hasher.length + bytes.length }

/-- What follows a message of so many bytes: a mark, zeros up to eight bytes before the end of a
block, and the length in bits. -/
def padding (length : Nat) : Bytes :=
  0x80 :: List.replicate ((119 - length % 64) % 64) 0 ++ Bytes.bigEndian 8 (length * 8)

def State.toBytes (s : State) : Bytes :=
  [s.a, s.b, s.c, s.d, s.e, s.f, s.g, s.h].flatMap fun word => Bytes.bigEndian 4 word.toNat

def Hasher.finish (hasher : Hasher) : Bytes :=
  (hasher.add (padding hasher.length)).state.toBytes

/-- The digest of a message given whole. -/
def digest (message : Bytes) : Bytes :=
  (({} : Hasher).add message).finish

theorem length_digest (message : Bytes) : (digest message).length = 32 := by
  simp [digest, Hasher.finish, State.toBytes]

end SegmentRetrieval.Sha256
