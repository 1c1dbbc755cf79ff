import SegmentRetrieval.Bytes

/-! # Numbers of the wire format

Types and lengths are written in one byte below 253 and otherwise as a marker byte followed by two,
four or eight big-endian bytes.  Integer values have no marker: their width is the length of the
value that holds them.  Writing always takes the shortest form; reading accepts every form.
-/

namespace SegmentRetrieval

/-- Input that ends inside what is being read: how many bytes were wanted, and how many were left. -/
structure Truncation where
  needed : Nat
  remaining : Nat
deriving DecidableEq, Repr, Inhabited

def Truncation.message : Truncation → String
  | ⟨needed, remaining⟩ => s!"truncated TLV: needed {needed} bytes, {remaining} remaining"

namespace Bytes

/-- The first `count` bytes and what follows them. -/
def split (count : Nat) (bytes : Bytes) : Except Truncation (Bytes × Bytes) :=
  let front := bytes.take count
  if front.length < count then .error ⟨count, bytes.length⟩ else .ok (front, bytes.drop count)

theorem split_append {front rest : Bytes} {count : Nat} (length : front.length = count) :
    split count (front ++ rest) = .ok (front, rest) := by
  subst length
  simp [split]

theorem split_eq_ok_iff {count : Nat} {bytes front rest : Bytes} :
    split count bytes = .ok (front, rest) ↔ bytes = front ++ rest ∧ front.length = count := by
  constructor
  · intro h
    simp only [split, List.length_take] at h
    split at h
    · simp at h
    · simp only [Except.ok.injEq, Prod.mk.injEq] at h
      obtain ⟨rfl, rfl⟩ := h
      refine ⟨(List.take_append_drop count bytes).symm, ?_⟩
      simp only [List.length_take]
      omega
  · rintro ⟨rfl, length⟩
    exact split_append length

theorem split_eq_error_iff {count : Nat} {bytes : Bytes} {short : Truncation} :
    split count bytes = .error short ↔ bytes.length < count ∧ short = ⟨count, bytes.length⟩ := by
  simp only [split, List.length_take]
  split
  · have inside : bytes.length < count := by omega
    simp [inside, eq_comm]
  · have whole : ¬ bytes.length < count := by omega
    simp [whole]

end Bytes

namespace Tlv

/-! ## Types and lengths -/

/-- How many bytes follow a marker byte of 253 or above. -/
def extendedWidth (marker : UInt8) : Nat :=
  if marker = 253 then 2 else if marker = 254 then 4 else 8

/-- The number at the start of the input, and the input after it. -/
def readNumber (input : Bytes) : Except Truncation (UInt64 × Bytes) :=
  match input with
  | [] => .error ⟨1, 0⟩
  | first :: rest =>
    if first < 253 then .ok (first.toUInt64, rest)
    else
      match Bytes.split (extendedWidth first) rest with
      | .error short => .error short
      | .ok (digits, rest) => .ok (UInt64.ofNat (Bytes.ofBigEndian digits), rest)

/-- The shortest form that reads back as `n`. -/
def writeNumber (n : UInt64) : Bytes :=
  if n < 253 then [n.toUInt8]
  else if n < 0x10000 then 253 :: Bytes.bigEndian 2 n.toNat
  else if n < 0x100000000 then 254 :: Bytes.bigEndian 4 n.toNat
  else 255 :: Bytes.bigEndian 8 n.toNat

/-! ## Integer values -/

/-- The shortest of the four widths that holds `n`. -/
def encodeInteger (n : UInt64) : Bytes :=
  Bytes.bigEndian (if n < 0x100 then 1 else if n < 0x10000 then 2 else if n < 0x100000000 then 4 else 8)
    n.toNat

/-- A value whose length is no width of an integer. -/
structure IntegerLengthError where
  length : Nat
deriving DecidableEq, Repr, Inhabited

def IntegerLengthError.message : IntegerLengthError → String
  | ⟨length⟩ => s!"invalid non-negative integer length: {length}"

/-- The integer a value holds, where its length is one of the four widths. -/
def decodeInteger (value : Bytes) : Except IntegerLengthError UInt64 :=
  if value.length ∈ [1, 2, 4, 8] then .ok (UInt64.ofNat (Bytes.ofBigEndian value))
  else .error ⟨value.length⟩

end Tlv

end SegmentRetrieval
