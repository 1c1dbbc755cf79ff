/-! # Byte strings

Bytes are lists, which proofs take apart and which every layer above shares.  A number is written
most significant byte first in a given width; reading the written bytes gives the number back as
far as the width holds it (`ofBigEndian_bigEndian`), and every byte string is the big-endian form of
the number it spells (`bigEndian_ofBigEndian`).
-/

namespace SegmentRetrieval

/-- A byte string. -/
abbrev Bytes := List UInt8

namespace Bytes

/-! ## Big-endian numbers -/

/-- The low `width` bytes of a number, most significant first. -/
def bigEndian : Nat → Nat → Bytes
  | 0, _ => []
  | width + 1, n => bigEndian width (n / 256) ++ [UInt8.ofNat n]

/-- How many numbers so many bytes hold. -/
def capacity : Nat → Nat
  | 0 => 1
  | width + 1 => capacity width * 256

/-- The number that big-endian bytes spell. -/
def ofBigEndian (bytes : Bytes) : Nat :=
  bytes.foldl (fun n byte => n * 256 + byte.toNat) 0

@[simp] theorem length_bigEndian (width n : Nat) : (bigEndian width n).length = width := by
  induction width generalizing n with
  | zero => rfl
  | succ width ih => simp [bigEndian, ih]

theorem ofBigEndian_append_singleton (bytes : Bytes) (byte : UInt8) :
    ofBigEndian (bytes ++ [byte]) = ofBigEndian bytes * 256 + byte.toNat := by
  simp [ofBigEndian]

theorem ofBigEndian_bigEndian (width n : Nat) :
    ofBigEndian (bigEndian width n) = n % capacity width := by
  induction width generalizing n with
  | zero => simp [bigEndian, ofBigEndian, capacity, Nat.mod_one]
  | succ width ih =>
    rw [bigEndian, ofBigEndian_append_singleton, ih, capacity, Nat.mul_comm (capacity width),
      Nat.mod_mul]
    simp only [UInt8.toNat_ofNat']
    omega

/-- Induction from the last byte, the one a big-endian number grows by. -/
theorem append_singleton_induction {motive : Bytes → Prop} (nil : motive [])
    (append : ∀ bytes byte, motive bytes → motive (bytes ++ [byte])) (bytes : Bytes) :
    motive bytes := by
  suffices h : ∀ reversed : Bytes, motive reversed.reverse by simpa using h bytes.reverse
  intro reversed
  induction reversed with
  | nil => exact nil
  | cons byte rest ih => simpa using append _ byte ih

theorem ofBigEndian_lt (bytes : Bytes) : ofBigEndian bytes < capacity bytes.length := by
  induction bytes using append_singleton_induction with
  | nil => decide
  | append bytes byte ih =>
    have := byte.toNat_lt
    rw [ofBigEndian_append_singleton, List.length_append, List.length_singleton, capacity]
    omega

theorem bigEndian_ofBigEndian (bytes : Bytes) :
    bigEndian bytes.length (ofBigEndian bytes) = bytes := by
  induction bytes using append_singleton_induction with
  | nil => rfl
  | append bytes byte ih =>
    have := byte.toNat_lt
    rw [List.length_append, List.length_singleton, bigEndian, ofBigEndian_append_singleton,
      show (ofBigEndian bytes * 256 + byte.toNat) / 256 = ofBigEndian bytes by omega, ih]
    congr 2
    apply UInt8.toNat_inj.mp
    simp only [UInt8.toNat_ofNat']
    omega

/-! ## Printing -/

/-- Two lower-case hexadecimal digits a byte. -/
def toHex (bytes : Bytes) : String :=
  String.ofList (bytes.flatMap fun byte =>
    [Nat.digitChar (byte.toNat / 16), Nat.digitChar (byte.toNat % 16)])

/-! ## Pieces -/

/-- Consecutive pieces of `size` bytes, the last one shorter where the bytes run out; none of an
empty string.  Pieces of size zero are not cut: the whole string is one piece. -/
def pieces (size : Nat) (bytes : Bytes) : List Bytes :=
  match bytes with
  | [] => []
  | byte :: rest =>
    if h : size = 0 then [byte :: rest]
    else
      have : ((byte :: rest).drop size).length < (byte :: rest).length := by
        simp only [List.length_drop, List.length_cons]
        omega
      (byte :: rest).take size :: pieces size ((byte :: rest).drop size)
termination_by bytes.length

end Bytes

end SegmentRetrieval
