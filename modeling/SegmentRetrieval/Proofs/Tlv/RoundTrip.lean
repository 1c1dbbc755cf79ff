import SegmentRetrieval.Tlv.Element

/-! # Reading what was written

A number that was written reads back and leaves the bytes behind it alone, and so does an element
whose value fits its length field.  Elements written one after another are therefore read as the
same elements, and no two lists of elements share an encoding.
-/

namespace SegmentRetrieval.Tlv

/-! ## Numbers -/

/-- A word reads back from the big-endian bytes of a width that holds it. -/
theorem ofNat_ofBigEndian_bigEndian {width : Nat} {n : UInt64}
    (fits : n.toNat < Bytes.capacity width) :
    UInt64.ofNat (Bytes.ofBigEndian (Bytes.bigEndian width n.toNat)) = n := by
  rw [Bytes.ofBigEndian_bigEndian, Nat.mod_eq_of_lt fits, UInt64.ofNat_toNat]

theorem readNumber_extended {marker : UInt8} {width : Nat} {n : UInt64} (rest : Bytes)
    (extended : ¬ marker < 253) (wide : extendedWidth marker = width)
    (fits : n.toNat < Bytes.capacity width) :
    readNumber (marker :: Bytes.bigEndian width n.toNat ++ rest) = .ok (n, rest) := by
  have digits : Bytes.split width (Bytes.bigEndian width n.toNat ++ rest) =
      .ok (Bytes.bigEndian width n.toNat, rest) :=
    Bytes.split_append (Bytes.length_bigEndian width n.toNat)
  simp only [readNumber, List.cons_append, extended, if_false, wide, digits,
    ofNat_ofBigEndian_bigEndian fits]

theorem readNumber_writeNumber_append (n : UInt64) (rest : Bytes) :
    readNumber (writeNumber n ++ rest) = .ok (n, rest) := by
  unfold writeNumber
  split
  next short =>
    -- the number is its own only byte
    have small : n.toNat < 253 := UInt64.lt_iff_toNat_lt.mp short
    have marker : n.toUInt8.toNat = n.toNat := by
      simp only [UInt64.toNat_toUInt8]
      omega
    have direct : n.toUInt8 < 253 := by
      rw [UInt8.lt_iff_toNat_lt, marker]
      exact small
    have same : n.toUInt8.toUInt64 = n := by
      apply UInt64.toNat_inj.mp
      simp only [UInt8.toNat_toUInt64, marker]
    simp only [readNumber, List.cons_append, List.nil_append, direct, if_true, same]
  next =>
    split
    next two => exact readNumber_extended rest (by decide) rfl (UInt64.lt_iff_toNat_lt.mp two)
    next =>
      split
      next four => exact readNumber_extended rest (by decide) rfl (UInt64.lt_iff_toNat_lt.mp four)
      next => exact readNumber_extended rest (by decide) rfl n.toNat_lt

theorem decodeInteger_bigEndian {width : Nat} {n : UInt64} (isWidth : width ∈ [1, 2, 4, 8])
    (fits : n.toNat < Bytes.capacity width) :
    decodeInteger (Bytes.bigEndian width n.toNat) = .ok n := by
  simp only [decodeInteger, Bytes.length_bigEndian, if_pos isWidth, ofNat_ofBigEndian_bigEndian fits]

theorem decodeInteger_encodeInteger (n : UInt64) : decodeInteger (encodeInteger n) = .ok n := by
  unfold encodeInteger
  split
  next one => exact decodeInteger_bigEndian (by simp) (UInt64.lt_iff_toNat_lt.mp one)
  next =>
    split
    next two => exact decodeInteger_bigEndian (by simp) (UInt64.lt_iff_toNat_lt.mp two)
    next =>
      split
      next four => exact decodeInteger_bigEndian (by simp) (UInt64.lt_iff_toNat_lt.mp four)
      next => exact decodeInteger_bigEndian (by simp) n.toNat_lt

/-! ## Elements -/

/-- The length of the value fits the length field. -/
def Element.Sized (element : Element) : Prop :=
  element.value.length < UInt64.size

theorem readElement_encode_append {element : Element} (sized : element.Sized) (rest : Bytes) :
    readElement (element.encode ++ rest) = .ok (element, rest) := by
  have length : (UInt64.ofNat element.value.length).toNat = element.value.length :=
    UInt64.toNat_ofNat_of_lt' sized
  simp only [Element.encode, List.append_assoc, readElement, readNumber_writeNumber_append, length,
    Bytes.split_append]

/-- An element takes at least one byte. -/
theorem encode_ne_nil (element : Element) : element.encode ≠ [] := by
  intro empty
  -- the type number would be written in no bytes, and would not read back
  have number := readNumber_writeNumber_append element.type []
  simp only [Element.encode, List.append_eq_nil_iff] at empty
  rw [empty.1.1] at number
  cases number

theorem readElements_encodeAll {elements : List Element}
    (sized : ∀ element ∈ elements, element.Sized) :
    readElements (encodeAll elements) = (elements, none) := by
  induction elements with
  | nil => simp [encodeAll, readElements]
  | cons element elements ih =>
    have first := readElement_encode_append (sized element (by simp)) (encodeAll elements)
    have others := ih fun other member => sized other (by simp [member])
    have front : encodeAll (element :: elements) = element.encode ++ encodeAll elements := by
      simp [encodeAll]
    rw [front, readElements, if_neg (by simp [encode_ne_nil])]
    -- the match names what was read, so each branch is compared with `first`
    split
    next short stopped =>
      rw [first] at stopped
      cases stopped
    next read rest taken =>
      rw [first] at taken
      cases taken
      simp only [others]

/-! ## Encodings tell elements apart -/

theorem encode_injective {element other : Element} (sized : element.Sized) (otherSized : other.Sized)
    (same : element.encode = other.encode) : element = other := by
  have read := readElement_encode_append sized []
  rw [same, readElement_encode_append otherSized] at read
  simp only [Except.ok.injEq, Prod.mk.injEq, and_true] at read
  exact read.symm

theorem encodeAll_injective {elements others : List Element}
    (sized : ∀ element ∈ elements, element.Sized) (othersSized : ∀ element ∈ others, element.Sized)
    (same : encodeAll elements = encodeAll others) : elements = others := by
  have read := readElements_encodeAll sized
  rw [same, readElements_encodeAll othersSized] at read
  exact (congrArg Prod.fst read).symm

/-! ## Parts are no longer than the whole -/

theorem length_value_le_length_encode (element : Element) :
    element.value.length ≤ element.encode.length := by
  simp only [Element.encode, List.length_append]
  omega

theorem length_encode_le_length_encodeAll {elements : List Element} {element : Element}
    (member : element ∈ elements) : element.encode.length ≤ (encodeAll elements).length := by
  obtain ⟨before, after, rfl⟩ := List.append_of_mem member
  simp only [encodeAll, List.flatMap_append, List.flatMap_cons, List.length_append]
  omega

/-- Every value inside a string whose length fits a length field fits one. -/
theorem sized_of_length_encodeAll_lt {elements : List Element}
    (short : (encodeAll elements).length < UInt64.size) : ∀ element ∈ elements, element.Sized := by
  intro element member
  have whole := length_encode_le_length_encodeAll member
  have value := length_value_le_length_encode element
  exact Nat.lt_of_le_of_lt (Nat.le_trans value whole) short

end SegmentRetrieval.Tlv
