import SegmentRetrieval.Tlv.Number

/-! # Type-length-value elements

An element is a type number, a length number and that many bytes of value.  Reading an element
takes bytes from the input (`length_lt_of_readElement`), so the elements of an input are read one after
another until it is used up or ends inside one.
-/

namespace SegmentRetrieval.Tlv

/-- A typed value. -/
structure Element where
  type : UInt64
  value : Bytes
deriving DecidableEq, Repr, Inhabited

/-! ## Assigned types -/

def nameType : UInt64 := 0x07
def genericComponentType : UInt64 := 0x08
def metaInfoType : UInt64 := 0x14
def contentType : UInt64 := 0x15
def signatureValueType : UInt64 := 0x17
def finalBlockIdType : UInt64 := 0x1a
def segmentComponentType : UInt64 := 0x32

/-! ## Writing and reading -/

/-- Type, length and value, the two numbers in their shortest forms. -/
def Element.encode (element : Element) : Bytes :=
  writeNumber element.type ++ writeNumber (UInt64.ofNat element.value.length) ++ element.value

/-- The elements one after another. -/
def encodeAll (elements : List Element) : Bytes :=
  elements.flatMap Element.encode

/-- The element at the start of the input, and the input after it. -/
def readElement (input : Bytes) : Except Truncation (Element × Bytes) :=
  match readNumber input with
  | .error short => .error short
  | .ok (type, input) =>
    match readNumber input with
    | .error short => .error short
    | .ok (length, input) =>
      match Bytes.split length.toNat input with
      | .error short => .error short
      | .ok (value, rest) => .ok (⟨type, value⟩, rest)

theorem length_lt_of_readNumber {input rest : Bytes} {n : UInt64}
    (h : readNumber input = .ok (n, rest)) : rest.length < input.length := by
  match input with
  | [] => simp [readNumber] at h
  | first :: tail =>
    simp only [readNumber] at h
    split at h
    · simp only [Except.ok.injEq, Prod.mk.injEq] at h
      simp [h.2]
    · split at h
      · simp at h
      · rename_i digits remainder hs
        simp only [Except.ok.injEq, Prod.mk.injEq] at h
        obtain ⟨rfl, _⟩ := Bytes.split_eq_ok_iff.mp hs
        simp only [← h.2, List.length_cons, List.length_append]
        omega

/-- Reading an element takes at least one byte. -/
theorem length_lt_of_readElement {input rest : Bytes} {element : Element}
    (h : readElement input = .ok (element, rest)) : rest.length < input.length := by
  simp only [readElement] at h
  split at h
  · simp at h
  · rename_i type afterType ht
    split at h
    · simp at h
    · rename_i length afterLength hl
      split at h
      · simp at h
      · rename_i value remainder hs
        simp only [Except.ok.injEq, Prod.mk.injEq] at h
        have typeShorter := length_lt_of_readNumber ht
        have lengthShorter := length_lt_of_readNumber hl
        obtain ⟨rfl, _⟩ := Bytes.split_eq_ok_iff.mp hs
        rw [List.length_append] at lengthShorter
        rw [← h.2]
        omega

/-- The elements of the input in order, and the truncation that stopped them where the input ends
inside one. -/
def readElements (input : Bytes) : List Element × Option Truncation :=
  if input = [] then ([], none)
  else
    match h : readElement input with
    | .error short => ([], some short)
    | .ok (element, rest) =>
      have := length_lt_of_readElement h
      let (elements, stop) := readElements rest
      (element :: elements, stop)
termination_by input.length

end SegmentRetrieval.Tlv
