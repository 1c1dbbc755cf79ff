import SegmentRetrieval.Tlv.Element

/-! # Segment content

The content of a segment is a run of elements.  Content elements carry the payload, in order; at
most one signature value element carries the commitment, the signature value that the following
segment has to show; elements of other types are skipped.
-/

namespace SegmentRetrieval

/-- What a segment says: its payload, and the signature value it announces for its successor. -/
structure Content where
  payload : Bytes
  commitment : Option Bytes
deriving DecidableEq, Repr, Inhabited

/-- Why bytes are no segment content. -/
inductive ContentError where
  | truncated (short : Truncation)
  | duplicateElement (type : UInt64)
deriving DecidableEq, Repr

def ContentError.message : ContentError → String
  | .truncated short => short.message
  | .duplicateElement type =>
    "duplicate TLV element of type 0x" ++ String.ofList (Nat.toDigits 16 type.toNat)

namespace Content

def toElements (content : Content) : List Tlv.Element :=
  ⟨Tlv.contentType, content.payload⟩ ::
    (content.commitment.map (Tlv.Element.mk Tlv.signatureValueType)).toList

def encode (content : Content) : Bytes :=
  Tlv.encodeAll content.toElements

/-- Adds one more element to what was read so far. -/
def addElement (content : Content) (element : Tlv.Element) : Except ContentError Content :=
  if element.type = Tlv.contentType then
    .ok { content with payload := content.payload ++ element.value }
  else if element.type = Tlv.signatureValueType then
    match content.commitment with
    | none => .ok { content with commitment := some element.value }
    | some _ => .error (.duplicateElement Tlv.signatureValueType)
  else .ok content

/-- Reads the elements from the left; the first error met is the answer. -/
def decode (bytes : Bytes) : Except ContentError Content :=
  let (elements, stop) := Tlv.readElements bytes
  match elements.foldlM addElement ⟨[], none⟩, stop with
  | .error error, _ => .error error
  | .ok _, some short => .error (.truncated short)
  | .ok content, none => .ok content

end Content

end SegmentRetrieval
