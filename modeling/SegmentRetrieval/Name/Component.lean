import SegmentRetrieval.Tlv.Element

/-! # Name components

A component is a typed value.  Two kinds matter here: generic components, whose value is any byte
string, and segment components, whose value is an integer.
-/

namespace SegmentRetrieval

/-- One component of a name. -/
structure Component where
  type : UInt64
  value : Bytes
deriving DecidableEq, Repr, Inhabited

/-- Why a component is read as no segment number. -/
inductive SegmentNumberError where
  | notSegment
  | integerLength (error : Tlv.IntegerLengthError)
deriving DecidableEq, Repr

def SegmentNumberError.message : SegmentNumberError → String
  | .notSegment => "component is not a segment number"
  | .integerLength error => error.message

namespace Component

def generic (value : Bytes) : Component :=
  ⟨Tlv.genericComponentType, value⟩

/-- The component that carries segment number `n`, in its shortest form. -/
def ofSegment (n : UInt64) : Component :=
  ⟨Tlv.segmentComponentType, Tlv.encodeInteger n⟩

def isSegment (component : Component) : Bool :=
  component.type == Tlv.segmentComponentType

/-- The segment number a component carries. -/
def segmentNumber (component : Component) : Except SegmentNumberError UInt64 :=
  if component.isSegment then (Tlv.decodeInteger component.value).mapError .integerLength
  else .error .notSegment

/-- The segment number a component carries, if it carries one. -/
def segment? (component : Component) : Option UInt64 :=
  component.segmentNumber.toOption

/-- A component as an element of its name's encoding. -/
def toElement (component : Component) : Tlv.Element :=
  ⟨component.type, component.value⟩

def encode (component : Component) : Bytes :=
  component.toElement.encode

end Component

end SegmentRetrieval
