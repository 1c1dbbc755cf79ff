import SegmentRetrieval.Name.Component

/-! # Names

A name is a sequence of components, most general first.  The segments of one content share a name
and are told apart by a segment component appended to it.
-/

namespace SegmentRetrieval

/-- A hierarchical name. -/
structure Name where
  components : List Component
deriving DecidableEq, Repr, Inhabited

namespace Name

def length (name : Name) : Nat :=
  name.components.length

def isEmpty (name : Name) : Bool :=
  name.components.isEmpty

def last? (name : Name) : Option Component :=
  name.components.getLast?

def append (name : Name) (component : Component) : Name :=
  ⟨name.components ++ [component]⟩

/-- The name of segment `n` of the content called `name`. -/
def appendSegment (name : Name) (n : UInt64) : Name :=
  name.append (.ofSegment n)

/-- The segment number in the last component, if it is one. -/
def segment? (name : Name) : Option UInt64 :=
  name.last?.bind Component.segment?

/-- The name without its last `n` components. -/
def dropLast (name : Name) (n : Nat) : Name :=
  ⟨name.components.take (name.length - n)⟩

/-- Whether `other` is `name` followed by any components. -/
def isPrefixOf (name other : Name) : Bool :=
  name.components.isPrefixOf other.components

/-- The name as one element that holds its components. -/
def toElement (name : Name) : Tlv.Element :=
  ⟨Tlv.nameType, Tlv.encodeAll (name.components.map Component.toElement)⟩

def encode (name : Name) : Bytes :=
  name.toElement.encode

end Name

end SegmentRetrieval
