import SegmentRetrieval.Name.Basic
import SegmentRetrieval.Packet.Content

/-! # Data packets

A data packet binds content to a name.  It may declare the last component of the final segment's
name, and it carries a signature value over the bytes of everything else (`signedPortion`).
-/

namespace SegmentRetrieval

/-- A data packet; an empty signature value stands for none. -/
structure Data where
  name : Name
  content : Bytes
  finalBlock : Option Component
  signature : Bytes
deriving DecidableEq, Repr, Inhabited

namespace Data

/-- The segment number in the packet's name. -/
def segment? (data : Data) : Option UInt64 :=
  data.name.segment?

/-- The number of the final segment, where the packet declares one as a segment component. -/
def finalSegment? (data : Data) : Option UInt64 :=
  data.finalBlock.bind Component.segment?

def readContent (data : Data) : Except ContentError Content :=
  Content.decode data.content

/-- The meta information element, which holds the final block identifier if there is one. -/
def metaInfo (data : Data) : Tlv.Element :=
  let finalBlockId := data.finalBlock.map fun component =>
    Tlv.Element.mk Tlv.finalBlockIdType component.encode
  ⟨Tlv.metaInfoType, Tlv.encodeAll finalBlockId.toList⟩

/-- The bytes that the signature covers: name, meta information and content. -/
def signedPortion (data : Data) : Bytes :=
  Tlv.encodeAll [data.name.toElement, data.metaInfo, ⟨Tlv.contentType, data.content⟩]

end Data

end SegmentRetrieval
