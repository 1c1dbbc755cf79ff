import SegmentRetrieval.Seal.Signature

/-! # Sealing a chain of segments

A payload is cut into pieces, and each piece becomes a signed packet whose content commits to the
signature value of the packet after it.  So the packets are sealed from the last to the first, and
whoever has accepted one of them can tell the next one from a forgery.
-/

namespace SegmentRetrieval.Chain

/-- The payload in pieces of `size` bytes, the last one shorter where the bytes run out.  An empty
payload is one empty piece, so that there is a segment 0; size zero leaves the payload whole. -/
def splitPayload (payload : Bytes) (size : Nat) : List Bytes :=
  if payload = [] then [[]] else Bytes.pieces size payload

/-- Which packets of a chain declare the final segment. -/
inductive Marker where
  | everySegment
  | lastSegment
  | omitted
deriving DecidableEq, Repr, Inhabited

/-- Whether segment `n` declares that `last` is the final one. -/
def Marker.declares (marker : Marker) (n last : Nat) : Bool :=
  match marker with
  | .everySegment => true
  | .lastSegment => n == last
  | .omitted => false

/-- The packet of segment `n`, signed, with a commitment to its successor if it has one. -/
def sealSegment (base : Name) (marker : Marker) (last n : Nat) (piece : Bytes)
    (commitment : Option Bytes) : Data :=
  Data.sign {
    name := base.appendSegment (UInt64.ofNat n)
    content := Content.encode ⟨piece, commitment⟩
    finalBlock :=
      if marker.declares n last then some (.ofSegment (UInt64.ofNat last)) else none
    signature := [] }

/-- The packets of the pieces that carry numbers `n`, `n + 1` and so on. -/
def sealFrom (base : Name) (marker : Marker) (last : Nat) : Nat → List Bytes → List Data
  | _, [] => []
  | n, piece :: pieces =>
    let successors := sealFrom base marker last (n + 1) pieces
    sealSegment base marker last n piece (successors.head?.map Data.signature) :: successors

/-- The signed chain of the pieces under the name `base`, segment 0 first. -/
def sealPieces (base : Name) (pieces : List Bytes) (marker : Marker) : List Data :=
  sealFrom base marker (pieces.length - 1) 0 pieces

end SegmentRetrieval.Chain
