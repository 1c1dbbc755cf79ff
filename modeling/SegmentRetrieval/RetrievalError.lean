import SegmentRetrieval.Fetch
import SegmentRetrieval.Packet.Content
import SegmentRetrieval.Seal.Signature

/-! # How a retrieval fails

A retrieval fails because the end of the content is not found, because a segment of it cannot be
fetched, or because a received segment is not accepted.  Each cause has one text.
-/

namespace SegmentRetrieval

/-- Why a received segment is not accepted. -/
inductive IntegrityError where
  /-- The packet's own signature value does not cover it. -/
  | badSignature (error : VerificationError)
  /-- The packet's signature value is not the one its predecessor committed to. -/
  | mismatch (error : VerificationError)
  | missingCommitment
  | malformedContent (error : ContentError)
deriving DecidableEq, Repr

def IntegrityError.message : IntegrityError → String
  | .badSignature error => "signature does not cover the packet: " ++ error.message
  | .mismatch error => error.message
  | .missingCommitment => "predecessor declared no commitment"
  | .malformedContent error => "malformed content: " ++ error.message

/-- Why a retrieval ends without having delivered every segment. -/
inductive RetrievalError where
  | finalSegmentNotFound
  | segmentFailed (segment : Nat)
  | fetch (segment : Nat) (failure : FetchFailure)
  | integrity (segment : Nat) (error : IntegrityError)
  | stalled (next : Nat)
  | invalidOptions (error : OptionsError)
deriving DecidableEq, Repr

def RetrievalError.message : RetrievalError → String
  | .finalSegmentNotFound => "Fetching terminated but no final segment number has been found"
  | .segmentFailed segment => s!"Failure retrieving segment #{segment}"
  | .fetch segment failure => s!"segment #{segment}: " ++ failure.message
  | .integrity segment error => s!"integrity check failed for segment #{segment}: " ++ error.message
  | .stalled next => s!"no request outstanding while segment #{next} is still missing"
  | .invalidOptions error => "invalid options: " ++ error.message

end SegmentRetrieval
