import SegmentRetrieval.Packet.Data
import SegmentRetrieval.Sha256

/-! # Digest signatures

The signature value of a packet is the SHA-256 digest of its signed portion.  It shows that the
packet is whole, not who made it; who made it is settled by the commitment of the packet before.
-/

namespace SegmentRetrieval

/-- Why a packet's signature value is not accepted. -/
inductive VerificationError where
  | mismatch (expected actual : Bytes)
  | missingSignature
deriving DecidableEq, Repr

def VerificationError.message : VerificationError → String
  | .mismatch expected actual =>
    "commitment mismatch: expected " ++ expected.toHex ++ ", got " ++ actual.toHex
  | .missingSignature => "packet carries no signature value"

namespace Data

/-- The signature value that covers the packet. -/
def digest (data : Data) : Bytes :=
  Sha256.digest data.signedPortion

/-- The packet with the signature value that covers it. -/
def sign (data : Data) : Data :=
  { data with signature := data.digest }

/-- Checks that the packet carries the signature value that covers it. -/
def verify (data : Data) : Except VerificationError Unit :=
  if data.signature = [] then .error .missingSignature
  else if data.digest = data.signature then .ok ()
  else .error (.mismatch data.signature data.digest)

/-- Checks the packet's signature value against the one its predecessor committed to. -/
def checkCommitment (data : Data) (commitment : Bytes) : Except VerificationError Unit :=
  if commitment = data.signature then .ok () else .error (.mismatch commitment data.signature)

end Data

end SegmentRetrieval
