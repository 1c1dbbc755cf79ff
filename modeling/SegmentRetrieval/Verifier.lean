import SegmentRetrieval.RetrievalError
import SegmentRetrieval.Table

/-! # Verifying a chain

Every segment's signature value covers its own packet.  Segment 0 starts the chain; every later
segment is accepted only after its predecessor, and only with the signature value to which the
predecessor committed.  A segment that comes early is held until then, so the accepted segments are
always `0`, `1`, … up to the next one expected.
-/

namespace SegmentRetrieval

/-- A received segment whose content could be read. -/
structure Held where
  data : Data
  content : Content
deriving DecidableEq, Repr

/-- An accepted segment. -/
structure Verified where
  segment : Nat
  payload : Bytes
  data : Data
deriving DecidableEq, Repr

/-- A count of payload bytes that takes a segment in. -/
def Verified.addBytes (bytes : Nat) (verified : Verified) : Nat :=
  bytes + verified.payload.length

/-- The segments that a received packet made acceptable, in order, and the error that ended them. -/
structure Submitted where
  verified : List Verified := []
  error : Option RetrievalError := none
deriving DecidableEq, Repr

/-- The state of verification. -/
structure Verifier where
  /-- What accepted segments committed to, by the number of the committing segment. -/
  commitments : Table Nat Bytes := []
  /-- Received segments whose predecessors are not accepted yet. -/
  pending : Table Nat Held := []
  /-- The number of segments accepted so far, which is the next one expected. -/
  nextSegment : Nat := 0
deriving DecidableEq, Repr

namespace Verifier

/-- Checks a packet as segment `n`: its signature value covers it and, but for segment 0, is the one
that segment `n - 1` committed to. -/
def authenticate (verifier : Verifier) (n : Nat) (data : Data) : Except IntegrityError Unit :=
  match data.verify with
  | .error error => .error (.badSignature error)
  | .ok () =>
    if n = 0 then .ok ()
    else
      match verifier.commitments.get? (n - 1) with
      | none => .error .missingCommitment
      | some commitment => (data.checkCommitment commitment).mapError .mismatch

/-- The state in which segment `n` is accepted: the commitment it met is used up and its own is
kept. -/
def accept (verifier : Verifier) (n : Nat) (held : Held) : Verifier :=
  let unmet := if n = 0 then verifier.commitments else verifier.commitments.erase (n - 1)
  { verifier with
    commitments :=
      match held.content.commitment with
      | none => unmet
      | some commitment => unmet.insert n commitment
    nextSegment := n + 1 }

/-- Accepts segment `n` and then every held segment that follows on, until one is missing or fails.
A held segment that fails is dropped. -/
def cascade (verifier : Verifier) (n : Nat) (held : Held) : Submitted × Verifier :=
  match verifier.authenticate n held.data with
  | .error error => ({ error := some (.integrity n error) }, verifier)
  | .ok () =>
    let accepted : Verified := ⟨n, held.content.payload, held.data⟩
    match h : verifier.pending.get? (n + 1) with
    | none => ({ verified := [accepted] }, verifier.accept n held)
    | some next =>
      have := Table.length_erase_lt h
      let (submitted, verifier) :=
        cascade { verifier.accept n held with pending := verifier.pending.erase (n + 1) } (n + 1) next
      ({ submitted with verified := accepted :: submitted.verified }, verifier)
termination_by verifier.pending.length

/-- Takes in a packet received as segment `n`.  One that is already accepted is ignored, one whose
content cannot be read is refused, and one that comes early is held. -/
def submit (verifier : Verifier) (n : Nat) (data : Data) : Submitted × Verifier :=
  if n < verifier.nextSegment then ({}, verifier)
  else
    match data.readContent with
    | .error error => ({ error := some (.integrity n (.malformedContent error)) }, verifier)
    | .ok content =>
      let held : Held := ⟨data, content⟩
      if verifier.nextSegment < n then
        ({}, { verifier with pending := verifier.pending.insert n held })
      else verifier.cascade n held

/-- Forgets the held segments past the final one. -/
def discardBeyond (verifier : Verifier) (last : Nat) : Verifier :=
  { verifier with pending := verifier.pending.restrict (· ≤ last) }

end Verifier

end SegmentRetrieval
