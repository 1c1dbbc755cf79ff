import SegmentRetrieval.Duration
import SegmentRetrieval.Packet.Data

/-! # Interests

An Interest asks for the data packet of a name.  It ends with a data packet, with a timeout once its
lifetime is over, or with a negative acknowledgement from the network.  Each time it is expressed
again it carries another nonce, so that the network does not take it for a loop.
-/

namespace SegmentRetrieval

/-- A request for the data packet of a name. -/
structure Interest where
  name : Name
  canBePrefix : Bool := false
  mustBeFresh : Bool := false
  lifetime : Duration := .ofSeconds 4
  nonce : UInt32
deriving DecidableEq, Repr

/-- The Interest with another nonce: the one drawn, or its successor where the draw repeats the
nonce in use. -/
def Interest.refreshNonce (interest : Interest) (draw : UInt32) : Interest :=
  { interest with nonce := if draw = interest.nonce then draw + 1 else draw }

theorem Interest.nonce_refreshNonce_ne (interest : Interest) (draw : UInt32) :
    (interest.refreshNonce draw).nonce ≠ interest.nonce := by
  simp only [refreshNonce]
  split
  · rename_i same
    subst same
    intro h
    have toNat := congrArg UInt32.toNat h
    simp only [UInt32.toNat_add] at toNat
    have := interest.nonce.toNat_lt
    have one : (1 : UInt32).toNat = 1 := rfl
    omega
  · assumption

/-- Why the network refuses an Interest. -/
inductive NackReason where
  | unspecified
  | congestion
  | duplicate
  | noRoute
deriving DecidableEq, Repr

def NackReason.text : NackReason → String
  | .unspecified => "None"
  | .congestion => "Congestion"
  | .duplicate => "Duplicate"
  | .noRoute => "NoRoute"

/-- How an Interest ends that brings no data. -/
inductive InterestError where
  | timeout
  | nack (reason : NackReason)
deriving DecidableEq, Repr

def InterestError.message : InterestError → String
  | .timeout => "interest timed out"
  | .nack reason => "interest nacked: " ++ reason.text

/-- How an Interest ends. -/
abbrev Outcome := Except InterestError Data

end SegmentRetrieval
