import SegmentRetrieval.Clock
import SegmentRetrieval.Packet.Interest
import SegmentRetrieval.Table

/-! # A face that serves from memory

The face answers an Interest with the packet kept under its name, and refuses names that it does not
know.  Before that it plays back the faults injected for the name, one an Interest and the oldest
first.  Each answer takes the face's delay, and a timeout takes the lifetime of the Interest besides.
-/

namespace SegmentRetrieval

/-- Packets and faults by exact name, the Interests seen so far, and the delay of each answer. -/
structure MemoryFace where
  packets : Table Name Data := []
  faults : Table Name (List InterestError) := []
  expressed : List Interest := []
  delay : Duration := .zero
deriving DecidableEq, Repr

namespace MemoryFace

/-- Keeps a packet under its name, in place of an earlier one. -/
def insert (face : MemoryFace) (data : Data) : MemoryFace :=
  { face with packets := face.packets.insert data.name data }

/-- A face that serves the packets. -/
def serving (packets : List Data) (delay : Duration) : MemoryFace :=
  packets.foldl insert { delay }

/-- The faults that the name has still to play back, the oldest first. -/
def faultsOf (face : MemoryFace) (name : Name) : List InterestError :=
  (face.faults.get? name).getD []

/-- Adds a fault to those of a name. -/
def inject (face : MemoryFace) (name : Name) (fault : InterestError) : MemoryFace :=
  { face with faults := face.faults.insert name (face.faultsOf name ++ [fault]) }

/-- Notes that an Interest has been expressed. -/
def record (face : MemoryFace) (interest : Interest) : MemoryFace :=
  { face with expressed := face.expressed ++ [interest] }

/-- The outcome of the next Interest for a name. -/
def answer (face : MemoryFace) (name : Name) : Outcome × MemoryFace :=
  match face.faultsOf name with
  | fault :: faults => (.error fault, { face with faults := face.faults.insert name faults })
  | [] =>
    match face.packets.get? name with
    | some data => (.ok data, face)
    | none => (.error (.nack .noRoute), face)

/-- The nanoseconds that an outcome takes besides the delay. -/
def extraWait (clock : Clock) (interest : Interest) : Outcome → Nat
  | .error .timeout => clock.sleep interest.lifetime
  | _ => 0

/-- Expresses an Interest and waits for its outcome: the outcome, and the nanoseconds that the waits
for it took. -/
def express (clock : Clock) (face : MemoryFace) (interest : Interest) : Outcome × Nat × MemoryFace :=
  let (outcome, face) := (face.record interest).answer interest.name
  (outcome, clock.wait face.delay + extraWait clock interest outcome, face)

end MemoryFace

end SegmentRetrieval
