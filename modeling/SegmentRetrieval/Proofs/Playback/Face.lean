import SegmentRetrieval.MemoryFace
import SegmentRetrieval.Proofs.Seal.Chain

/-! # What a memory face plays back

A face keeps the faults of each name apart and plays back one for each Interest that it answers, so an
Interest changes what is left for its own name only.  Packets of a chain have different names, so a
face that serves the chain keeps each under the name of its segment and nothing under the names past
the end.
-/

namespace SegmentRetrieval

/-- The names of different segments differ. -/
theorem Name.eq_of_appendSegment_eq {base : Name} {n m : Nat} (small : n < UInt64.size)
    (bounded : m < UInt64.size)
    (same : base.appendSegment (UInt64.ofNat n) = base.appendSegment (UInt64.ofNat m)) : n = m := by
  have value := congrArg UInt64.toNat (Name.appendSegment_inj.mp same).2
  rwa [UInt64.toNat_ofNat_of_lt' small, UInt64.toNat_ofNat_of_lt' bounded] at value

namespace MemoryFace

/-- How often an Interest for the name has been expressed. -/
def timesExpressed (face : MemoryFace) (name : Name) : Nat :=
  face.expressed.countP fun interest => interest.name = name

/-- The faults of all names together. -/
def countFaults (faults : Table Name (List InterestError)) : Nat :=
  faults.foldl (fun faults entry => faults + entry.2.length) 0

variable {face : MemoryFace} {name other : Name}

/-! ## Interests -/

theorem timesExpressed_record (interest : Interest) :
    (face.record interest).timesExpressed name =
      face.timesExpressed name + if interest.name = name then 1 else 0 := by
  simp [timesExpressed, record]

theorem answer_of_fault {fault : InterestError} {rest : List InterestError}
    (playing : face.faultsOf name = fault :: rest) :
    face.answer name = (.error fault, { face with faults := face.faults.insert name rest }) := by
  simp only [answer, playing]

theorem answer_of_packet {data : Data} (clear : face.faultsOf name = [])
    (found : face.packets.get? name = some data) : face.answer name = (.ok data, face) := by
  simp only [answer, clear, found]

theorem answer_of_unknown (clear : face.faultsOf name = [])
    (unknown : face.packets.get? name = none) :
    face.answer name = (.error (.nack .noRoute), face) := by
  simp only [answer, clear, unknown]

theorem faultsOf_insert (faults : List InterestError) :
    ({ face with faults := face.faults.insert name faults } : MemoryFace).faultsOf other =
      if other = name then faults else face.faultsOf other := by
  simp only [faultsOf, Table.get?_insert]
  split <;> rfl

/-! ## Counting faults -/

theorem foldl_length_eq (faults : Table Name (List InterestError)) (count : Nat) :
    faults.foldl (fun faults entry => faults + entry.2.length) count =
      count + countFaults faults := by
  induction faults generalizing count with
  | nil => rfl
  | cons entry faults ih =>
    rw [countFaults, List.foldl_cons, List.foldl_cons, ih, ih]
    omega

theorem countFaults_cons (key : Name) (played : List InterestError)
    (faults : Table Name (List InterestError)) :
    countFaults ((key, played) :: faults) = played.length + countFaults faults := by
  rw [countFaults, List.foldl_cons, foldl_length_eq, Nat.zero_add]

theorem countFaults_erase (faults : Table Name (List InterestError)) (name : Name) :
    countFaults (Table.erase faults name) + ((faults.get? name).getD []).length ≤
      countFaults faults := by
  induction faults with
  | nil => exact Nat.le_refl 0
  | cons entry faults ih =>
    obtain ⟨key, played⟩ := entry
    rw [countFaults_cons, Table.get?]
    by_cases here : key = name
    · have gone : Table.erase ((key, played) :: faults) name = Table.erase faults name :=
        List.filter_cons_of_neg (by simpa using here)
      rw [gone, if_pos here, Option.getD_some]
      omega
    · have kept : Table.erase ((key, played) :: faults) name =
          (key, played) :: Table.erase faults name :=
        List.filter_cons_of_pos (by simpa using here)
      rw [kept, countFaults_cons, if_neg here]
      omega

/-- A fault that is played back is not played back again. -/
theorem countFaults_insert_lt {fault : InterestError} {rest : List InterestError}
    (playing : face.faultsOf name = fault :: rest) :
    countFaults (face.faults.insert name rest) < countFaults face.faults := by
  have others := countFaults_erase face.faults name
  rw [faultsOf] at playing
  rw [playing, List.length_cons] at others
  rw [Table.insert, countFaults_cons]
  omega

/-! ## Injected faults -/

/-- Injects faults one after another. -/
def injectAll (face : MemoryFace) (faults : List (Name × InterestError)) : MemoryFace :=
  faults.foldl (fun face entry => face.inject entry.1 entry.2) face

/-- The faults injected for a name, in order. -/
def injectedFor (faults : List (Name × InterestError)) (name : Name) : List InterestError :=
  (faults.filter fun entry => entry.1 = name).map Prod.snd

theorem packets_injectAll (faults : List (Name × InterestError)) :
    (face.injectAll faults).packets = face.packets := by
  induction faults generalizing face with
  | nil => rfl
  | cons entry faults ih => exact ih

theorem expressed_injectAll (faults : List (Name × InterestError)) :
    (face.injectAll faults).expressed = face.expressed := by
  induction faults generalizing face with
  | nil => rfl
  | cons entry faults ih => exact ih

theorem faultsOf_injectAll (faults : List (Name × InterestError)) :
    (face.injectAll faults).faultsOf name = face.faultsOf name ++ injectedFor faults name := by
  induction faults generalizing face with
  | nil => exact (List.append_nil _).symm
  | cons entry faults ih =>
    refine (@ih (face.inject entry.1 entry.2)).trans ?_
    rw [inject, faultsOf_insert]
    by_cases here : name = entry.1
    · simp [here, injectedFor]
    · simp [here, Ne.symm here, injectedFor]

/-- Injected faults are counted once each. -/
theorem countFaults_injectAll_le (faults : List (Name × InterestError)) :
    countFaults (face.injectAll faults).faults ≤ countFaults face.faults + faults.length := by
  induction faults generalizing face with
  | nil => exact Nat.le_refl _
  | cons entry faults ih =>
    refine Nat.le_trans (@ih (face.inject entry.1 entry.2)) ?_
    have others := countFaults_erase face.faults entry.1
    rw [inject, Table.insert, countFaults_cons, faultsOf, List.length_append, List.length_singleton,
      List.length_cons]
    omega

/-! ## Serving packets -/

/-- A face that serves packets has no fault to play back and has seen no Interest. -/
theorem serving_eq (packets : List Data) (delay : Duration) :
    serving packets delay = { packets := (serving packets delay).packets, delay } := by
  have kept : ∀ (face : MemoryFace), packets.foldl insert face =
      { face with packets := (packets.foldl insert face).packets } := by
    induction packets with
    | nil => exact fun _ => rfl
    | cons packet packets ih => exact fun face => ih (face.insert packet)
  exact kept { delay }

theorem get?_foldl_insert_of_forall_ne {packets : List Data}
    (absent : ∀ packet ∈ packets, packet.name ≠ name) :
    (packets.foldl insert face).packets.get? name = face.packets.get? name := by
  induction packets generalizing face with
  | nil => rfl
  | cons packet packets ih =>
    rw [List.foldl_cons, ih fun other member => absent other (List.mem_cons_of_mem _ member), insert,
      Table.get?_insert, if_neg (absent packet List.mem_cons_self).symm]

theorem get?_foldl_insert_of_mem {packets : List Data}
    (distinct : packets.Pairwise fun one another => one.name ≠ another.name) {data : Data}
    (member : data ∈ packets) :
    (packets.foldl insert face).packets.get? data.name = some data := by
  induction packets generalizing face with
  | nil => cases member
  | cons packet packets ih =>
    obtain ⟨first, others⟩ := List.pairwise_cons.mp distinct
    rw [List.foldl_cons]
    rcases List.mem_cons.mp member with rfl | later
    · rw [get?_foldl_insert_of_forall_ne fun other here => (first other here).symm, insert,
        Table.get?_insert, if_pos rfl]
    · exact ih others later

theorem countFaults_injectAll_serving_le (packets : List Data) (delay : Duration)
    (faults : List (Name × InterestError)) :
    countFaults ((serving packets delay).injectAll faults).faults ≤ faults.length := by
  refine Nat.le_trans (countFaults_injectAll_le faults) ?_
  rw [serving_eq]
  exact Nat.le_of_eq (Nat.zero_add _)

section chain

variable {base : Name} {pieces : List Bytes} {marker : Chain.Marker}

theorem name_of_getElem?_sealPieces {n : Nat} {packet : Data}
    (place : (Chain.sealPieces base pieces marker)[n]? = some packet) :
    packet.name = base.appendSegment (UInt64.ofNat n) := by
  obtain ⟨_, _, rfl⟩ := Chain.exists_of_getElem?_sealPieces place
  rfl

variable (counted : pieces.length ≤ UInt64.size)
include counted

theorem lt_size_of_getElem?_sealPieces {n : Nat} {packet : Data}
    (place : (Chain.sealPieces base pieces marker)[n]? = some packet) : n < UInt64.size :=
  Nat.lt_of_lt_of_le (Chain.lt_length_of_getElem?_sealPieces place) counted

theorem pairwise_name_sealPieces : (Chain.sealPieces base pieces marker).Pairwise
    fun one another => one.name ≠ another.name := by
  rw [List.pairwise_iff_getElem]
  intro i j inside within before same
  have one := List.getElem?_eq_getElem inside
  have another := List.getElem?_eq_getElem within
  rw [name_of_getElem?_sealPieces one, name_of_getElem?_sealPieces another] at same
  have equal := Name.eq_of_appendSegment_eq (lt_size_of_getElem?_sealPieces counted one)
    (lt_size_of_getElem?_sealPieces counted another) same
  omega

/-- A face that serves a chain knows the names of its segments and no others of that form. -/
theorem get?_serving_sealPieces (delay : Duration) {n : Nat} (small : n < UInt64.size) :
    (serving (Chain.sealPieces base pieces marker) delay).packets.get?
        (base.appendSegment (UInt64.ofNat n)) =
      (Chain.sealPieces base pieces marker)[n]? := by
  cases place : (Chain.sealPieces base pieces marker)[n]? with
  | some packet =>
    rw [← name_of_getElem?_sealPieces place]
    exact get?_foldl_insert_of_mem (pairwise_name_sealPieces counted) (List.mem_of_getElem? place)
  | none =>
    refine get?_foldl_insert_of_forall_ne fun packet member same => ?_
    obtain ⟨m, here⟩ := List.mem_iff_getElem?.mp member
    rw [name_of_getElem?_sealPieces here] at same
    rw [← Name.eq_of_appendSegment_eq (lt_size_of_getElem?_sealPieces counted here) small same,
      here] at place
    cases place

theorem length_le_length_packets_serving (delay : Duration) :
    pieces.length ≤ (serving (Chain.sealPieces base pieces marker) delay).packets.length := by
  have distinct := @pairwise_name_sealPieces base pieces marker counted
  have entries : ((Chain.sealPieces base pieces marker).map fun packet =>
      (packet.name, packet)).Nodup := by
    refine List.pairwise_map.mpr (distinct.imp fun differ same => differ (congrArg Prod.fst same))
  have kept : (Chain.sealPieces base pieces marker).map (fun packet => (packet.name, packet)) ⊆
      (serving (Chain.sealPieces base pieces marker) delay).packets := by
    intro entry member
    obtain ⟨packet, here, rfl⟩ := List.mem_map.mp member
    exact Table.mem_of_get? (get?_foldl_insert_of_mem distinct here)
  have length := entries.length_le_of_subset kept
  rwa [List.length_map, Chain.length_sealPieces] at length

end chain

/-! ## Faces that are about to be asked for a chain -/

/-- The face keeps a chain of pieces and has the faults `injected` to play back for each segment, and
nobody has asked it for a segment yet. -/
structure Primed (face : MemoryFace) (base : Name) (pieces : List Bytes)
    (injected : Nat → List InterestError) : Prop where
  packets : ∀ n < UInt64.size, face.packets.get? (base.appendSegment (UInt64.ofNat n)) =
    (Chain.sealPieces base pieces .everySegment)[n]?
  known : pieces.length ≤ face.packets.length
  faults : ∀ n < pieces.length, face.faultsOf (base.appendSegment (UInt64.ofNat n)) = injected n
  unasked : ∀ n < pieces.length, face.timesExpressed (base.appendSegment (UInt64.ofNat n)) = 0

theorem primed_injectAll_serving {base : Name} {pieces : List Bytes}
    (counted : pieces.length ≤ UInt64.size) (delay : Duration) (faults : List (Name × InterestError)) :
    ((serving (Chain.sealPieces base pieces .everySegment) delay).injectAll faults).Primed base pieces
      fun n => injectedFor faults (base.appendSegment (UInt64.ofNat n)) where
  packets := by
    rw [packets_injectAll]
    exact fun n small => get?_serving_sealPieces counted delay small
  known := by
    rw [packets_injectAll]
    exact length_le_length_packets_serving counted delay
  faults := fun n _ => by
    rw [faultsOf_injectAll, serving_eq]
    rfl
  unasked := fun n _ => by
    rw [timesExpressed, expressed_injectAll, serving_eq]
    rfl

end MemoryFace

end SegmentRetrieval
