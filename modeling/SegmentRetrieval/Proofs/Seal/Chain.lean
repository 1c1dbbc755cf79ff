import SegmentRetrieval.Proofs.Name.Components
import SegmentRetrieval.Proofs.Packet.Content
import SegmentRetrieval.Proofs.Packet.SignedPortion
import SegmentRetrieval.Seal.Chain
import SegmentRetrieval.Verifier

/-! # The segments of a sealed chain

A payload is the concatenation of its pieces.  Sealed, piece `n` becomes a packet that passes its own
signature check, whose content reads back as the piece and, as the commitment, the signature value
of packet `n + 1` if there is one.  `segments` lists what a consumer of the whole chain receives.
-/

namespace SegmentRetrieval

/-! ## Pieces -/

theorem Bytes.flatten_pieces (size : Nat) (bytes : Bytes) : (pieces size bytes).flatten = bytes := by
  fun_induction pieces size bytes with
  | case1 => rfl
  | case2 => simp
  | case3 byte rest _ _ ih => rw [List.flatten_cons, ih, List.take_append_drop]

theorem Bytes.pieces_eq_nil_iff {size : Nat} {bytes : Bytes} : pieces size bytes = [] ↔ bytes = [] := by
  constructor
  · intro none
    rw [← flatten_pieces size bytes, none, List.flatten_nil]
  · rintro rfl
    rw [pieces]

/-- Every piece has the size asked for, but the last, which may be shorter and is not empty. -/
theorem Bytes.length_of_getElem?_pieces {size : Nat} {bytes : Bytes} (positive : 0 < size) :
    ∀ {i : Nat} {piece : Bytes}, (pieces size bytes)[i]? = some piece →
      if i + 1 < (pieces size bytes).length then piece.length = size
      else 0 < piece.length ∧ piece.length ≤ size := by
  fun_induction pieces size bytes with
  | case1 => nofun
  | case2 byte rest whole => exact absurd whole (Nat.ne_of_gt positive)
  | case3 byte rest _ shorter ih =>
    intro i piece place
    cases i with
    | succ i => simpa using ih place
    | zero =>
      cases place
      have others : (pieces size ((byte :: rest).drop size)).length = 0 ↔
          (byte :: rest).length ≤ size := by
        rw [List.length_eq_zero_iff, pieces_eq_nil_iff, List.drop_eq_nil_iff]
      simp only [List.length_cons, List.length_take] at others ⊢
      split <;> omega

theorem Bytes.length_pieces_le (size : Nat) (bytes : Bytes) :
    (pieces size bytes).length ≤ bytes.length := by
  fun_induction pieces size bytes with
  | case1 => simp
  | case2 => simp
  | case3 byte rest _ shorter ih =>
    simp only [List.length_cons] at shorter ⊢
    omega

namespace Chain

theorem flatten_splitPayload (payload : Bytes) (size : Nat) :
    (splitPayload payload size).flatten = payload := by
  unfold splitPayload
  split
  next empty => simp [empty]
  next => exact Bytes.flatten_pieces size payload

theorem length_splitPayload_le (payload : Bytes) (size : Nat) :
    (splitPayload payload size).length ≤ max 1 payload.length := by
  unfold splitPayload
  split
  next => exact Nat.le_max_left ..
  next => exact Nat.le_trans (Bytes.length_pieces_le size payload) (Nat.le_max_right ..)

theorem splitPayload_of_unsplit {payload : Bytes} {size : Nat} (unsplit : payload = [] ∨ size = 0) :
    splitPayload payload size = [payload] := by
  unfold splitPayload
  split
  next empty => rw [empty]
  next nonempty =>
    obtain ⟨byte, rest, rfl⟩ := List.exists_cons_of_ne_nil nonempty
    rw [Bytes.pieces, dif_pos (unsplit.resolve_left nonempty)]

theorem length_of_getElem?_splitPayload {payload : Bytes} {size : Nat} (nonempty : payload ≠ [])
    (positive : 0 < size) {i : Nat} {piece : Bytes}
    (place : (splitPayload payload size)[i]? = some piece) :
    if i + 1 < (splitPayload payload size).length then piece.length = size
    else 0 < piece.length ∧ piece.length ≤ size := by
  rw [splitPayload, if_neg nonempty] at place ⊢
  exact Bytes.length_of_getElem?_pieces positive place

theorem splitPayload_ne_nil (payload : Bytes) (size : Nat) : splitPayload payload size ≠ [] := by
  intro none
  -- no pieces would make up the empty payload, which has one piece
  have whole := flatten_splitPayload payload size
  rw [none, List.flatten_nil] at whole
  rw [← whole] at none
  cases none

theorem length_le_of_mem_splitPayload {payload piece : Bytes} {size : Nat}
    (member : piece ∈ splitPayload payload size) : piece.length ≤ payload.length := by
  obtain ⟨before, after, split⟩ := List.append_of_mem member
  have whole := congrArg List.length (flatten_splitPayload payload size)
  simp only [split, List.flatten_append, List.flatten_cons, List.length_append] at whole
  omega

/-! ## Packets -/

@[simp] theorem length_sealFrom (base : Name) (marker : Marker) (last n : Nat) (pieces : List Bytes) :
    (sealFrom base marker last n pieces).length = pieces.length := by
  induction pieces generalizing n with
  | nil => rfl
  | cons piece pieces ih => simp only [sealFrom, List.length_cons, ih]

@[simp] theorem length_sealPieces (base : Name) (pieces : List Bytes) (marker : Marker) :
    (sealPieces base pieces marker).length = pieces.length :=
  length_sealFrom ..

theorem verify_sealSegment (base : Name) (marker : Marker) (last n : Nat) (piece : Bytes)
    (commitment : Option Bytes) :
    (sealSegment base marker last n piece commitment).verify = .ok () :=
  Data.verify_sign _

theorem readContent_sealSegment {base : Name} {marker : Marker} {last n : Nat} {piece : Bytes}
    {commitment : Option Bytes} (sized : Content.Sized ⟨piece, commitment⟩) :
    (sealSegment base marker last n piece commitment).readContent = .ok ⟨piece, commitment⟩ :=
  Content.decode_encode sized

theorem finalSegment?_sealSegment (base : Name) (marker : Marker) (last n : Nat) (piece : Bytes)
    (commitment : Option Bytes) :
    (sealSegment base marker last n piece commitment).finalSegment? =
      if marker.declares n last then some (UInt64.ofNat last) else none := by
  cases declares : marker.declares n last <;>
    simp [Data.finalSegment?, sealSegment, Data.sign, declares, Component.segment?_ofSegment]

/-- The end that a packet declares is the last number, where the marker asks for it. -/
theorem map_finalSegment?_sealSegment (base : Name) (marker : Marker) {count n : Nat} (piece : Bytes)
    (commitment : Option Bytes) (counted : count ≤ UInt64.size) (inside : n < count) :
    (sealSegment base marker (count - 1) n piece commitment).finalSegment?.map UInt64.toNat =
      match marker with
      | .everySegment => some (count - 1)
      | .lastSegment => if n + 1 = count then some n else none
      | .omitted => none := by
  have last : (UInt64.ofNat (count - 1)).toNat = count - 1 := UInt64.toNat_ofNat_of_lt' (by omega)
  rw [finalSegment?_sealSegment]
  cases marker with
  | everySegment => exact congrArg some last
  | omitted => rfl
  | lastSegment =>
    by_cases here : n + 1 = count
    · subst here
      simpa [Marker.declares] using last
    · have before : n ≠ count - 1 := by omega
      simp [Marker.declares, here, before]

/-- Each packet seals its piece with the signature value of its successor. -/
theorem getElem?_sealFrom (base : Name) (marker : Marker) (last n : Nat) (pieces : List Bytes)
    (i : Nat) :
    (sealFrom base marker last n pieces)[i]? = pieces[i]?.map fun piece =>
      sealSegment base marker last (n + i) piece
        ((sealFrom base marker last n pieces)[i + 1]?.map Data.signature) := by
  induction pieces generalizing n i with
  | nil => rfl
  | cons piece pieces ih =>
    cases i with
    | zero => simp [sealFrom, List.head?_eq_getElem?]
    | succ i =>
      have shift : n + 1 + i = n + (i + 1) := by omega
      simp only [sealFrom, List.getElem?_cons_succ, ih (n + 1) i, shift]

theorem getElem?_sealPieces (base : Name) (pieces : List Bytes) (marker : Marker) (i : Nat) :
    (sealPieces base pieces marker)[i]? = pieces[i]?.map fun piece =>
      sealSegment base marker (pieces.length - 1) i piece
        ((sealPieces base pieces marker)[i + 1]?.map Data.signature) := by
  have sealed := getElem?_sealFrom base marker (pieces.length - 1) 0 pieces i
  rwa [Nat.zero_add] at sealed

theorem length_signature_sealSegment (base : Name) (marker : Marker) (last n : Nat) (piece : Bytes)
    (commitment : Option Bytes) :
    (sealSegment base marker last n piece commitment).signature.length = 32 :=
  Sha256.length_digest _

section packets

variable {base : Name} {pieces : List Bytes} {marker : Marker} {i : Nat} {packet : Data}
  (place : (sealPieces base pieces marker)[i]? = some packet)
include place

theorem exists_of_getElem?_sealPieces : ∃ piece, pieces[i]? = some piece ∧
    packet = sealSegment base marker (pieces.length - 1) i piece
      ((sealPieces base pieces marker)[i + 1]?.map Data.signature) := by
  rw [getElem?_sealPieces, Option.map_eq_some_iff] at place
  obtain ⟨piece, here, same⟩ := place
  exact ⟨piece, here, same.symm⟩

theorem lt_length_of_getElem?_sealPieces : i < pieces.length := by
  have inside := (List.getElem?_eq_some_iff.mp place).1
  rwa [length_sealPieces] at inside

theorem length_signature_of_getElem?_sealPieces : packet.signature.length = 32 := by
  obtain ⟨_, _, rfl⟩ := exists_of_getElem?_sealPieces place
  exact length_signature_sealSegment ..

/-- A packet says its piece and the signature value of the packet behind it. -/
theorem readContent_of_getElem?_sealPieces {piece : Bytes} (here : pieces[i]? = some piece)
    (sized : piece.length < UInt64.size) :
    packet.readContent =
      .ok ⟨piece, (sealPieces base pieces marker)[i + 1]?.map Data.signature⟩ := by
  obtain ⟨_, same, rfl⟩ := exists_of_getElem?_sealPieces place
  cases here.symm.trans same
  refine readContent_sealSegment ⟨sized, fun commitment declared => ?_⟩
  obtain ⟨next, behind, rfl⟩ := Option.map_eq_some_iff.mp declared
  rw [length_signature_of_getElem?_sealPieces behind]
  decide

end packets

section segments

variable {base : Name} {pieces : List Bytes} {marker : Marker}

/-- What a consumer of the whole chain receives: each piece under its number, with its packet. -/
def segments (base : Name) (pieces : List Bytes) (marker : Marker) : List Verified :=
  (pieces.zip (sealPieces base pieces marker)).mapIdx fun n (piece, packet) => ⟨n, piece, packet⟩

@[simp] theorem length_segments : (segments base pieces marker).length = pieces.length := by
  simp [segments]

theorem getElem?_segments_eq_some_iff {i : Nat} {segment : Verified} :
    (segments base pieces marker)[i]? = some segment ↔
      segment.segment = i ∧ pieces[i]? = some segment.payload ∧
        (sealPieces base pieces marker)[i]? = some segment.data := by
  simp only [segments, List.getElem?_mapIdx, Option.map_eq_some_iff, List.getElem?_zip_eq_some,
    Prod.exists]
  constructor
  · rintro ⟨piece, packet, ⟨hasPiece, hasPacket⟩, rfl⟩
    exact ⟨rfl, hasPiece, hasPacket⟩
  · rintro ⟨rfl, hasPiece, hasPacket⟩
    exact ⟨_, _, ⟨hasPiece, hasPacket⟩, rfl⟩

theorem map_segments {α : Type} (part : Bytes → Data → α) :
    (segments base pieces marker).map (fun segment => part segment.payload segment.data) =
      (pieces.zip (sealPieces base pieces marker)).map fun entry => part entry.1 entry.2 := by
  apply List.ext_getElem?
  intro i
  simp only [segments, List.getElem?_map, List.getElem?_mapIdx, Option.map_map]
  rfl

@[simp] theorem map_data_segments :
    (segments base pieces marker).map Verified.data = sealPieces base pieces marker := by
  refine (map_segments fun _ packet => packet).trans (List.map_snd_zip ?_)
  simp

@[simp] theorem map_payload_segments :
    (segments base pieces marker).map Verified.payload = pieces := by
  refine (map_segments fun piece _ => piece).trans (List.map_fst_zip ?_)
  simp

theorem map_signature_getElem?_segments (i : Nat) :
    (sealPieces base pieces marker)[i]?.map Data.signature =
      (segments base pieces marker)[i]?.map fun segment => segment.data.signature := by
  rw [← map_data_segments, List.getElem?_map, Option.map_map]
  rfl

/-- Each packet seals its payload with the signature value of its successor, if it has one. -/
theorem data_eq_of_getElem?_segments {i : Nat} {segment : Verified}
    (place : (segments base pieces marker)[i]? = some segment) :
    segment.data = sealSegment base marker (pieces.length - 1) i segment.payload
      ((segments base pieces marker)[i + 1]?.map fun next => next.data.signature) := by
  obtain ⟨_, hasPiece, hasPacket⟩ := getElem?_segments_eq_some_iff.mp place
  obtain ⟨piece, same, sealed⟩ := exists_of_getElem?_sealPieces hasPacket
  cases hasPiece.symm.trans same
  rw [sealed, map_signature_getElem?_segments]

theorem verify_of_getElem?_segments {i : Nat} {segment : Verified}
    (place : (segments base pieces marker)[i]? = some segment) :
    segment.data.verify = .ok () := by
  rw [data_eq_of_getElem?_segments place]
  exact verify_sealSegment ..

theorem content_of_getElem?_segments {i : Nat} {segment : Verified}
    (place : (segments base pieces marker)[i]? = some segment) :
    segment.data.content = Content.encode ⟨segment.payload,
      (segments base pieces marker)[i + 1]?.map fun next => next.data.signature⟩ :=
  congrArg Data.content (data_eq_of_getElem?_segments place)

/-- A sealed packet says its payload and the signature value of its successor. -/
theorem readContent_of_getElem?_segments {i : Nat} {segment : Verified}
    (place : (segments base pieces marker)[i]? = some segment)
    (sized : segment.payload.length < UInt64.size) :
    segment.data.readContent = .ok ⟨segment.payload,
      (segments base pieces marker)[i + 1]?.map fun next => next.data.signature⟩ := by
  obtain ⟨_, hasPiece, hasPacket⟩ := getElem?_segments_eq_some_iff.mp place
  rw [readContent_of_getElem?_sealPieces hasPacket hasPiece sized, map_signature_getElem?_segments]

theorem finalSegment?_of_getElem?_segments {i : Nat} {segment : Verified}
    (place : (segments base pieces marker)[i]? = some segment)
    (declares : marker.declares i (pieces.length - 1) = true) :
    segment.data.finalSegment? = some (UInt64.ofNat (pieces.length - 1)) := by
  rw [data_eq_of_getElem?_segments place, finalSegment?_sealSegment, if_pos declares]

/-- The piece is part of the content, and the content part of the signed portion. -/
theorem length_payload_le_of_getElem?_segments {i : Nat} {segment : Verified}
    (place : (segments base pieces marker)[i]? = some segment) :
    segment.payload.length ≤ segment.data.signedPortion.length := by
  have element : ∀ {value : Bytes} {elements : List Tlv.Element},
      ⟨Tlv.contentType, value⟩ ∈ elements → value.length ≤ (Tlv.encodeAll elements).length := by
    intro value elements member
    exact Nat.le_trans (Tlv.length_value_le_length_encode ⟨Tlv.contentType, value⟩)
      (Tlv.length_encode_le_length_encodeAll member)
  calc segment.payload.length
      ≤ segment.data.content.length := by
        rw [content_of_getElem?_segments place]
        exact element (List.mem_cons_self ..)
    _ ≤ segment.data.signedPortion.length := element (by simp)

end segments

/-! ## A well-linked chain -/

/-- A chain has one packet a piece.  Packet `i` carries segment number `i` behind the name of the chain,
covers itself, says its piece and the signature value of the packet behind it, and declares the end as its
marker asks for.  A payload is cut into pieces that make it up again, all of the size asked for but the
last, which may be shorter and is not empty; an empty payload, or pieces of size zero, make one piece. -/
theorem chain_well_linked (base : Name) (pieces : List Bytes) (marker : Marker)
    (counted : pieces.length ≤ UInt64.size) (sized : ∀ piece ∈ pieces, piece.length < UInt64.size)
    (payload : Bytes) (size : Nat) :
    ((sealPieces base pieces marker).length = pieces.length ∧
      ∀ i packet, (sealPieces base pieces marker)[i]? = some packet →
        packet.name = base.appendSegment (UInt64.ofNat i) ∧
        packet.segment?.map UInt64.toNat = some i ∧
        packet.verify = .ok () ∧
        (∃ piece, pieces[i]? = some piece ∧ packet.readContent =
          .ok ⟨piece, (sealPieces base pieces marker)[i + 1]?.map Data.signature⟩) ∧
        packet.finalSegment?.map UInt64.toNat =
          match marker with
          | .everySegment => some (pieces.length - 1)
          | .lastSegment => if i + 1 = pieces.length then some i else none
          | .omitted => none) ∧
    (splitPayload payload size).flatten = payload ∧
    (payload = [] ∨ size = 0 → splitPayload payload size = [payload]) ∧
    (payload ≠ [] → 0 < size → ∀ i piece, (splitPayload payload size)[i]? = some piece →
      if i + 1 < (splitPayload payload size).length then piece.length = size
      else 0 < piece.length ∧ piece.length ≤ size) := by
  refine ⟨⟨length_sealPieces .., fun i packet place => ?_⟩, flatten_splitPayload payload size,
    splitPayload_of_unsplit,
    fun nonempty positive i piece => length_of_getElem?_splitPayload nonempty positive⟩
  have inside := lt_length_of_getElem?_sealPieces place
  have number : (UInt64.ofNat i).toNat = i := UInt64.toNat_ofNat_of_lt' (by omega)
  obtain ⟨piece, here, same⟩ := exists_of_getElem?_sealPieces place
  have reads := readContent_of_getElem?_sealPieces place here (sized piece (List.mem_of_getElem? here))
  subst same
  refine ⟨rfl, ?_, verify_sealSegment .., ⟨piece, here, reads⟩,
    map_finalSegment?_sealSegment base marker piece _ counted inside⟩
  exact (congrArg (Option.map UInt64.toNat) (Name.segment?_appendSegment base _)).trans
    (congrArg some number)

/-- Three bytes cut into a piece of two and a rest of one, and the end declared by the last packet. -/
theorem chain_well_linked_two :
    let pieces : List Bytes := [[1, 2], [3]]
    splitPayload [1, 2, 3] 2 = pieces ∧ (∀ piece ∈ pieces, piece.length < UInt64.size) ∧
      (∀ rest, (splitPayload [1, 2, 3] 2)[1]? = some rest → 0 < rest.length ∧ rest.length ≤ 2) ∧
      ∃ first last, sealPieces ⟨[]⟩ pieces .lastSegment = [first, last] ∧
        first.readContent = .ok ⟨[1, 2], some last.signature⟩ ∧ first.finalSegment? = none ∧
        last.readContent = .ok ⟨[3], none⟩ ∧ last.verify = .ok () ∧
        last.finalSegment?.map UInt64.toNat = some 1 := by
  intro pieces
  have sized : ∀ piece ∈ pieces, piece.length < UInt64.size := by simp [pieces, UInt64.size]
  have split : splitPayload [1, 2, 3] 2 = pieces := by simp [splitPayload, Bytes.pieces, pieces]
  obtain ⟨⟨_, links⟩, _, _, sizes⟩ :=
    chain_well_linked ⟨[]⟩ pieces .lastSegment (by decide) sized [1, 2, 3] 2
  obtain ⟨first, last, sealed⟩ : ∃ first last,
    sealPieces ⟨[]⟩ pieces .lastSegment = [first, last] := ⟨_, _, rfl⟩
  rw [sealed] at links
  obtain ⟨_, _, _, ⟨_, here, reads⟩, silent⟩ := links 0 first rfl
  obtain ⟨_, _, covered, ⟨_, behind, readsLast⟩, declares⟩ := links 1 last rfl
  cases here
  cases behind
  refine ⟨split, sized, fun rest place => ?_, first, last, sealed, reads,
    Option.map_eq_none_iff.mp silent, readsLast, covered, declares⟩
  simpa [split, pieces] using sizes (by decide) (by decide) 1 rest place

end Chain

end SegmentRetrieval
