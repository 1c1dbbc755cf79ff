import SegmentRetrieval.Proofs.Seal.Chain
import SegmentRetrieval.Proofs.Verifier.Log

/-! # Sealed chains and linked logs

A linked log whose first packet has the signature value of a sealed chain's first packet follows that
chain, packet by packet, because each packet commits to the signature value of the next; otherwise
two different signed portions have one digest (`Linked.prefix_or_collision`).  The other way round, a
verifier that has taken in packets of a sealed chain only refuses none of them
(`Accepts.error_submit_eq_none`).
-/

namespace SegmentRetrieval

namespace Chain

variable {base : Name} {pieces : List Bytes} {marker : Marker}

/-- The packet that a chain has after some of its segments carries the signature value to which the
last of them commits. -/
theorem commitment?_of_getElem?_segments {i : Nat} {segment : Verified}
    (place : (segments base pieces marker)[i]? = some segment)
    (sized : segment.payload.length < UInt64.size) :
    segment.commitment? =
      (segments base pieces marker)[i + 1]?.map fun next => next.data.signature := by
  rw [Verified.commitment?, readContent_of_getElem?_segments place sized]
  rfl

/-- A packet that passes its own check and has the signature value of the chain's packet number `i` is
that packet, with its payload, or the two signed portions collide. -/
theorem eq_or_collision_of_getElem?_segments {i : Nat} {segment : Verified} {data : Data}
    {content : Content} (place : (segments base pieces marker)[i]? = some segment)
    (sized : segment.data.signedPortion.length < UInt64.size) (covered : data.verify = .ok ())
    (reads : data.readContent = .ok content) (same : data.signature = segment.data.signature) :
    ⟨i, content.payload, data⟩ = segment ∨
      Sha256.Collision [data.signedPortion, segment.data.signedPortion] := by
  refine (Data.eq_or_collision_of_signature_eq covered (verify_of_getElem?_segments place) sized
    same).imp_left ?_
  rintro rfl
  have payloadSized := Nat.lt_of_le_of_lt (length_payload_le_of_getElem?_segments place) sized
  rw [readContent_of_getElem?_segments place payloadSized] at reads
  cases reads
  rw [← (getElem?_segments_eq_some_iff.mp place).1]

/-- The last packet of a log that a chain begins with commits to the packet that the chain has
next. -/
theorem commitment?_of_prefix {log : List Verified} {last : Verified}
    (sized : ∀ segment ∈ segments base pieces marker, segment.payload.length < UInt64.size)
    (begins : log <+: segments base pieces marker) (final : log.getLast? = some last) :
    last.commitment? =
      (segments base pieces marker)[log.length]?.map fun next => next.data.signature := by
  have inside : 0 < log.length := by
    rw [List.length_pos_iff]
    rintro rfl
    cases final
  have place : (segments base pieces marker)[log.length - 1]? = some last := by
    rw [← final, List.getLast?_eq_getElem?]
    exact (List.prefix_iff_getElem?.mp begins _ (by omega)).trans
      (List.getElem?_eq_getElem (by omega)).symm
  rw [commitment?_of_getElem?_segments place (sized last (List.mem_of_getElem? place)),
    Nat.sub_add_cancel inside]

/-- A log that a chain begins with is followed, in the chain, by a packet with the signature value
that the log expects next. -/
theorem exists_getElem?_segments_of_prefix {log : List Verified} (signature : Bytes)
    (sized : ∀ segment ∈ segments base pieces marker, segment.payload.length < UInt64.size)
    (begins : log <+: segments base pieces marker)
    (follows : ∀ last ∈ log.getLast?, last.commitment? = some signature)
    (anchored : log = [] →
      (sealPieces base pieces marker).head?.map Data.signature = some signature) :
    ∃ next, (segments base pieces marker)[log.length]? = some next ∧
      next.data.signature = signature := by
  have expected : (segments base pieces marker)[log.length]?.map
      (fun next => next.data.signature) = some signature := by
    cases final : log.getLast? with
    | none =>
      rw [List.getLast?_eq_none_iff] at final
      have start := anchored final
      rw [← map_data_segments, List.head?_eq_getElem?, List.getElem?_map, Option.map_map] at start
      rw [final]
      exact start
    | some last => rw [← commitment?_of_prefix sized begins final, follows last final]
  exact Option.map_eq_some_iff.mp expected

end Chain

/-- A linked log that starts with the signature value of a sealed chain is a prefix of that chain, or
there is a collision. -/
theorem Linked.prefix_or_collision {base : Name} {pieces : List Bytes} {marker : Chain.Marker}
    (sized : ∀ packet ∈ Chain.sealPieces base pieces marker,
      packet.signedPortion.length < UInt64.size)
    {log : List Verified} (linked : Linked log)
    (anchored : ∀ first ∈ log.head?,
      (Chain.sealPieces base pieces marker).head?.map Data.signature = some first.data.signature) :
    log <+: Chain.segments base pieces marker ∨
      Sha256.Collision ((log.map Verified.data ++ Chain.sealPieces base pieces marker).map
        Data.signedPortion) := by
  induction linked with
  | nil => exact .inl (List.nil_prefix)
  | @snoc log data content linked covered reads follows ih =>
    have earlier := ih fun first member => anchored first (by
      cases log with
      | nil => cases member
      | cons entry rest => exact member)
    rcases earlier with begins | collision
    · have payloads : ∀ segment ∈ Chain.segments base pieces marker,
          segment.payload.length < UInt64.size := by
        intro segment member
        obtain ⟨i, place⟩ := List.mem_iff_getElem?.mp member
        exact Nat.lt_of_le_of_lt (Chain.length_payload_le_of_getElem?_segments place)
          (sized _ (List.mem_of_getElem? (Chain.getElem?_segments_eq_some_iff.mp place).2.2))
      -- the chain goes on after the log, with the signature value that the new packet has
      obtain ⟨next, place, same⟩ := Chain.exists_getElem?_segments_of_prefix data.signature payloads
        begins follows (by
          rintro rfl
          exact anchored ⟨0, content.payload, data⟩ rfl)
      have genuine : next.data ∈ Chain.sealPieces base pieces marker :=
        List.mem_of_getElem? (Chain.getElem?_segments_eq_some_iff.mp place).2.2
      rcases Chain.eq_or_collision_of_getElem?_segments place (sized _ genuine) covered reads
        same.symm with rfl | collision
      · -- the new packet is the chain's own, so the prefix grows by it
        left
        obtain ⟨rest, split⟩ := begins
        rw [← split, List.getElem?_append_right (Nat.le_refl _), Nat.sub_self] at place
        cases rest with
        | nil => cases place
        | cons first rest =>
          cases place
          exact ⟨rest, by rw [List.append_assoc, List.singleton_append, split]⟩
      · right
        refine collision.mono ?_
        simp only [List.mem_cons, List.not_mem_nil, or_false, forall_eq_or_imp, forall_eq]
        exact ⟨List.mem_map_of_mem (by simp),
          List.mem_map_of_mem (List.mem_append_right _ genuine)⟩
    · -- a collision found earlier is among the longer list too
      right
      refine collision.mono ?_
      intro message member
      simp only [List.map_append, List.mem_append] at member ⊢
      exact member.imp_left .inl

/-! ## A verifier of a chain's packets -/

section chain

variable {base : Name} {pieces : List Bytes} {marker : Chain.Marker}

theorem Chain.exists_getElem?_segments {i : Nat} {packet : Data}
    (place : (sealPieces base pieces marker)[i]? = some packet) :
    ∃ payload, (segments base pieces marker)[i]? = some ⟨i, payload, packet⟩ := by
  obtain ⟨inside, _⟩ := List.getElem?_eq_some_iff.mp place
  rw [length_sealPieces] at inside
  exact ⟨pieces[i], getElem?_segments_eq_some_iff.mpr
    ⟨rfl, List.getElem?_eq_getElem inside, place⟩⟩

variable (sized : ∀ segment ∈ Chain.segments base pieces marker,
  segment.payload.length < UInt64.size)
include sized

/-- A linked log of a chain's packets is what the chain begins with. -/
theorem Linked.prefix_of_genuine {log : List Verified} (linked : Linked log)
    (genuine : ∀ verified ∈ log,
      (Chain.sealPieces base pieces marker)[verified.segment]? = some verified.data) :
    log <+: Chain.segments base pieces marker := by
  rw [List.prefix_iff_getElem?]
  intro i inside
  obtain ⟨entry, here⟩ : ∃ entry, log[i]? = some entry := ⟨_, List.getElem?_eq_getElem inside⟩
  rw [← List.getElem?_eq_getElem inside, here]
  have member := List.mem_of_getElem? here
  have number := linked.segment_eq_of_getElem? here
  have packet := genuine entry member
  rw [number] at packet
  obtain ⟨payload, place⟩ := Chain.exists_getElem?_segments packet
  obtain ⟨content, reads, same⟩ := linked.readContent_of_mem member
  rw [Chain.readContent_of_getElem?_segments place (sized _ (List.mem_of_getElem? place))] at reads
  cases reads
  cases entry
  simp only at number same
  rw [place, number, same]

namespace Verifier

variable {verifier : Verifier} {log : List Verified}

/-- After packets of a chain, the verifier accepts the next one. -/
theorem Accepts.authenticate_eq_ok (accepts : verifier.Accepts log)
    (genuine : ∀ verified ∈ log,
      (Chain.sealPieces base pieces marker)[verified.segment]? = some verified.data)
    {data : Data} (place : (Chain.sealPieces base pieces marker)[log.length]? = some data) :
    verifier.authenticate log.length data = .ok () := by
  obtain ⟨payload, next⟩ := Chain.exists_getElem?_segments place
  refine accepts.authenticate_eq_ok_iff.mpr ⟨Chain.verify_of_getElem?_segments next, ?_⟩
  intro last final
  have begins := accepts.linked.prefix_of_genuine sized genuine
  rw [Chain.commitment?_of_prefix sized begins final, next, Option.map_some]

theorem Accepts.error_cascade_eq_none {verifier : Verifier} {n : Nat} {held : Held} :
    ∀ {log : List Verified}, verifier.Accepts log → n = log.length →
      held.data.readContent = .ok held.content →
      (Chain.sealPieces base pieces marker)[n]? = some held.data →
      (∀ m other, verifier.pending.get? m = some other →
        (Chain.sealPieces base pieces marker)[m]? = some other.data) →
      (∀ verified ∈ log,
        (Chain.sealPieces base pieces marker)[verified.segment]? = some verified.data) →
      (verifier.cascade n held).1.error = none := by
  fun_induction Verifier.cascade verifier n held with
  | case1 verifier n held error failed =>
    intro log accepts expected reads place _ genuine
    subst expected
    -- a genuine packet does not fail
    rw [accepts.authenticate_eq_ok sized genuine place] at failed
    cases failed
  | case2 =>
    intros
    rfl
  | case3 verifier n held authentic accepted next found shorter submitted after result =>
    rename_i ih
    intro log accepts expected reads place pending genuine
    subst expected
    have extended := accepts.accept authentic reads (verifier.pending.erase (log.length + 1))
      fun _ _ => Table.get?_erase_eq_some_iff.mp
    have onward := ih extended (by simp) (accepts.held _ _ found).2 (pending _ _ found)
      (fun m other stayed => pending m other (Table.get?_erase_eq_some_iff.mp stayed).2) (by
        intro verified member
        rcases List.mem_append.mp member with earlier | last
        · exact genuine verified earlier
        · rw [List.mem_singleton.mp last]
          exact place)
    rwa [result] at onward

/-- A verifier that has taken in packets of a chain refuses no packet of it. -/
theorem Accepts.error_submit_eq_none (accepts : verifier.Accepts log)
    (genuine : ∀ m packet, verifier.Took log m packet →
      (Chain.sealPieces base pieces marker)[m]? = some packet)
    {n : Nat} {data : Data} (place : (Chain.sealPieces base pieces marker)[n]? = some data) :
    (verifier.submit n data).1.error = none := by
  obtain ⟨payload, segment⟩ := Chain.exists_getElem?_segments place
  rcases verifier.submit_cases n data with ⟨_, same⟩ | ⟨error, refused, _⟩ |
    ⟨content, _, _, same⟩ | ⟨content, reads, expected, same⟩
  · rw [same]
  · have readable := Chain.readContent_of_getElem?_segments segment
      (sized _ (List.mem_of_getElem? segment))
    rw [readable] at refused
    cases refused
  · rw [same]
  · rw [same]
    refine accepts.error_cascade_eq_none sized (expected.trans accepts.next) reads place ?_ ?_
    · exact fun m other found => genuine m _ (.inl ⟨other, found, rfl⟩)
    · exact fun verified member => genuine _ _ (.inr ⟨verified, member, rfl, rfl⟩)

end Verifier

end chain

end SegmentRetrieval
