import SegmentRetrieval.Proofs.Retrieval.Reassembly

/-! # Delivered segments are authentic

Whatever a face answers, the delivered segments are linked, so they follow the sealed chain that their
first packet belongs to.  A collision is exhibited among the packets at hand, and nothing is assumed
about digests.
-/

namespace SegmentRetrieval

namespace Retrieval

theorem Run.linked {size : Nat} (nonempty : 0 < size) {messages : List Message}
    {retrieval : Retrieval} {output : Output} (run : Run size messages retrieval output) :
    Linked output.delivered := by
  cases stopped : retrieval.stopped with
  | false => exact (run.sound nonempty stopped).accepts.linked
  | true =>
    obtain ⟨_, before, history, _, _, sound, ⟨_, _, rfl⟩ |
      ⟨_, request, result, next, done, _, _, step, _, _, _, rfl⟩⟩ := run.last_step nonempty stopped
    · simpa using sound.accepts.linked
    · -- the last step delivers nothing, or the first of what one submission made acceptable
      rw [Output.delivered_append]
      rcases step.delivered with nothing | ⟨data, _, first⟩
      · rw [nothing, List.append_nil]
        exact sound.accepts.linked
      · exact (sound.accepts.submit request.segment data).linked.of_prefix
          ((List.prefix_append_right_inj _).mpr first)

/-- Tamper evidence.  However the requests of a run are answered and in whatever order, once the first
delivered packet has the signature value of a sealed chain's first packet, the delivered segments are
a prefix of that chain, or two different signed portions of delivered and sealed packets have one
digest. -/
theorem delivered_prefix_or_collision {size : Nat} (nonempty : 0 < size) {base : Name}
    {pieces : List Bytes} {marker : Chain.Marker}
    (sized : ∀ packet ∈ Chain.sealPieces base pieces marker,
      packet.signedPortion.length < UInt64.size)
    {messages : List Message} {retrieval : Retrieval} {output : Output}
    (run : Run size messages retrieval output)
    (anchored : ∀ first ∈ output.delivered.head?,
      (Chain.sealPieces base pieces marker).head?.map Data.signature = some first.data.signature) :
    output.delivered <+: Chain.segments base pieces marker ∨
      Sha256.Collision ((output.delivered.map Verified.data ++
        Chain.sealPieces base pieces marker).map Data.signedPortion) :=
  (run.linked nonempty).prefix_or_collision sized anchored

/-- A chain of three packets through a window of three slots: the last packet comes first and is held,
and the second releases it. -/
theorem delivered_prefix_or_collision_cascade : ∃ first second third retrieval output,
    Chain.sealPieces ⟨[]⟩ [[1], [2], [3]] .everySegment = [first, second, third] ∧
      Run 3 [.completed ⟨2, 2, 2⟩ (.ok third), .completed ⟨0, 0, 0⟩ (.ok first),
        .completed ⟨1, 1, 1⟩ (.ok second)] retrieval output ∧
      output.delivered.length = 3 ∧
      (output.delivered <+: Chain.segments ⟨[]⟩ [[1], [2], [3]] .everySegment ∨
        Sha256.Collision ((output.delivered.map Verified.data ++
          Chain.sealPieces ⟨[]⟩ [[1], [2], [3]] .everySegment).map Data.signedPortion)) := by
  have fits : Chain.Fits [[1], [2], [3]] := ⟨by decide, by decide, by decide⟩
  have all : [2, 0, 1].Perm (List.range 3) := by decide
  obtain ⟨retrieval, output, _, run, _, _, events⟩ :=
    Run.exists_gathered ⟨[]⟩ fits (by decide) (.nacked ⟨[]⟩ .noRoute) all
  have delivered := Output.delivered_of_events events rfl
  refine ⟨_, _, _, retrieval, output, rfl, run, ?_,
    delivered_prefix_or_collision (by decide) (by decide) run ?_⟩
  · rw [delivered, Chain.length_segments]
    rfl
  · intro first member
    rw [delivered] at member
    cases member
    rfl

end Retrieval

end SegmentRetrieval
