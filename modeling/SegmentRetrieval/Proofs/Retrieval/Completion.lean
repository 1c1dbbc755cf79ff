import SegmentRetrieval.Proofs.Retrieval.Beyond
import SegmentRetrieval.Proofs.Retrieval.Reassembly

/-! # What a completed retrieval has delivered

A retrieval completes as soon as it has delivered a segment behind the end, so it has delivered every
segment up to the end.  Once the end is known, no packet past it is taken in, and the retrieval stops
right at the end.  But a packet that is the first to declare the end is delivered before the end
counts, together with whatever its cascade reaches, and the segments delivered up to then stay
delivered where the end lies before them.
-/

namespace SegmentRetrieval

namespace Retrieval

variable {size : Nat} {messages : List Message} {retrieval : Retrieval} {output : Output}
  {request : Request} {data : Data} {state : Retrieval} {aborted : Output} {last : Nat}

theorem Absorbs.nextSegment_verifier (absorbs : retrieval.Absorbs request data state aborted) :
    state.verifier.nextSegment =
      (retrieval.verifier.submit request.segment data).2.nextSegment := by
  cases absorbs <;> rfl

/-- The packets taken in while the end is known do not lead past it. -/
theorem Sound.nextSegment_absorbed_le (sound : Sound size none retrieval output)
    (runs : retrieval.window.Has .running request.slot request.segment)
    (absorbs : retrieval.Absorbs request data state aborted)
    (known : retrieval.window.finalSegment = some last) :
    state.verifier.nextSegment ≤ last + 1 := by
  -- otherwise the segment behind the end was delivered, and so it was taken in, now or before
  refine Nat.not_lt.mp fun past => ?_
  obtain ⟨verified, member, number⟩ :=
    (sound.absorbed runs absorbs).accepts.mem_log_iff.mpr past
  rcases sound.took_absorbed runs absorbs (.inr ⟨verified, member, number, rfl⟩) with
    ⟨same, _⟩ | before
  · have within := sound.running_le last known _ _ runs
    omega
  · have unfinished := sound.unfinished rfl last known
    have within := sound.seen_le last known _ ⟨_, before⟩
    omega

/-- The end was known before a packet is taken in, or the packet declares it. -/
theorem Absorbs.known_or_declared (absorbs : retrieval.Absorbs request data state aborted)
    (known : state.window.finalSegment = some last) :
    retrieval.window.finalSegment = some last ∨
      retrieval.window.finalSegment = none ∧ data.declared? = some last := by
  cases absorbs with
  | silent => exact .inl known
  | told _ unknown reads =>
    cases known
    exact .inr ⟨unknown, by rw [Data.declared?, reads]; rfl⟩

/-- A completed retrieval has delivered an initial run of segments that goes at least up to the end.
It ends right there if the end was known before the last packet came; and if that packet is the first
to declare the end, it ends where the cascade of the packet ends. -/
theorem completed_range (nonempty : 0 < size) (run : Run size messages retrieval output)
    {summary : Summary} (completed : .completed summary ∈ output.events) :
    ∃ last, retrieval.window.finalSegment = some last ∧ last < summary.segments ∧
      output.events = output.delivered.map .segment ++ [.completed summary] ∧
      output.delivered.map Verified.segment = List.range summary.segments ∧
      ∃ earlier before history request data, Run size earlier before history ∧
        earlier ++ [.completed request (.ok data)] <+: messages ∧
        output.delivered =
          history.delivered ++ (before.verifier.submit request.segment data).1.verified ∧
        (before.window.finalSegment = some last ∧ summary.segments = last + 1 ∨
          before.window.finalSegment = none ∧ data.declared? = some last ∧
            summary.segments =
              (before.verifier.submit request.segment data).2.nextSegment) := by
  cases stopped : retrieval.stopped with
  | false => exact absurd completed ((run.sound nonempty stopped).not_mem_events rfl)
  | true =>
    obtain ⟨earlier, before, history, begun, live, sound, ⟨_, _, rfl⟩ |
      ⟨elapsed, request, result, next, done, issued, within, step, _, _, same, rfl⟩⟩ :=
        run.last_step nonempty stopped
    · exact absurd (by simpa using completed) (sound.not_mem_events rfl)
    · -- the last step completed, so it took a packet in
      rw [Output.events_append, List.mem_append] at completed
      obtain ⟨data, state, aborted, last, rfl, runs, absorbs, known, past, kept, rfl, _,
        events⟩ := step.completed (completed.resolve_left (sound.not_mem_events rfl))
      have handed := Output.delivered_of_events events rfl
      have accepts := sound.accepts.submit request.segment data
      have numbered := accepts.linked.map_segment
      rw [← accepts.next, ← absorbs.nextSegment_verifier] at numbered
      refine ⟨last, same ▸ kept, past, ?_, ?_, earlier, before, history, request, data, begun,
        within, by rw [Output.delivered_append, handed]; rfl, ?_⟩
      · rw [Output.events_append, events, sound.events, Output.delivered_append, handed,
          List.map_append, List.append_assoc]
      · rw [Output.delivered_append, handed]
        exact numbered
      · refine (absorbs.known_or_declared known).imp (fun earlier => ⟨earlier, ?_⟩) ?_
        · have reached := sound.nextSegment_absorbed_le runs absorbs earlier
          exact Nat.le_antisymm reached past
        · exact fun here => ⟨here.1, here.2, absorbs.nextSegment_verifier⟩

/-- Three packets of a chain complete a retrieval: the last one comes first and is held, and the second
releases it. -/
theorem completed_range_cascade : ∃ first second third retrieval output,
    Chain.sealPieces ⟨[]⟩ [[1], [2], [3]] .everySegment = [first, second, third] ∧
      Run 3 [.completed ⟨2, 2, 2⟩ (.ok third), .completed ⟨0, 0, 0⟩ (.ok first),
        .completed ⟨1, 1, 1⟩ (.ok second)] retrieval output ∧
      retrieval.window.finalSegment = some 2 ∧
      output.delivered.map Verified.segment = [0, 1, 2] := by
  have fits : Chain.Fits [[1], [2], [3]] := ⟨by decide, by decide, by decide⟩
  have all : [2, 0, 1].Perm (List.range 3) := by decide
  obtain ⟨retrieval, output, elapsed, run, _, _, events⟩ :=
    Run.exists_gathered ⟨[]⟩ fits (by decide) (.nacked ⟨[]⟩ .noRoute) all
  have completed : .completed ⟨3, 3, elapsed⟩ ∈ output.events := by
    rw [events]
    exact List.mem_append_right _ (List.mem_singleton_self _)
  obtain ⟨last, known, _, _, numbered, _, _, _, request, data, _, shorter, _, reached⟩ :=
    completed_range (by decide) run completed
  have final : last = 2 := by
    rcases reached with ⟨_, count⟩ | ⟨_, declares, _⟩
    · exact (Nat.succ.inj count).symm
    · -- every packet of the chain declares its end
      have served := served_arrivals (Chain.sealPieces ⟨[]⟩ [[1], [2], [3]] .everySegment)
        (.nacked ⟨[]⟩ .noRoute) (all.nodup_iff.mpr List.nodup_range)
      obtain ⟨end', reads, ends⟩ := fits.exists_finalSegment? (served.of_prefix shorter).serves.place
      rw [Data.declared?, reads] at declares
      cases declares
      exact Nat.succ.inj ends
  exact ⟨_, _, _, retrieval, output, rfl, run, final ▸ known, numbered⟩

/-! ## A segment delivered past the end -/

/-- Segment 0 comes and declares that it is the final one. -/
theorem handle_holding_finished {early : Held} (reads : early.data.readContent = .ok early.content)
    (undeclared : early.data.finalSegment? = none) {first : Data} {verified : List Verified} {n : Nat}
    (submitted : ({ pending := [(1, early)] } : Verifier).submit 0 first =
      ({ verified }, { nextSegment := n + 1 })) (declares : first.finalSegment? = some 0) :
    ((holding early).handle .zero (.completed ⟨0, 0, 0⟩ (.ok first))).1.window.finalSegment = some 0 ∧
      ((holding early).handle .zero (.completed ⟨0, 0, 0⟩ (.ok first))).2.events =
        verified.map .segment ++ [.completed ⟨n + 1, verified.foldl Verified.addBytes 0, .zero⟩] := by
  rw [handle_holding reads undeclared]
  unfold receive
  simp only [holding, submitted, declares]
  rw [deliver_of_hears _ (hears_of_room_eq_none _ rfl _)]
  exact ⟨rfl, rfl⟩

/-- Segment 0 releases the packet to which it commits, and that one commits to nothing. -/
theorem submit_zero_pair {first second : Data} {payload following : Bytes}
    (covered : first.verify = .ok ())
    (reads : first.readContent = .ok ⟨payload, some second.signature⟩)
    (whole : second.verify = .ok ()) :
    ({ pending := [(1, ⟨second, ⟨following, none⟩⟩)] } : Verifier).submit 0 first =
      ({ verified := [⟨0, payload, first⟩, ⟨1, following, second⟩] }, { nextSegment := 2 }) := by
  have matched : second.checkCommitment second.signature = .ok () := if_pos rfl
  have authentic : (({} : Verifier).accept 0 ⟨first, ⟨payload, some second.signature⟩⟩).authenticate
      1 second = .ok () := by
    simp only [Verifier.authenticate, whole]
    exact congrArg (Except.mapError IntegrityError.mismatch) matched
  have released : (({} : Verifier).accept 0 ⟨first, ⟨payload, some second.signature⟩⟩).cascade 1
      ⟨second, ⟨following, none⟩⟩ =
        ({ verified := [⟨1, following, second⟩] }, { nextSegment := 2 }) := by
    rw [Verifier.cascade]
    simp only [authentic]
    rfl
  exact Verifier.submit_zero_released covered reads released

/-- A packet for segment 1 that declares no end. -/
def surplus : Data :=
  Chain.sealSegment ⟨[]⟩ .omitted 0 1 [2] none

/-- A packet that commits to the surplus one, and yet declares that segment 0 is the final one. -/
def hasty : Data :=
  Chain.sealSegment ⟨[]⟩ .everySegment 0 0 [1] (some surplus.signature)

theorem readContent_surplus : surplus.readContent = .ok ⟨[2], none⟩ :=
  Chain.readContent_sealSegment ⟨by decide, nofun⟩

theorem finalSegment?_surplus : surplus.finalSegment? = none :=
  Chain.finalSegment?_sealSegment ..

theorem readContent_hasty : hasty.readContent = .ok ⟨[1], some surplus.signature⟩ := by
  have length : surplus.signature.length = 32 := Sha256.length_digest _
  refine Chain.readContent_sealSegment ⟨by decide, ?_⟩
  rintro _ ⟨⟩
  rw [length]
  decide

theorem finalSegment?_hasty : hasty.finalSegment? = some 0 :=
  Chain.finalSegment?_sealSegment ..

/-- The end is segment 0, and the completed retrieval has delivered segment 1 too. -/
theorem completed_past_end : ∃ retrieval output,
    Run 2 [.completed ⟨1, 1, 1⟩ (.ok surplus), .completed ⟨0, 0, 0⟩ (.ok hasty)] retrieval output ∧
      retrieval.window.finalSegment = some 0 ∧
      output.events = [.segment ⟨0, [1], hasty⟩, .segment ⟨1, [2], surplus⟩,
        .completed ⟨2, 2, .zero⟩] := by
  have begun := Run.holding readContent_surplus finalSegment?_surplus
  have run := begun.handle .zero (.completed ⟨0, 0, 0⟩ (.ok hasty)) fun request same =>
    Option.some.inj same ▸ List.mem_cons_self ..
  have submitted : ({ pending := [(1, ⟨surplus, ⟨[2], none⟩⟩)] } : Verifier).submit 0 hasty =
      ({ verified := [⟨0, [1], hasty⟩, ⟨1, [2], surplus⟩] }, { nextSegment := 2 }) :=
    submit_zero_pair (Chain.verify_sealSegment ..) readContent_hasty (Chain.verify_sealSegment ..)
  obtain ⟨known, events⟩ := handle_holding_finished readContent_surplus finalSegment?_surplus
    submitted finalSegment?_hasty
  refine ⟨_, _, run, known, ?_⟩
  rw [Output.events_append, events]
  rfl

end Retrieval

end SegmentRetrieval
