import SegmentRetrieval.Proofs.Window.Running

/-! # What a window reports as canceled

A window is asked to cancel requests by three of its operations, and the caller aborts the fetches of
the slots that it is told.  These are exactly the slots whose requests went from running to canceled,
once each and in ascending order, and every other slot but that of a failed request is as it was
(`Reports`).  The operations that may end the retrieval instead say so exactly where they have to:
`learnFinal_fst_eq_error_iff` and `onFailure_fst_eq_fatal_iff`.
-/

namespace SegmentRetrieval

namespace Window

/-- The slots `canceled` are, in ascending order, those whose requests went from running to canceled
between the two windows.  They keep their requests; the request of `failed`, if there is such a slot,
has failed; and every other slot is as it was. -/
structure Reports (before after : Window) (failed : Option Nat) (canceled : List Nat) : Prop where
  ascending : canceled.Pairwise (· < ·)
  mem_iff : ∀ index, index ∈ canceled ↔
    ∃ segment, before.Has .running index segment ∧ after.Has .canceled index segment
  stops : ∀ index ∈ canceled,
    after.slot? index = (before.slot? index).map ({ · with state := .canceled })
  fails : ∀ index, failed = some index →
    after.slot? index = (before.slot? index).map ({ · with state := .failed })
  kept : ∀ index, index ∉ canceled → failed ≠ some index → after.slot? index = before.slot? index

variable {before marked after : Window} {p : Slot → Bool} {index : Nat}

/-- A slot that neither has failed nor is reported does not go from running to canceled. -/
theorem Reports.of_ran {failed : Option Nat} {canceled : List Nat}
    (ascending : canceled.Pairwise (· < ·))
    (ran : ∀ index ∈ canceled, ∃ segment, before.Has .running index segment)
    (stops : ∀ index ∈ canceled,
      after.slot? index = (before.slot? index).map ({ · with state := .canceled }))
    (fails : ∀ index, failed = some index →
      after.slot? index = (before.slot? index).map ({ · with state := .failed }))
    (kept : ∀ index, index ∉ canceled → failed ≠ some index →
      after.slot? index = before.slot? index) :
    before.Reports after failed canceled where
  ascending := ascending
  mem_iff := by
    intro index
    constructor
    · intro member
      obtain ⟨segment, fetchId, place⟩ := ran index member
      exact ⟨segment, ⟨fetchId, place⟩, fetchId, by rw [stops index member, place, Option.map_some]⟩
    · rintro ⟨segment, ⟨fetchId, place⟩, number, later⟩
      by_cases member : index ∈ canceled
      · exact member
      · -- the slot would not be canceled afterwards
        by_cases here : failed = some index
        · rw [fails index here, place] at later
          cases later
        · rw [kept index member here, place] at later
          cases later
  stops := stops
  fails := fails
  kept := kept

/-! ## Canceling the requests of a kind -/

section canceling

variable (cancels : ∀ index, after.slot? index = (marked.slot? index).map (Slot.cancelIf p))
include cancels

theorem slot?_of_mem_runningWhere (member : index ∈ marked.slots.runningWhere p) :
    after.slot? index = (marked.slot? index).map ({ · with state := .canceled }) := by
  obtain ⟨slot, place, runs, chosen⟩ := Slots.mem_runningWhere_iff.mp member
  have place : marked.slot? index = some slot := place
  have both : (slot.isRunning && p slot) = true := by rw [runs, chosen, Bool.and_self]
  rw [cancels, place, Option.map_some, Option.map_some, Slot.cancelIf, if_pos both]

theorem slot?_of_not_mem_runningWhere (other : index ∉ marked.slots.runningWhere p) :
    after.slot? index = marked.slot? index := by
  rw [cancels]
  cases place : marked.slot? index with
  | none => rfl
  | some slot =>
    rw [Option.map_some, Slot.cancelIf, if_neg]
    intro chosen
    rw [Bool.and_eq_true] at chosen
    exact other (Slots.mem_runningWhere_iff.mpr ⟨slot, place, chosen⟩)

/-- One request may be marked as failed before the requests of a kind are canceled. -/
theorem reports_of_cancels {failed : Option Nat}
    (marks : ∀ index, marked.slot? index = if failed = some index
      then (before.slot? index).map ({ · with state := .failed }) else before.slot? index) :
    before.Reports after failed (marked.slots.runningWhere p) := by
  -- a request that has failed does not run, so it is not canceled
  have apart : ∀ index ∈ marked.slots.runningWhere p, failed ≠ some index := by
    intro index member here
    obtain ⟨slot, place, runs, _⟩ := Slots.mem_runningWhere_iff.mp member
    have place : marked.slot? index = some slot := place
    rw [marks, if_pos here] at place
    obtain ⟨_, _, rfl⟩ := Option.map_eq_some_iff.mp place
    cases runs
  refine .of_ran (Slots.pairwise_runningWhere p _) ?_ ?_ ?_ ?_
  · intro index member
    obtain ⟨slot, place, runs, _⟩ := Slots.mem_runningWhere_iff.mp member
    have place : marked.slot? index = some slot := place
    rw [marks, if_neg (apart index member)] at place
    have state : slot.state = .running := by simpa [Slot.isRunning] using runs
    exact ⟨slot.segment, state ▸ has_of_slot? place⟩
  · intro index member
    rw [slot?_of_mem_runningWhere cancels member, marks, if_neg (apart index member)]
  · intro index here
    rw [slot?_of_not_mem_runningWhere cancels fun member => apart index member here, marks,
      if_pos here]
  · intro index other elsewhere
    rw [slot?_of_not_mem_runningWhere cancels other, marks, if_neg elsewhere]

end canceling

theorem mem_runningWhere_iff_has {window : Window} {p : Nat → Bool} :
    index ∈ window.slots.runningWhere (fun slot => p slot.segment) ↔
      ∃ segment, window.Has .running index segment ∧ p segment = true := by
  rw [Slots.mem_runningWhere_iff]
  constructor
  · rintro ⟨slot, place, runs, chosen⟩
    have state : slot.state = .running := by simpa [Slot.isRunning] using runs
    exact ⟨slot.segment, state ▸ has_of_slot? place, chosen⟩
  · rintro ⟨segment, ⟨fetchId, place⟩, chosen⟩
    exact ⟨_, place, rfl, chosen⟩

variable {window : Window}

/-! ## Learning the final segment -/

theorem reports_learnFinal {last : Nat} {canceled : List Nat}
    (continues : window.learnFinal last = (.ok canceled, after)) :
    window.Reports after none canceled ∧ ∀ index, index ∈ canceled ↔
      window.finalSegment = none ∧ ∃ segment, window.Has .running index segment ∧ last < segment := by
  cases known : window.finalSegment with
  | some found =>
    simp only [learnFinal, known, Option.isSome_some, if_true, Prod.mk.injEq, Except.ok.injEq]
      at continues
    obtain ⟨rfl, rfl⟩ := continues
    exact ⟨.of_ran .nil (by simp) (by simp) (by simp) fun _ _ _ => rfl, by simp⟩
  | none =>
    rcases learnFinal_cases known last with ⟨_, _, _, same⟩ | ⟨_, same⟩ <;> rw [same] at continues <;>
      cases continues
    refine ⟨reports_of_cancels (window.slot?_learned last) fun _ => by simp, ?_⟩
    intro index
    simp only [mem_runningWhere_iff_has (p := fun segment => last < segment), decide_eq_true_eq,
      true_and]

/-- Telling the end fails exactly if it is not known yet and some request for a segment that the
content has failed; the error names the segment of the first slot with such a request. -/
theorem learnFinal_fst_eq_error_iff {last : Nat} {error : RetrievalError} :
    (window.learnFinal last).1 = .error error ↔ window.finalSegment = none ∧
      ∃ index segment, window.FirstFailed last index segment ∧ error = .segmentFailed segment := by
  cases known : window.finalSegment with
  | some _ => simp [learnFinal, known]
  | none =>
    rcases learnFinal_cases known last with ⟨index, segment, first, same⟩ | ⟨unfailed, same⟩ <;>
      rw [same]
    · simp only [Except.error.injEq, true_and]
      constructor
      · rintro rfl
        exact ⟨index, segment, first, rfl⟩
      · rintro ⟨other, number, another, rfl⟩
        rw [first.unique another]
    · simp only [reduceCtorEq, true_and, false_iff]
      rintro ⟨index, segment, first, _⟩
      exact Nat.not_lt.mpr first.within (unfailed index segment first.failed)

/-! ## Failures -/

/-- After a failure something still runs exactly if another slot ran a request for a segment that is
no later. -/
theorem running_remembered_pos_iff {segment : Nat} :
    0 < (window.remembered index segment).running ↔
      ∃ other number, other ≠ index ∧ window.Has .running other number ∧ number ≤ segment := by
  simp only [running_pos_iff, has_running_remembered_iff]
  constructor
  · rintro ⟨other, number, within, elsewhere, runs⟩
    exact ⟨other, number, elsewhere, runs, within⟩
  · rintro ⟨other, number, elsewhere, runs, within⟩
    exact ⟨other, number, within, elsewhere, runs⟩

theorem reports_onFailure {failure : FetchFailure} {canceled : List Nat}
    (continues : window.onFailure index failure = (.proceed canceled, after)) :
    window.Reports after (some index) canceled ∧ ∀ other, other ∈ canceled ↔
      window.finalSegment = none ∧ ∃ slot, window.slot? index = some slot ∧
        ∃ segment, window.Has .running other segment ∧ slot.segment < segment := by
  have marks : ∀ other, (window.markFailed index).slot? other = if some index = some other
      then (window.slot? other).map ({ · with state := .failed }) else window.slot? other := by
    intro other
    simp only [slot?_markFailed, Option.some.injEq, eq_comm]
  cases place : window.slot? index with
  | none =>
    simp only [onFailure, place, Prod.mk.injEq, FailureOutcome.proceed.injEq] at continues
    obtain ⟨rfl, rfl⟩ := continues
    refine ⟨.of_ran .nil (by simp) (by simp) ?_ fun _ _ _ => rfl, by simp⟩
    rintro other here
    cases here
    rw [place, Option.map_none]
  | some slot =>
    rcases onFailure_cases place failure with ⟨_, _, _, same⟩ | ⟨last, known, _, same⟩ |
      ⟨_, _, same⟩ | ⟨unknown, _, same⟩ <;> rw [same] at continues <;> cases continues
    · refine ⟨.of_ran .nil (by simp) (by simp) ?_ ?_, by simp [known]⟩
      · intro other here
        rw [marks, if_pos here]
      · intro other _ elsewhere
        rw [marks, if_neg elsewhere]
    · refine ⟨reports_of_cancels (window.slot?_remembered index slot.segment) marks, ?_⟩
      intro other
      simp only [mem_runningWhere_iff_has (p := fun segment => slot.segment < segment),
        decide_eq_true_eq, unknown, true_and, Option.some.injEq, exists_eq_left',
        has_running_markFailed_iff]
      constructor
      · rintro ⟨segment, ⟨_, runs⟩, later⟩
        exact ⟨segment, runs, later⟩
      · rintro ⟨segment, runs, later⟩
        refine ⟨segment, ⟨?_, runs⟩, later⟩
        -- the failed request is not for a later segment than its own
        rintro rfl
        obtain ⟨fetchId, found⟩ := runs
        cases place.symm.trans found
        exact Nat.lt_irrefl _ later

/-- A failure ends the retrieval exactly if the content is known to have the segment, or if the end is
unknown and no other slot runs a request for a segment that is no later. -/
theorem onFailure_fst_eq_fatal_iff {slot : Slot} (place : window.slot? index = some slot)
    {failure : FetchFailure} {error : RetrievalError} :
    (window.onFailure index failure).1 = .fatal error ↔
      (∃ last, window.finalSegment = some last ∧ slot.segment ≤ last ∧
        error = .fetch slot.segment failure) ∨
      (window.finalSegment = none ∧ error = .finalSegmentNotFound ∧
        ¬ ∃ other segment, other ≠ index ∧ window.Has .running other segment ∧
          segment ≤ slot.segment) := by
  rw [← running_remembered_pos_iff]
  rcases onFailure_cases place failure with ⟨last, known, within, same⟩ | ⟨last, known, past, same⟩ |
    ⟨unknown, idle, same⟩ | ⟨unknown, busy, same⟩ <;> rw [same]
  · simp [known, within, eq_comm]
  · simp [known, Nat.not_le.mpr past]
  · simp [unknown, idle, eq_comm]
  · simp [unknown, Nat.ne_of_gt busy]

theorem hasFailure_onFailure {slot : Slot} (place : window.slot? index = some slot)
    (failure : FetchFailure) (unknown : window.finalSegment = none)
    (busy : ∃ other segment, other ≠ index ∧ window.Has .running other segment ∧
      segment ≤ slot.segment) : (window.onFailure index failure).2.hasFailure = true := by
  rw [← running_remembered_pos_iff] at busy
  rcases onFailure_cases place failure with ⟨_, known, _⟩ | ⟨_, known, _⟩ | ⟨_, idle, _⟩ |
    ⟨_, _, same⟩
  · cases unknown.symm.trans known
  · cases unknown.symm.trans known
  · exact absurd idle (Nat.ne_of_gt busy)
  · rw [same]
    rfl

/-! ## Every operation that cancels -/

/-- Where telling the end or a failure lets the retrieval go on, and where everything is canceled, the
slots reported are those whose requests were canceled, and nothing else changed in a slot but the
failure: past an end that is told first the running requests are canceled, after a failure while the end
is unknown those for later segments, after one with a known end none.  Telling the end fails exactly
for the first slot whose failed request is within it; a failure while the end is unknown is fatal
exactly if no other request for a segment that is no later runs, and is remembered otherwise. -/
theorem cancellations_reported (window : Window) :
    (∀ last canceled after, window.learnFinal last = (.ok canceled, after) →
      window.Reports after none canceled ∧ ∀ index, index ∈ canceled ↔ window.finalSegment = none ∧
        ∃ segment, window.Has .running index segment ∧ last < segment) ∧
    (∀ index failure canceled after, window.onFailure index failure = (.proceed canceled, after) →
      window.Reports after (some index) canceled ∧ ∀ other, other ∈ canceled ↔
        window.finalSegment = none ∧ ∃ slot, window.slot? index = some slot ∧
          ∃ segment, window.Has .running other segment ∧ slot.segment < segment) ∧
    (window.Reports window.cancelAll.2 none window.cancelAll.1 ∧
      ∀ index, index ∈ window.cancelAll.1 ↔ ∃ segment, window.Has .running index segment) ∧
    (∀ last error, (window.learnFinal last).1 = .error error ↔ window.finalSegment = none ∧
      ∃ index segment, window.FirstFailed last index segment ∧ error = .segmentFailed segment) ∧
    ∀ index slot failure, window.slot? index = some slot → window.finalSegment = none →
      (∀ error, (window.onFailure index failure).1 = .fatal error ↔ error = .finalSegmentNotFound ∧
        ¬ ∃ other segment, other ≠ index ∧ window.Has .running other segment ∧
          segment ≤ slot.segment) ∧
      ((∃ other segment, other ≠ index ∧ window.Has .running other segment ∧
        segment ≤ slot.segment) → (window.onFailure index failure).2.hasFailure = true) := by
  refine ⟨fun _ _ _ => reports_learnFinal, fun _ _ _ _ => reports_onFailure, ⟨?_, ?_⟩,
    fun _ _ => learnFinal_fst_eq_error_iff, ?_⟩
  · exact reports_of_cancels window.slot?_cancelAll fun _ => by simp
  · intro index
    simpa [cancelAll] using mem_runningWhere_iff_has (p := fun _ => true)
  · intro index slot failure place unknown
    refine ⟨fun error => ?_, hasFailure_onFailure place failure unknown⟩
    rw [onFailure_fst_eq_fatal_iff place]
    simp [unknown]

/-- The end is told while a request past it has failed and another runs. -/
theorem cancellations_reported_past_end :
    let window : Window := {
      slots := [some ⟨0, 0, .succeeded⟩, some ⟨1, 1, .running⟩, some ⟨2, 2, .running⟩,
        some ⟨3, 3, .failed⟩]
      nextSegment := 4
      hasFailure := true
      nextFetchId := 4 }
    (window.learnFinal 1).1 = .ok [2] ∧ window.Reports (window.learnFinal 1).2 none [2] := by
  intro window
  exact ⟨rfl, ((cancellations_reported window).1 1 [2] (window.learnFinal 1).2 rfl).1⟩

end Window

end SegmentRetrieval
