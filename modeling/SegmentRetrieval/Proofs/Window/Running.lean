import SegmentRetrieval.Proofs.Window.Slots
import SegmentRetrieval.Retrieval

/-! # The requests that run in a window

A request runs where its slot holds its number in the running state.  Marking a slot stops the
request there, canceling stops the requests that it is meant for, and only a new request starts one.
-/

namespace SegmentRetrieval

namespace Slots

theorem mem_runningWhere_iff {slots : Slots} {p : Slot → Bool} {index : Nat} :
    index ∈ slots.runningWhere p ↔
      ∃ slot, slots[index]?.join = some slot ∧ slot.isRunning = true ∧ p slot = true := by
  simp only [runningWhere, List.mem_filterMap, Option.ite_none_right_eq_some, Option.some.injEq,
    Prod.exists, List.mem_zipIdx_iff_getElem?, Option.any_eq_true, Bool.and_eq_true,
    Option.join_eq_some_iff]
  constructor
  · rintro ⟨_, _, place, ⟨slot, rfl, chosen⟩, rfl⟩
    exact ⟨slot, place, chosen⟩
  · rintro ⟨slot, place, chosen⟩
    exact ⟨some slot, index, place, ⟨slot, rfl, chosen⟩, rfl⟩

/-- The slots are listed in ascending order. -/
theorem pairwise_runningWhere (p : Slot → Bool) (slots : Slots) :
    (slots.runningWhere p).Pairwise (· < ·) := by
  have places : slots.zipIdx.Pairwise fun one another => one.2 < another.2 := by
    refine List.Pairwise.of_map Prod.snd (fun _ _ => id) ?_
    rw [List.zipIdx_map_snd]
    exact List.pairwise_lt_range'
  refine places.filterMap _ ?_
  intro one another before index found other later
  simp only [Option.ite_none_right_eq_some, Option.some.injEq] at found later
  rwa [← found.2, ← later.2]

end Slots

namespace Window

/-- A request runs in its slot. -/
def Runs (window : Window) (request : Request) : Prop :=
  window.slot? request.slot = some ⟨request.segment, request.fetchId, .running⟩

variable {window before after : Window} {request other : Request}

theorem Runs.has (runs : window.Runs request) :
    window.Has .running request.slot request.segment :=
  ⟨request.fetchId, runs⟩

theorem isCurrent_iff {index : Nat} {fetchId : FetchId} :
    window.isCurrent index fetchId = true ↔ ∃ segment, window.Runs ⟨index, fetchId, segment⟩ := by
  simp only [isCurrent, Option.any_eq_true, Bool.and_eq_true, beq_iff_eq, Slot.isRunning, Runs]
  constructor
  · rintro ⟨⟨segment, _, _⟩, place, rfl, rfl⟩
    exact ⟨segment, place⟩
  · rintro ⟨segment, place⟩
    exact ⟨_, place, rfl, rfl⟩

theorem Runs.isCurrent (runs : window.Runs request) :
    window.isCurrent request.slot request.fetchId = true :=
  isCurrent_iff.mpr ⟨request.segment, runs⟩

theorem Runs.eq_of_slot_eq (runs : window.Runs request) (also : window.Runs other)
    (same : request.slot = other.slot) : request = other := by
  rw [Runs, same, also] at runs
  cases request
  cases other
  cases runs
  cases same
  rfl

theorem runs_iff_of_sets {slot : Nat} {state : SlotState}
    (sets : ∀ index, after.slot? index = if index = slot
      then (before.slot? index).map ({ · with state }) else before.slot? index)
    (idle : state ≠ .running) : after.Runs request ↔ request.slot ≠ slot ∧ before.Runs request := by
  unfold Runs
  rw [sets]
  split
  next here =>
    simp only [ne_eq, here, not_true_eq_false, false_and, iff_false]
    intro place
    obtain ⟨_, _, equal⟩ := Option.map_eq_some_iff.mp place
    exact idle (congrArg Slot.state equal)
  next elsewhere => exact (and_iff_right elsewhere).symm

theorem runs_iff_of_cancels {p : Slot → Bool}
    (cancels : ∀ index, after.slot? index = (before.slot? index).map (Slot.cancelIf p)) :
    after.Runs request ↔
      before.Runs request ∧ p ⟨request.segment, request.fetchId, .running⟩ = false := by
  unfold Runs
  rw [cancels]
  exact Slot.map_cancelIf_eq_running_iff

theorem Runs.mem_runningWhere_iff {p : Slot → Bool} (runs : before.Runs request)
    (cancels : ∀ index, after.slot? index = (before.slot? index).map (Slot.cancelIf p)) :
    request.slot ∈ before.slots.runningWhere p ↔ ¬ after.Runs request := by
  rw [Slots.mem_runningWhere_iff, runs_iff_of_cancels cancels, and_iff_right runs,
    Bool.not_eq_false]
  constructor
  · rintro ⟨_, place, _, chosen⟩
    cases place.symm.trans runs
    exact chosen
  · exact fun chosen => ⟨_, runs, rfl, chosen⟩

theorem runs_bind_iff {slot : Nat} (inside : slot < window.size) (segment : Nat) :
    (window.bind slot segment).2.Runs request ↔ if request.slot = slot
      then request = ⟨slot, window.nextFetchId, segment⟩ else window.Runs request := by
  unfold Runs
  rw [slot?_bind inside]
  split
  next here =>
    subst here
    cases request
    simp only [Option.some.injEq, Slot.mk.injEq, and_true, Request.mk.injEq, true_and]
    exact ⟨fun same => ⟨same.2.symm, same.1.symm⟩, fun same => ⟨same.2.symm, same.1.symm⟩⟩
  next => rfl

theorem runs_issued_iff {slot : Nat} (inside : slot < window.size) :
    (window.issued slot).Runs request ↔ if request.slot = slot
      then request = ⟨slot, window.nextFetchId, window.nextSegment⟩ else window.Runs request :=
  runs_bind_iff (by exact inside) window.nextSegment

/-! ## What runs after a call ran before it -/

theorem Runs.of_markSucceeded {slot : Nat} (runs : (window.markSucceeded slot).Runs request) :
    window.Runs request :=
  ((runs_iff_of_sets (window.slot?_markSucceeded slot) (by decide)).mp runs).2

theorem Runs.of_markFailed {slot : Nat} (runs : (window.markFailed slot).Runs request) :
    window.Runs request :=
  ((runs_iff_of_sets (window.slot?_markFailed slot) (by decide)).mp runs).2

theorem Runs.of_remembered {slot segment : Nat}
    (runs : (window.remembered slot segment).Runs request) : window.Runs request :=
  ((runs_iff_of_cancels (window.slot?_remembered slot segment)).mp runs).1.of_markFailed

theorem Runs.of_learnFinal {last : Nat} (runs : (window.learnFinal last).2.Runs request) :
    window.Runs request := by
  cases known : window.finalSegment with
  | some _ => simpa [learnFinal, known] using runs
  | none =>
    rcases learnFinal_cases known last with ⟨index, _, _, same⟩ | ⟨_, same⟩ <;> rw [same] at runs
    · -- slot by slot the request was canceled or left alone
      unfold Runs at runs ⊢
      rw [slot?_cutShort] at runs
      split at runs
      next => exact (Slot.map_cancelIf_eq_running_iff.mp runs).1
      next => exact runs
    · exact ((runs_iff_of_cancels (window.slot?_learned last)).mp runs).1

theorem Runs.of_onFailure {index : Nat} {failure : FetchFailure}
    (runs : (window.onFailure index failure).2.Runs request) : window.Runs request := by
  cases place : window.slot? index with
  | none => simpa [onFailure, place] using runs
  | some slot =>
    rcases onFailure_cases place failure with ⟨_, _, _, same⟩ | ⟨_, _, _, same⟩ |
      ⟨_, _, same⟩ | ⟨_, _, same⟩ <;> rw [same] at runs
    · exact runs.of_markFailed
    · exact runs.of_markFailed
    · exact Runs.of_remembered runs
    · exact runs.of_remembered

theorem Runs.of_cancelAll (runs : window.cancelAll.2.Runs request) : window.Runs request :=
  ((runs_iff_of_cancels window.slot?_cancelAll).mp runs).1

end Window

end SegmentRetrieval
