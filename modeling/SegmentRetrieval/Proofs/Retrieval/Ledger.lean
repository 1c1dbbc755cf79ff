import SegmentRetrieval.Proofs.Window.Slots
import SegmentRetrieval.Retrieval

/-! # Requests and the slots that own them

Requests are numbered in the order of their segments and never repeated, so the number of a segment
says which request it was and through which slot it went.
-/

namespace SegmentRetrieval

/-- The requests made so far are for the segments `0`, `1`, … in order, each under its own number, and
the slots own some of them. -/
structure Ledger (window : Window) (requests : List Request) : Prop where
  numbers : requests.map Request.segment = List.range window.nextSegment
  ids : ∀ request ∈ requests, request.fetchId = request.segment
  next : window.nextFetchId = window.nextSegment
  owned : ∀ index slot, window.slot? index = some slot →
    ⟨index, slot.fetchId, slot.segment⟩ ∈ requests

namespace Ledger

variable {window : Window} {requests : List Request} (ledger : Ledger window requests)
include ledger

theorem getElem?_of_mem {request : Request} (member : request ∈ requests) :
    requests[request.segment]? = some request := by
  -- the request stands at some place, and the numbers say that place is its segment
  obtain ⟨place, found⟩ := List.mem_iff_getElem?.mp member
  have number := congrArg (·[place]?) ledger.numbers
  simp only [List.getElem?_map, found, Option.map_some] at number
  obtain ⟨_, equal⟩ := List.getElem?_eq_some_iff.mp number.symm
  rw [List.getElem_range] at equal
  rw [← equal, found]

theorem eq_of_segment_eq {first second : Request} (one : first ∈ requests)
    (other : second ∈ requests) (same : first.segment = second.segment) : first = second := by
  have place := ledger.getElem?_of_mem one
  rw [same, ledger.getElem?_of_mem other] at place
  exact (Option.some.inj place).symm

theorem segment_lt {request : Request} (member : request ∈ requests) :
    request.segment < window.nextSegment := by
  rw [← List.mem_range, ← ledger.numbers]
  exact List.mem_map_of_mem member

theorem length_eq : requests.length = window.nextSegment := by
  have lengths := congrArg List.length ledger.numbers
  rwa [List.length_map, List.length_range] at lengths

theorem mem_of_has {state : SlotState} {index segment : Nat} (has : window.Has state index segment) :
    ⟨index, segment, segment⟩ ∈ requests := by
  obtain ⟨fetchId, place⟩ := has
  have member := ledger.owned index _ place
  have number := ledger.ids _ member
  simp only at number
  rwa [number] at member

theorem has_lt {state : SlotState} {index segment : Nat} (has : window.Has state index segment) :
    segment < window.nextSegment :=
  ledger.segment_lt (ledger.mem_of_has has)

/-- A segment is requested through one slot. -/
theorem index_eq {state other : SlotState} {index place segment : Nat}
    (has : window.Has state index segment) (another : window.Has other place segment) :
    index = place :=
  congrArg Request.slot
    (ledger.eq_of_segment_eq (ledger.mem_of_has has) (ledger.mem_of_has another) rfl)

/-- A request is current while its slot runs it. -/
theorem isCurrent_iff {request : Request} (member : request ∈ requests) :
    window.isCurrent request.slot request.fetchId = true ↔
      window.Has .running request.slot request.segment := by
  have number := ledger.ids request member
  unfold Window.isCurrent
  constructor
  · intro current
    -- the slot runs the fetch of this number, which is the number of its segment
    obtain ⟨slot, place, owns⟩ := (Option.any_eq_true ..).mp current
    simp only [Bool.and_eq_true, beq_iff_eq, Slot.isRunning] at owns
    have own := ledger.ids _ (ledger.owned _ slot place)
    simp only at own
    have same : slot.segment = request.segment := by rw [← own, owns.1, number]
    exact owns.2 ▸ same ▸ Window.has_of_slot? place
  · rintro ⟨fetchId, place⟩
    have own := ledger.ids _ (ledger.owned _ _ place)
    simp only at own
    simp [place, own, number, Slot.isRunning]

theorem of_sameRequests {after : Window} (same : after.SameRequests window)
    (segments : after.nextSegment = window.nextSegment)
    (fetches : after.nextFetchId = window.nextFetchId) : Ledger after requests where
  numbers := segments ▸ ledger.numbers
  ids := ledger.ids
  next := by rw [fetches, segments, ledger.next]
  owned := by
    intro index slot place
    obtain ⟨before, found, segment, fetchId⟩ := same.exists_of_slot? place
    rw [segment, fetchId]
    exact ledger.owned index before found

theorem issued {slot : Nat} (inside : slot < window.size) :
    Ledger (window.issued slot) (requests ++ [⟨slot, window.nextFetchId, window.nextSegment⟩]) where
  numbers := by
    rw [List.map_append, ledger.numbers, List.map_singleton]
    exact List.range_succ.symm
  ids := by
    intro request member
    rcases List.mem_append.mp member with old | new
    · exact ledger.ids request old
    · rw [List.mem_singleton.mp new]
      exact ledger.next
  next := congrArg (· + 1) ledger.next
  owned := by
    intro index entry place
    rw [Window.slot?_issued inside] at place
    split at place
    next here =>
      cases place
      simp [here]
    next => exact List.mem_append_left _ (ledger.owned index entry place)

end Ledger

end SegmentRetrieval
