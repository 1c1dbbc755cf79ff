import SegmentRetrieval.Window

/-! # What the operations of a window do to its slots

Every operation is described by what it leaves in each slot.  `Has window state index segment` says
that the latest request of a slot is for a segment and in a state; the lemmas say how an operation
changes this relation, so that the lists of slots behind it need not be opened again.
-/

namespace SegmentRetrieval

/-- A request for a segment that still runs and satisfies `p` is canceled, another stays. -/
def Slot.cancelIf (p : Slot → Bool) (slot : Slot) : Slot :=
  if slot.isRunning && p slot then { slot with state := .canceled } else slot

/-- What still runs has run before and was not meant. -/
theorem Slot.map_cancelIf_eq_running_iff {entry : Option Slot} {p : Slot → Bool}
    {segment fetchId : Nat} :
    entry.map (Slot.cancelIf p) = some ⟨segment, fetchId, .running⟩ ↔
      entry = some ⟨segment, fetchId, .running⟩ ∧ p ⟨segment, fetchId, .running⟩ = false := by
  constructor
  · intro place
    obtain ⟨slot, found, equal⟩ := Option.map_eq_some_iff.mp place
    unfold Slot.cancelIf at equal
    split at equal
    next => cases congrArg Slot.state equal
    next kept =>
      subst equal
      exact ⟨found, by simpa [Slot.isRunning] using kept⟩
  · rintro ⟨found, kept⟩
    simp [found, Slot.cancelIf, kept]

namespace Slots

theorem join_getElem?_setState (slots : Slots) (index : Nat) (state : SlotState) (i : Nat) :
    (slots.setState index state)[i]?.join =
      if i = index then slots[i]?.join.map ({ · with state }) else slots[i]?.join := by
  by_cases here : i = index
  · subst here
    cases place : slots[i]? with
    | none => simp [setState, place]
    | some slot => simp [setState, place]
  · simp only [setState, List.getElem?_modify, if_neg (Ne.symm here), if_neg here, id_map']

theorem join_getElem?_cancelWhere (slots : Slots) (p : Slot → Bool) (i : Nat) :
    (slots.cancelWhere p)[i]?.join = slots[i]?.join.map (Slot.cancelIf p) := by
  rw [cancelWhere, List.getElem?_map]
  cases slots[i]? <;> rfl

theorem length_setState (slots : Slots) (index : Nat) (state : SlotState) :
    (slots.setState index state).length = slots.length :=
  List.length_modify ..

theorem length_cancelWhere (slots : Slots) (p : Slot → Bool) :
    (slots.cancelWhere p).length = slots.length :=
  List.length_map ..

/-- Canceling in the slots before `index` leaves the others alone. -/
theorem join_getElem?_cancelWhere_take (slots : Slots) (p : Slot → Bool) (index i : Nat) :
    (cancelWhere p (slots.take index) ++ slots.drop index)[i]?.join =
      if i < index then slots[i]?.join.map (Slot.cancelIf p) else slots[i]?.join := by
  rw [List.getElem?_append, length_cancelWhere, List.length_take]
  by_cases inside : i < slots.length
  · by_cases before : i < index
    · rw [if_pos (by omega), if_pos before, join_getElem?_cancelWhere,
        List.getElem?_take_of_lt before]
    · rw [if_neg (by omega), if_neg before, List.getElem?_drop]
      congr 2
      omega
  · have none : slots[i]? = none := List.getElem?_eq_none (by omega)
    rw [if_neg (by omega), List.getElem?_eq_none (by rw [List.length_drop]; omega), none]
    simp

end Slots

namespace Window

/-- The latest request of slot `index` is for `segment` and in `state`. -/
def Has (window : Window) (state : SlotState) (index segment : Nat) : Prop :=
  ∃ fetchId, window.slot? index = some ⟨segment, fetchId, state⟩

theorem has_of_slot? {window : Window} {index : Nat} {slot : Slot}
    (place : window.slot? index = some slot) : window.Has slot.state index slot.segment :=
  ⟨slot.fetchId, place⟩

/-- A slot has one latest request. -/
theorem Has.unique {window : Window} {state other : SlotState} {index segment number : Nat}
    (has : window.Has state index segment) (another : window.Has other index number) :
    state = other ∧ segment = number := by
  obtain ⟨fetchId, place⟩ := has
  obtain ⟨otherId, otherPlace⟩ := another
  rw [place] at otherPlace
  cases otherPlace
  exact ⟨rfl, rfl⟩

theorem slot?_lt {window : Window} {index : Nat} {slot : Slot}
    (place : window.slot? index = some slot) : index < window.size := by
  have inside := Option.join_eq_some_iff.mp place
  exact (List.getElem?_eq_some_iff.mp inside).1

theorem mem_slots_iff {window : Window} {slot : Slot} :
    some slot ∈ window.slots ↔ ∃ index, window.slot? index = some slot := by
  simp only [List.mem_iff_getElem?, slot?, Option.join_eq_some_iff]

/-- Something runs exactly if some slot has a running request. -/
theorem running_pos_iff {window : Window} :
    0 < window.running ↔ ∃ index segment, window.Has .running index segment := by
  rw [running, List.countP_pos_iff]
  constructor
  · rintro ⟨entry, member, runs⟩
    cases entry with
    | none => cases runs
    | some slot =>
      obtain ⟨index, place⟩ := mem_slots_iff.mp member
      have state : slot.state = .running := by simpa [Slot.isRunning] using runs
      exact ⟨index, slot.segment, state ▸ has_of_slot? place⟩
  · rintro ⟨index, segment, fetchId, place⟩
    exact ⟨_, mem_slots_iff.mpr ⟨index, place⟩, rfl⟩

/-! ## The requests of the slots -/

/-- Slots whose requests change their states at most own the same requests. -/
def SameRequests (window other : Window) : Prop :=
  ∀ index, (window.slot? index).map (fun slot => (slot.segment, slot.fetchId)) =
    (other.slot? index).map fun slot => (slot.segment, slot.fetchId)

theorem SameRequests.exists_of_slot? {window other : Window} (same : window.SameRequests other)
    {index : Nat} {slot : Slot} (place : window.slot? index = some slot) :
    ∃ before, other.slot? index = some before ∧ slot.segment = before.segment ∧
      slot.fetchId = before.fetchId := by
  have known := same index
  rw [place, Option.map_some, eq_comm, Option.map_eq_some_iff] at known
  obtain ⟨before, found, equal⟩ := known
  rw [Prod.mk.injEq] at equal
  exact ⟨before, found, equal.1.symm, equal.2.symm⟩

/-! ## Changing the state of one request -/

section setting

variable {before after : Window} {slot : Nat} {state : SlotState}
  (sets : ∀ index, after.slot? index = if index = slot
    then (before.slot? index).map ({ · with state }) else before.slot? index)
include sets

theorem sameRequests_of_sets : after.SameRequests before := by
  intro index
  rw [sets]
  split
  · rw [Option.map_map]
    rfl
  · rfl

theorem has_iff_of_sets {index segment : Nat} {other : SlotState} :
    after.Has other index segment ↔
      if index = slot then other = state ∧ ∃ old, before.Has old index segment
      else before.Has other index segment := by
  unfold Has
  rw [sets]
  split
  · constructor
    · rintro ⟨fetchId, place⟩
      obtain ⟨old, found, equal⟩ := Option.map_eq_some_iff.mp place
      cases equal
      exact ⟨rfl, old.state, old.fetchId, found⟩
    · rintro ⟨rfl, old, fetchId, found⟩
      exact ⟨fetchId, by rw [found, Option.map_some]⟩
  · rfl

theorem has_other_iff_of_sets {index segment : Nat} {other : SlotState} (different : other ≠ state) :
    after.Has other index segment ↔ index ≠ slot ∧ before.Has other index segment := by
  rw [has_iff_of_sets sets]
  split
  next here => simp [different, here]
  next elsewhere => exact (and_iff_right elsewhere).symm

end setting

theorem slot?_markSucceeded (window : Window) (slot index : Nat) :
    (window.markSucceeded slot).slot? index = if index = slot
      then (window.slot? index).map ({ · with state := .succeeded }) else window.slot? index :=
  Slots.join_getElem?_setState ..

@[simp] theorem size_markSucceeded (window : Window) (slot : Nat) :
    (window.markSucceeded slot).size = window.size :=
  Slots.length_setState ..

theorem sameRequests_markSucceeded (window : Window) (slot : Nat) :
    (window.markSucceeded slot).SameRequests window :=
  sameRequests_of_sets (window.slot?_markSucceeded slot)

theorem has_markSucceeded_iff {window : Window} {slot index segment : Nat} {state : SlotState}
    (other : state ≠ .succeeded) :
    (window.markSucceeded slot).Has state index segment ↔
      index ≠ slot ∧ window.Has state index segment :=
  has_other_iff_of_sets (window.slot?_markSucceeded slot) other

/-! ## Canceling -/

section canceling

variable {before after : Window} {p : Slot → Bool}
  (cancels : ∀ index, after.slot? index = (before.slot? index).map (Slot.cancelIf p))
include cancels

theorem sameRequests_of_cancels : after.SameRequests before := by
  intro index
  rw [cancels, Option.map_map]
  congr 1
  funext slot
  simp only [Function.comp_apply, Slot.cancelIf]
  split <;> rfl

theorem has_failed_iff_of_cancels {index segment : Nat} :
    after.Has .failed index segment ↔ before.Has .failed index segment := by
  simp only [Has, cancels]
  refine exists_congr fun fetchId => ⟨?_, ?_⟩
  · intro place
    obtain ⟨slot, found, equal⟩ := Option.map_eq_some_iff.mp place
    unfold Slot.cancelIf at equal
    split at equal
    · cases congrArg Slot.state equal
    · rw [found, equal]
  · intro place
    rw [place]
    rfl

theorem has_running_iff_of_cancels {bound : Nat} (past : p = fun slot => decide (bound < slot.segment))
    {index segment : Nat} :
    after.Has .running index segment ↔ segment ≤ bound ∧ before.Has .running index segment := by
  subst past
  simp only [Has, cancels, Slot.map_cancelIf_eq_running_iff, decide_eq_false_iff_not, Nat.not_lt]
  constructor
  · rintro ⟨fetchId, place, within⟩
    exact ⟨within, fetchId, place⟩
  · rintro ⟨within, fetchId, place⟩
    exact ⟨fetchId, place, within⟩

end canceling

theorem slot?_cancelAll (window : Window) (index : Nat) :
    window.cancelAll.2.slot? index = (window.slot? index).map (Slot.cancelIf fun _ => true) :=
  Slots.join_getElem?_cancelWhere ..

theorem not_has_running_cancelAll (window : Window) (index segment : Nat) :
    ¬ window.cancelAll.2.Has .running index segment := by
  rintro ⟨fetchId, place⟩
  rw [slot?_cancelAll, Slot.map_cancelIf_eq_running_iff] at place
  exact nomatch place.2

/-! ## Learning the final segment -/

/-- The window after the end became known and nothing at or below it had failed. -/
def learned (window : Window) (last : Nat) : Window :=
  { window with
    slots := window.slots.cancelWhere fun slot => last < slot.segment
    finalSegment := some last, hasFailure := false }

theorem slot?_learned (window : Window) (last index : Nat) : (window.learned last).slot? index =
    (window.slot? index).map (Slot.cancelIf fun slot => last < slot.segment) :=
  Slots.join_getElem?_cancelWhere ..

/-- The window after the end became known and slot `index` was the first with a failure at or below
it: the slots from that one on are left as they are. -/
def cutShort (window : Window) (last index : Nat) : Window :=
  { window with
    slots := Slots.cancelWhere (fun slot => last < slot.segment) (window.slots.take index) ++
      window.slots.drop index
    finalSegment := some last, hasFailure := false }

theorem slot?_cutShort (window : Window) (last index i : Nat) :
    (window.cutShort last index).slot? i = if i < index
      then (window.slot? i).map (Slot.cancelIf fun slot => last < slot.segment)
      else window.slot? i :=
  Slots.join_getElem?_cancelWhere_take ..

/-- Slot `index` is the first whose request failed although the content has its segment. -/
structure FirstFailed (window : Window) (last index segment : Nat) : Prop where
  failed : window.Has .failed index segment
  within : segment ≤ last
  first : ∀ lower number, lower < index → window.Has .failed lower number → last < number

theorem FirstFailed.unique {window : Window} {last index segment other number : Nat}
    (one : window.FirstFailed last index segment) (another : window.FirstFailed last other number) :
    segment = number := by
  have notBefore : ¬ index < other := fun before =>
    Nat.not_lt.mpr one.within (another.first _ _ before one.failed)
  have notAfter : ¬ other < index := fun after =>
    Nat.not_lt.mpr another.within (one.first _ _ after another.failed)
  have same : index = other := by omega
  subst same
  exact (one.failed.unique another.failed).2

theorem failedWithin_eq_true_iff {last : Nat} {slot : Slot} :
    failedWithin last (some slot) = true ↔ slot.state = .failed ∧ slot.segment ≤ last := by
  simp [failedWithin]

/-- Where the end is not known yet, the first failed request for a segment that the content has ends
the retrieval, and otherwise the running requests past the end are canceled. -/
theorem learnFinal_cases {window : Window} (unknown : window.finalSegment = none) (last : Nat) :
    (∃ index segment, window.FirstFailed last index segment ∧
        window.learnFinal last = (.error (.segmentFailed segment), window.cutShort last index)) ∨
      ((∀ index segment, window.Has .failed index segment → last < segment) ∧
        window.learnFinal last = (.ok (window.slots.runningWhere fun slot => last < slot.segment),
          window.learned last)) := by
  -- the slots before the first failure within the end are canceled, and it is reported
  have whole := window.slots.takeWhile_append_dropWhile (p := (! failedWithin last ·))
  have sound : ∀ slot, some slot ∈ window.slots.takeWhile (! failedWithin last ·) →
      slot.state = .failed → last < slot.segment := by
    intro slot member failed
    have unfailed := List.all_eq_true.mp List.all_takeWhile _ member
    rw [Bool.not_eq_true', ← Bool.not_eq_true, failedWithin_eq_true_iff] at unfailed
    exact Nat.lt_of_not_le fun within => unfailed ⟨failed, within⟩
  cases others : window.slots.dropWhile (! failedWithin last ·) with
  | nil =>
    rw [others, List.append_nil] at whole
    refine .inr ⟨?_, by simp [learnFinal, learned, unknown, others, whole]⟩
    rintro index segment ⟨fetchId, place⟩
    exact sound _ (whole.symm ▸ mem_slots_iff.mpr ⟨index, place⟩) rfl
  | cons entry rest =>
    have head := List.head?_dropWhile_not (! failedWithin last ·) window.slots
    simp only [others, List.head?_cons, Bool.not_eq_false'] at head
    cases entry with
    | none => cases head
    | some slot =>
      obtain ⟨failed, within⟩ := failedWithin_eq_true_iff.mp head
      rw [others] at whole
      generalize front : window.slots.takeWhile (! failedWithin last ·) = before at whole sound
      have place : window.slot? before.length = some slot := by simp [slot?, ← whole]
      refine .inl ⟨before.length, slot.segment, ⟨failed ▸ has_of_slot? place, within, ?_⟩, ?_⟩
      · rintro lower number earlier ⟨fetchId, found⟩
        refine sound ⟨number, fetchId, .failed⟩ ?_ rfl
        rw [slot?, ← whole, List.getElem?_append_left earlier, Option.join_eq_some_iff] at found
        exact List.mem_of_getElem? found
      · have taken : window.slots.take before.length = before := by rw [← whole, List.take_left]
        have dropped : window.slots.drop before.length = some slot :: rest := by
          rw [← whole, List.drop_left]
        simp [learnFinal, cutShort, unknown, others, front, taken, dropped]

theorem sameRequests_learned (window : Window) (last : Nat) :
    (window.learned last).SameRequests window :=
  sameRequests_of_cancels (window.slot?_learned last)

theorem has_running_learned_iff {window : Window} {last index segment : Nat} :
    (window.learned last).Has .running index segment ↔
      segment ≤ last ∧ window.Has .running index segment :=
  has_running_iff_of_cancels (window.slot?_learned last) rfl

theorem has_failed_learned_iff {window : Window} {last index segment : Nat} :
    (window.learned last).Has .failed index segment ↔ window.Has .failed index segment :=
  has_failed_iff_of_cancels (window.slot?_learned last)

/-! ## Failures -/

/-- The window after the request of a slot failed. -/
def markFailed (window : Window) (index : Nat) : Window :=
  { window with slots := window.slots.setState index .failed }

theorem slot?_markFailed (window : Window) (slot index : Nat) :
    (window.markFailed slot).slot? index = if index = slot
      then (window.slot? index).map ({ · with state := .failed }) else window.slot? index :=
  Slots.join_getElem?_setState ..

/-- The window after a failure was remembered: the running requests for later segments are
canceled. -/
def remembered (window : Window) (index segment : Nat) : Window :=
  { window with
    slots := (window.markFailed index).slots.cancelWhere fun other => segment < other.segment
    hasFailure := true }

theorem slot?_remembered (window : Window) (slot segment index : Nat) :
    (window.remembered slot segment).slot? index =
      ((window.markFailed slot).slot? index).map (Slot.cancelIf fun other => segment < other.segment) :=
  Slots.join_getElem?_cancelWhere ..

theorem sameRequests_remembered (window : Window) (slot segment : Nat) :
    (window.remembered slot segment).SameRequests window :=
  fun index => (sameRequests_of_cancels (window.slot?_remembered slot segment) index).trans
    (sameRequests_of_sets (window.slot?_markFailed slot) index)

theorem has_running_markFailed_iff {window : Window} {slot index segment : Nat} :
    (window.markFailed slot).Has .running index segment ↔
      index ≠ slot ∧ window.Has .running index segment :=
  has_other_iff_of_sets (window.slot?_markFailed slot) (by decide)

theorem has_running_remembered_iff {window : Window} {slot bound index segment : Nat} :
    (window.remembered slot bound).Has .running index segment ↔
      segment ≤ bound ∧ index ≠ slot ∧ window.Has .running index segment := by
  rw [has_running_iff_of_cancels (window.slot?_remembered slot bound) rfl,
    has_running_markFailed_iff]

theorem has_failed_remembered_iff {window : Window} {slot bound index segment : Nat}
    (runs : window.Has .running slot bound) :
    (window.remembered slot bound).Has .failed index segment ↔
      index = slot ∧ segment = bound ∨ window.Has .failed index segment := by
  rw [has_failed_iff_of_cancels (window.slot?_remembered slot bound),
    has_iff_of_sets (window.slot?_markFailed slot)]
  split
  next here =>
    subst here
    constructor
    · rintro ⟨_, old, has⟩
      exact .inl ⟨rfl, (has.unique runs).2⟩
    · rintro (⟨_, rfl⟩ | has)
      · exact ⟨rfl, .running, runs⟩
      · exact nomatch (has.unique runs).1
  next elsewhere => simp [elsewhere]

/-- What the failure of a slot's request does: it is fatal where the content has the segment, counts
for nothing past the end, and where the end is not known it is remembered as long as something still
runs. -/
theorem onFailure_cases {window : Window} {index : Nat} {slot : Slot}
    (place : window.slot? index = some slot) (failure : FetchFailure) :
    (∃ last, window.finalSegment = some last ∧ slot.segment ≤ last ∧
        window.onFailure index failure =
          (.fatal (.fetch slot.segment failure), window.markFailed index)) ∨
      (∃ last, window.finalSegment = some last ∧ last < slot.segment ∧
        window.onFailure index failure = (.proceed [], window.markFailed index)) ∨
      (window.finalSegment = none ∧ (window.remembered index slot.segment).running = 0 ∧
        window.onFailure index failure = (.fatal .finalSegmentNotFound,
          { window.remembered index slot.segment with hasFailure := window.hasFailure })) ∨
      (window.finalSegment = none ∧ 0 < (window.remembered index slot.segment).running ∧
        window.onFailure index failure =
          (.proceed ((window.markFailed index).slots.runningWhere fun other =>
            slot.segment < other.segment), window.remembered index slot.segment)) := by
  unfold onFailure
  rw [place]
  cases known : window.finalSegment with
  | some last =>
    by_cases within : slot.segment ≤ last
    · refine .inl ⟨last, rfl, within, ?_⟩
      simp [markFailed, known, within]
    · refine .inr (.inl ⟨last, rfl, by omega, ?_⟩)
      simp [markFailed, known, within]
  | none =>
    refine .inr (.inr ?_)
    by_cases runs : (window.remembered index slot.segment).slots.any fun slot =>
        slot.any Slot.isRunning
    · refine .inr ⟨rfl, by simpa [running, List.countP_pos_iff] using runs, ?_⟩
      simp only [remembered, markFailed] at runs ⊢
      rw [if_pos runs, known]
    · refine .inl ⟨rfl, by simpa [running, List.countP_eq_zero] using runs, ?_⟩
      simp only [remembered, markFailed] at runs ⊢
      rw [if_neg runs, known]

/-! ## Requesting -/

/-- A window with a failure and no known end requests nothing more, one that has requested every
segment has nothing to do, and every other one requests the next segment. -/
theorem nextRequest_cases (window : Window) :
    (window.hasFailure = true ∧ window.finalSegment = none ∧
        window.nextRequest = (.abort .finalSegmentNotFound, window)) ∨
      (∃ last, window.finalSegment = some last ∧ last < window.nextSegment ∧
        window.nextRequest = (.exhausted, window)) ∨
      ((window.finalSegment = none → window.hasFailure = false) ∧
        (∀ last, window.finalSegment = some last → window.nextSegment ≤ last) ∧
        window.nextRequest =
          (.issue window.nextSegment, { window with nextSegment := window.nextSegment + 1 })) := by
  unfold nextRequest
  cases known : window.finalSegment with
  | none => cases failed : window.hasFailure <;> simp
  | some last =>
    by_cases requested : last < window.nextSegment
    · simp [requested]
    · simp [requested, Nat.le_of_not_lt requested]

theorem slot?_bind {window : Window} {slot : Nat} (inside : slot < window.size)
    (segment index : Nat) : (window.bind slot segment).2.slot? index = if index = slot
      then some ⟨segment, window.nextFetchId, .running⟩ else window.slot? index := by
  simp only [slot?, bind, List.getElem?_set]
  by_cases here : index = slot
  · subst here
    simp only [size] at inside
    simp [inside]
  · simp [here, Ne.symm here]

/-- The window after the next segment is requested through a slot. -/
def issued (window : Window) (slot : Nat) : Window :=
  ({ window with nextSegment := window.nextSegment + 1 }.bind slot window.nextSegment).2

theorem slot?_issued {window : Window} {slot : Nat} (inside : slot < window.size) (index : Nat) :
    (window.issued slot).slot? index = if index = slot
      then some ⟨window.nextSegment, window.nextFetchId, .running⟩ else window.slot? index :=
  slot?_bind (by exact inside) window.nextSegment index

@[simp] theorem size_issued (window : Window) (slot : Nat) :
    (window.issued slot).size = window.size :=
  List.length_set ..

theorem has_issued_iff {window : Window} {slot index segment : Nat} {state : SlotState}
    (inside : slot < window.size) :
    (window.issued slot).Has state index segment ↔
      if index = slot then state = .running ∧ segment = window.nextSegment
      else window.Has state index segment := by
  unfold Has
  rw [slot?_issued inside]
  split
  · simp only [Option.some.injEq, Slot.mk.injEq]
    grind
  · rfl

end Window

end SegmentRetrieval
