import SegmentRetrieval.Proofs.Window.Running

/-! # A window under any calls

Whatever a new window is asked to do, in whatever order and also after it has answered an error, it
gives out the segments `0`, `1`, … one after another and none past the end that it knows; it keeps
the first end that it was told; it remembers a failure only while the end is unknown; and it numbers
no two requests alike.  Only a new request starts to run, so one that has stopped never runs again.

`Advances` says what a call does to a window in these respects.  One call advances it
(`advances_perform`), so any number of calls do (`advances_performAll`).
-/

namespace SegmentRetrieval

namespace Window

/-- A call on a window of `size` slots.  A request is put into one of the slots; every other index,
and every segment, may be any number. -/
inductive Call (size : Nat) where
  | nextRequest
  | bind (slot : Fin size) (segment : Nat)
  | markSucceeded (index : Nat)
  | learnFinal (last : Nat)
  | onFailure (index : Nat) (failure : FetchFailure)
  | cancelAll

/-- What a call answers. -/
inductive Answer where
  | next (request : NextRequest)
  | bound (fetchId : FetchId)
  | marked
  | learned (canceled : Except RetrievalError (List Nat))
  | failed (outcome : FailureOutcome)
  | canceled (slots : List Nat)

/-- The segment that an answer gives out. -/
def Answer.segment? : Answer → Option Nat
  | .next (.issue segment) => some segment
  | _ => none

/-- The number that an answer gives to a new request. -/
def Answer.fetchId? : Answer → Option FetchId
  | .bound fetchId => some fetchId
  | _ => none

/-- The segments given out, in order. -/
def segmentsIssued (answers : List Answer) : List Nat :=
  answers.filterMap Answer.segment?

/-- The numbers of the requests that were put into slots, in order. -/
def idsBound (answers : List Answer) : List FetchId :=
  answers.filterMap Answer.fetchId?

variable {size : Nat}

/-- What a call answers, and the window after it. -/
def perform (window : Window) : Call size → Answer × Window
  | .nextRequest => (.next window.nextRequest.1, window.nextRequest.2)
  | .bind slot segment => (.bound (window.bind slot segment).1, (window.bind slot segment).2)
  | .markSucceeded index => (.marked, window.markSucceeded index)
  | .learnFinal last => (.learned (window.learnFinal last).1, (window.learnFinal last).2)
  | .onFailure index failure =>
    (.failed (window.onFailure index failure).1, (window.onFailure index failure).2)
  | .cancelAll => (.canceled window.cancelAll.1, window.cancelAll.2)

/-- What some calls answer, one after the other, and the window after them. -/
def performAll (window : Window) : List (Call size) → List Answer × Window
  | [] => ([], window)
  | call :: calls =>
    let (answer, next) := window.perform call
    let (answers, last) := next.performAll calls
    (answer :: answers, last)

/-! ## What calls keep and move on -/

/-- The segments and the numbers given out are the next ones, the end stays what it is, a failure is
remembered only while the end is unknown, and a request with an old number runs only if it did before. -/
structure Advances (before : Window) (answers : List Answer) (after : Window) : Prop where
  size : after.size = before.size
  segments : List.range after.nextSegment = List.range before.nextSegment ++ segmentsIssued answers
  fetchIds : List.range after.nextFetchId = List.range before.nextFetchId ++ idsBound answers
  finalSegment : ∀ last, before.finalSegment = some last → after.finalSegment = some last
  hasFailure : (before.hasFailure = true → before.finalSegment = none) →
    after.hasFailure = true → after.finalSegment = none
  runs : ∀ request, request.fetchId < before.nextFetchId → after.Runs request → before.Runs request

variable {window before middle after : Window}

theorem Advances.nextFetchId_le {answers : List Answer} (advances : before.Advances answers after) :
    before.nextFetchId ≤ after.nextFetchId := by
  have lengths := congrArg List.length advances.fetchIds
  rw [List.length_append, List.length_range, List.length_range] at lengths
  exact Nat.le.intro lengths.symm

theorem Advances.refl (window : Window) : window.Advances [] window where
  size := rfl
  segments := (List.append_nil _).symm
  fetchIds := (List.append_nil _).symm
  finalSegment := fun _ => id
  hasFailure := id
  runs := fun _ _ => id

theorem Advances.trans {first second : List Answer} (one : before.Advances first middle)
    (two : middle.Advances second after) : before.Advances (first ++ second) after where
  size := two.size.trans one.size
  segments := by
    rw [two.segments, one.segments, segmentsIssued, segmentsIssued, segmentsIssued,
      List.filterMap_append, List.append_assoc]
  fetchIds := by
    rw [two.fetchIds, one.fetchIds, idsBound, idsBound, idsBound, List.filterMap_append,
      List.append_assoc]
  finalSegment := fun last known => two.finalSegment last (one.finalSegment last known)
  hasFailure := fun latched => two.hasFailure (one.hasFailure latched)
  runs := fun request old runs => one.runs request old
    (two.runs request (Nat.lt_of_lt_of_le old one.nextFetchId_le) runs)

/-- A call that gives out nothing and starts nothing. -/
theorem Advances.of_quiet {answer : Answer} (silent : answer.segment? = none ∧ answer.fetchId? = none)
    (size : after.size = before.size) (segment : after.nextSegment = before.nextSegment)
    (fetchId : after.nextFetchId = before.nextFetchId)
    (finalSegment : ∀ last, before.finalSegment = some last → after.finalSegment = some last)
    (hasFailure : (before.hasFailure = true → before.finalSegment = none) →
      after.hasFailure = true → after.finalSegment = none)
    (runs : ∀ request, after.Runs request → before.Runs request) :
    before.Advances [answer] after where
  size := size
  segments := by simp [segment, segmentsIssued, silent.1]
  fetchIds := by simp [fetchId, idsBound, silent.2]
  finalSegment := finalSegment
  hasFailure := hasFailure
  runs := fun request _ => runs request

theorem advances_nextRequest (window : Window) :
    window.Advances [.next window.nextRequest.1] window.nextRequest.2 := by
  rcases window.nextRequest_cases with ⟨_, _, same⟩ | ⟨_, _, _, same⟩ | ⟨_, _, same⟩ <;> rw [same]
  · exact .of_quiet ⟨rfl, rfl⟩ rfl rfl rfl (fun _ => id) id fun _ => id
  · exact .of_quiet ⟨rfl, rfl⟩ rfl rfl rfl (fun _ => id) id fun _ => id
  · exact {
      size := rfl
      segments := List.range_succ
      fetchIds := (List.append_nil _).symm
      finalSegment := fun _ => id
      hasFailure := id
      runs := fun _ _ => id }

theorem advances_bind {slot : Nat} (inside : slot < window.size) (segment : Nat) :
    window.Advances [.bound (window.bind slot segment).1] (window.bind slot segment).2 where
  size := List.length_set ..
  segments := (List.append_nil _).symm
  fetchIds := List.range_succ
  finalSegment := fun _ => id
  hasFailure := id
  runs := by
    intro request old runs
    rw [runs_bind_iff inside] at runs
    split at runs
    next =>
      -- the new request has the next number, which is no old one
      rw [runs] at old
      exact absurd old (Nat.lt_irrefl _)
    next => exact runs

theorem size_learnFinal (window : Window) (last : Nat) :
    (window.learnFinal last).2.size = window.size := by
  cases known : window.finalSegment with
  | some _ => simp [learnFinal, known]
  | none =>
    rcases learnFinal_cases known last with ⟨index, _, _, same⟩ | ⟨_, same⟩ <;> rw [same]
    · rw [size, cutShort, List.length_append, Slots.length_cancelWhere, ← List.length_append,
        List.take_append_drop, size]
    · exact Slots.length_cancelWhere ..

theorem advances_learnFinal (window : Window) (last : Nat) :
    window.Advances [.learned (window.learnFinal last).1] (window.learnFinal last).2 := by
  have size := window.size_learnFinal last
  have runs : ∀ request, (window.learnFinal last).2.Runs request → window.Runs request :=
    fun _ => Runs.of_learnFinal
  cases known : window.finalSegment with
  | some found =>
    have same : window.learnFinal last = (.ok [], window) := by simp [learnFinal, known]
    rw [same] at size runs ⊢
    exact .of_quiet ⟨rfl, rfl⟩ size rfl rfl (fun _ => id) id runs
  | none =>
    have fresh : ∀ other, window.finalSegment = some other →
        (window.learnFinal last).2.finalSegment = some other := by
      intro other learned
      cases known.symm.trans learned
    rcases learnFinal_cases known last with ⟨index, segment, _, same⟩ | ⟨_, same⟩ <;>
      rw [same] at size runs fresh ⊢ <;>
      exact .of_quiet ⟨rfl, rfl⟩ size rfl rfl fresh
        (fun _ failed => absurd failed Bool.false_ne_true) runs

theorem size_onFailure (window : Window) (index : Nat) (failure : FetchFailure) :
    (window.onFailure index failure).2.size = window.size := by
  have marked : (window.markFailed index).size = window.size := Slots.length_setState ..
  have remembered : ∀ segment, (window.remembered index segment).size = window.size :=
    fun _ => (Slots.length_cancelWhere ..).trans marked
  cases place : window.slot? index with
  | none => simp [onFailure, place]
  | some slot =>
    rcases onFailure_cases place failure with ⟨_, _, _, same⟩ | ⟨_, _, _, same⟩ |
      ⟨_, _, same⟩ | ⟨_, _, same⟩ <;> rw [same]
    · exact marked
    · exact marked
    · exact remembered _
    · exact remembered _

theorem advances_onFailure (window : Window) (index : Nat) (failure : FetchFailure) :
    window.Advances [.failed (window.onFailure index failure).1]
      (window.onFailure index failure).2 := by
  have size := window.size_onFailure index failure
  have runs : ∀ request, (window.onFailure index failure).2.Runs request → window.Runs request :=
    fun _ => Runs.of_onFailure
  cases place : window.slot? index with
  | none =>
    have same : window.onFailure index failure = (.proceed [], window) := by
      simp [onFailure, place]
    rw [same] at size runs ⊢
    exact .of_quiet ⟨rfl, rfl⟩ size rfl rfl (fun _ => id) id runs
  | some slot =>
    rcases onFailure_cases place failure with ⟨_, _, _, same⟩ | ⟨_, _, _, same⟩ |
      ⟨_, _, same⟩ | ⟨unknown, _, same⟩ <;> rw [same] at size runs ⊢
    · exact .of_quiet ⟨rfl, rfl⟩ size rfl rfl (fun _ => id) id runs
    · exact .of_quiet ⟨rfl, rfl⟩ size rfl rfl (fun _ => id) id runs
    · exact .of_quiet ⟨rfl, rfl⟩ size rfl rfl (fun _ => id) id runs
    · -- a failure is remembered here, and the end is unknown
      exact .of_quiet ⟨rfl, rfl⟩ size rfl rfl (fun _ => id) (fun _ _ => unknown) runs

theorem advances_perform (sized : window.size = size) (call : Call size) :
    window.Advances [(window.perform call).1] (window.perform call).2 := by
  cases call with
  | nextRequest => exact advances_nextRequest window
  | bind slot segment => exact advances_bind (by rw [sized]; exact slot.isLt) segment
  | markSucceeded index =>
    exact .of_quiet ⟨rfl, rfl⟩ (size_markSucceeded window index) rfl rfl (fun _ => id) id
      fun _ => Runs.of_markSucceeded
  | learnFinal last => exact advances_learnFinal window last
  | onFailure index failure => exact advances_onFailure window index failure
  | cancelAll =>
    exact .of_quiet ⟨rfl, rfl⟩ (Slots.length_cancelWhere ..) rfl rfl (fun _ => id) id
      fun _ => Runs.of_cancelAll

theorem advances_performAll (sized : window.size = size) (calls : List (Call size)) :
    window.Advances (window.performAll calls).1 (window.performAll calls).2 := by
  induction calls generalizing window with
  | nil => exact .refl window
  | cons call calls ih =>
    have first := advances_perform sized call
    exact first.trans (ih (first.size.trans sized))

/-! ## Any calls on a new window -/

/-- The window keeps its slots.  The segments given out so far are `0`, `1`, … in order, and one that
is given out is not past the end, where that is known.  The first end told stays, also where telling
it is answered by an error.  A failure is remembered only while the end is unknown, so the next
request is refused exactly while one is remembered.  The requests have different numbers, and one
that was made and does not run in a slot never runs there again. -/
theorem calls_keep_protocol (size : Nat) (earlier later : List (Call size)) :
    let answers := ((ofSize size).performAll earlier).1
    let window := ((ofSize size).performAll earlier).2
    let after := (window.performAll later).2
    window.size = size ∧
      segmentsIssued answers = List.range window.nextSegment ∧
      (∀ segment, window.nextRequest.1 = .issue segment →
        segment = window.nextSegment ∧ ∀ last, window.finalSegment = some last → segment ≤ last) ∧
      (∀ last, window.finalSegment = some last → after.finalSegment = some last) ∧
      (∀ last, window.finalSegment = none → (window.learnFinal last).2.finalSegment = some last) ∧
      (window.hasFailure = true → window.finalSegment = none) ∧
      ((∃ error, window.nextRequest.1 = .abort error) ↔ window.hasFailure = true) ∧
      (idsBound answers).Nodup ∧
      ∀ index, ∀ fetchId ∈ idsBound answers,
        window.isCurrent index fetchId = false → after.isCurrent index fetchId = false := by
  intro answers window after
  have past : (ofSize size).Advances answers window :=
    advances_performAll (by simp [ofSize, Window.size]) earlier
  have sized : window.size = size := past.size.trans (by simp [ofSize, Window.size])
  have future : window.Advances (window.performAll later).1 after := advances_performAll sized later
  have latched := past.hasFailure fun failed => absurd failed Bool.false_ne_true
  have numbers : List.range window.nextFetchId = idsBound answers := past.fetchIds
  refine ⟨sized, past.segments.symm, ?_, future.finalSegment, ?_, latched, ?_, ?_, ?_⟩
  · intro segment issues
    rcases window.nextRequest_cases with ⟨_, _, same⟩ | ⟨_, _, _, same⟩ | ⟨_, within, same⟩ <;>
      rw [same] at issues <;> cases issues
    exact ⟨rfl, within⟩
  · intro last unknown
    rcases learnFinal_cases unknown last with ⟨_, _, _, same⟩ | ⟨_, same⟩ <;> rw [same] <;> rfl
  · rcases window.nextRequest_cases with ⟨failed, _, same⟩ | ⟨_, known, _, same⟩ |
      ⟨unfailed, _, same⟩ <;> rw [same]
    · simp [failed]
    · simp only [reduceCtorEq, exists_false, false_iff]
      intro failed
      cases known.symm.trans (latched failed)
    · simp only [reduceCtorEq, exists_false, false_iff]
      intro failed
      cases (unfailed (latched failed)).symm.trans failed
  · exact numbers ▸ List.nodup_range
  · intro index fetchId made stopped
    rw [← Bool.not_eq_true, isCurrent_iff] at stopped ⊢
    rintro ⟨segment, runs⟩
    have old : fetchId < window.nextFetchId := List.mem_range.mp (numbers ▸ made)
    exact stopped ⟨segment, future.runs _ old runs⟩

end Window

end SegmentRetrieval
