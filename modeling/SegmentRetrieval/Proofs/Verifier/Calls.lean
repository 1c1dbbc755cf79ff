import SegmentRetrieval.Proofs.Verifier.Log

/-! # A verifier under any calls

Whatever packets are submitted to a fresh verifier, and whatever is discarded in between, the
segments that its answers report are one linked log, its tables keep at most one entry a number, and
nothing is kept but the held packets behind the next segment and the commitment of the last one
accepted.
-/

namespace SegmentRetrieval

namespace Verifier

/-- A call on a verifier. -/
inductive Call where
  | submit (segment : Nat) (data : Data)
  | discardBeyond (last : Nat)

/-- What a call answers, and the verifier after it.  Discarding reports nothing. -/
def perform (verifier : Verifier) : Call → Submitted × Verifier
  | .submit segment data => verifier.submit segment data
  | .discardBeyond last => ({}, verifier.discardBeyond last)

/-- What some calls answer, one after the other, and the verifier after them. -/
def performAll (verifier : Verifier) : List Call → List Submitted × Verifier
  | [] => ([], verifier)
  | call :: calls =>
    let (answer, next) := verifier.perform call
    let (answers, last) := next.performAll calls
    (answer :: answers, last)

/-- The segments that answers report, put together. -/
def accepted (answers : List Submitted) : List Verified :=
  answers.flatMap Submitted.verified

/-- The errors that answers report. -/
def refusals (answers : List Submitted) : List RetrievalError :=
  answers.filterMap Submitted.error

/-! ## Tables with one entry a number -/

/-- Neither table has two entries under one number. -/
structure Tidy (verifier : Verifier) : Prop where
  commitments : verifier.commitments.Distinct
  pending : verifier.pending.Distinct

variable {verifier : Verifier}

theorem tidy_empty : Tidy {} where
  commitments := List.nodup_nil
  pending := List.nodup_nil

theorem Tidy.accept (tidy : verifier.Tidy) (n : Nat) (held : Held) :
    (verifier.accept n held).commitments.Distinct := by
  have unmet : Table.Distinct
      (if n = 0 then verifier.commitments else verifier.commitments.erase (n - 1)) := by
    split
    · exact tidy.commitments
    · exact tidy.commitments.erase _
  unfold Verifier.accept
  cases held.content.commitment with
  | none => exact unmet
  | some commitment => exact unmet.insert n commitment

theorem Tidy.cascade {n : Nat} {held : Held} :
    verifier.Tidy → (verifier.cascade n held).2.Tidy := by
  fun_induction Verifier.cascade verifier n held with
  | case1 => exact id
  | case2 verifier n held => exact fun tidy => ⟨tidy.accept n held, tidy.pending⟩
  | case3 verifier n held authentic accepted next found shorter submitted after result =>
    rename_i ih
    rw [result] at ih
    exact fun tidy => ih ⟨tidy.accept n held, tidy.pending.erase _⟩

theorem Tidy.perform (tidy : verifier.Tidy) (call : Call) : (verifier.perform call).2.Tidy := by
  cases call with
  | discardBeyond last => exact ⟨tidy.commitments, tidy.pending.restrict (· ≤ last)⟩
  | submit n data =>
    simp only [Verifier.perform]
    rcases verifier.submit_cases n data with ⟨_, same⟩ | ⟨_, _, same⟩ | ⟨_, _, _, same⟩ |
      ⟨_, _, _, same⟩ <;> rw [same]
    · exact tidy
    · exact tidy
    · exact ⟨tidy.commitments, tidy.pending.insert _ _⟩
    · exact tidy.cascade

theorem Tidy.performAll (tidy : verifier.Tidy) (calls : List Call) :
    (verifier.performAll calls).2.Tidy := by
  induction calls generalizing verifier with
  | nil => exact tidy
  | cons call calls ih => exact ih (tidy.perform call)

/-! ## The log of all calls -/

variable {log : List Verified}

theorem Accepts.perform (accepts : verifier.Accepts log) (call : Call) :
    (verifier.perform call).2.Accepts (log ++ (verifier.perform call).1.verified) := by
  cases call with
  | submit n data => exact accepts.submit n data
  | discardBeyond last => simpa [Verifier.perform] using accepts.discardBeyond last

theorem Accepts.performAll (accepts : verifier.Accepts log) (calls : List Call) :
    (verifier.performAll calls).2.Accepts (log ++ accepted (verifier.performAll calls).1) := by
  induction calls generalizing verifier log with
  | nil => simpa [accepted, Verifier.performAll] using accepts
  | cons call calls ih =>
    have onward := ih (accepts.perform call)
    rwa [List.append_assoc] at onward

/-- After any calls on a fresh verifier, the segments reported so far are numbered from 0 up to the
next one; each packet covers itself, carries the payload reported with it, and was announced by the
packet before; only numbers behind the next one are held; and the one commitment kept is that of the
last segment, if it declares one. -/
theorem calls_keep_chain (calls : List Call) :
    let verifier := (performAll {} calls).2
    let log := accepted (performAll {} calls).1
    log.map Verified.segment = List.range verifier.nextSegment ∧
      (∀ verified ∈ log, verified.data.verify = .ok () ∧
        ∃ content, verified.data.readContent = .ok content ∧ verified.payload = content.payload) ∧
      (∀ n before after, log[n]? = some before → log[n + 1]? = some after →
        before.commitment? = some after.data.signature) ∧
      (∀ n held, (n, held) ∈ verifier.pending → verifier.nextSegment < n) ∧
      ∀ n commitment, (n, commitment) ∈ verifier.commitments ↔
        n + 1 = verifier.nextSegment ∧
          ∃ last, log.getLast? = some last ∧ last.commitment? = some commitment := by
  have accepts := accepts_nil.performAll calls
  have tidy := tidy_empty.performAll calls
  rw [List.nil_append] at accepts
  refine ⟨?_, ?_, ?_, ?_, ?_⟩
  · rw [accepts.linked.map_segment, accepts.next]
  · exact fun verified member =>
      ⟨accepts.linked.covered_of_mem member, accepts.linked.readContent_of_mem member⟩
  · exact fun n before after => accepts.linked.commitment?_of_getElem?
  · intro n held member
    rw [accepts.next]
    exact (accepts.held n held (tidy.pending.mem_iff.mp member)).1
  · intro n commitment
    rw [tidy.commitments.mem_iff, accepts.commitments, accepts.next]
    split
    next here => simp [here, Option.bind_eq_some_iff]
    next elsewhere => simp [elsewhere]

end Verifier

end SegmentRetrieval
