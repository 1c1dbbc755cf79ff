import SegmentRetrieval.Proofs.Packet.SignedPortion
import SegmentRetrieval.Verifier

/-! # The log of a verifier

The segments that a verifier has accepted form a chain from segment 0: each packet passes its own
signature check and shows the signature value to which the packet before committed (`Linked`).
`Verifier.Accepts` ties the state of a verifier to that log: the number expected next, the one
commitment that is still to be met, and the held segments beyond it.  Submitting a packet extends the
log by what it reports (`Accepts.submit`), whatever the packet is and in whatever order they come.
-/

namespace SegmentRetrieval

/-- The commitment that an accepted segment declares. -/
def Verified.commitment? (verified : Verified) : Option Bytes :=
  verified.data.readContent.toOption.bind Content.commitment

/-- Segments numbered from 0, each covered by its signature value and, but for the first, carrying
the value to which its predecessor committed. -/
inductive Linked : List Verified → Prop where
  | nil : Linked []
  | snoc {log : List Verified} {data : Data} {content : Content} (linked : Linked log)
      (covered : data.verify = .ok ()) (reads : data.readContent = .ok content)
      (follows : ∀ last ∈ log.getLast?, last.commitment? = some data.signature) :
      Linked (log ++ [⟨log.length, content.payload, data⟩])

theorem Linked.of_prefix {log first : List Verified} (linked : Linked log) (part : first <+: log) :
    Linked first := by
  induction linked with
  | nil =>
    rw [List.prefix_nil.mp part]
    exact .nil
  | snoc linked covered reads follows ih =>
    rcases List.prefix_concat_iff.mp part with rfl | shorter
    · exact linked.snoc covered reads follows
    · exact ih shorter

theorem Linked.segment_eq_of_getElem? {log : List Verified} (linked : Linked log) {i : Nat}
    {verified : Verified} (place : log[i]? = some verified) : verified.segment = i := by
  induction linked with
  | nil => cases place
  | @snoc log data content _ _ _ _ ih =>
    rcases List.getElem?_eq_some_iff.mp place with ⟨inside, _⟩
    simp only [List.length_append, List.length_singleton] at inside
    by_cases earlier : i < log.length
    · rw [List.getElem?_append_left earlier] at place
      exact ih place
    · have last : i = log.length := by omega
      subst last
      simp only [List.getElem?_concat_length, Option.some.injEq] at place
      rw [← place]

theorem Linked.map_segment {log : List Verified} (linked : Linked log) :
    log.map Verified.segment = List.range log.length := by
  induction linked with
  | nil => rfl
  | snoc _ _ _ _ ih => simp [ih, List.range_succ]

/-- The numbers in a linked log are those below its length. -/
theorem Linked.mem_segments_iff {log : List Verified} (linked : Linked log) {n : Nat} :
    (∃ verified ∈ log, verified.segment = n) ↔ n < log.length := by
  rw [← List.mem_range, ← linked.map_segment, List.mem_map]

theorem Linked.readContent_of_mem {log : List Verified} (linked : Linked log) {verified : Verified}
    (member : verified ∈ log) :
    ∃ content, verified.data.readContent = .ok content ∧ verified.payload = content.payload := by
  induction linked with
  | nil => cases member
  | snoc _ _ reads _ ih =>
    rcases List.mem_append.mp member with earlier | last
    · exact ih earlier
    · rw [List.mem_singleton.mp last]
      exact ⟨_, reads, rfl⟩

theorem Linked.covered_of_mem {log : List Verified} (linked : Linked log) {verified : Verified}
    (member : verified ∈ log) : verified.data.verify = .ok () := by
  induction linked with
  | nil => cases member
  | snoc _ covered _ _ ih =>
    rcases List.mem_append.mp member with earlier | last
    · exact ih earlier
    · rw [List.mem_singleton.mp last]
      exact covered

/-- Each packet of a linked log commits to the signature value of the next. -/
theorem Linked.commitment?_of_getElem? {log : List Verified} (linked : Linked log) {n : Nat}
    {before after : Verified} (earlier : log[n]? = some before) (later : log[n + 1]? = some after) :
    before.commitment? = some after.data.signature := by
  induction linked with
  | nil => cases earlier
  | @snoc log data content _ _ _ follows ih =>
    rcases List.getElem?_eq_some_iff.mp later with ⟨inside, _⟩
    simp only [List.length_append, List.length_singleton] at inside
    rw [List.getElem?_append_left (by omega)] at earlier
    by_cases within : n + 1 < log.length
    · rw [List.getElem?_append_left within] at later
      exact ih earlier later
    · have final : n + 1 = log.length := by omega
      rw [final, List.getElem?_concat_length] at later
      cases later
      refine follows before ?_
      rw [Option.mem_def, List.getLast?_eq_getElem?, ← final, Nat.add_sub_cancel, earlier]

/-- Counting bytes segment by segment counts those of the payloads put together. -/
theorem Verified.foldl_addBytes (log : List Verified) (bytes : Nat) :
    log.foldl addBytes bytes = bytes + (log.map payload).flatten.length := by
  induction log generalizing bytes with
  | nil => rfl
  | cons verified rest ih =>
    rw [List.foldl_cons, ih, addBytes, List.map_cons, List.flatten_cons, List.length_append,
      Nat.add_assoc]

namespace Verifier

/-- The verifier has accepted exactly the segments of the log, and holds segments past its end
only. -/
structure Accepts (verifier : Verifier) (log : List Verified) : Prop where
  linked : Linked log
  next : verifier.nextSegment = log.length
  /-- Only the commitment of the last accepted segment is still kept. -/
  commitments : ∀ n, verifier.commitments.get? n =
    if n + 1 = log.length then log.getLast?.bind Verified.commitment? else none
  held : ∀ n held, verifier.pending.get? n = some held →
    log.length < n ∧ held.data.readContent = .ok held.content

theorem accepts_nil : Accepts {} [] where
  linked := .nil
  next := rfl
  commitments := fun n => by simp
  held := fun n held found => by simp at found

/-! ## One acceptance -/

theorem mapError_checkCommitment_eq_ok_iff {data : Data} {commitment : Bytes} {ε : Type}
    {wrap : VerificationError → ε} :
    (data.checkCommitment commitment).mapError wrap = .ok () ↔ commitment = data.signature := by
  unfold Data.checkCommitment
  split
  next same => exact iff_of_true rfl same
  next differ =>
    refine iff_of_false (fun passed => ?_) differ
    cases passed

theorem Accepts.authenticate_eq_ok_iff {verifier : Verifier} {log : List Verified}
    (accepts : verifier.Accepts log) {data : Data} :
    verifier.authenticate log.length data = .ok () ↔
      data.verify = .ok () ∧ ∀ last ∈ log.getLast?, last.commitment? = some data.signature := by
  unfold authenticate
  cases covered : data.verify with
  | error error => simp
  | ok =>
    cases final : log.getLast? with
    | none =>
      have empty : log.length = 0 := by simpa using final
      simp [empty]
    | some last =>
      -- the commitment to be met is the one of the last segment, kept under its number
      have nonempty : log.length ≠ 0 := by
        intro empty
        rw [List.eq_nil_of_length_eq_zero empty] at final
        cases final
      have kept : verifier.commitments.get? (log.length - 1) = last.commitment? := by
        rw [accepts.commitments, if_pos (by omega), final]
        rfl
      simp only [if_neg nonempty, kept, Option.mem_def, Option.some.injEq, forall_eq', true_and]
      cases declared : last.commitment? with
      | none => simp
      | some commitment =>
        rw [mapError_checkCommitment_eq_ok_iff, Option.some.injEq]

/-- Accepting the segment that is expected adds it to the log.  The held segments are those that
stay once its successor is taken out. -/
theorem Accepts.accept {verifier : Verifier} {log : List Verified} {held : Held}
    (accepts : verifier.Accepts log)
    (authentic : verifier.authenticate log.length held.data = .ok ())
    (reads : held.data.readContent = .ok held.content) (pending : Table Nat Held)
    (rest : ∀ n other, pending.get? n = some other →
      n ≠ log.length + 1 ∧ verifier.pending.get? n = some other) :
    Accepts { verifier.accept log.length held with pending }
      (log ++ [⟨log.length, held.content.payload, held.data⟩]) := by
  obtain ⟨covered, follows⟩ := accepts.authenticate_eq_ok_iff.mp authentic
  refine ⟨.snoc accepts.linked covered reads follows, by simp [Verifier.accept], ?_, ?_⟩
  · intro n
    have declared : (⟨log.length, held.content.payload, held.data⟩ : Verified).commitment? =
        held.content.commitment := by
      simp [Verified.commitment?, reads, Except.toOption]
    -- the commitment that the packet meets is used up, and no other was kept
    have unmet : Table.get? (if log.length = 0 then verifier.commitments
        else verifier.commitments.erase (log.length - 1)) n = none := by
      split
      next empty => rw [accepts.commitments, if_neg (by omega)]
      next nonempty =>
        rw [Table.get?_erase, accepts.commitments]
        by_cases last : n = log.length - 1
        · rw [if_pos last]
        · rw [if_neg last, if_neg (by omega)]
    simp only [List.length_append, List.length_singleton, List.getLast?_concat, Option.bind_some,
      declared, Verifier.accept, Nat.add_right_cancel_iff]
    cases held.content.commitment with
    | none =>
      simp only [unmet]
      exact (ite_self none).symm
    | some commitment => simp only [Table.get?_insert, unmet]
  · intro n other found
    obtain ⟨different, stayed⟩ := rest n other found
    obtain ⟨later, read⟩ := accepts.held n other stayed
    simp only [List.length_append, List.length_singleton]
    exact ⟨by omega, read⟩

/-! ## Whole submissions -/

theorem Accepts.cascade {verifier : Verifier} {n : Nat} {held : Held} :
    ∀ {log : List Verified}, verifier.Accepts log → n = log.length →
      held.data.readContent = .ok held.content →
      (verifier.cascade n held).2.Accepts (log ++ (verifier.cascade n held).1.verified) := by
  fun_induction Verifier.cascade verifier n held with
  | case1 verifier n held error failed =>
    intro log accepts expected reads
    simpa using accepts
  | case2 verifier n held authentic =>
    rename_i missing
    intro log accepts expected reads
    subst expected
    refine accepts.accept authentic reads verifier.pending fun m other found => ⟨?_, found⟩
    rintro rfl
    rw [missing] at found
    cases found
  | case3 verifier n held authentic accepted next found shorter submitted after result =>
    rename_i ih
    intro log accepts expected reads
    subst expected
    -- the successor is held: it leaves the table and is the next to be accepted
    have extended := accepts.accept authentic reads (verifier.pending.erase (log.length + 1))
      fun _ _ => Table.get?_erase_eq_some_iff.mp
    have onward := ih extended (by simp) (accepts.held _ _ found).2
    rw [result] at onward
    simpa using onward

/-- What a submission does: nothing for a number already accepted, a refusal of unreadable content,
a place among the held segments for an early one, and a cascade for the one expected. -/
theorem submit_cases (verifier : Verifier) (n : Nat) (data : Data) :
    (n < verifier.nextSegment ∧ verifier.submit n data = ({}, verifier)) ∨
    (∃ error, data.readContent = .error error ∧ verifier.submit n data =
      ({ error := some (.integrity n (.malformedContent error)) }, verifier)) ∨
    (∃ content, data.readContent = .ok content ∧ verifier.nextSegment < n ∧
      verifier.submit n data =
        ({}, { verifier with pending := verifier.pending.insert n ⟨data, content⟩ })) ∨
    (∃ content, data.readContent = .ok content ∧ n = verifier.nextSegment ∧
      verifier.submit n data = verifier.cascade n ⟨data, content⟩) := by
  unfold submit
  split
  next seen => exact .inl ⟨seen, rfl⟩
  next unseen =>
    cases reads : data.readContent with
    | error error => exact .inr (.inl ⟨error, rfl, rfl⟩)
    | ok content =>
      refine .inr (.inr ?_)
      by_cases early : verifier.nextSegment < n
      · exact .inl ⟨content, rfl, early, by simp only [if_pos early]⟩
      · exact .inr ⟨content, rfl, by omega, by simp only [if_neg early]⟩

theorem Accepts.submit {verifier : Verifier} {log : List Verified} (accepts : verifier.Accepts log)
    (n : Nat) (data : Data) :
    (verifier.submit n data).2.Accepts (log ++ (verifier.submit n data).1.verified) := by
  rcases verifier.submit_cases n data with ⟨_, same⟩ | ⟨error, _, same⟩ |
    ⟨content, reads, early, same⟩ | ⟨content, reads, expected, same⟩
  · simpa [same] using accepts
  · simpa [same] using accepts
  · rw [same]
    refine ⟨by simpa using accepts.linked, by simpa using accepts.next,
      by simpa using accepts.commitments, ?_⟩
    -- only the table of held segments changes, by one that lies past the log
    intro m held found
    simp only [Table.get?_insert] at found
    split at found
    next here =>
      cases found
      rw [accepts.next] at early
      simpa [here] using ⟨early, reads⟩
    next => simpa using accepts.held m held found
  · rw [same]
    exact accepts.cascade (expected.trans accepts.next) reads

theorem Accepts.discardBeyond {verifier : Verifier} {log : List Verified}
    (accepts : verifier.Accepts log) (last : Nat) : (verifier.discardBeyond last).Accepts log := by
  refine ⟨accepts.linked, accepts.next, accepts.commitments, ?_⟩
  intro n held found
  simp only [Verifier.discardBeyond, Table.get?_restrict] at found
  split at found
  · exact accepts.held n held found
  · cases found

/-- A submission fails for an integrity reason only. -/
theorem exists_integrity_of_error {verifier : Verifier} {n : Nat} {data : Data}
    {error : RetrievalError} (failed : (verifier.submit n data).1.error = some error) :
    ∃ segment reason, error = .integrity segment reason := by
  have cascaded : ∀ {verifier : Verifier} {n : Nat} {held : Held},
      (verifier.cascade n held).1.error = some error →
        ∃ segment reason, error = .integrity segment reason := by
    intro verifier n held
    fun_induction Verifier.cascade verifier n held with
    | case1 verifier n held reason =>
      intro failed
      exact ⟨n, reason, (Option.some.inj failed).symm⟩
    | case2 => nofun
    | case3 verifier n held authentic accepted next found shorter submitted after result =>
      rename_i ih
      rwa [result] at ih
  rcases verifier.submit_cases n data with ⟨_, same⟩ | ⟨reason, _, same⟩ | ⟨_, _, _, same⟩ |
    ⟨_, _, _, same⟩ <;> rw [same] at failed
  · cases failed
  · exact ⟨n, .malformedContent reason, (Option.some.inj failed).symm⟩
  · cases failed
  · exact cascaded failed

/-- A packet for a later segment is held at first. -/
theorem submit_early {n : Nat} {data : Data} {content : Content} (early : 0 < n)
    (reads : data.readContent = .ok content) :
    ({} : Verifier).submit n data = ({}, { pending := [(n, ⟨data, content⟩)] }) := by
  simp [submit, reads, early, Table.insert, Table.erase]

/-- A packet that covers itself is accepted as segment 0 at once. -/
theorem submit_zero {data : Data} {content : Content} (covered : data.verify = .ok ())
    (reads : data.readContent = .ok content) :
    ({} : Verifier).submit 0 data = ({ verified := [⟨0, content.payload, data⟩] },
      ({} : Verifier).accept 0 ⟨data, content⟩) := by
  have authentic : ({} : Verifier).authenticate 0 data = .ok () := by
    simp [authenticate, covered]
  have expected : ({} : Verifier).submit 0 data = ({} : Verifier).cascade 0 ⟨data, content⟩ := by
    simp [submit, reads]
  rw [expected, cascade]
  simp only [authentic]
  rfl

/-- A packet that comes early moves nothing on. -/
theorem nextSegment_submit_early {verifier : Verifier} {n : Nat} (early : verifier.nextSegment < n)
    (data : Data) : (verifier.submit n data).2.nextSegment = verifier.nextSegment := by
  rcases verifier.submit_cases n data with ⟨_, same⟩ | ⟨_, _, same⟩ | ⟨_, _, _, same⟩ |
    ⟨_, _, expected, _⟩
  · rw [same]
  · rw [same]
  · rw [same]
  · omega

/-- Segment 0 releases the packet held for segment 1. -/
theorem submit_zero_released {first : Data} {content : Content} {early : Held}
    (covered : first.verify = .ok ()) (reads : first.readContent = .ok content)
    {submitted : Submitted} {after : Verifier}
    (released : (({} : Verifier).accept 0 ⟨first, content⟩).cascade 1 early = (submitted, after)) :
    ({ pending := [(1, early)] } : Verifier).submit 0 first =
      ({ submitted with verified := ⟨0, content.payload, first⟩ :: submitted.verified }, after) := by
  have authentic : ({ pending := [(1, early)] } : Verifier).authenticate 0 first = .ok () := by
    simp [authenticate, covered]
  have expected : ({ pending := [(1, early)] } : Verifier).submit 0 first =
      ({ pending := [(1, early)] } : Verifier).cascade 0 ⟨first, content⟩ := by
    simp [submit, reads]
  -- the table is empty once the packet is taken out
  have emptied : cascade { ({ pending := [(1, early)] } : Verifier).accept 0 ⟨first, content⟩ with
      pending := Table.erase [(1, early)] (0 + 1) } (0 + 1) early = (submitted, after) := released
  rw [expected, cascade]
  simp only [authentic]
  split
  next missing => cases missing
  next found =>
    cases found
    rw [emptied]

/-! ## What was taken in -/

/-- The packet taken in as segment `n`: it is held, or it is in the log. -/
def Took (verifier : Verifier) (log : List Verified) (n : Nat) (data : Data) : Prop :=
  (∃ held, verifier.pending.get? n = some held ∧ held.data = data) ∨
    ∃ verified ∈ log, verified.segment = n ∧ verified.data = data

theorem Accepts.mem_log_iff {verifier : Verifier} {log : List Verified}
    (accepts : verifier.Accepts log) {n : Nat} :
    (∃ verified ∈ log, verified.segment = n) ↔ n < verifier.nextSegment := by
  rw [accepts.linked.mem_segments_iff, accepts.next]

/-- The segment that is expected next was not taken in. -/
theorem Accepts.ne_nextSegment_of_took {verifier : Verifier} {log : List Verified}
    (accepts : verifier.Accepts log) {n : Nat} {data : Data} (took : verifier.Took log n data) :
    n ≠ verifier.nextSegment := by
  rcases took with ⟨held, found, _⟩ | ⟨verified, member, number, _⟩
  · have later := (accepts.held n held found).1
    rw [accepts.next]
    omega
  · have earlier := accepts.mem_log_iff.mp ⟨verified, member, number⟩
    omega

theorem took_append {verifier : Verifier} {log more : List Verified} {n : Nat} {data : Data} :
    verifier.Took (log ++ more) n data ↔
      (∃ verified ∈ log, verified.segment = n ∧ verified.data = data) ∨ verifier.Took more n data := by
  simp only [Took, List.mem_append, or_and_right, exists_or]
  rw [or_left_comm]

theorem took_cons {verifier : Verifier} {entry : Verified} {log : List Verified} {n : Nat}
    {data : Data} :
    verifier.Took (entry :: log) n data ↔
      n = entry.segment ∧ data = entry.data ∨ verifier.Took log n data := by
  rw [← List.singleton_append, took_append]
  simp only [List.mem_singleton, exists_eq_left]
  rw [@eq_comm _ n, @eq_comm _ data]

/-- A cascade without an error loses nothing: the packet it begins with and the held ones are
accepted or still held. -/
theorem took_cascade {verifier : Verifier} {n : Nat} {held : Held} :
    (verifier.cascade n held).1.error = none → ∀ m data,
      ((verifier.cascade n held).2.Took (verifier.cascade n held).1.verified m data ↔
        m = n ∧ data = held.data ∨ verifier.Took [] m data) := by
  fun_induction Verifier.cascade verifier n held with
  | case1 => intro sound; cases sound
  | case2 verifier n held authentic accepted =>
    intro _ m data
    exact took_cons
  | case3 verifier n held authentic accepted next found shorter submitted after result =>
    rename_i ih
    intro sound m data
    rw [result] at ih
    rw [took_cons, ih sound m data]
    -- the successor is taken out of the table and comes back as the packet to begin with
    simp only [Took, List.not_mem_nil, Table.get?_erase]
    grind

/-- A packet for a number not seen yet is taken in, and everything taken in before stays. -/
theorem Accepts.took_submit {verifier : Verifier} {log : List Verified}
    (accepts : verifier.Accepts log) {n : Nat} {data : Data}
    (unseen : ∀ other, ¬ verifier.Took log n other)
    (sound : (verifier.submit n data).1.error = none) (m : Nat) (packet : Data) :
    (verifier.submit n data).2.Took (log ++ (verifier.submit n data).1.verified) m packet ↔
      m = n ∧ packet = data ∨ verifier.Took log m packet := by
  rcases verifier.submit_cases n data with ⟨seen, _⟩ | ⟨error, _, same⟩ |
    ⟨content, reads, early, same⟩ | ⟨content, reads, expected, same⟩
  · -- an accepted number was taken in before
    rw [accepts.next, ← accepts.linked.mem_segments_iff] at seen
    obtain ⟨verified, member, number⟩ := seen
    exact absurd (.inr ⟨verified, member, number, rfl⟩) (unseen verified.data)
  · rw [same] at sound
    cases sound
  · rw [same]
    simp only [List.append_nil]
    constructor
    · rintro (⟨held, found, rfl⟩ | logged)
      · rw [Table.get?_insert] at found
        split at found
        next here =>
          cases found
          exact .inl ⟨here, rfl⟩
        next => exact .inr (.inl ⟨held, found, rfl⟩)
      · exact .inr (.inr logged)
    · rintro (⟨rfl, rfl⟩ | ⟨held, found, rfl⟩ | logged)
      · exact .inl ⟨_, by rw [Table.get?_insert, if_pos rfl], rfl⟩
      · refine .inl ⟨held, ?_, rfl⟩
        rw [Table.get?_insert, if_neg, found]
        rintro rfl
        exact unseen _ (.inl ⟨held, found, rfl⟩)
      · exact .inr logged
  · rw [same] at sound ⊢
    rw [took_append, took_cascade sound m packet, or_left_comm, ← took_append, List.append_nil]

theorem took_discardBeyond {verifier : Verifier} {log : List Verified} {last n : Nat} {data : Data} :
    (verifier.discardBeyond last).Took log n data ↔
      (n ≤ last ∧ ∃ held, verifier.pending.get? n = some held ∧ held.data = data) ∨
        ∃ verified ∈ log, verified.segment = n ∧ verified.data = data := by
  simp only [Took, discardBeyond, Table.get?_restrict, decide_eq_true_eq]
  grind

end Verifier

end SegmentRetrieval
