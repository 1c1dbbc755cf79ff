import SegmentRetrieval.Proofs.Seal.Chain
import SegmentRetrieval.Proofs.Verifier.Calls
import SegmentRetrieval.Proofs.Verifier.Cascade

/-! # The order of arrival plays no role

Where each segment is submitted once, the packets decide what a fresh verifier ends with, and their
order does not.  `Settled` describes the end by the packets alone: the verifier stands at the first
number that has no acceptable packet (`Acceptable`), it holds every readable packet behind that
number, and it has refused the unreadable packets and the one at that number, if there is one.  Each
submission keeps the description (`Settled.submit`), and two verifiers that fit it for the same
packets are the same.
-/

namespace SegmentRetrieval

/-- The commitment that a packet declares, where its content can be read. -/
def Data.commitment? (data : Data) : Option Bytes :=
  data.readContent.toOption.bind Content.commitment

/-- Packets that were received, by the numbers of their segments. -/
abbrev Packets := Table Nat Data

namespace Packets

/-- The packet of segment `m` can be read, covers itself, and carries the signature value to which the
packet of the segment before commits. -/
def Acceptable (packets : Packets) (m : Nat) : Prop :=
  ∃ data content, packets.get? m = some data ∧ data.readContent = .ok content ∧
    data.verify = .ok () ∧ ∀ n, m = n + 1 → ∃ previous, packets.get? n = some previous ∧
      previous.commitment? = some data.signature

/-- The packet of a segment with its content, where that can be read. -/
def readable? (packets : Packets) (n : Nat) : Option Held :=
  (packets.get? n).bind fun data => data.readContent.toOption.map fun content => ⟨data, content⟩

/-- The error that refuses a packet whose content cannot be read. -/
def unreadable : Nat × Data → Option RetrievalError
  | (n, data) =>
    match data.readContent with
    | .error error => some (.integrity n (.malformedContent error))
    | .ok _ => none

variable {packets : Packets}

theorem readable?_eq_some_iff {n : Nat} {held : Held} : packets.readable? n = some held ↔
    packets.get? n = some held.data ∧ held.data.readContent = .ok held.content := by
  have content : ∀ {data : Data} {content : Content},
      data.readContent.toOption = some content ↔ data.readContent = .ok content := by
    intro data content
    cases data.readContent <;> simp [Except.toOption]
  simp only [readable?, Option.bind_eq_some_iff, Option.map_eq_some_iff, content]
  constructor
  · rintro ⟨data, found, content, reads, rfl⟩
    exact ⟨found, reads⟩
  · rintro ⟨found, reads⟩
    exact ⟨_, found, _, reads, rfl⟩

theorem readable?_cons_self {n : Nat} {data : Data} {content : Content}
    (reads : data.readContent = .ok content) :
    readable? ((n, data) :: packets) n = some ⟨data, content⟩ :=
  readable?_eq_some_iff.mpr ⟨if_pos rfl, reads⟩

theorem readable?_cons_of_ne {n m : Nat} {data : Data} (apart : m ≠ n) :
    readable? ((n, data) :: packets) m = packets.readable? m := by
  simp only [readable?, Table.get?, if_neg apart.symm]

end Packets

namespace Verifier

/-- What a fresh verifier answers to packets that are submitted in some order, and what it ends
with. -/
def submitAll (packets : Packets) : List Submitted × Verifier :=
  performAll {} (packets.map fun (n, data) => .submit n data)

/-- A verifier to which exactly these packets were submitted, each once. -/
structure Settled (packets : Packets) (verifier : Verifier) (log : List Verified)
    (errors : List RetrievalError) : Prop where
  accepts : verifier.Accepts log
  tidy : verifier.Tidy
  logged : ∀ verified ∈ log, packets.get? verified.segment = some verified.data
  held : ∀ n held, verifier.pending.get? n = some held ↔
    verifier.nextSegment < n ∧ packets.readable? n = some held
  stuck : ∀ held, packets.readable? verifier.nextSegment = some held →
    verifier.authenticate verifier.nextSegment held.data ≠ .ok ()
  errors : errors.Perm (packets.filterMap Packets.unreadable ++
    ((packets.readable? verifier.nextSegment).bind fun held =>
      verifier.refusal verifier.nextSegment held.data).toList)

namespace Settled

variable {packets : Packets} {verifier : Verifier} {log : List Verified}
  {errors : List RetrievalError}

theorem empty : Settled [] {} [] [] where
  accepts := accepts_nil
  tidy := tidy_empty
  logged := nofun
  held := by simp [Packets.readable?]
  stuck := nofun
  errors := .refl _

/-! ## One submission -/

theorem logged_cons (settled : Settled packets verifier log errors) {n : Nat} {data : Data}
    (new : packets.get? n = none) {verified : Verified} (member : verified ∈ log) :
    Table.get? ((n, data) :: packets) verified.segment = some verified.data := by
  have found := settled.logged verified member
  rw [Table.get?, if_neg, found]
  rintro rfl
  rw [new] at found
  cases found

/-- A packet whose content cannot be read is refused at once. -/
theorem refuses (settled : Settled packets verifier log errors) {n : Nat} {data : Data}
    (new : packets.get? n = none) {error : ContentError} (reads : data.readContent = .error error) :
    Settled ((n, data) :: packets) verifier log
      (errors ++ [.integrity n (.malformedContent error)]) := by
  have other : ∀ m, Packets.readable? ((n, data) :: packets) m = packets.readable? m := by
    intro m
    by_cases here : m = n
    · simp [here, Packets.readable?, Table.get?, reads, new, Except.toOption]
    · exact Packets.readable?_cons_of_ne here
  have refused : Packets.unreadable (n, data) = some (.integrity n (.malformedContent error)) := by
    simp [Packets.unreadable, reads]
  refine ⟨settled.accepts, settled.tidy, fun _ => settled.logged_cons new, ?_, ?_, ?_⟩
  · simpa only [other] using settled.held
  · simpa only [other] using settled.stuck
  · rw [List.filterMap_cons_some refused, other]
    exact (List.perm_append_singleton _ _).trans (settled.errors.cons _)

section readable

variable {data : Data} {content : Content} (reads : data.readContent = .ok content)
include reads

theorem unreadable_eq_none (n : Nat) : Packets.unreadable (n, data) = none := by
  simp [Packets.unreadable, reads]

/-- A packet that comes early is held. -/
theorem holds (settled : Settled packets verifier log errors) {n : Nat}
    (new : packets.get? n = none) (early : verifier.nextSegment < n)
    (accepts :
      { verifier with pending := verifier.pending.insert n ⟨data, content⟩ }.Accepts log)
    (tidy : { verifier with pending := verifier.pending.insert n ⟨data, content⟩ }.Tidy) :
    Settled ((n, data) :: packets)
      { verifier with pending := verifier.pending.insert n ⟨data, content⟩ } log errors := by
  have other : Packets.readable? ((n, data) :: packets) verifier.nextSegment =
      packets.readable? verifier.nextSegment :=
    Packets.readable?_cons_of_ne (Nat.ne_of_lt early)
  refine ⟨accepts, tidy, fun _ => settled.logged_cons new, fun m held => ?_, ?_, ?_⟩
  · rw [Table.get?_insert]
    split
    next here => simp [here, early, Packets.readable?_cons_self reads]
    next elsewhere => rw [settled.held, Packets.readable?_cons_of_ne elsewhere]
  · simp only [other]
    exact settled.stuck
  · simp only [other, List.filterMap_cons_none (unreadable_eq_none reads n)]
    exact settled.errors

/-- The packets at hand of a cascade are all the readable ones from the next number on. -/
theorem get?_insert_next (settled : Settled packets verifier log errors) {m : Nat}
    (onward : verifier.nextSegment ≤ m) :
    (verifier.pending.insert verifier.nextSegment ⟨data, content⟩).get? m =
      Packets.readable? ((verifier.nextSegment, data) :: packets) m := by
  rw [Table.get?_insert]
  split
  next here => rw [here, Packets.readable?_cons_self reads]
  next elsewhere =>
    rw [Packets.readable?_cons_of_ne elsewhere]
    refine Option.ext fun held => ?_
    rw [settled.held]
    exact and_iff_right (by omega)

/-- The packet for the next number begins a cascade. -/
theorem cascades (settled : Settled packets verifier log errors)
    (new : packets.get? verifier.nextSegment = none) {submitted : Submitted} {after : Verifier}
    (result : verifier.cascade verifier.nextSegment ⟨data, content⟩ = (submitted, after))
    (accepts : after.Accepts (log ++ submitted.verified)) (tidy : after.Tidy) :
    Settled ((verifier.nextSegment, data) :: packets) after (log ++ submitted.verified)
      (errors ++ submitted.error.toList) := by
  have hand := fun m => settled.get?_insert_next reads (m := m)
  have spec := settled.accepts.cascaded_submit data content
  rw [result] at spec
  refine ⟨accepts, tidy, fun verified member => ?_, fun m held => ?_, ?_, ?_⟩
  · rcases List.mem_append.mp member with earlier | fresh
    · exact settled.logged_cons new earlier
    · obtain ⟨held, found, packet⟩ := spec.accepted verified fresh
      have onward : verifier.nextSegment ≤ verified.segment := by
        rw [Table.get?_insert] at found
        split at found
        next here => exact Nat.le_of_eq here.symm
        next => exact Nat.le_of_lt ((settled.held _ _).mp found).1
      rw [hand _ onward] at found
      rw [(Packets.readable?_eq_some_iff.mp found).1, packet]
  · rw [spec.held]
    refine and_congr_right fun beyond => ?_
    rw [hand m (Nat.le_trans spec.onward (Nat.le_of_lt beyond))]
  · rw [← hand _ spec.onward]
    exact spec.stuck
  · have unread : packets.readable? verifier.nextSegment = none := by
      simp [Packets.readable?, new]
    have before := settled.errors
    rw [unread, Option.bind_none, Option.toList_none, List.append_nil] at before
    rw [List.filterMap_cons_none (unreadable_eq_none reads _), ← hand _ spec.onward, ← spec.refused]
    exact before.append_right _

end readable

/-- A packet for a new number is refused, held, or the beginning of a cascade. -/
theorem submit (settled : Settled packets verifier log errors) {n : Nat} (data : Data)
    (new : packets.get? n = none) :
    Settled ((n, data) :: packets) (verifier.submit n data).2
      (log ++ (verifier.submit n data).1.verified)
      (errors ++ (verifier.submit n data).1.error.toList) := by
  have accepts := settled.accepts.submit n data
  have tidy : (verifier.submit n data).2.Tidy := settled.tidy.perform (.submit n data)
  rcases verifier.submit_cases n data with ⟨seen, _⟩ | ⟨error, reads, same⟩ |
    ⟨content, reads, early, same⟩ | ⟨content, reads, rfl, same⟩
  · -- an accepted number has a packet already
    obtain ⟨verified, member, rfl⟩ := settled.accepts.mem_log_iff.mpr seen
    rw [settled.logged verified member] at new
    cases new
  · rw [same, List.append_nil]
    exact settled.refuses new reads
  · rw [same, List.append_nil] at accepts
    rw [same] at tidy
    rw [same, List.append_nil, Option.toList_none, List.append_nil]
    exact settled.holds reads new early accepts tidy
  · rw [same] at accepts tidy ⊢
    exact settled.cascades reads new rfl accepts tidy

/-- The order of the packets plays no role for what they settle. -/
theorem perm (settled : Settled packets verifier log errors) (distinct : packets.Distinct)
    {others : Packets} (same : packets.Perm others) : Settled others verifier log errors := by
  have found : ∀ n, packets.get? n = others.get? n := distinct.get?_eq_of_perm same
  have readable : ∀ n, packets.readable? n = others.readable? n := by
    intro n
    simp only [Packets.readable?, found]
  refine ⟨settled.accepts, settled.tidy, ?_, ?_, ?_, ?_⟩
  · simpa only [found] using settled.logged
  · simpa only [readable] using settled.held
  · simpa only [readable] using settled.stuck
  · have errors := settled.errors
    rw [readable] at errors
    exact errors.trans ((same.filterMap _).append_right _)

/-! ## What the packets decide -/

/-- The packets decide each place of the log. -/
theorem getElem?_eq (settled : Settled packets verifier log errors) {other : Verifier}
    {others : List Verified} {more : List RetrievalError}
    (settles : Settled packets other others more) {n : Nat} {one two : Verified}
    (here : log[n]? = some one) (there : others[n]? = some two) : one = two := by
  have number := settled.accepts.linked.segment_eq_of_getElem? here
  have same := settles.accepts.linked.segment_eq_of_getElem? there
  have member := List.mem_of_getElem? here
  have found := settled.logged one member
  rw [number, ← same, settles.logged two (List.mem_of_getElem? there)] at found
  obtain ⟨content, reads, payload⟩ := settled.accepts.linked.readContent_of_mem member
  obtain ⟨_, read, carried⟩ :=
    settles.accepts.linked.readContent_of_mem (List.mem_of_getElem? there)
  cases one
  cases two
  cases found
  simp only at number same reads read payload carried
  rw [reads] at read
  cases read
  rw [number, same, payload, carried]

theorem acceptable_of_lt (settled : Settled packets verifier log errors) {m : Nat}
    (within : m < verifier.nextSegment) : packets.Acceptable m := by
  rw [settled.accepts.next] at within
  have linked := settled.accepts.linked
  have here : log[m]? = some log[m] := List.getElem?_eq_getElem within
  have member := List.mem_of_getElem? here
  have found := settled.logged _ member
  rw [linked.segment_eq_of_getElem? here] at found
  obtain ⟨content, reads, _⟩ := linked.readContent_of_mem member
  refine ⟨_, content, found, reads, linked.covered_of_mem member, ?_⟩
  rintro n rfl
  have earlier : log[n]? = some log[n] := List.getElem?_eq_getElem (by omega)
  have previous := settled.logged _ (List.mem_of_getElem? earlier)
  rw [linked.segment_eq_of_getElem? earlier] at previous
  exact ⟨_, previous, linked.commitment?_of_getElem? earlier here⟩

theorem not_acceptable_nextSegment (settled : Settled packets verifier log errors) :
    ¬ packets.Acceptable verifier.nextSegment := by
  rintro ⟨data, content, found, reads, covered, follows⟩
  refine settled.stuck ⟨data, content⟩ (Packets.readable?_eq_some_iff.mpr ⟨found, reads⟩) ?_
  rw [settled.accepts.next] at follows ⊢
  refine settled.accepts.authenticate_eq_ok_iff.mpr ⟨covered, fun last final => ?_⟩
  -- the last segment of the log is the packet of the number before
  rw [Option.mem_def, List.getLast?_eq_getElem?] at final
  obtain ⟨inside, _⟩ := List.getElem?_eq_some_iff.mp final
  obtain ⟨previous, place, announced⟩ := follows (log.length - 1) (by omega)
  have packet := settled.logged last (List.mem_of_getElem? final)
  rw [settled.accepts.linked.segment_eq_of_getElem? final, place] at packet
  cases packet
  exact announced

theorem nextSegment_le (settled : Settled packets verifier log errors) {other : Verifier}
    {others : List Verified} {more : List RetrievalError}
    (settles : Settled packets other others more) : verifier.nextSegment ≤ other.nextSegment :=
  Nat.le_of_not_lt fun later =>
    settles.not_acceptable_nextSegment (settled.acceptable_of_lt later)

/-- Two verifiers to which the same packets were submitted stand at the same number, with the same
segments accepted, held and refused. -/
theorem unique (settled : Settled packets verifier log errors) {other : Verifier}
    {others : List Verified} {more : List RetrievalError}
    (settles : Settled packets other others more) :
    verifier.nextSegment = other.nextSegment ∧ verifier.pending.Perm other.pending ∧
      verifier.commitments.Perm other.commitments ∧ log = others ∧ errors.Perm more := by
  have next := Nat.le_antisymm (settled.nextSegment_le settles) (settles.nextSegment_le settled)
  have length : log.length = others.length := by
    rw [← settled.accepts.next, next, settles.accepts.next]
  have logs : log = others := by
    refine List.ext_getElem length fun n here there => ?_
    exact settled.getElem?_eq settles (List.getElem?_eq_getElem here)
      (List.getElem?_eq_getElem there)
  have commitments : ∀ n, verifier.commitments.get? n = other.commitments.get? n := by
    intro n
    rw [settled.accepts.commitments, settles.accepts.commitments, logs]
  have pending : ∀ n, verifier.pending.get? n = other.pending.get? n := by
    intro n
    refine Option.ext fun held => ?_
    rw [settled.held, settles.held, next]
  refine ⟨next, settled.tidy.pending.perm_of_get?_eq settles.tidy.pending pending,
    settled.tidy.commitments.perm_of_get?_eq settles.tidy.commitments commitments, logs, ?_⟩
  -- what is refused hangs on the commitments only by look-ups
  have refusals : ∀ n data, verifier.refusal n data = other.refusal n data := by
    intro n data
    simp only [refusal, authenticate, commitments]
  have errors := settled.errors
  simp only [next, refusals] at errors
  exact errors.trans settles.errors.symm

end Settled

/-! ## All submissions -/

/-- Packets for new numbers, submitted one after the other, are added to those submitted before. -/
theorem Settled.performAll {packets : Packets} {verifier : Verifier} {log : List Verified}
    {errors : List RetrievalError} (settled : Settled packets verifier log errors)
    {more : Packets} (distinct : more.Distinct)
    (new : ∀ entry ∈ more, packets.get? entry.1 = none) :
    Settled (more.reverse ++ packets)
      (verifier.performAll (more.map fun (n, data) => .submit n data)).2
      (log ++ accepted (verifier.performAll (more.map fun (n, data) => .submit n data)).1)
      (errors ++ refusals (verifier.performAll (more.map fun (n, data) => .submit n data)).1) := by
  induction more generalizing packets verifier log errors with
  | nil => simpa [Verifier.performAll, accepted, refusals] using settled
  | cons entry rest ih =>
    obtain ⟨n, data⟩ := entry
    obtain ⟨first, others⟩ := List.nodup_cons.mp distinct
    have onward := ih (settled.submit data (new _ List.mem_cons_self)) others (by
      intro entry member
      rw [Table.get?, if_neg, new entry (List.mem_cons_of_mem _ member)]
      rintro rfl
      exact first (List.mem_map.mpr ⟨entry, member, rfl⟩))
    simp only [List.map_cons, Verifier.performAll, Verifier.perform, accepted, refusals,
      List.flatMap_cons, List.reverse_cons, List.append_assoc, List.singleton_append] at onward ⊢
    cases refused : (verifier.submit n data).1.error with
    | none => simpa [refused] using onward
    | some error => simpa [refused] using onward

theorem settled_submitAll {packets : Packets} (distinct : packets.Distinct) :
    Settled packets (submitAll packets).2 (accepted (submitAll packets).1)
      (refusals (submitAll packets).1) := by
  have settled := Settled.empty.performAll distinct fun _ _ => rfl
  rw [List.append_nil] at settled
  exact settled.perm (distinct.perm packets.reverse_perm.symm) packets.reverse_perm

/-- Packets for distinct segments, submitted once each in any two orders: the verifier ends at the
same number, with the same packets held and the same commitments kept; the same segments are reported
in the same order, and the same errors in some order.  The number it ends at is the first without an
acceptable packet. -/
theorem submitAll_confluent {first second : Packets} (distinct : first.Distinct)
    (same : first.Perm second) :
    (submitAll first).2.nextSegment = (submitAll second).2.nextSegment ∧
      (submitAll first).2.pending.Perm (submitAll second).2.pending ∧
      (submitAll first).2.commitments.Perm (submitAll second).2.commitments ∧
      accepted (submitAll first).1 = accepted (submitAll second).1 ∧
      (refusals (submitAll first).1).Perm (refusals (submitAll second).1) ∧
      (∀ m < (submitAll first).2.nextSegment, first.Acceptable m) ∧
      ¬ first.Acceptable (submitAll first).2.nextSegment := by
  have one := settled_submitAll distinct
  have other := (settled_submitAll (distinct.perm same)).perm (distinct.perm same) same.symm
  obtain ⟨next, pending, commitments, log, errors⟩ := one.unique other
  exact ⟨next, pending, commitments, log, errors, fun _ => one.acceptable_of_lt,
    one.not_acceptable_nextSegment⟩

/-- A packet with no signature value ends what is accepted, whether it comes before its predecessor or
after it. -/
theorem submitAll_confluent_unsigned :
    let genuine := Chain.sealSegment ⟨[]⟩ .omitted 0 0 [1] none
    let packets : Packets := [(0, genuine), (1, { genuine with signature := [] }), (2, genuine)]
    packets.Distinct ∧ packets.Perm packets.reverse ∧ (submitAll packets).2.nextSegment = 1 ∧
      (submitAll packets.reverse).2.nextSegment = 1 := by
  intro genuine packets
  have distinct : packets.Distinct := by
    simp [Table.Distinct, packets]
  have same : packets.Perm packets.reverse := packets.reverse_perm.symm
  obtain ⟨next, _, _, _, _, within, beyond⟩ := submitAll_confluent distinct same
  have first : packets.Acceptable 0 :=
    ⟨genuine, _, rfl, Chain.readContent_sealSegment ⟨by decide, nofun⟩,
      Chain.verify_sealSegment ⟨[]⟩ .omitted 0 0 [1] none, nofun⟩
  have second : ¬ packets.Acceptable 1 := by
    rintro ⟨_, _, found, _, covered, _⟩
    cases found
    cases covered
  have ended : (submitAll packets).2.nextSegment = 1 := by
    refine Nat.le_antisymm (Nat.le_of_not_lt fun later => second (within 1 later)) ?_
    refine Nat.pos_of_ne_zero fun start => beyond ?_
    rwa [start]
  exact ⟨distinct, same, ended, next ▸ ended⟩

end Verifier

end SegmentRetrieval
