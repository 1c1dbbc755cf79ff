import SegmentRetrieval.Fetch

/-! # What a fetch makes of an outcome

An outcome ends a fetch, or the fetch goes on with the same Interest but for its nonce (`Fetch.Answers`).
It goes on after a transient fault only, and as long as its limit allows one more fault of that
kind.
-/

namespace SegmentRetrieval

/-! ## Faults -/

namespace InterestError

/-- Whether a fetch may survive the fault. -/
def isTransient : InterestError → Bool
  | .timeout => true
  | .nack .congestion => true
  | .nack .duplicate => true
  | .nack _ => false

def isNack : InterestError → Bool
  | .timeout => false
  | .nack _ => true

end InterestError

theorem NackReason.eq_of_isTransient_eq_false {reason : NackReason}
    (final : (InterestError.nack reason).isTransient = false) :
    reason = .unspecified ∨ reason = .noRoute := by
  cases reason with
  | unspecified => exact .inl rfl
  | noRoute => exact .inr rfl
  | congestion => cases final
  | duplicate => cases final

/-! ## Limits -/

namespace RetryLimit

variable {limit : RetryLimit} {failures : Nat}

theorem le_of_allows {max : Nat} (allowed : limit.allows failures = true)
    (bounded : limit = .bounded max) : failures ≤ max := by
  subst bounded
  exact of_decide_eq_true allowed

/-- A limit that bears so many failures and not one more is a bound, and that is the number. -/
theorem eq_bounded_of_exhausted (borne : ∀ max, limit = .bounded max → failures ≤ max)
    (exhausted : limit.allows (failures + 1) = false) : limit = .bounded failures := by
  cases limit with
  | unlimited => cases exhausted
  | bounded max =>
    have beyond : ¬ failures + 1 ≤ max := of_decide_eq_false exhausted
    have within := borne max rfl
    rw [show max = failures by omega]

theorem allows_of_le {count : Nat} (bounded : ∀ max, limit = .bounded max → count ≤ max)
    (fewer : failures ≤ count) : limit.allows failures = true := by
  cases limit with
  | unlimited => rfl
  | bounded max => exact decide_eq_true (Nat.le_trans fewer (bounded max rfl))

/-- A count that is kept in 32 bits is never above the count itself. -/
theorem allows_ofNat {count : Nat} (bounded : ∀ max, limit = .bounded max → count ≤ max) :
    limit.allows (UInt32.ofNat count).toNat = true :=
  allows_of_le bounded (Nat.mod_le count _)

theorem allows_ofNat_succ {count : Nat} (bounded : ∀ max, limit = .bounded max → count + 1 ≤ max) :
    limit.allows (UInt32.ofNat count + 1).toNat = true :=
  UInt32.ofNat_add count 1 ▸ allows_ofNat bounded

end RetryLimit

/-! ## One outcome -/

namespace Fetch

variable {fetch : Fetch} {draw : UInt32}

/-- What follows an outcome. -/
inductive Answers (fetch : Fetch) (draw : UInt32) : Outcome → Next → Prop where
  | received {data : Data} : Answers fetch draw (.ok data) (.finished (.ok data))
  | timedOut (allowed : fetch.limit.allows (fetch.timeouts + 1).toNat = true) :
      Answers fetch draw (.error .timeout)
        (.again .zero { fetch.refreshed draw with timeouts := fetch.timeouts + 1 })
  | timeoutsExhausted (exhausted : fetch.limit.allows (fetch.timeouts + 1).toNat = false) :
      Answers fetch draw (.error .timeout)
        (.finished (.error (.timeoutRetriesExhausted fetch.interest.name fetch.timeouts.toNat)))
  | duplicate (allowed : fetch.limit.allows (fetch.nacks + 1).toNat = true) :
      Answers fetch draw (.error (.nack .duplicate))
        (.again .zero { fetch.refreshed draw with nacks := fetch.nacks + 1 })
  | congestion (allowed : fetch.limit.allows (fetch.nacks + 1).toNat = true) :
      Answers fetch draw (.error (.nack .congestion))
        (.again (Backoff.congestion fetch.congestions.toNat)
          { fetch.refreshed draw with
            nacks := fetch.nacks + 1, congestions := saturatingSucc fetch.congestions })
  | nacked {reason : NackReason} (allowed : fetch.limit.allows (fetch.nacks + 1).toNat = true)
      (final : (InterestError.nack reason).isTransient = false) :
      Answers fetch draw (.error (.nack reason))
        (.finished (.error (.nacked fetch.interest.name reason)))
  | nacksExhausted {reason : NackReason}
      (exhausted : fetch.limit.allows (fetch.nacks + 1).toNat = false) :
      Answers fetch draw (.error (.nack reason))
        (.finished (.error (.nackRetriesExhausted fetch.interest.name fetch.nacks.toNat)))

theorem answers (fetch : Fetch) (draw : UInt32) (outcome : Outcome) :
    fetch.Answers draw outcome (fetch.answer draw outcome) := by
  rcases outcome with (_ | reason) | data
  · unfold answer
    dsimp only
    split
    next allowed => exact .timedOut allowed
    next exhausted => exact .timeoutsExhausted (Bool.eq_false_iff.mpr exhausted)
  · unfold answer
    dsimp only
    split
    next allowed =>
      cases reason with
      | congestion => exact .congestion allowed
      | duplicate => exact .duplicate allowed
      | unspecified => exact .nacked allowed rfl
      | noRoute => exact .nacked allowed rfl
    next exhausted => exact .nacksExhausted (Bool.eq_false_iff.mpr exhausted)
  · exact .received

theorem interest_of_again {next : Fetch} {outcome : Outcome} {wait : Duration}
    (again : fetch.answer draw outcome = .again wait next) :
    next.limit = fetch.limit ∧ next.interest = fetch.interest.refreshNonce draw := by
  have follows := fetch.answers draw outcome
  rw [again] at follows
  cases follows <;> exact ⟨rfl, rfl⟩

/-- The fetch goes on: what it asks for and its limit stay. -/
structure Continues (fetch next : Fetch) : Prop where
  name : next.interest.name = fetch.interest.name
  limit : next.limit = fetch.limit

/-- An outcome ends the fetch, or the fetch goes on after a transient fault. -/
theorem answer_cases (fetch : Fetch) (draw : UInt32) (outcome : Outcome) :
    (∃ data, outcome = .ok data ∧ fetch.answer draw outcome = .finished (.ok data)) ∨
      (∃ failure, fetch.answer draw outcome = .finished (.error failure)) ∨
      ∃ fault wait next, outcome = .error fault ∧ fault.isTransient = true ∧
        fetch.answer draw outcome = .again wait next ∧ fetch.Continues next := by
  have follows := fetch.answers draw outcome
  generalize fetch.answer draw outcome = next at follows
  cases follows with
  | received => exact .inl ⟨_, rfl, rfl⟩
  | timedOut => exact .inr (.inr ⟨_, _, _, rfl, rfl, rfl, rfl, rfl⟩)
  | timeoutsExhausted => exact .inr (.inl ⟨_, rfl⟩)
  | duplicate => exact .inr (.inr ⟨_, _, _, rfl, rfl, rfl, rfl, rfl⟩)
  | congestion => exact .inr (.inr ⟨_, _, _, rfl, rfl, rfl, rfl, rfl⟩)
  | nacked => exact .inr (.inl ⟨_, rfl⟩)
  | nacksExhausted => exact .inr (.inl ⟨_, rfl⟩)

theorem answer_timeout (allowed : fetch.limit.allows (fetch.timeouts + 1).toNat = true) :
    ∃ wait next, fetch.answer draw (.error .timeout) = .again wait next ∧
      fetch.Continues next ∧ next.timeouts = fetch.timeouts + 1 ∧ next.nacks = fetch.nacks :=
  ⟨_, _, if_pos allowed, ⟨rfl, rfl⟩, rfl, rfl⟩

theorem answer_nack {reason : NackReason} (transient : (InterestError.nack reason).isTransient = true)
    (allowed : fetch.limit.allows (fetch.nacks + 1).toNat = true) :
    ∃ wait next, fetch.answer draw (.error (.nack reason)) = .again wait next ∧
      fetch.Continues next ∧ next.timeouts = fetch.timeouts ∧ next.nacks = fetch.nacks + 1 := by
  unfold answer
  dsimp only
  rw [if_pos allowed]
  cases reason with
  | congestion => exact ⟨_, _, rfl, ⟨rfl, rfl⟩, rfl, rfl⟩
  | duplicate => exact ⟨_, _, rfl, ⟨rfl, rfl⟩, rfl, rfl⟩
  | unspecified => cases transient
  | noRoute => cases transient

end Fetch

end SegmentRetrieval
