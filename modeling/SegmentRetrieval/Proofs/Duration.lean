import SegmentRetrieval.Duration
import Mathlib.Algebra.Group.Nat.Defs

/-! # Durations in nanoseconds

A duration is a number of nanoseconds, split into whole seconds and what is left of one (`Lasts`).  To
compare durations by their seconds first is to compare these numbers (`le_iff_toNanos_le`).  A duration
taken several times over is the product, or the longest duration where that is smaller
(`toNanos_saturatingMul`), so a longer duration or a larger factor never gives a shorter one.
-/

namespace SegmentRetrieval.Duration

/-- The duration is `nanos` nanoseconds long, split into whole seconds and what is left of one. -/
structure Lasts (duration : Duration) (nanos : Nat) : Prop where
  seconds : duration.seconds.toNat = nanos / 10 ^ 9
  rest : duration.nanos = nanos % 10 ^ 9

theorem lasts_iff {duration : Duration} {nanos : Nat} :
    duration.Lasts nanos ↔ duration.toNanos = nanos := by
  have below := duration.nanos_lt
  constructor
  · rintro ⟨seconds, rest⟩
    rw [toNanos, seconds, rest]
    omega
  · rintro rfl
    exact ⟨by rw [toNanos]; omega, by rw [toNanos]; omega⟩

/-! ## The order -/

/-- Durations compare by their whole seconds, and by what is left of one where these agree. -/
instance : LE Duration where
  le a b := a.seconds < b.seconds ∨ a.seconds = b.seconds ∧ a.nanos ≤ b.nanos

theorem le_iff_toNanos_le {a b : Duration} : a ≤ b ↔ a.toNanos ≤ b.toNanos := by
  have below := a.nanos_lt
  have otherBelow := b.nanos_lt
  show a.seconds < b.seconds ∨ a.seconds = b.seconds ∧ a.nanos ≤ b.nanos ↔ _
  rw [UInt64.lt_iff_toNat_lt, ← UInt64.toNat_inj, toNanos, toNanos]
  omega

instance (a b : Duration) : Decidable (a ≤ b) :=
  decidable_of_iff _ le_iff_toNanos_le.symm

theorem toNanos_min (a b : Duration) : (a.min b).toNanos = Min.min a.toNanos b.toNanos := by
  unfold Duration.min
  split <;> omega

/-! ## Multiples -/

theorem toNanos_saturatingMul (duration : Duration) (factor : Nat) :
    (duration.saturatingMul factor).toNanos = Min.min (duration.toNanos * factor) max.toNanos := by
  have product : duration.toNanos * factor =
      duration.seconds.toNat * factor * 1000000000 + duration.nanos * factor := by
    rw [toNanos, Nat.add_mul, Nat.mul_right_comm]
  have longest : max.toNanos = 18446744073709551615999999999 := rfl
  have words : UInt64.size = 18446744073709551616 := rfl
  rw [product, longest]
  simp only [saturatingMul]
  -- what is left after the carry is below a second, so the seconds overflow where the product does
  split
  next fits =>
    simp only [toNanos, UInt64.toNat_ofNat_of_lt' fits]
    omega
  next =>
    rw [longest]
    omega

theorem saturatingMul_le_saturatingMul {a b : Duration} {factor larger : Nat} (longer : a ≤ b)
    (le : factor ≤ larger) : a.saturatingMul factor ≤ b.saturatingMul larger := by
  rw [le_iff_toNanos_le] at longer ⊢
  have product : a.toNanos * factor ≤ b.toNanos * larger := Nat.mul_le_mul longer le
  rw [toNanos_saturatingMul, toNanos_saturatingMul]
  omega

end SegmentRetrieval.Duration
