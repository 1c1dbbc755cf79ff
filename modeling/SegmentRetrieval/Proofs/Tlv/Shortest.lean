import SegmentRetrieval.Proofs.Tlv.Forms

/-! # Shortest forms

A number has several forms, and writing takes the shortest, the only one of its length.  Likewise, of
the values that an integer is read from, its encoding is the shortest, and the only one of that length.
-/

namespace SegmentRetrieval.Tlv

/-! ## Numbers -/

/-- A number is written in its only byte, or behind the marker of the narrowest width that holds it. -/
theorem writeNumber_cases (n : UInt64) :
    n.toNat < 253 ∧ writeNumber n = [n.toUInt8] ∨
      253 ≤ n.toNat ∧ ∃ marker width, (marker, width) ∈ [((253 : UInt8), 2), (254, 4), (255, 8)] ∧
        writeNumber n = marker :: Bytes.bigEndian width n.toNat ∧
        ∀ other ∈ [2, 4, 8], n.toNat < Bytes.capacity other → width ≤ other := by
  have two : Bytes.capacity 2 = 0x10000 := rfl
  have four : Bytes.capacity 4 = 0x100000000 := rfl
  unfold writeNumber
  simp only [UInt64.lt_iff_toNat_lt, UInt64.reduceToNat]
  split
  next small => exact .inl ⟨small, rfl⟩
  next large =>
    refine .inr ⟨Nat.le_of_not_lt large, ?_⟩
    split
    next => exact ⟨253, 2, by simp, rfl, by simp⟩
    next wide =>
      split
      next => exact ⟨254, 4, by simp, rfl, by simp [two, wide]⟩
      next wider => exact ⟨255, 8, by simp, rfl, by simp [two, four, wide, wider]⟩

/-- The width that a marker announces tells which marker it is. -/
theorem eq_of_announced {marker other : UInt8} {width : Nat}
    (one : (marker, width) ∈ [((253 : UInt8), 2), (254, 4), (255, 8)])
    (another : (other, width) ∈ [((253 : UInt8), 2), (254, 4), (255, 8)]) : marker = other := by
  simp only [List.mem_cons, Prod.mk.injEq, List.not_mem_nil, or_false] at one another
  rcases one with ⟨rfl, rfl⟩ | ⟨rfl, rfl⟩ | ⟨rfl, rfl⟩ <;> simp_all

theorem NumberForm.length_writeNumber_le {n : UInt64} {form : Bytes} (isForm : NumberForm n form) :
    (writeNumber n).length ≤ form.length := by
  cases isForm with
  | short below value =>
    rcases writeNumber_cases n with ⟨_, written⟩ | ⟨large, _⟩
    · rw [written]
      exact Nat.le_refl 1
    · omega
  | @extended marker digits announced value =>
    have bound := Bytes.ofBigEndian_lt digits
    rw [value] at bound
    rcases writeNumber_cases n with ⟨_, written⟩ | ⟨_, _, width, _, written, narrowest⟩ <;>
      rw [written, List.length_cons, List.length_cons]
    · exact Nat.succ_le_succ (Nat.zero_le _)
    · rw [Bytes.length_bigEndian]
      exact Nat.succ_le_succ (narrowest _ (List.mem_map_of_mem announced (f := Prod.snd)) bound)

/-- A form as long as the one that is written is that one. -/
theorem NumberForm.eq_writeNumber_of_length_eq {n : UInt64} {form : Bytes}
    (isForm : NumberForm n form) (same : form.length = (writeNumber n).length) :
    form = writeNumber n := by
  cases isForm with
  | @short byte below value =>
    rcases writeNumber_cases n with ⟨_, written⟩ | ⟨large, _⟩
    · rw [written, List.cons.injEq, ← UInt8.toNat_inj, UInt64.toNat_toUInt8, ← value]
      simp
    · omega
  | @extended marker digits announced value =>
    rcases writeNumber_cases n with ⟨_, written⟩ | ⟨_, chosen, width, fits, written, _⟩ <;>
      rw [written, List.length_cons, List.length_cons, Nat.succ_inj] at same
    · -- a marker announces some digits
      rw [List.length_nil] at same
      rw [same] at announced
      simp at announced
    · rw [Bytes.length_bigEndian] at same
      rw [written, ← same, ← value, Bytes.bigEndian_ofBigEndian]
      exact congrArg (· :: digits) (eq_of_announced announced (same ▸ fits))

/-! ## Integer values -/

theorem decodeInteger_eq_ok_iff {value : Bytes} {n : UInt64} :
    decodeInteger value = .ok n ↔
      value.length ∈ [1, 2, 4, 8] ∧ Bytes.ofBigEndian value = n.toNat := by
  unfold decodeInteger
  split
  next width =>
    have fits : Bytes.ofBigEndian value < UInt64.size := by
      have bound := Bytes.ofBigEndian_lt value
      have widest : ∀ width ∈ [1, 2, 4, 8], Bytes.capacity width ≤ UInt64.size := by decide
      exact Nat.lt_of_lt_of_le bound (widest _ width)
    have same : UInt64.ofNat (Bytes.ofBigEndian value) = n ↔ Bytes.ofBigEndian value = n.toNat := by
      rw [← UInt64.toNat_inj, UInt64.toNat_ofNat_of_lt' fits]
    simp only [Except.ok.injEq, width, true_and, same]
  next noWidth => simp [noWidth]

theorem length_encodeInteger_le {value : Bytes} {n : UInt64} (decoded : decodeInteger value = .ok n) :
    (encodeInteger n).length ≤ value.length := by
  obtain ⟨width, spelled⟩ := decodeInteger_eq_ok_iff.mp decoded
  have bound := Bytes.ofBigEndian_lt value
  rw [spelled] at bound
  -- a width below the one chosen holds fewer numbers
  have one : Bytes.capacity 1 = 0x100 := rfl
  have two : Bytes.capacity 2 = 0x10000 := rfl
  have four : Bytes.capacity 4 = 0x100000000 := rfl
  rw [encodeInteger, Bytes.length_bigEndian]
  simp only [UInt64.lt_iff_toNat_lt, UInt64.reduceToNat]
  simp only [List.mem_cons, List.not_mem_nil, or_false] at width
  rcases width with width | width | width | width <;> grind

/-- A value as long as the encoding is the encoding. -/
theorem eq_encodeInteger_of_length_eq {value : Bytes} {n : UInt64}
    (decoded : decodeInteger value = .ok n) (same : value.length = (encodeInteger n).length) :
    value = encodeInteger n := by
  have spelled := (decodeInteger_eq_ok_iff.mp decoded).2
  rw [encodeInteger, Bytes.length_bigEndian] at same
  rw [encodeInteger, ← same, ← spelled, Bytes.bigEndian_ofBigEndian]

/-- The value is read as the integer, and no shorter one is. -/
structure Shortest (value : Bytes) (n : UInt64) : Prop where
  decoded : decodeInteger value = .ok n
  least : ∀ other, decodeInteger other = .ok n → value.length ≤ other.length

theorem shortest_iff {value : Bytes} {n : UInt64} : Shortest value n ↔ value = encodeInteger n := by
  constructor
  · intro shortest
    have same := Nat.le_antisymm (shortest.least _ (decodeInteger_encodeInteger n))
      (length_encodeInteger_le shortest.decoded)
    exact eq_encodeInteger_of_length_eq shortest.decoded same
  · rintro rfl
    exact ⟨decodeInteger_encodeInteger n, fun _ => length_encodeInteger_le⟩

end SegmentRetrieval.Tlv
