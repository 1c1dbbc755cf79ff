import SegmentRetrieval.Name.Basic
import SegmentRetrieval.Proofs.Tlv.Shortest

/-! # Generic and segment components

A segment number is read from any of its integer forms, so several components carry it; the one that is
made for it has the shortest.  The canonical components are these and the generic ones, of any value.
-/

namespace SegmentRetrieval.Component

theorem segment?_ofSegment (n : UInt64) : (ofSegment n).segment? = some n := by
  simp only [segment?, segmentNumber, isSegment, ofSegment, Tlv.decodeInteger_encodeInteger]
  rfl

theorem segment?_eq_some_iff {component : Component} {n : UInt64} :
    component.segment? = some n ↔
      component.type = Tlv.segmentComponentType ∧ Tlv.decodeInteger component.value = .ok n := by
  by_cases isType : component.type = Tlv.segmentComponentType
  · have same : component.segment? = (Tlv.decodeInteger component.value).toOption := by
      simp only [segment?, segmentNumber, isSegment, isType]
      cases Tlv.decodeInteger component.value <;> rfl
    rw [same]
    cases Tlv.decodeInteger component.value <;> simp [isType, Except.toOption]
  · simp [segment?, segmentNumber, isSegment, isType, Except.toOption]

/-- The component is generic, or a segment component whose value is the shortest for its number. -/
def Canonical (component : Component) : Prop :=
  component.type = Tlv.genericComponentType ∨
    component.type = Tlv.segmentComponentType ∧ ∃ n, Tlv.Shortest component.value n

theorem canonical_generic (value : Bytes) : (generic value).Canonical :=
  .inl rfl

theorem canonical_ofSegment (n : UInt64) : (ofSegment n).Canonical :=
  .inr ⟨rfl, n, Tlv.shortest_iff.mpr rfl⟩

theorem canonical_iff {component : Component} :
    component.Canonical ↔
      component.type = Tlv.genericComponentType ∨ ∃ n, component = ofSegment n := by
  obtain ⟨type, value⟩ := component
  simp only [Canonical, Tlv.shortest_iff, ofSegment, mk.injEq, exists_and_left]

end SegmentRetrieval.Component

namespace SegmentRetrieval.Name

theorem segment?_appendSegment (name : Name) (n : UInt64) :
    (name.appendSegment n).segment? = some n := by
  rw [segment?, last?, appendSegment, append, List.getLast?_concat, Option.bind_some,
    Component.segment?_ofSegment]

theorem appendSegment_inj {name other : Name} {m n : UInt64} :
    name.appendSegment m = other.appendSegment n ↔ name = other ∧ m = n := by
  constructor
  · intro same
    have number : some m = some n := by
      rw [← segment?_appendSegment name m, same, segment?_appendSegment]
    cases number
    simp only [appendSegment, append, mk.injEq, List.append_cancel_right_eq] at same
    obtain ⟨components⟩ := name
    exact ⟨congrArg mk same, rfl⟩
  · rintro ⟨rfl, rfl⟩
    rfl

/-- A number that is written reads back and leaves what stands behind it; of the forms that it is read
from, the one written is the shortest and the only one of its length.  The same holds for the values of
integers.  So a name with a segment appended tells the name and the segment. -/
theorem shortest_encodings :
    (∀ (n : UInt64) (rest : Bytes), Tlv.readNumber (Tlv.writeNumber n ++ rest) = .ok (n, rest)) ∧
    (∀ (input rest : Bytes) (n : UInt64), Tlv.readNumber input = .ok (n, rest) →
      ∃ consumed, input = consumed ++ rest ∧ (Tlv.writeNumber n).length ≤ consumed.length ∧
        (consumed.length = (Tlv.writeNumber n).length → consumed = Tlv.writeNumber n)) ∧
    (∀ n : UInt64, Tlv.decodeInteger (Tlv.encodeInteger n) = .ok n) ∧
    (∀ (value : Bytes) (n : UInt64), Tlv.decodeInteger value = .ok n →
      (Tlv.encodeInteger n).length ≤ value.length ∧
        (value.length = (Tlv.encodeInteger n).length → value = Tlv.encodeInteger n)) ∧
    (∀ (name other : Name) (m n : UInt64),
      name.appendSegment m = other.appendSegment n ↔ name = other ∧ m = n) ∧
    ∀ (name : Name) (n : UInt64), (name.appendSegment n).segment? = some n := by
  refine ⟨Tlv.readNumber_writeNumber_append, fun input rest n taken => ?_,
    Tlv.decodeInteger_encodeInteger, fun _ _ decoded => ⟨Tlv.length_encodeInteger_le decoded,
      Tlv.eq_encodeInteger_of_length_eq decoded⟩, fun _ _ _ _ => appendSegment_inj,
    segment?_appendSegment⟩
  obtain ⟨consumed, isForm, front⟩ := Tlv.readNumber_eq_ok_iff.mp taken
  exact ⟨consumed, front, isForm.length_writeNumber_le, isForm.eq_writeNumber_of_length_eq⟩

/-- Five is also read from two digits, which are longer than the byte that is written, and so is 253,
whose marker and two digits are what is written. -/
theorem shortest_encodings_five :
    (∃ consumed, ([253, 0, 5, 7] : Bytes) = consumed ++ [7] ∧
      (Tlv.writeNumber 5).length ≤ consumed.length) ∧
    ([253, 0, 253] : Bytes) = Tlv.writeNumber 253 ∧
    (Tlv.encodeInteger 5).length ≤ ([0, 5] : Bytes).length := by
  obtain ⟨_, numbers, _, integers, _⟩ := shortest_encodings
  obtain ⟨consumed, front, shorter, _⟩ := numbers [253, 0, 5, 7] [7] 5 rfl
  obtain ⟨whole, same, _, only⟩ := numbers [253, 0, 253] [] 253 rfl
  refine ⟨⟨consumed, front, shorter⟩, ?_, (integers [0, 5] 5 rfl).1⟩
  rw [List.append_nil] at same
  rw [← same] at only
  exact only rfl

end SegmentRetrieval.Name
