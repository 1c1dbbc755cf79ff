import SegmentRetrieval.Packet.Content
import SegmentRetrieval.Proofs.Tlv.Forms

/-! # Reading the content of a segment

Content that was encoded is read back whole: the payload, and the commitment if there is one.  Of any
bytes, those are content that are a run of elements with at most one signature value among them
(`decode_eq_ok_iff`); of all others the first fault from the left is reported
(`decode_eq_error_iff`).  Content joins as its bytes do, unless both parts announce a commitment.
-/

namespace SegmentRetrieval.Content

/-! ## Encoded content -/

/-- The payload and the commitment fit their length fields. -/
structure Sized (content : Content) : Prop where
  payload : content.payload.length < UInt64.size
  commitment : ∀ commitment ∈ content.commitment, commitment.length < UInt64.size

theorem Sized.toElements {content : Content} (sized : content.Sized) :
    ∀ element ∈ content.toElements, element.Sized := by
  intro element member
  simp only [Content.toElements, List.mem_cons, Option.mem_toList, Option.map_eq_some_iff] at member
  rcases member with rfl | ⟨commitment, declared, rfl⟩
  · exact sized.payload
  · exact sized.commitment commitment declared

theorem decode_encode {content : Content} (sized : content.Sized) :
    decode content.encode = .ok content := by
  obtain ⟨payload, commitment⟩ := content
  unfold decode encode
  rw [Tlv.readElements_encodeAll sized.toElements]
  cases commitment with
  | none => simp [Content.toElements, addElement, Pure.pure, Except.pure, bind, Except.bind]
  | some commitment =>
    simp [Content.toElements, addElement, Pure.pure, Except.pure, bind, Except.bind,
      Tlv.contentType, Tlv.signatureValueType]

/-! ## What a run of elements says -/

/-- The values of the elements of one type, in order. -/
def valuesOf (type : UInt64) (elements : List Tlv.Element) : List Bytes :=
  (elements.filter (·.type = type)).map Tlv.Element.value

/-- The signature values among the elements. -/
abbrev commitments (elements : List Tlv.Element) : List Bytes :=
  valuesOf Tlv.signatureValueType elements

/-- The content values joined, and the first of the signature values. -/
def ofElements (elements : List Tlv.Element) : Content :=
  ⟨(valuesOf Tlv.contentType elements).flatten, (commitments elements).head?⟩

theorem valuesOf_append (type : UInt64) (elements others : List Tlv.Element) :
    valuesOf type (elements ++ others) = valuesOf type elements ++ valuesOf type others := by
  simp only [valuesOf, List.filter_append, List.map_append]

theorem valuesOf_cons_of_eq {element : Tlv.Element} {type : UInt64} (same : element.type = type)
    (elements : List Tlv.Element) :
    valuesOf type (element :: elements) = element.value :: valuesOf type elements := by
  simp [valuesOf, same]

theorem valuesOf_cons_of_ne {element : Tlv.Element} {type : UInt64} (other : element.type ≠ type)
    (elements : List Tlv.Element) : valuesOf type (element :: elements) = valuesOf type elements := by
  simp [valuesOf, other]

/-- The first value of a type is that of the first element of the type. -/
theorem exists_of_valuesOf_eq_cons {type : UInt64} {elements : List Tlv.Element} {value : Bytes}
    {values : List Bytes} (found : valuesOf type elements = value :: values) :
    ∃ before element after, elements = before ++ element :: after ∧ valuesOf type before = [] ∧
      element.type = type ∧ valuesOf type after = values := by
  obtain ⟨element, others, kept, _, rfl⟩ := List.map_eq_cons_iff.mp found
  obtain ⟨before, after, rfl, none, isType, rfl⟩ := List.filter_eq_cons_iff.mp kept
  exact ⟨before, element, after, rfl, by simpa [valuesOf] using none, by simpa using isType, rfl⟩

/-- Adding elements appends their content values and takes one signature value, which the second one
makes an error. -/
theorem foldlM_addElement (elements : List Tlv.Element) (content : Content) :
    elements.foldlM addElement content =
      if (content.commitment.toList ++ commitments elements).length ≤ 1 then
        .ok ⟨content.payload ++ (valuesOf Tlv.contentType elements).flatten,
          (content.commitment.toList ++ commitments elements).head?⟩
      else .error (.duplicateElement Tlv.signatureValueType) := by
  induction elements generalizing content with
  | nil =>
    obtain ⟨payload, commitment⟩ := content
    cases commitment <;> simp [valuesOf, Pure.pure, Except.pure]
  | cons element elements ih =>
    rw [List.foldlM_cons]
    by_cases isContent : element.type = Tlv.contentType
    · have notSignature : element.type ≠ Tlv.signatureValueType := by
        rw [isContent]
        decide
      simp only [addElement, if_pos isContent, bind, Except.bind, ih, valuesOf_cons_of_eq isContent,
        valuesOf_cons_of_ne notSignature, List.flatten_cons, List.append_assoc]
    · by_cases isSignature : element.type = Tlv.signatureValueType
      · obtain ⟨payload, commitment⟩ := content
        cases commitment with
        | none =>
          simp [addElement, isContent, if_pos isSignature, bind, Except.bind, ih,
            valuesOf_cons_of_eq isSignature, valuesOf_cons_of_ne isContent]
        | some commitment =>
          -- the list of signature values has this one and the one before it
          simp [addElement, isContent, if_pos isSignature, bind, Except.bind,
            valuesOf_cons_of_eq isSignature]
      · simp only [addElement, if_neg isContent, if_neg isSignature, bind, Except.bind, ih,
          valuesOf_cons_of_ne isContent, valuesOf_cons_of_ne isSignature]

/-! ## Decoding any bytes -/

/-- Decoding says what the elements say, unless a second signature value or the end of the input
stands in the way. -/
theorem decode_of_readElements {bytes : Bytes} {elements : List Tlv.Element}
    {stop : Option Truncation} (read : Tlv.readElements bytes = (elements, stop)) :
    decode bytes =
      if (commitments elements).length ≤ 1 then
        stop.elim (.ok (ofElements elements)) fun short => .error (.truncated short)
      else .error (.duplicateElement Tlv.signatureValueType) := by
  have gathered : elements.foldlM addElement ⟨[], none⟩ =
      if (commitments elements).length ≤ 1 then .ok (ofElements elements)
      else .error (.duplicateElement Tlv.signatureValueType) := by
    have fromNothing := foldlM_addElement elements ⟨[], none⟩
    simp only [Option.toList_none, List.nil_append] at fromNothing
    exact fromNothing
  simp only [decode, read, gathered]
  by_cases single : (commitments elements).length ≤ 1
  · rw [if_pos single, if_pos single]
    cases stop <;> rfl
  · rw [if_neg single, if_neg single]

/-- Bytes are content if they are a run of elements with at most one signature value among them. -/
theorem decode_eq_ok_iff {bytes : Bytes} {content : Content} :
    decode bytes = .ok content ↔
      ∃ elements, Tlv.Run elements bytes ∧ (commitments elements).length ≤ 1 ∧
        content = ofElements elements := by
  constructor
  · intro decoded
    cases read : Tlv.readElements bytes with
    | mk elements stop =>
      rw [decode_of_readElements read] at decoded
      split at decoded
      next single =>
        cases stop with
        | none =>
          cases decoded
          exact ⟨elements, Tlv.readElements_eq_none_iff.mp read, single, rfl⟩
        | some short => cases decoded
      next => cases decoded
  · rintro ⟨elements, run, single, rfl⟩
    rw [decode_of_readElements run.readElements, if_pos single]
    rfl

/-- The first fault of the bytes from the left: bytes behind a run that start no element, or a second
signature value. -/
inductive FirstFault (bytes : Bytes) : ContentError → Prop
  | truncated {elements : List Tlv.Element} {front rest : Bytes} {short : Truncation}
      (cut : bytes = front ++ rest) (run : Tlv.Run elements front)
      (single : (commitments elements).length ≤ 1) (nonempty : rest ≠ [])
      (stopped : Tlv.readElement rest = .error short) : FirstFault bytes (.truncated short)
  | duplicate {elements : List Tlv.Element} {second : Tlv.Element} {front form rest : Bytes}
      (cut : bytes = front ++ (form ++ rest)) (run : Tlv.Run elements front)
      (single : (commitments elements).length = 1) (isForm : Tlv.ElementForm second form)
      (again : second.type = Tlv.signatureValueType) :
      FirstFault bytes (.duplicateElement Tlv.signatureValueType)

/-- Among elements with more than one signature value there is the second one. -/
theorem exists_second {elements : List Tlv.Element} (several : ¬ (commitments elements).length ≤ 1) :
    ∃ before second after, elements = before ++ second :: after ∧
      (commitments before).length = 1 ∧ second.type = Tlv.signatureValueType := by
  match values : commitments elements, several with
  | [], several => exact absurd (Nat.zero_le 1) several
  | [_], several => exact absurd (Nat.le_refl 1) several
  | _ :: _ :: _, _ =>
    obtain ⟨before, first, behind, rfl, noneBefore, isFirst, valuesBehind⟩ :=
      exists_of_valuesOf_eq_cons values
    obtain ⟨between, second, after, rfl, noneBetween, isSecond, _⟩ :=
      exists_of_valuesOf_eq_cons valuesBehind
    refine ⟨before ++ first :: between, second, after, by simp, ?_, isSecond⟩
    rw [commitments, valuesOf_append, valuesOf_cons_of_eq isFirst, noneBefore, noneBetween]
    rfl

/-- Bytes that are no content are refused for their first fault. -/
theorem decode_eq_error_iff {bytes : Bytes} {error : ContentError} :
    decode bytes = .error error ↔ FirstFault bytes error := by
  constructor
  · intro refused
    obtain ⟨front, rest, cut, run, ends⟩ := Tlv.exists_run bytes
    cases read : Tlv.readElements bytes with
    | mk elements stop =>
      rw [decode_of_readElements read] at refused
      rw [read] at run ends
      split at refused
      next single =>
        cases stop with
        | none => cases refused
        | some short =>
          cases refused
          exact .truncated cut run single ends.1 ends.2
      next several =>
        cases refused
        obtain ⟨before, second, after, rfl, one, again⟩ := exists_second several
        obtain ⟨early, late, rfl, runBefore, runBehind⟩ := run.split
        cases runBehind with
        | @cons _ _ form unread isForm _ =>
          have cutBefore : bytes = early ++ (form ++ (unread ++ rest)) := by
            rw [cut, List.append_assoc, List.append_assoc]
          exact .duplicate cutBefore runBefore one isForm again
  · rintro (⟨rfl, run, single, nonempty, stopped⟩ | ⟨rfl, run, single, isForm, again⟩)
    · have read := Tlv.readElements_eq_some_iff.mpr ⟨_, _, rfl, run, nonempty, stopped⟩
      rw [decode_of_readElements read, if_pos single]
      rfl
    · next elements second front form rest =>
      have read := run.readElements_append (form ++ rest)
      rw [Tlv.readElements_of_readElement (isForm.read rest)] at read
      have several : ¬ (commitments (elements ++ second :: (Tlv.readElements rest).1)).length ≤ 1 := by
        rw [commitments, valuesOf_append, valuesOf_cons_of_eq again, List.length_append, single,
          List.length_cons]
        omega
      rw [decode_of_readElements read, if_neg several]

/-! ## Joining content -/

theorem ofElements_append (elements others : List Tlv.Element) :
    ofElements (elements ++ others) =
      ⟨(ofElements elements).payload ++ (ofElements others).payload,
        (ofElements elements).commitment.or (ofElements others).commitment⟩ := by
  simp only [ofElements, valuesOf_append, List.flatten_append, List.head?_append]

theorem isSome_commitment_ofElements_iff {elements : List Tlv.Element} :
    (ofElements elements).commitment.isSome ↔ 0 < (commitments elements).length := by
  rw [ofElements, List.length_pos_iff]
  exact List.isSome_head?

/-- Joined bytes say what both parts say, and are refused where each part announces a commitment. -/
theorem decode_append {front rest : Bytes} {first second : Content}
    (decodedFirst : decode front = .ok first) (decodedSecond : decode rest = .ok second) :
    decode (front ++ rest) =
      if first.commitment.isSome ∧ second.commitment.isSome then
        .error (.duplicateElement Tlv.signatureValueType)
      else .ok ⟨first.payload ++ second.payload, first.commitment.or second.commitment⟩ := by
  obtain ⟨elements, run, single, rfl⟩ := decode_eq_ok_iff.mp decodedFirst
  obtain ⟨others, behind, singleBehind, rfl⟩ := decode_eq_ok_iff.mp decodedSecond
  have total : (commitments (elements ++ others)).length =
      (commitments elements).length + (commitments others).length := by
    rw [commitments, valuesOf_append, List.length_append]
  rw [decode_of_readElements (run.append behind).readElements]
  by_cases both : (ofElements elements).commitment.isSome ∧ (ofElements others).commitment.isSome
  · have counted := both
    rw [isSome_commitment_ofElements_iff, isSome_commitment_ofElements_iff] at counted
    rw [if_pos both, if_neg (by omega)]
  · have counted := both
    rw [isSome_commitment_ofElements_iff, isSome_commitment_ofElements_iff] at counted
    rw [if_neg both, if_pos (by omega), ofElements_append]
    rfl

/-- Which bytes are content and what they say, what is reported of all others, and that content which
was encoded or joined is read so. -/
theorem decoding_exact :
    (∀ (bytes : Bytes) (content : Content), decode bytes = .ok content ↔
      ∃ elements, Tlv.Run elements bytes ∧ (commitments elements).length ≤ 1 ∧
        content.payload = (valuesOf Tlv.contentType elements).flatten ∧
        content.commitment = (commitments elements).head?) ∧
    (∀ (bytes : Bytes) (error : ContentError), decode bytes = .error error ↔ FirstFault bytes error) ∧
    (∀ content : Content, content.Sized → decode content.encode = .ok content) ∧
    ∀ (front rest : Bytes) (first second : Content), decode front = .ok first →
      decode rest = .ok second →
      decode (front ++ rest) =
        if first.commitment.isSome ∧ second.commitment.isSome then
          .error (.duplicateElement Tlv.signatureValueType)
        else .ok ⟨first.payload ++ second.payload, first.commitment.or second.commitment⟩ := by
  refine ⟨fun bytes content => ?_, fun _ _ => decode_eq_error_iff, fun _ => decode_encode,
    fun _ _ _ _ => decode_append⟩
  obtain ⟨payload, commitment⟩ := content
  simp only [decode_eq_ok_iff, ofElements, mk.injEq]

/-- Content in two elements with headers longer than they need be, with an element of no assigned type
between them, and content that announces a commitment: joined in either order the commitment is
there, and joined with itself the second is refused. -/
theorem decoding_exact_joined :
    let loose : Bytes := [253, 0, 0x15, 1, 1, 0x20, 0, 0x15, 254, 0, 0, 0, 1, 2]
    let announcing : Content := ⟨[3], some [7]⟩
    decode loose = .ok ⟨[1, 2], none⟩ ∧ announcing.Sized ∧
      decode announcing.encode = .ok announcing ∧
      decode (loose ++ announcing.encode) = .ok ⟨[1, 2, 3], some [7]⟩ ∧
      decode (announcing.encode ++ announcing.encode) =
        .error (.duplicateElement Tlv.signatureValueType) := by
  intro loose announcing
  obtain ⟨_, _, encoded, joined⟩ := decoding_exact
  have sized : announcing.Sized := ⟨by decide, by simp [announcing, UInt64.size]⟩
  have looseDecoded : decode loose = .ok ⟨[1, 2], none⟩ := by cbv
  have decoded := encoded announcing sized
  exact ⟨looseDecoded, sized, decoded, joined _ _ _ _ looseDecoded decoded,
    joined _ _ _ _ decoded decoded⟩

end SegmentRetrieval.Content
