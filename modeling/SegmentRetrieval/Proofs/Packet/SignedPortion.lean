import SegmentRetrieval.Proofs.Tlv.RoundTrip
import SegmentRetrieval.Seal.Signature

/-! # What a signature value says about a packet

The signed portion is a nest of elements: the name with its components, the meta information with
the final block identifier, the content.  Each level is read back unambiguously, so equal signed
portions come from equal fields (`fields_eq_of_signedPortion_eq`).  A signature value that passes is
the digest of the signed portion; two packets with one such value are equal, or their signed
portions are two messages with one digest.
-/

namespace SegmentRetrieval

/-- Two different messages among those given have one digest. -/
def Sha256.Collision (messages : List Bytes) : Prop :=
  ∃ first ∈ messages, ∃ second ∈ messages, first ≠ second ∧ digest first = digest second

theorem Sha256.Collision.mono {messages more : List Bytes}
    (within : ∀ message ∈ messages, message ∈ more) (collision : Collision messages) :
    Collision more := by
  obtain ⟨first, firstMember, second, secondMember, different, same⟩ := collision
  exact ⟨first, within first firstMember, second, within second secondMember, different, same⟩

/-! ## Components and names -/

theorem Component.toElement_injective {component other : Component}
    (same : component.toElement = other.toElement) : component = other := by
  cases component
  cases other
  simpa [Component.toElement] using same

/-- Names whose components fit their length fields are told apart by their elements. -/
theorem Name.toElement_injective {name other : Name} (sized : name.toElement.Sized)
    (same : name.toElement = other.toElement) : name = other := by
  have otherSized : other.toElement.Sized := same ▸ sized
  have components : name.components.map Component.toElement =
      other.components.map Component.toElement := by
    apply Tlv.encodeAll_injective (Tlv.sized_of_length_encodeAll_lt sized)
      (Tlv.sized_of_length_encodeAll_lt otherSized)
    exact congrArg Tlv.Element.value same
  cases name
  cases other
  simpa only [Name.mk.injEq] using
    (List.map_inj_right fun _ _ => Component.toElement_injective).mp components

namespace Data

/-! ## Meta information -/

/-- The final block identifier of a packet, as the elements that the meta information holds. -/
def finalBlockIds (data : Data) : List Tlv.Element :=
  (data.finalBlock.map fun component =>
    Tlv.Element.mk Tlv.finalBlockIdType component.encode).toList

/-- The final block of a packet whose identifiers fit their length fields fits its own. -/
theorem sized_of_finalBlock_eq_some {data : Data} {component : Component}
    (declared : data.finalBlock = some component)
    (sized : ∀ element ∈ data.finalBlockIds, element.Sized) : component.toElement.Sized := by
  have whole : component.encode.length < UInt64.size :=
    sized ⟨Tlv.finalBlockIdType, component.encode⟩ (by simp [finalBlockIds, declared])
  exact Nat.lt_of_le_of_lt (Tlv.length_value_le_length_encode component.toElement) whole

theorem finalBlock_eq_of_metaInfo_eq {data other : Data} (sized : data.metaInfo.Sized)
    (same : data.metaInfo = other.metaInfo) : data.finalBlock = other.finalBlock := by
  have otherSized : other.metaInfo.Sized := same ▸ sized
  have identifiersSized : ∀ element ∈ data.finalBlockIds, element.Sized :=
    Tlv.sized_of_length_encodeAll_lt sized
  have otherIdentifiersSized : ∀ element ∈ other.finalBlockIds, element.Sized :=
    Tlv.sized_of_length_encodeAll_lt otherSized
  have identifiers : data.finalBlockIds = other.finalBlockIds :=
    Tlv.encodeAll_injective identifiersSized otherIdentifiersSized
      (congrArg Tlv.Element.value same)
  -- a packet without a final block has no identifier, so both have one or neither does
  cases block : data.finalBlock with
  | none =>
    cases otherBlock : other.finalBlock with
    | none => rfl
    | some _ => simp [finalBlockIds, block, otherBlock] at identifiers
  | some component =>
    cases otherBlock : other.finalBlock with
    | none => simp [finalBlockIds, block, otherBlock] at identifiers
    | some otherComponent =>
      have encodings : component.encode = otherComponent.encode := by
        simpa [finalBlockIds, block, otherBlock] using identifiers
      have components := Tlv.encode_injective (sized_of_finalBlock_eq_some block identifiersSized)
        (sized_of_finalBlock_eq_some otherBlock otherIdentifiersSized) encodings
      rw [Component.toElement_injective components]

/-! ## Signed portions -/

/-- The three parts that are signed fit their length fields. -/
structure Sized (data : Data) : Prop where
  name : data.name.toElement.Sized
  metaInfo : data.metaInfo.Sized
  content : data.content.length < UInt64.size

/-- A packet whose signed portion fits a length field has parts that fit theirs. -/
theorem sized_of_length_signedPortion_lt {data : Data}
    (short : data.signedPortion.length < UInt64.size) : data.Sized := by
  have parts := Tlv.sized_of_length_encodeAll_lt short
  exact ⟨parts _ (by simp), parts _ (by simp), parts ⟨Tlv.contentType, data.content⟩ (by simp)⟩

theorem Sized.of_mem_signed {data : Data} (sized : data.Sized) :
    ∀ element ∈ [data.name.toElement, data.metaInfo, ⟨Tlv.contentType, data.content⟩],
      element.Sized := by
  simp only [List.forall_mem_cons]
  exact ⟨sized.name, sized.metaInfo, sized.content, nofun⟩

/-- Nothing but the signature value is left out of the signed portion, and nothing in it can be read in
two ways. -/
theorem signedPortion_eq_iff {data other : Data} (sized : data.Sized) (otherSized : other.Sized) :
    data.signedPortion = other.signedPortion ↔
      data.name = other.name ∧ data.content = other.content ∧
        data.finalBlock = other.finalBlock := by
  constructor
  · intro same
    have elements := Tlv.encodeAll_injective sized.of_mem_signed otherSized.of_mem_signed same
    simp only [List.cons.injEq, and_true] at elements
    obtain ⟨name, metaInfo, content⟩ := elements
    exact ⟨Name.toElement_injective sized.name name, congrArg Tlv.Element.value content,
      finalBlock_eq_of_metaInfo_eq sized.metaInfo metaInfo⟩
  · rintro ⟨name, content, finalBlock⟩
    simp only [signedPortion, metaInfo, name, content, finalBlock]

/-- Equal signed portions whose length fits a length field come from equal names, contents and final
blocks. -/
theorem fields_eq_of_signedPortion_eq {data other : Data}
    (sized : data.signedPortion.length < UInt64.size)
    (same : data.signedPortion = other.signedPortion) :
    data.name = other.name ∧ data.content = other.content ∧ data.finalBlock = other.finalBlock := by
  -- no length needs to be assumed of the other packet, whose signed portion is the same
  have otherSized := sized_of_length_signedPortion_lt (same ▸ sized)
  exact (signedPortion_eq_iff (sized_of_length_signedPortion_lt sized) otherSized).mp same

/-! ## Signature values -/

theorem signature_eq_digest_of_verify {data : Data} (covered : data.verify = .ok ()) :
    data.signature = data.digest := by
  unfold verify at covered
  split at covered
  · cases covered
  · split at covered
    next same => exact same.symm
    · cases covered

theorem signature_sign (data : Data) : data.sign.signature = data.sign.digest :=
  rfl

theorem verify_of_signature_eq_digest {data : Data} (signed : data.signature = data.digest) :
    data.verify = .ok () := by
  -- an empty signature value is refused as missing, but a digest has 32 bytes
  have nonempty : data.signature ≠ [] := by
    intro empty
    have length := Sha256.length_digest data.signedPortion
    change data.digest.length = 32 at length
    rw [← signed, empty] at length
    cases length
  simp only [verify, if_neg nonempty, if_pos signed.symm]

theorem verify_sign (data : Data) : data.sign.verify = .ok () :=
  verify_of_signature_eq_digest (signature_sign data)

theorem digest_eq_of_signature_eq {data other : Data} (covered : data.verify = .ok ())
    (otherCovered : other.verify = .ok ()) (same : data.signature = other.signature) :
    data.digest = other.digest := by
  rw [← signature_eq_digest_of_verify covered, same, signature_eq_digest_of_verify otherCovered]

/-- The signature value is the only field that is not signed. -/
theorem eq_of_signed_eq {data other : Data}
    (signed : data.name = other.name ∧ data.content = other.content ∧
      data.finalBlock = other.finalBlock) (same : data.signature = other.signature) :
    data = other := by
  obtain ⟨name, content, finalBlock⟩ := signed
  cases data
  cases other
  simp only [mk.injEq]
  exact ⟨name, content, finalBlock, same⟩

/-- A packet with the signature value of a signed one is that packet, or the two signed portions
collide. -/
theorem eq_or_collision_of_signature_eq {data genuine : Data} (covered : data.verify = .ok ())
    (signed : genuine.verify = .ok ()) (sized : genuine.signedPortion.length < UInt64.size)
    (same : data.signature = genuine.signature) :
    data = genuine ∨ Sha256.Collision [data.signedPortion, genuine.signedPortion] := by
  have digests := digest_eq_of_signature_eq covered signed same
  by_cases portions : genuine.signedPortion = data.signedPortion
  · exact .inl (eq_of_signed_eq (fields_eq_of_signedPortion_eq sized portions) same.symm).symm
  · right
    exact ⟨_, by simp, _, by simp, Ne.symm portions, digests⟩

/-- What is signed identifies a packet up to its signature value.  So two packets whose signature values
pass and agree are one packet, or their signed portions are two messages with one digest; and signing
changes nothing that is signed and gives a value that passes. -/
theorem identified_by_signature (data other : Data) :
    (data.Sized → other.Sized →
      (data.signedPortion = other.signedPortion ↔
        data.name = other.name ∧ data.content = other.content ∧
          data.finalBlock = other.finalBlock) ∧
      (data.verify = .ok () → other.verify = .ok () → data.signature = other.signature →
        data = other ∨ data.signedPortion ≠ other.signedPortion ∧
          Sha256.digest data.signedPortion = Sha256.digest other.signedPortion)) ∧
      data.sign.verify = .ok () ∧ data.sign.name = data.name ∧ data.sign.content = data.content ∧
        data.sign.finalBlock = data.finalBlock := by
  refine ⟨fun sized otherSized => ⟨signedPortion_eq_iff sized otherSized, ?_⟩, verify_sign data, rfl,
    rfl, rfl⟩
  intro covered otherCovered same
  by_cases portions : data.signedPortion = other.signedPortion
  · exact .inl (eq_of_signed_eq ((signedPortion_eq_iff sized otherSized).mp portions) same)
  · exact .inr ⟨portions, digest_eq_of_signature_eq covered otherCovered same⟩

/-- The value of the one component of `nested` is the second component of `apart`, as it is encoded; what
is signed differs all the same.  A packet signed again is the packet. -/
theorem identified_by_signature_nested :
    let nested : Data := ⟨⟨[.generic [8, 0]]⟩, [], some (.ofSegment 0), []⟩
    let apart : Data := ⟨⟨[.generic [], .generic []]⟩, [], some (.ofSegment 0), []⟩
    nested.Sized ∧ apart.Sized ∧ nested.signedPortion ≠ apart.signedPortion ∧
      nested.sign.verify = .ok () ∧ nested.sign.sign.verify = .ok () ∧
      (nested.sign = nested.sign.sign ∨
        nested.sign.signedPortion ≠ nested.sign.sign.signedPortion ∧
          Sha256.digest nested.sign.signedPortion =
            Sha256.digest nested.sign.sign.signedPortion) := by
  intro nested apart
  have sized : nested.Sized := sized_of_length_signedPortion_lt (by decide)
  have otherSized : apart.Sized := sized_of_length_signedPortion_lt (by decide)
  have signedSized : nested.sign.Sized := ⟨sized.name, sized.metaInfo, sized.content⟩
  obtain ⟨identifies, covered, _⟩ := identified_by_signature nested apart
  obtain ⟨again, coveredAgain, _⟩ := identified_by_signature nested.sign nested.sign.sign
  refine ⟨sized, otherSized, fun same => ?_, covered, coveredAgain, ?_⟩
  · have names := ((identifies sized otherSized).1.mp same).1
    exact absurd names (by decide)
  · exact (again signedSized signedSized).2 covered coveredAgain rfl

end Data

end SegmentRetrieval
