import SegmentRetrieval.Proofs.Name.Components
import SegmentRetrieval.Proofs.Name.Grammar

/-! # Names that are printed and read again

What is printed is always a URI, though not always of the name that was printed: a component that is
neither generic nor the shortest for a segment number has no URI of its own.  `reread` is what it is
read as.  Names with canonical components only are read as themselves, and every name that was read
is one of these.
-/

namespace SegmentRetrieval

namespace Uri

variable {signed : Bool}

/-! ## Values -/

theorem ValueForm.append {text more : List Char} {bytes others : Bytes}
    (isValue : ValueForm signed text bytes) (behind : ValueForm signed more others) :
    ValueForm signed (text ++ more) (bytes ++ others) := by
  induction isValue with
  | nil => exact behind
  | plain unescaped _ ih =>
    rw [List.append_assoc]
    exact .plain unescaped ih
  | escaped escape _ ih => exact .escaped escape ih

theorem valueForm_of_unescaped {text : List Char} (unescaped : '%' ∉ text) :
    ValueForm signed text (text.flatMap String.utf8EncodeChar) := by
  induction text with
  | nil => exact .nil
  | cons c text ih =>
    rw [List.mem_cons, not_or] at unescaped
    exact .plain (Ne.symm unescaped.1) (ih unescaped.2)

theorem utf8EncodeChar_of_lt {c : Char} (ascii : c.toNat < 128) :
    String.utf8EncodeChar c = [UInt8.ofNat c.toNat] := by
  have one : c.val.toNat ≤ 127 := Nat.le_of_lt_succ ascii
  simp only [String.utf8EncodeChar, if_pos one]
  rfl

/-- A byte as a character has the code of the byte. -/
theorem toNat_ofNat_byte (byte : UInt8) : (Char.ofNat byte.toNat).toNat = byte.toNat := by
  have valid : byte.toNat.isValidChar := .inl (Nat.lt_trans byte.toNat_lt (by decide))
  rw [Char.ofNat, dif_pos valid]
  rfl

theorem lt_of_isUnreserved {byte : UInt8} (unreserved : isUnreserved (Char.ofNat byte.toNat)) :
    byte.toNat < 128 := by
  have table : ∀ n < 256, isUnreserved (Char.ofNat n) → n < 128 := by decide +kernel
  exact table byte.toNat byte.toNat_lt unreserved

theorem hexForm_upperHexDigit {digit : Nat} (below : digit < 16) :
    HexForm (upperHexDigit digit) digit := by
  have table : ∀ digit < 16, HexForm (upperHexDigit digit) digit := by decide
  exact table digit below

theorem valueForm_escapeByte (byte : UInt8) : ValueForm signed (escapeByte byte) [byte] := by
  simp only [escapeByte]
  split
  next unreserved =>
    -- an unreserved character is ASCII, so its UTF-8 encoding is the byte it was made of
    have code := toNat_ofNat_byte byte
    have encoded := utf8EncodeChar_of_lt (code ▸ lt_of_isUnreserved unreserved)
    rw [code, UInt8.ofNat_toNat] at encoded
    have unescaped : Char.ofNat byte.toNat ≠ '%' := by
      intro percent
      rw [percent] at unreserved
      exact absurd unreserved (by decide)
    have alone : ValueForm signed [Char.ofNat byte.toNat] _ := .plain unescaped .nil
    rwa [encoded] at alone
  next =>
    have below := byte.toNat_lt
    have escape : EscapeForm signed (upperHexDigit (byte.toNat / 16))
        (upperHexDigit (byte.toNat % 16))
        (UInt8.ofNat (byte.toNat / 16 * 16 + byte.toNat % 16)) :=
      .digits (hexForm_upperHexDigit (by omega)) (hexForm_upperHexDigit (by omega))
    rw [Nat.div_add_mod', UInt8.ofNat_toNat] at escape
    exact .escaped escape .nil

theorem valueForm_flatMap_escapeByte (value : Bytes) :
    ValueForm signed (value.flatMap escapeByte) value := by
  induction value with
  | nil => exact .nil
  | cons byte value ih => exact (valueForm_escapeByte byte).append ih

theorem valueForm_periods (count : Nat) :
    ValueForm signed (List.replicate count '.') (List.replicate count 0x2e) := by
  induction count with
  | zero => exact .nil
  | succ count ih => exact .plain (by decide) ih

/-- The bytes with three periods before them, if they are periods only. -/
def padded (value : Bytes) : Bytes :=
  if value.all isPeriod then [0x2e, 0x2e, 0x2e] ++ value else value

theorem valueForm_escape (value : Bytes) : ValueForm signed (escape value) (padded value) := by
  unfold escape padded
  split
  next periods =>
    have dots : ([0x2e, 0x2e, 0x2e] : Bytes) ++ value = List.replicate (value.length + 3) 0x2e := by
      rw [Nat.add_comm, List.replicate_add, ← eq_replicate_of_periods periods]
      rfl
    rw [dots]
    exact valueForm_periods (value.length + 3)
  next => exact valueForm_flatMap_escapeByte value

theorem all_isPeriod_padded (value : Bytes) :
    (padded value).all isPeriod = value.all isPeriod := by
  unfold padded
  split
  next periods => simp [periods, isPeriod]
  next => rfl

theorem unpadded_padded (value : Bytes) : unpadded (padded value) = value := by
  unfold unpadded
  rw [all_isPeriod_padded]
  unfold padded
  split
  · rfl
  · rfl

theorem not_reserved_padded (value : Bytes) : ¬ Reserved (padded value) := by
  rw [reserved_iff, all_isPeriod_padded]
  rintro ⟨_, periods, short⟩
  rw [padded, if_pos periods, List.length_append] at short
  exact absurd short (by simp)

/-! ## Characters -/

/-- The characters of escaped bytes: those that stand for themselves, and the percent sign. -/
theorem isUnreserved_of_mem_escape {value : Bytes} {c : Char} (member : c ∈ escape value) :
    c = '%' ∨ isUnreserved c := by
  have digit : ∀ digit < 16, isUnreserved (upperHexDigit digit) := by decide
  unfold escape at member
  split at member
  next =>
    rw [List.eq_of_mem_replicate member]
    exact .inr (by decide)
  next =>
    obtain ⟨byte, _, written⟩ := List.mem_flatMap.mp member
    have below := byte.toNat_lt
    simp only [escapeByte] at written
    split at written
    next unreserved =>
      rw [List.mem_singleton.mp written]
      exact .inr unreserved
    next =>
      simp only [List.mem_cons, List.not_mem_nil, or_false] at written
      rcases written with rfl | rfl | rfl
      · exact .inl rfl
      · exact .inr (digit _ (by omega))
      · exact .inr (digit _ (by omega))

theorem not_mem_escape {c : Char} (reserved : ¬ (c = '%' ∨ isUnreserved c)) (value : Bytes) :
    c ∉ escape value :=
  fun member => reserved (isUnreserved_of_mem_escape member)

theorem escape_ne_nil (value : Bytes) : escape value ≠ [] := by
  unfold escape
  split
  next => simp
  next notPeriods =>
    cases value with
    | nil => exact absurd rfl notPeriods
    | cons byte value =>
      simp only [List.flatMap_cons, escapeByte]
      split <;> simp

theorem not_mem_toDigits {c : Char} (other : ¬ c.isDigit) (n : Nat) : c ∉ Nat.toDigits 10 n :=
  fun member => other (Nat.isDigit_of_mem_toDigits (by decide) (by decide) member)

/-! ## Components -/

/-- What stands before the value of a component that is neither a segment number nor generic. -/
def typeMark (type : UInt64) : List Char :=
  Nat.toDigits 10 type.toNat ++ ['=']

/-- What the text of a component is read as: the shortest component of a segment number, the component
itself if it is generic, and otherwise the generic component of the text. -/
def reread (component : Component) : Component :=
  match component.segment? with
  | some n => .ofSegment n
  | none =>
    if component.type = Tlv.genericComponentType then component
    else .generic ((typeMark component.type).flatMap String.utf8EncodeChar ++ padded component.value)

/-- The three ways a component is printed, and what each is read as. -/
theorem ofComponent_cases (component : Component) :
    (∃ n, component.segment? = some n ∧
      ofComponent component = segmentMark ++ Nat.toDigits 10 n.toNat ∧
      reread component = .ofSegment n) ∨
    (component.type = Tlv.genericComponentType ∧ ofComponent component = escape component.value ∧
      reread component = component) ∨
    (component.segment? = none ∧ component.type ≠ Tlv.genericComponentType ∧
      ofComponent component = typeMark component.type ++ escape component.value ∧
      reread component = .generic
        ((typeMark component.type).flatMap String.utf8EncodeChar ++ padded component.value)) := by
  cases number : component.segment? with
  | some n => exact .inl ⟨n, rfl, by simp [ofComponent, number], by simp [reread, number]⟩
  | none =>
    by_cases isGeneric : component.type = Tlv.genericComponentType
    · exact .inr (.inl ⟨isGeneric, by simp [ofComponent, number, isGeneric],
        by simp [reread, number, isGeneric]⟩)
    · exact .inr (.inr ⟨rfl, isGeneric, by simp [ofComponent, number, isGeneric, typeMark],
        by simp [reread, number, isGeneric]⟩)

theorem slash_not_mem_ofComponent (component : Component) : '/' ∉ ofComponent component := by
  have escaped := not_mem_escape (c := '/') (by decide) component.value
  have number := not_mem_toDigits (c := '/') (by decide)
  obtain ⟨n, _, text, _⟩ | ⟨_, text, _⟩ | ⟨_, _, text, _⟩ := ofComponent_cases component
  · simp [text, segmentMark, number]
  · rwa [text]
  · simp [text, typeMark, escaped, number]

theorem ofComponent_ne_nil (component : Component) : ofComponent component ≠ [] := by
  obtain ⟨n, _, text, _⟩ | ⟨_, text, _⟩ | ⟨_, _, text, _⟩ := ofComponent_cases component
  · simp [text, segmentMark]
  · rw [text]
    exact escape_ne_nil component.value
  · simp [text, typeMark]

theorem componentForm_segment (n : UInt64) :
    ComponentForm signed (segmentMark ++ Nat.toDigits 10 n.toNat) (.ofSegment n) := by
  have number : DecimalForm signed (Nat.toDigits 10 n.toNat) n.toNat := by
    have digits : ∀ c ∈ Nat.toDigits 10 n.toNat, c.isDigit := fun _ =>
      Nat.isDigit_of_mem_toDigits (by decide) (by decide)
    have spelled : DecimalForm signed (Nat.toDigits 10 n.toNat) _ :=
      .digits Nat.toDigits_ne_nil digits
    rwa [Nat.ofDigitChars_ten_toDigits] at spelled
  have isForm := ComponentForm.segment number n.toNat_lt
  rwa [UInt64.ofNat_toNat] at isForm

theorem componentForm_generic (value : Bytes) :
    ComponentForm signed (escape value) (.generic value) := by
  have unmarked : ¬ segmentMark <+: escape value := fun marked =>
    not_mem_escape (c := '=') (by decide) value (marked.subset (by decide))
  have isForm : ComponentForm signed (escape value) _ :=
    .generic unmarked (valueForm_escape value) (not_reserved_padded value)
  rwa [unpadded_padded] at isForm

/-- The text of a component of another type is that of a generic one. -/
theorem componentForm_typed (type : UInt64) (value : Bytes) :
    ComponentForm signed (typeMark type ++ escape value)
      (.generic ((typeMark type).flatMap String.utf8EncodeChar ++ padded value)) := by
  have unmarked : ¬ segmentMark <+: typeMark type ++ escape value := by
    obtain ⟨first, digits, cut⟩ :=
      List.exists_cons_of_ne_nil (Nat.toDigits_ne_nil (n := type.toNat) (b := 10))
    rw [typeMark, cut, segmentMark, List.cons_append, List.cons_append, List.cons_prefix_cons]
    -- the text starts with a digit, the mark with a letter
    rintro ⟨rfl, _⟩
    exact not_mem_toDigits (c := 's') (by decide) type.toNat (by simp [cut])
  have unescaped : '%' ∉ typeMark type := by
    simp [typeMark, not_mem_toDigits (c := '%') (by decide)]
  have isValue : ValueForm signed (typeMark type ++ escape value) _ :=
    (valueForm_of_unescaped unescaped).append (valueForm_escape value)
  have notPeriods :
      ¬ ((typeMark type).flatMap String.utf8EncodeChar ++ padded value).all isPeriod := by
    -- the equality sign is no period
    have mark : 0x3d ∈ (typeMark type).flatMap String.utf8EncodeChar :=
      List.mem_flatMap.mpr ⟨'=', by simp [typeMark], by decide⟩
    rw [List.all_eq_true]
    exact fun periods => absurd (periods 0x3d (List.mem_append_left _ mark)) (by decide)
  have allowed : ¬ Reserved ((typeMark type).flatMap String.utf8EncodeChar ++ padded value) := by
    rw [reserved_iff]
    exact fun ⟨_, periods, _⟩ => notPeriods periods
  have isForm := ComponentForm.generic unmarked isValue allowed
  rwa [unpadded, if_neg notPeriods] at isForm

theorem componentForm_ofComponent (component : Component) :
    ComponentForm signed (ofComponent component) (reread component) := by
  obtain ⟨n, _, text, read⟩ | ⟨isGeneric, text, read⟩ | ⟨_, _, text, read⟩ :=
    ofComponent_cases component
  · rw [text, read]
    exact componentForm_segment n
  · have isForm : ComponentForm signed _ (.generic component.value) :=
      componentForm_generic component.value
    rw [Component.generic, ← isGeneric] at isForm
    rw [text, read]
    exact isForm
  · rw [text, read]
    exact componentForm_typed component.type component.value

/-- The canonical components are read as themselves, and no others. -/
theorem reread_eq_self_iff {component : Component} :
    reread component = component ↔ component.Canonical := by
  rw [Component.canonical_iff]
  obtain ⟨n, number, _, read⟩ | ⟨isGeneric, _, read⟩ | ⟨noNumber, notGeneric, _, read⟩ :=
    ofComponent_cases component
  · have notGeneric : component.type ≠ Tlv.genericComponentType := by
      rw [(Component.segment?_eq_some_iff.mp number).1]
      decide
    rw [read, or_iff_right notGeneric]
    constructor
    · exact fun same => ⟨n, same.symm⟩
    · rintro ⟨m, rfl⟩
      rw [Component.segment?_ofSegment, Option.some.injEq] at number
      rw [number]
  · rw [read]
    exact iff_of_true rfl (.inl isGeneric)
  · rw [read]
    refine iff_of_false ?_ (not_or.mpr ⟨notGeneric, ?_⟩)
    · exact fun same => notGeneric (congrArg Component.type same).symm
    · rintro ⟨m, rfl⟩
      rw [Component.segment?_ofSegment] at noNumber
      cases noNumber

theorem canonical_of_componentForm {text : List Char} {component : Component}
    (isForm : ComponentForm signed text component) : component.Canonical := by
  cases isForm with
  | segment => exact Component.canonical_ofSegment _
  | generic => exact Component.canonical_generic _

/-! ## Names -/

theorem forall₂_ofComponent (components : List Component) :
    List.Forall₂ (ComponentForm signed) (components.map ofComponent) (components.map reread) := by
  rw [List.forall₂_map_left_iff, List.forall₂_map_right_iff, List.forall₂_same]
  exact fun component _ => componentForm_ofComponent component

/-- A printed name is a URI, of the name it is read as. -/
theorem nameForm_ofName (name : Name) :
    NameForm signed (ofName name) ⟨name.components.map reread⟩ := by
  unfold ofName
  split
  next empty =>
    rw [empty]
    exact ⟨[[]], ⟨by simp, by simp, .inl rfl⟩, .nil⟩
  next nonempty =>
    refine ⟨name.components.map ofComponent, ⟨by simpa using nonempty, ?_, ?_⟩, ?_⟩
    · simpa using fun component _ => slash_not_mem_ofComponent component
    · left
      rw [joined, List.flatMap_map]
    · have kept : (name.components.map ofComponent).filter (· ≠ []) =
          name.components.map ofComponent := by
        rw [List.filter_eq_self]
        simpa using fun component _ => ofComponent_ne_nil component
      rw [kept]
      exact forall₂_ofComponent name.components

theorem canonical_of_nameForm {text : List Char} {name : Name} (isForm : NameForm signed text name) :
    ∀ component ∈ name.components, component.Canonical := by
  obtain ⟨components⟩ := name
  obtain ⟨parts, _, areForms⟩ := isForm
  generalize parts.filter (· ≠ []) = texts at areForms
  dsimp only at areForms ⊢
  induction areForms with
  | nil => exact List.forall_mem_nil _
  | cons isForm _ ih => exact List.forall_mem_cons.mpr ⟨canonical_of_componentForm isForm, ih⟩

end Uri

namespace Name

theorem ofUri_toUri (name : Name) : ofUri name.toUri = .ok ⟨name.components.map Uri.reread⟩ := by
  rw [ofUri, toUri, String.toList_ofList]
  exact Uri.toName_eq_ok_iff.mpr (Uri.nameForm_ofName name)

theorem ofUri_toUri_eq_self_iff {name : Name} :
    ofUri name.toUri = .ok name ↔ ∀ component ∈ name.components, component.Canonical := by
  obtain ⟨components⟩ := name
  have same : components.map Uri.reread = components ↔
      ∀ component ∈ components, Uri.reread component = component := by
    simpa using List.map_inj_left (f := Uri.reread) (g := id) (l := components)
  rw [ofUri_toUri, Except.ok.injEq, Name.mk.injEq, same]
  simp only [Uri.reread_eq_self_iff]

/-- A name that is printed can be read again, component by component, and is read as itself exactly if
its components are canonical; a name that was read is. -/
theorem uri_round_trip (name : Name) :
    (∃ read, ofUri name.toUri = .ok read ∧ read.length = name.length ∧
      (read = name ↔ ∀ component ∈ name.components, component.Canonical)) ∧
    ∀ uri, ofUri uri = .ok name → ofUri name.toUri = .ok name := by
  refine ⟨⟨⟨name.components.map Uri.reread⟩, ofUri_toUri name, by simp [length], ?_⟩, fun uri read => ?_⟩
  · rw [← ofUri_toUri_eq_self_iff, ofUri_toUri, Except.ok.injEq]
  · have isForm := Uri.toName_eq_ok_iff.mp read
    exact ofUri_toUri_eq_self_iff.mpr (Uri.canonical_of_nameForm isForm)

/-- A URI with a scheme, an empty part, padded periods, escapes and leading zeros is read as a name that
prints in another way and is read again. -/
theorem uri_round_trip_escapes :
    let uri := "ndn:/...../seg%3D5//%2f%FF/seg=0300"
    let name : Name :=
      ⟨[.generic [0x2e, 0x2e], .generic [0x73, 0x65, 0x67, 0x3d, 0x35], .generic [0x2f, 0xff],
        .ofSegment 300]⟩
    ofUri uri = .ok name ∧ name.toUri ≠ uri ∧ ofUri name.toUri = .ok name := by
  intro uri name
  have read : ofUri uri = .ok name := by decide +kernel
  exact ⟨read, by decide +kernel, (uri_round_trip name).2 uri read⟩

end Name

end SegmentRetrieval
