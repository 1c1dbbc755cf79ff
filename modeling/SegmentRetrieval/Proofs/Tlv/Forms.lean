import SegmentRetrieval.Name.Basic
import SegmentRetrieval.Proofs.Tlv.RoundTrip

/-! # The forms that reading accepts

A number is written in its shortest form but read in any.  `NumberForm` and `ElementForm` say which
bytes stand for a number and for an element, and `Run` which bytes are elements one after another.
Reading succeeds on exactly these and hands back what stands behind them; where it stops early, the
bytes before the stop are such a run.
-/

namespace SegmentRetrieval.Tlv

/-! ## Numbers -/

/-- The bytes stand for the number: one byte below 253, or a marker and as many digits as it
announces, however many of them are needed. -/
inductive NumberForm (n : UInt64) : Bytes → Prop
  | short {byte : UInt8} (below : byte.toNat < 253) (value : byte.toNat = n.toNat) :
      NumberForm n [byte]
  | extended {marker : UInt8} {digits : Bytes}
      (announced : (marker, digits.length) ∈ [((253 : UInt8), 2), (254, 4), (255, 8)])
      (value : Bytes.ofBigEndian digits = n.toNat) : NumberForm n (marker :: digits)

theorem announced_iff {marker : UInt8} {width : Nat} :
    (marker, width) ∈ [((253 : UInt8), 2), (254, 4), (255, 8)] ↔
      ¬ marker < 253 ∧ extendedWidth marker = width := by
  have top := marker.toNat_lt
  simp only [List.mem_cons, Prod.mk.injEq, List.not_mem_nil, or_false, extendedWidth,
    UInt8.lt_iff_toNat_lt, ← UInt8.toNat_inj, UInt8.reduceToNat]
  split
  · omega
  · split <;> omega

/-- A number with as many digits as a marker announces is a word. -/
theorem ofBigEndian_lt_size {digits : Bytes} {marker : UInt8}
    (length : digits.length = extendedWidth marker) : Bytes.ofBigEndian digits < UInt64.size := by
  have bound := Bytes.ofBigEndian_lt digits
  rw [length] at bound
  have widest : Bytes.capacity (extendedWidth marker) ≤ UInt64.size := by
    unfold extendedWidth
    split
    · decide
    · split <;> decide
  exact Nat.lt_of_lt_of_le bound widest

/-- A form is read as its number, whatever stands behind it. -/
theorem NumberForm.read {n : UInt64} {form : Bytes} (isForm : NumberForm n form) (rest : Bytes) :
    readNumber (form ++ rest) = .ok (n, rest) := by
  cases isForm with
  | @short byte below value =>
    have direct : byte < 253 := UInt8.lt_iff_toNat_lt.mpr below
    have same : byte.toUInt64 = n := UInt64.toNat_inj.mp (by simpa using value)
    simp only [readNumber, List.cons_append, List.nil_append, if_pos direct, same]
  | @extended marker digits announced value =>
    obtain ⟨extended, width⟩ := announced_iff.mp announced
    have cut : Bytes.split digits.length (digits ++ rest) = .ok (digits, rest) :=
      Bytes.split_append rfl
    simp only [readNumber, List.cons_append, if_neg extended, width, cut, value, UInt64.ofNat_toNat]

theorem readNumber_eq_ok_iff {input rest : Bytes} {n : UInt64} :
    readNumber input = .ok (n, rest) ↔ ∃ form, NumberForm n form ∧ input = form ++ rest := by
  refine ⟨fun taken => ?_, fun ⟨form, isForm, front⟩ => front ▸ isForm.read rest⟩
  cases input with
  | nil => cases taken
  | cons first tail =>
    simp only [readNumber] at taken
    split at taken
    next below =>
      cases taken
      exact ⟨[first], .short (UInt8.lt_iff_toNat_lt.mp below) (by simp), rfl⟩
    next extended =>
      split at taken
      · cases taken
      next digits remainder cut =>
        cases taken
        obtain ⟨rfl, length⟩ := Bytes.split_eq_ok_iff.mp cut
        have value := UInt64.toNat_ofNat_of_lt' (ofBigEndian_lt_size length)
        exact ⟨first :: digits, .extended (announced_iff.mpr ⟨extended, length.symm⟩) value.symm, rfl⟩

/-! ## Elements -/

/-- The bytes stand for the element: a form of its type, a form of the length of its value, and the
value. -/
inductive ElementForm (element : Element) : Bytes → Prop
  | mk {length : UInt64} {typeForm lengthForm : Bytes} (isType : NumberForm element.type typeForm)
      (isLength : NumberForm length lengthForm) (counts : length.toNat = element.value.length) :
      ElementForm element (typeForm ++ lengthForm ++ element.value)

/-- A form is read as its element, whatever stands behind it. -/
theorem ElementForm.read {element : Element} {form : Bytes} (isForm : ElementForm element form)
    (rest : Bytes) : readElement (form ++ rest) = .ok (element, rest) := by
  obtain ⟨isType, isLength, counts⟩ := isForm
  simp only [readElement, List.append_assoc, isType.read, isLength.read,
    Bytes.split_append counts.symm]

theorem readElement_eq_ok_iff {input rest : Bytes} {element : Element} :
    readElement input = .ok (element, rest) ↔
      ∃ form, ElementForm element form ∧ input = form ++ rest := by
  refine ⟨fun taken => ?_, fun ⟨form, isForm, front⟩ => front ▸ isForm.read rest⟩
  simp only [readElement] at taken
  split at taken
  · cases taken
  next type afterType typeTaken =>
    split at taken
    · cases taken
    next length afterLength lengthTaken =>
      split at taken
      · cases taken
      next value remainder cut =>
        cases taken
        obtain ⟨typeForm, isType, rfl⟩ := readNumber_eq_ok_iff.mp typeTaken
        obtain ⟨lengthForm, isLength, rfl⟩ := readNumber_eq_ok_iff.mp lengthTaken
        obtain ⟨rfl, counts⟩ := Bytes.split_eq_ok_iff.mp cut
        exact ⟨typeForm ++ lengthForm ++ value, .mk isType isLength counts.symm, by simp⟩

/-! ## Runs of elements -/

/-- The bytes are forms of the elements, one after another. -/
inductive Run : List Element → Bytes → Prop
  | nil : Run [] []
  | cons {element : Element} {elements : List Element} {form rest : Bytes}
      (first : ElementForm element form) (others : Run elements rest) :
      Run (element :: elements) (form ++ rest)

theorem readElements_nil : readElements [] = ([], none) := by
  rw [readElements, if_pos rfl]

theorem readElements_of_readElement {input rest : Bytes} {element : Element}
    (taken : readElement input = .ok (element, rest)) :
    readElements input = (element :: (readElements rest).1, (readElements rest).2) := by
  have nonempty : input ≠ [] := by
    rintro rfl
    cases taken
  rw [readElements, if_neg nonempty]
  split
  next stopped => rw [taken] at stopped; cases stopped
  next again => rw [taken] at again; cases again; rfl

/-- A run is read whole, and reading goes on behind it as if it had started there. -/
theorem Run.readElements_append {elements : List Element} {front : Bytes} (run : Run elements front)
    (rest : Bytes) :
    readElements (front ++ rest) = (elements ++ (readElements rest).1, (readElements rest).2) := by
  induction run with
  | nil => rfl
  | @cons element elements form behind first others ih =>
    rw [List.append_assoc, readElements_of_readElement (first.read (behind ++ rest)), ih]
    rfl

theorem Run.append {elements others : List Element} {front rest : Bytes}
    (run : Run elements front) (behind : Run others rest) :
    Run (elements ++ others) (front ++ rest) := by
  induction run with
  | nil => exact behind
  | cons first _ ih =>
    rw [List.append_assoc]
    exact .cons first ih

theorem Run.split {elements others : List Element} {bytes : Bytes}
    (run : Run (elements ++ others) bytes) :
    ∃ front rest, bytes = front ++ rest ∧ Run elements front ∧ Run others rest := by
  induction elements generalizing bytes with
  | nil => exact ⟨[], bytes, rfl, .nil, run⟩
  | cons element elements ih =>
    cases run with
    | @cons _ _ form behind first remaining =>
      obtain ⟨front, rest, rfl, run, runOthers⟩ := ih remaining
      exact ⟨form ++ front, rest, (List.append_assoc ..).symm, .cons first run, runOthers⟩

theorem Run.readElements {elements : List Element} {bytes : Bytes} (run : Run elements bytes) :
    Tlv.readElements bytes = (elements, none) := by
  have whole := run.readElements_append []
  simpa [readElements_nil] using whole

/-- What is read is a run, and behind it stands nothing, or bytes that start no element. -/
theorem exists_run (bytes : Bytes) :
    ∃ front rest, bytes = front ++ rest ∧ Run (readElements bytes).1 front ∧
      match (readElements bytes).2 with
      | none => rest = []
      | some short => rest ≠ [] ∧ readElement rest = .error short := by
  fun_induction readElements bytes with
  | case1 => exact ⟨[], [], rfl, .nil, rfl⟩
  | case2 input nonempty short stopped => exact ⟨[], input, rfl, .nil, nonempty, stopped⟩
  | case3 input nonempty element rest taken shorter elements stop read ih =>
    rw [read] at ih
    obtain ⟨form, first, rfl⟩ := readElement_eq_ok_iff.mp taken
    obtain ⟨front, behind, rfl, others, ends⟩ := ih
    exact ⟨form ++ front, behind, (List.append_assoc ..).symm, .cons first others, ends⟩

/-- Input that is used up is a run of what was read. -/
theorem readElements_eq_none_iff {bytes : Bytes} {elements : List Element} :
    readElements bytes = (elements, none) ↔ Run elements bytes := by
  refine ⟨fun read => ?_, Run.readElements⟩
  obtain ⟨front, rest, rfl, run, ends⟩ := exists_run bytes
  rw [read] at run ends
  subst ends
  simpa using run

/-- Input that ends inside an element is a run of the elements before it, and the bytes behind the run
say how it ends. -/
theorem readElements_eq_some_iff {bytes : Bytes} {elements : List Element} {short : Truncation} :
    readElements bytes = (elements, some short) ↔
      ∃ front rest, bytes = front ++ rest ∧ Run elements front ∧ rest ≠ [] ∧
        readElement rest = .error short := by
  constructor
  · intro read
    obtain ⟨front, rest, rfl, run, ends⟩ := exists_run bytes
    rw [read] at run ends
    exact ⟨front, rest, rfl, run, ends⟩
  · rintro ⟨front, rest, rfl, run, nonempty, stopped⟩
    have none : readElements rest = ([], some short) := by
      rw [readElements, if_neg nonempty]
      split
      next other => rw [stopped] at other; cases other; rfl
      next taken => rw [stopped] at taken; cases taken
    rw [run.readElements_append, none, List.append_nil]

/-! ## Reading undoes writing -/

/-- Elements written one after another are read as they were, whatever stands behind an element stays
unread, and a name is written as one element whose value is read as its components. -/
theorem reading_undoes_writing :
    (∀ elements : List Element, (∀ element ∈ elements, element.Sized) →
      readElements (encodeAll elements) = (elements, none)) ∧
    (∀ (element : Element) (rest : Bytes), element.Sized →
      readElement (element.encode ++ rest) = .ok (element, rest)) ∧
    ∀ name : Name, name.toElement.Sized →
      ∃ value, readElement name.encode = .ok (⟨nameType, value⟩, []) ∧
        readElements name.encode = ([⟨nameType, value⟩], none) ∧
        readElements value = (name.components.map Component.toElement, none) := by
  refine ⟨fun _ => readElements_encodeAll, fun _ rest sized => readElement_encode_append sized rest,
    fun name sized => ?_⟩
  have taken : readElement name.encode = .ok (name.toElement, []) := by
    simpa [Name.encode] using readElement_encode_append sized []
  have alone : readElements name.encode = ([name.toElement], none) := by
    rw [readElements_of_readElement taken, readElements_nil]
  -- the components are no longer than the value that holds them, which fits
  have components : ∀ element ∈ name.components.map Component.toElement, element.Sized :=
    sized_of_length_encodeAll_lt sized
  exact ⟨_, taken, alone, readElements_encodeAll components⟩

/-- A type that takes a marker of its own, an empty value, bytes behind an element that look like a
marker, and a name whose components are empty, of an unassigned type, and a segment. -/
theorem reading_undoes_writing_name :
    let elements : List Element := [⟨0x10000, []⟩, ⟨253, [253, 0]⟩]
    let name : Name := ⟨[.generic [], ⟨0x100000000, [8, 0]⟩, .ofSegment 256]⟩
    (∀ element ∈ elements, element.Sized) ∧ name.toElement.Sized ∧
      readElements (encodeAll elements) = (elements, none) ∧
      readElement (Element.encode ⟨253, [253, 0]⟩ ++ [255]) = .ok (⟨253, [253, 0]⟩, [255]) ∧
      ∃ value, readElement name.encode = .ok (⟨nameType, value⟩, []) ∧
        readElements name.encode = ([⟨nameType, value⟩], none) ∧
        readElements value = (name.components.map Component.toElement, none) := by
  intro elements name
  have sized : ∀ element ∈ elements, element.Sized := by
    simp [elements, Element.Sized, UInt64.size]
  have nameSized : name.toElement.Sized := by
    unfold Element.Sized
    decide
  obtain ⟨lists, single, names⟩ := reading_undoes_writing
  exact ⟨sized, nameSized, lists elements sized, single _ [255] (sized _ (by simp [elements])),
    names name nameSized⟩

end SegmentRetrieval.Tlv
