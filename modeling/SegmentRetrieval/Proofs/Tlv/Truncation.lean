import SegmentRetrieval.Proofs.Tlv.Forms

/-! # Where reading stops

Reading an element stops early where the input ends inside the element's type, its length or its value,
and reports how many bytes that field wanted and how many were left (`ElementCut`).  A form that has been
read whole is therefore cut by every shorter front of the input and by nothing that stands behind it, so the
forms of elements make up a prefix code.  Elements that are read one after another come to an end
(`Items`): each takes its own piece of the input, and only the last item may be a truncation.
-/

namespace SegmentRetrieval.Tlv

/-! ## Numbers -/

/-- The input ends before the number does: no byte is left, or fewer than the marker announces. -/
inductive NumberCut : Bytes → Truncation → Prop
  | missing : NumberCut [] ⟨1, 0⟩
  | digits {marker : UInt8} {width : Nat} {digits : Bytes}
      (announced : (marker, width) ∈ [((253 : UInt8), 2), (254, 4), (255, 8)])
      (few : digits.length < width) : NumberCut (marker :: digits) ⟨width, digits.length⟩

theorem readNumber_eq_error_iff {input : Bytes} {short : Truncation} :
    readNumber input = .error short ↔ NumberCut input short := by
  constructor
  · intro stopped
    cases input with
    | nil =>
      cases stopped
      exact .missing
    | cons first tail =>
      simp only [readNumber] at stopped
      split at stopped
      next => cases stopped
      next extended =>
        split at stopped
        next cut =>
          cases stopped
          obtain ⟨few, rfl⟩ := Bytes.split_eq_error_iff.mp cut
          exact .digits (announced_iff.mpr ⟨extended, rfl⟩) few
        next => cases stopped
  · intro cut
    cases cut with
    | missing => rfl
    | @digits marker width digits announced few =>
      obtain ⟨extended, rfl⟩ := announced_iff.mp announced
      simp only [readNumber, if_neg extended, Bytes.split_eq_error_iff.mpr ⟨few, rfl⟩]

theorem NumberCut.lt {input : Bytes} {short : Truncation} (cut : NumberCut input short) :
    short.remaining < short.needed := by
  cases cut with
  | missing => exact Nat.zero_lt_one
  | digits _ few => exact few

/-! ## Elements -/

/-- The input ends before the element does: inside its type, inside its length, or with fewer bytes left
than the length says, whatever it says. -/
inductive ElementCut : Bytes → Truncation → Prop
  | type {input : Bytes} {short : Truncation} (cut : NumberCut input short) : ElementCut input short
  | length {type : UInt64} {typeForm rest : Bytes} {short : Truncation}
      (isType : NumberForm type typeForm) (cut : NumberCut rest short) :
      ElementCut (typeForm ++ rest) short
  | value {type length : UInt64} {typeForm lengthForm rest : Bytes}
      (isType : NumberForm type typeForm) (isLength : NumberForm length lengthForm)
      (few : rest.length < length.toNat) :
      ElementCut (typeForm ++ lengthForm ++ rest) ⟨length.toNat, rest.length⟩

theorem readElement_eq_error_iff {input : Bytes} {short : Truncation} :
    readElement input = .error short ↔ ElementCut input short := by
  constructor
  · intro stopped
    simp only [readElement] at stopped
    split at stopped
    next noType =>
      cases stopped
      exact .type (readNumber_eq_error_iff.mp noType)
    next type afterType typeTaken =>
      obtain ⟨typeForm, isType, rfl⟩ := readNumber_eq_ok_iff.mp typeTaken
      split at stopped
      next noLength =>
        cases stopped
        exact .length isType (readNumber_eq_error_iff.mp noLength)
      next length afterLength lengthTaken =>
        obtain ⟨lengthForm, isLength, rfl⟩ := readNumber_eq_ok_iff.mp lengthTaken
        split at stopped
        next noValue =>
          cases stopped
          obtain ⟨few, rfl⟩ := Bytes.split_eq_error_iff.mp noValue
          rw [← List.append_assoc]
          exact .value isType isLength few
        next => cases stopped
  · intro cut
    cases cut with
    | type cut => simp only [readElement, readNumber_eq_error_iff.mpr cut]
    | length isType cut =>
      simp only [readElement, isType.read, readNumber_eq_error_iff.mpr cut]
    | value isType isLength few =>
      simp only [readElement, List.append_assoc, isType.read, isLength.read,
        Bytes.split_eq_error_iff.mpr ⟨few, rfl⟩]

theorem ElementCut.lt {input : Bytes} {short : Truncation} (cut : ElementCut input short) :
    short.remaining < short.needed := by
  cases cut with
  | type cut => exact cut.lt
  | length _ cut => exact cut.lt
  | value _ _ few => exact few

/-- Behind a type and a length stands the value, as far as the length says and no further, or the input is
too short for it. -/
theorem readElement_append {type length : UInt64} {typeForm lengthForm : Bytes}
    (isType : NumberForm type typeForm) (isLength : NumberForm length lengthForm) (rest : Bytes) :
    readElement (typeForm ++ lengthForm ++ rest) =
      if rest.length < length.toNat then .error ⟨length.toNat, rest.length⟩
      else .ok (⟨type, rest.take length.toNat⟩, rest.drop length.toNat) := by
  split
  next few => exact readElement_eq_error_iff.mpr (.value isType isLength few)
  next enough =>
    have taken : (rest.take length.toNat).length = length.toNat := by
      rw [List.length_take]
      omega
    have isElement : ElementForm ⟨type, rest.take length.toNat⟩ _ := .mk isType isLength taken.symm
    have read := isElement.read (rest.drop length.toNat)
    rwa [List.append_assoc, List.take_append_drop] at read

/-- No shorter front of the input than the form that was read is an element. -/
theorem ElementForm.cut {element : Element} {form : Bytes} (isForm : ElementForm element form)
    {rest front : Bytes} (begins : front <+: form ++ rest) (shorter : front.length < form.length) :
    ∃ short, readElement front = .error short := by
  cases outcome : readElement front with
  | error short => exact ⟨short, rfl⟩
  | ok taken =>
    obtain ⟨other, left⟩ := taken
    obtain ⟨otherForm, isOther, rfl⟩ := readElement_eq_ok_iff.mp outcome
    obtain ⟨behind, whole⟩ := begins
    -- the whole input would start with the shorter form as well
    have read := isOther.read (left ++ behind)
    rw [← List.append_assoc, whole, isForm.read rest] at read
    cases read
    have lengths := congrArg List.length whole
    simp only [List.length_append] at lengths shorter
    omega

/-! ## Elements one after another -/

/-- The items that come of reading elements one after another: the input that is used up gives none, a
truncation is the last one, and an element is followed by those of the input behind it. -/
inductive Items : Bytes → List (Except Truncation Element) → Prop
  | done : Items [] []
  | stop {input : Bytes} {short : Truncation} (nonempty : input ≠ [])
      (stopped : readElement input = .error short) : Items input [.error short]
  | step {input rest : Bytes} {element : Element} {items : List (Except Truncation Element)}
      (taken : readElement input = .ok (element, rest)) (others : Items rest items) :
      Items input (.ok element :: items)

theorem items_readElements (bytes : Bytes) :
    Items bytes ((readElements bytes).1.map .ok ++ (readElements bytes).2.toList.map .error) := by
  fun_induction readElements bytes with
  | case1 => exact .done
  | case2 input nonempty short stopped => exact .stop nonempty stopped
  | case3 input nonempty element rest taken shorter elements stop read ih =>
    rw [read] at ih
    exact .step taken ih

theorem Items.unique {bytes : Bytes} {items others : List (Except Truncation Element)}
    (read : Items bytes items) (again : Items bytes others) : items = others := by
  induction read generalizing others with
  | done =>
    cases again with
    | done => rfl
    | stop nonempty => exact absurd rfl nonempty
    | step taken => cases taken
  | stop nonempty stopped =>
    cases again with
    | done => exact absurd rfl nonempty
    | stop _ again =>
      cases stopped.symm.trans again
      rfl
    | step taken => cases stopped.symm.trans taken
  | step taken _ ih =>
    cases again with
    | done => cases taken
    | stop _ stopped => cases stopped.symm.trans taken
    | step again others =>
      cases taken.symm.trans again
      rw [ih others]

theorem items_iff {bytes : Bytes} {items : List (Except Truncation Element)} : Items bytes items ↔
    items = (readElements bytes).1.map .ok ++ (readElements bytes).2.toList.map .error :=
  ⟨fun read => read.unique (items_readElements bytes), fun same => same ▸ items_readElements bytes⟩

theorem Run.exists_pieces {elements : List Element} {bytes : Bytes} (run : Run elements bytes) :
    ∃ pieces : List (Element × Bytes), pieces.map Prod.fst = elements ∧
      (pieces.map Prod.snd).flatten = bytes ∧ ∀ entry ∈ pieces, ElementForm entry.1 entry.2 := by
  induction run with
  | nil => exact ⟨[], rfl, rfl, nofun⟩
  | @cons element elements form rest first _ ih =>
    obtain ⟨pieces, rfl, rfl, forms⟩ := ih
    exact ⟨(element, form) :: pieces, rfl, rfl, List.forall_mem_cons.mpr ⟨first, forms⟩⟩

/-! ## A prefix code -/

/-- An element that was read took a piece off the input: every shorter front of the input ends inside the
element, and the piece gives the element whatever stands behind it.  Input that gives no element ends inside
one, and the report wants more bytes than are left.  A length is believed only as far as the input goes.
Elements read one after another come to an end, with a truncation at most at the end; each takes its piece,
and what is behind the pieces is nothing, or gives that truncation. -/
theorem reading_is_prefix_code :
    (∀ (input rest : Bytes) (element : Element), readElement input = .ok (element, rest) →
      ∃ piece, input = piece ++ rest ∧
        (∀ front, front <+: input → front.length < piece.length →
          ∃ short, readElement front = .error short) ∧
        ∀ other, readElement (piece ++ other) = .ok (element, other)) ∧
    (∀ (input : Bytes) (short : Truncation), readElement input = .error short →
      ElementCut input short ∧ short.remaining < short.needed) ∧
    (∀ (type length : UInt64) (typeForm lengthForm rest : Bytes), NumberForm type typeForm →
      NumberForm length lengthForm →
      readElement (typeForm ++ lengthForm ++ rest) =
        if rest.length < length.toNat then .error ⟨length.toNat, rest.length⟩
        else .ok (⟨type, rest.take length.toNat⟩, rest.drop length.toNat)) ∧
    ∀ bytes : Bytes, ∃ (pieces : List (Element × Bytes)) (rest : Bytes) (stop : Option Truncation),
      readElements bytes = (pieces.map Prod.fst, stop) ∧
      (∀ items, Items bytes items ↔
        items = (pieces.map Prod.fst).map .ok ++ stop.toList.map .error) ∧
      bytes = (pieces.map Prod.snd).flatten ++ rest ∧
      (∀ entry ∈ pieces, ∀ other, readElement (entry.2 ++ other) = .ok (entry.1, other)) ∧
      match stop with
      | none => rest = []
      | some short => rest ≠ [] ∧ readElement rest = .error short := by
  refine ⟨?_, ?_, fun _ _ _ _ rest isType isLength => readElement_append isType isLength rest, ?_⟩
  · intro input rest element taken
    obtain ⟨piece, isForm, rfl⟩ := readElement_eq_ok_iff.mp taken
    exact ⟨piece, rfl, fun _ begins shorter => isForm.cut begins shorter, isForm.read⟩
  · intro input short stopped
    have cut := readElement_eq_error_iff.mp stopped
    exact ⟨cut, cut.lt⟩
  · intro bytes
    obtain ⟨front, rest, whole, run, ends⟩ := exists_run bytes
    obtain ⟨pieces, elements, rfl, forms⟩ := run.exists_pieces
    refine ⟨pieces, rest, (readElements bytes).2, by rw [elements], fun items => ?_, whole,
      fun entry member => (forms entry member).read, ends⟩
    rw [elements]
    exact items_iff

/-- A type that is written longer than it need be, and a length of all ones. -/
theorem reading_is_prefix_code_overlong :
    let input : Bytes := [253, 0, 21, 1, 42, 7]
    let hostile : Bytes := [255, 255, 255, 255, 255, 255, 255, 255, 255]
    readElement input = .ok (⟨21, [42]⟩, [7]) ∧
      (∃ short, readElement [253, 0, 21, 1] = .error short ∧ short.remaining < short.needed) ∧
      readElement ([21] ++ hostile ++ [1, 2]) = .error ⟨18446744073709551615, 2⟩ := by
  intro input hostile
  obtain ⟨elements, truncations, lengths, _⟩ := reading_is_prefix_code
  have taken : readElement input = .ok (⟨21, [42]⟩, [7]) := rfl
  obtain ⟨piece, whole, fronts, _⟩ := elements input [7] ⟨21, [42]⟩ taken
  have length : piece.length = 5 := by
    have lengths := congrArg List.length whole
    simp only [List.length_append] at lengths
    exact Nat.add_right_cancel lengths.symm
  obtain ⟨short, stopped⟩ := fronts [253, 0, 21, 1] ⟨[42, 7], rfl⟩ (by rw [length]; decide)
  exact ⟨taken, ⟨short, stopped, (truncations _ short stopped).2⟩,
    lengths 21 18446744073709551615 [21] hostile [1, 2] (.short (by decide) rfl)
      (.extended (by decide) rfl)⟩

end SegmentRetrieval.Tlv
