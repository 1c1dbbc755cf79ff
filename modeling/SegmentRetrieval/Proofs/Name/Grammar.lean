import Mathlib.Data.List.Forall2
import SegmentRetrieval.Name.Uri

/-! # The grammar of name URIs

`NameForm` says which texts are URIs of which names, in terms of what is written: parts between
slashes, decimal and hexadecimal digits, escaped bytes.  Reading accepts exactly these texts and gives
these names, and reports any other text, or the first part of it that is no component.

There are two grammars in one.  The plain one writes numbers in digits; the signed one, which reading
follows, also takes a plus sign in front of the digits of a segment number and in place of the first
digit of an escape.  They differ on the texts that have such a sign, and on no others.
-/

namespace SegmentRetrieval.Uri

/-! ## Digits and escapes -/

def lowerHexDigits : List Char :=
  ['0', '1', '2', '3', '4', '5', '6', '7', '8', '9', 'a', 'b', 'c', 'd', 'e', 'f']

def upperHexDigits : List Char :=
  ['0', '1', '2', '3', '4', '5', '6', '7', '8', '9', 'A', 'B', 'C', 'D', 'E', 'F']

/-- The character is the hexadecimal digit of the value, in either case. -/
def HexForm (c : Char) (value : Nat) : Prop :=
  lowerHexDigits[value]? = some c ∨ upperHexDigits[value]? = some c

instance (c : Char) (value : Nat) : Decidable (HexForm c value) :=
  inferInstanceAs (Decidable (_ ∨ _))

/-- What holds of the first characters holds of each character among them. -/
theorem forall_char_of_lt {motive : Char → Prop} {bound : Nat}
    (first : ∀ n < bound, motive (Char.ofNat n)) (c : Char) (below : c.toNat < bound) : motive c := by
  rw [← Char.ofNat_toNat c]
  exact first c.toNat below

theorem toNat_lt_of_hexValue? {c : Char} {value : Nat} (read : hexValue? c = some value) :
    c.toNat < 128 := by
  have code (other : Char) : c ≤ other → c.toNat ≤ other.toNat := id
  unfold hexValue? at read
  split at read
  next digit =>
    simp only [Char.isDigit, Bool.and_eq_true, decide_eq_true_eq] at digit
    exact Nat.lt_of_le_of_lt (code '9' digit.2) (by decide)
  next =>
    split at read
    next lower => exact Nat.lt_of_le_of_lt (code 'f' lower.2) (by decide)
    next =>
      split at read
      next upper => exact Nat.lt_of_le_of_lt (code 'F' upper.2) (by decide)
      next => cases read

theorem hexForm_of_hexValue? {c : Char} {value : Nat} (read : hexValue? c = some value) :
    HexForm c value := by
  -- a digit is among the first 128 characters, so the table of these decides
  have table : ∀ n < 128, ∀ value ∈ hexValue? (Char.ofNat n), HexForm (Char.ofNat n) value := by
    decide
  exact forall_char_of_lt (motive := fun c => ∀ value ∈ hexValue? c, HexForm c value) table c
    (toNat_lt_of_hexValue? read) value read

theorem hexValue?_of_hexForm {c : Char} {value : Nat} (isForm : HexForm c value) :
    hexValue? c = some value := by
  have lower : ∀ value < 16, lowerHexDigits[value]?.bind hexValue? = some value := by decide
  have upper : ∀ value < 16, upperHexDigits[value]?.bind hexValue? = some value := by decide
  rcases isForm with found | found
  · have read := lower value (List.getElem?_eq_some_iff.mp found).1
    rwa [found] at read
  · have read := upper value (List.getElem?_eq_some_iff.mp found).1
    rwa [found] at read

theorem HexForm.isAlphanum {c : Char} {value : Nat} (isForm : HexForm c value) : c.isAlphanum := by
  have lower : lowerHexDigits.all Char.isAlphanum := by decide
  have upper : upperHexDigits.all Char.isAlphanum := by decide
  rw [List.all_eq_true] at lower upper
  rcases isForm with found | found
  · exact lower c (List.mem_of_getElem? found)
  · exact upper c (List.mem_of_getElem? found)

theorem HexForm.ne_plus {c : Char} {value : Nat} (isForm : HexForm c value) : c ≠ '+' := by
  rintro rfl
  exact absurd isForm.isAlphanum (by decide)

/-- The two characters after a percent sign and the byte they stand for. -/
inductive EscapeForm (signed : Bool) : Char → Char → UInt8 → Prop
  | digits {high low : Char} {sixteens ones : Nat} (isHigh : HexForm high sixteens)
      (isLow : HexForm low ones) : EscapeForm signed high low (UInt8.ofNat (sixteens * 16 + ones))
  | plus {low : Char} {ones : Nat} (allowed : signed = true) (isLow : HexForm low ones) :
      EscapeForm signed '+' low (UInt8.ofNat ones)

theorem escapedByte?_eq_some_iff {high low : Char} {byte : UInt8} :
    escapedByte? high low = some byte ↔ EscapeForm true high low byte := by
  constructor
  · intro read
    unfold escapedByte? at read
    split at read
    next isPlus =>
      subst isPlus
      obtain ⟨ones, isLow, rfl⟩ := Option.map_eq_some_iff.mp read
      exact .plus rfl (hexForm_of_hexValue? isLow)
    next =>
      split at read
      next sixteens ones isHigh isLow =>
        cases read
        exact .digits (hexForm_of_hexValue? isHigh) (hexForm_of_hexValue? isLow)
      next => cases read
  · intro isForm
    cases isForm with
    | digits isHigh isLow =>
      simp only [escapedByte?, if_neg isHigh.ne_plus, hexValue?_of_hexForm isHigh,
        hexValue?_of_hexForm isLow]
    | plus _ isLow => simp only [escapedByte?, if_pos, hexValue?_of_hexForm isLow, Option.map_some]

/-! ## Values -/

/-- The text stands for the bytes: an escape for its byte, any other character for its UTF-8 bytes. -/
inductive ValueForm (signed : Bool) : List Char → Bytes → Prop
  | nil : ValueForm signed [] []
  | plain {c : Char} {text : List Char} {bytes : Bytes} (unescaped : c ≠ '%')
      (rest : ValueForm signed text bytes) :
      ValueForm signed (c :: text) (String.utf8EncodeChar c ++ bytes)
  | escaped {high low : Char} {byte : UInt8} {text : List Char} {bytes : Bytes}
      (escape : EscapeForm signed high low byte) (rest : ValueForm signed text bytes) :
      ValueForm signed ('%' :: high :: low :: text) (byte :: bytes)

theorem unescape?_cons_of_ne {c : Char} (unescaped : c ≠ '%') (text : List Char) :
    unescape? (c :: text) = (unescape? text).map (String.utf8EncodeChar c ++ ·) := by
  rw [unescape?]
  · rw [if_neg unescaped]
  · rintro high low rest rfl
    exact absurd rfl unescaped

theorem unescape?_eq_some_iff {text : List Char} {bytes : Bytes} :
    unescape? text = some bytes ↔ ValueForm true text bytes := by
  constructor
  · intro read
    -- the cases of the recursion: the end, an escape that is one and one that is not, a percent sign
    -- too close to the end, any other character
    fun_induction unescape? text generalizing bytes with
    | case1 =>
      cases read
      exact .nil
    | case2 high low rest byte bytes others escape ih =>
      cases read
      exact .escaped (escapedByte?_eq_some_iff.mp escape) (ih others)
    | case3 => cases read
    | case4 => cases read
    | case5 c rest _ unescaped ih =>
      obtain ⟨others, others, rfl⟩ := Option.map_eq_some_iff.mp read
      exact .plain unescaped (ih others)
  · intro isForm
    induction isForm with
    | nil => rfl
    | plain unescaped _ ih => rw [unescape?_cons_of_ne unescaped, ih, Option.map_some]
    | escaped escape _ ih => simp only [unescape?, escapedByte?_eq_some_iff.mpr escape, ih]

/-! ## Components -/

/-- The text writes the number: decimal digits, leading zeros or not. -/
inductive DecimalForm (signed : Bool) : List Char → Nat → Prop
  | digits {text : List Char} (nonempty : text ≠ []) (digits : ∀ c ∈ text, c.isDigit) :
      DecimalForm signed text (Nat.ofDigitChars 10 text 0)
  | plus {text : List Char} (allowed : signed = true) (nonempty : text ≠ [])
      (digits : ∀ c ∈ text, c.isDigit) :
      DecimalForm signed ('+' :: text) (Nat.ofDigitChars 10 text 0)

theorem head?_ne_plus_of_digits {text : List Char} (digits : ∀ c ∈ text, c.isDigit) :
    text.head? ≠ some '+' := by
  intro first
  exact absurd (digits '+' (List.mem_of_head? first)) (by decide)

theorem digits_eq_some_iff {text : List Char} {n : Nat} :
    (if text ≠ [] ∧ text.all Char.isDigit then some (Nat.ofDigitChars 10 text 0) else none) = some n ↔
      text ≠ [] ∧ (∀ c ∈ text, c.isDigit) ∧ Nat.ofDigitChars 10 text 0 = n := by
  simp only [Option.ite_none_right_eq_some, List.all_eq_true, Option.some.injEq, and_assoc]

theorem decimal?_eq_some_iff {text : List Char} {n : Nat} :
    decimal? text = some n ↔ DecimalForm true text n := by
  constructor
  · intro read
    by_cases isPlus : text.head? = some '+'
    · obtain ⟨text, rfl⟩ := List.head?_eq_some_iff.mp isPlus
      obtain ⟨nonempty, digits, rfl⟩ := digits_eq_some_iff.mp read
      exact .plus rfl nonempty digits
    · simp only [decimal?, if_neg isPlus] at read
      obtain ⟨nonempty, digits, rfl⟩ := digits_eq_some_iff.mp read
      exact .digits nonempty digits
  · intro isNumber
    cases isNumber with
    | digits nonempty digits =>
      simp only [decimal?, if_neg (head?_ne_plus_of_digits digits)]
      exact digits_eq_some_iff.mpr ⟨nonempty, digits, rfl⟩
    | plus _ nonempty digits => exact digits_eq_some_iff.mpr ⟨nonempty, digits, rfl⟩

/-- The bytes without the three periods that stand before a value of periods only. -/
def unpadded (bytes : Bytes) : Bytes :=
  if bytes.all isPeriod then bytes.drop 3 else bytes

/-- The paths `.` and `..` stand for no value. -/
def Reserved (bytes : Bytes) : Prop :=
  bytes = [0x2e] ∨ bytes = [0x2e, 0x2e]

theorem eq_replicate_of_periods {value : Bytes} (periods : value.all isPeriod) :
    value = List.replicate value.length 0x2e := by
  rw [List.eq_replicate_iff]
  simpa [isPeriod] using periods

theorem reserved_iff {bytes : Bytes} :
    Reserved bytes ↔ bytes ≠ [] ∧ bytes.all isPeriod ∧ bytes.length < 3 := by
  constructor
  · rintro (rfl | rfl) <;> decide
  · rintro ⟨nonempty, periods, short⟩
    have same := eq_replicate_of_periods periods
    match bytes, nonempty, short with
    | [_], _, _ => exact .inl same
    | [_, _], _, _ => exact .inr same

theorem removePadding?_eq_some_iff {bytes value : Bytes} :
    removePadding? bytes = some value ↔ ¬ Reserved bytes ∧ unpadded bytes = value := by
  rw [reserved_iff]
  unfold removePadding? unpadded
  by_cases periods : bytes.all isPeriod
  · by_cases nonempty : bytes = []
    · simp [nonempty]
    · by_cases short : bytes.length < 3 <;> simp [nonempty, periods, short]
  · simp [periods]

/-- The text is a URI of the component: `seg=` and a number that 64 bits hold, or the value of a
generic component. -/
inductive ComponentForm (signed : Bool) : List Char → Component → Prop
  | segment {number : List Char} {n : Nat} (isNumber : DecimalForm signed number n)
      (fits : n < UInt64.size) :
      ComponentForm signed (segmentMark ++ number) (.ofSegment (UInt64.ofNat n))
  | generic {text : List Char} {bytes : Bytes} (unmarked : ¬ segmentMark <+: text)
      (isValue : ValueForm signed text bytes) (allowed : ¬ Reserved bytes) :
      ComponentForm signed text (.generic (unpadded bytes))

theorem segmentComponent?_eq_some_iff {number : List Char} {component : Component} :
    segmentComponent? number = some component ↔
      ∃ n, DecimalForm true number n ∧ n < UInt64.size ∧ .ofSegment (UInt64.ofNat n) = component := by
  unfold segmentComponent?
  split
  next unread =>
    have none : ∀ n, ¬ DecimalForm true number n := by
      intro n isNumber
      rw [decimal?_eq_some_iff.mpr isNumber] at unread
      cases unread
    simp [none]
  next n read =>
    constructor
    · intro found
      obtain ⟨fits, same⟩ := Option.ite_none_right_eq_some.mp found
      exact ⟨n, decimal?_eq_some_iff.mp read, fits, Option.some.inj same⟩
    · rintro ⟨m, isNumber, fits, rfl⟩
      rw [decimal?_eq_some_iff.mpr isNumber] at read
      cases read
      rw [if_pos fits]

theorem genericComponent?_eq_some_iff {text : List Char} {component : Component} :
    genericComponent? text = some component ↔
      ∃ bytes, ValueForm true text bytes ∧ ¬ Reserved bytes ∧
        .generic (unpadded bytes) = component := by
  simp only [genericComponent?, Option.map_eq_some_iff, Option.bind_eq_some_iff,
    unescape?_eq_some_iff, removePadding?_eq_some_iff]
  constructor
  · rintro ⟨value, ⟨bytes, isValue, allowed, rfl⟩, rfl⟩
    exact ⟨bytes, isValue, allowed, rfl⟩
  · rintro ⟨bytes, isValue, allowed, rfl⟩
    exact ⟨_, ⟨bytes, isValue, allowed, rfl⟩, rfl⟩

theorem elim_error_ok_eq_ok_iff {found : Option Component} {error : UriError}
    {component : Component} :
    found.elim (.error error) .ok = (.ok component : Except UriError Component) ↔
      found = some component := by
  cases found <;> simp

theorem elim_error_ok_eq_error_iff {found : Option Component} {error reported : UriError} :
    found.elim (.error error) .ok = (.error reported : Except UriError Component) ↔
      found = none ∧ error = reported := by
  cases found <;> simp

theorem toComponent_segmentMark (number : List Char) :
    toComponent (segmentMark ++ number) =
      (segmentComponent? number).elim (.error ⟨segmentMark ++ number⟩) .ok := by
  have marked : segmentMark.isPrefixOf (segmentMark ++ number) := by simp
  simp only [toComponent, if_pos marked, List.drop_left]
  cases segmentComponent? number <;> rfl

theorem toComponent_of_unmarked {text : List Char} (unmarked : ¬ segmentMark <+: text) :
    toComponent text = (genericComponent? text).elim (.error ⟨text⟩) .ok := by
  have other : ¬ segmentMark.isPrefixOf text := by simpa using unmarked
  simp only [toComponent, if_neg other]
  cases genericComponent? text <;> rfl

theorem toComponent_eq_ok_iff {text : List Char} {component : Component} :
    toComponent text = .ok component ↔ ComponentForm true text component := by
  constructor
  · intro read
    by_cases marked : segmentMark <+: text
    · obtain ⟨number, rfl⟩ := marked
      rw [toComponent_segmentMark, elim_error_ok_eq_ok_iff] at read
      obtain ⟨n, isNumber, fits, rfl⟩ := segmentComponent?_eq_some_iff.mp read
      exact .segment isNumber fits
    · rw [toComponent_of_unmarked marked, elim_error_ok_eq_ok_iff] at read
      obtain ⟨bytes, isValue, allowed, rfl⟩ := genericComponent?_eq_some_iff.mp read
      exact .generic marked isValue allowed
  · intro isForm
    cases isForm with
    | segment isNumber fits =>
      rw [toComponent_segmentMark, elim_error_ok_eq_ok_iff]
      exact segmentComponent?_eq_some_iff.mpr ⟨_, isNumber, fits, rfl⟩
    | generic unmarked isValue allowed =>
      rw [toComponent_of_unmarked unmarked, elim_error_ok_eq_ok_iff]
      exact genericComponent?_eq_some_iff.mpr ⟨_, isValue, allowed, rfl⟩

/-- What is reported of a text that is no component is the text. -/
theorem text_of_toComponent_eq_error {text : List Char} {error : UriError}
    (refused : toComponent text = .error error) : error.text = text := by
  by_cases marked : segmentMark <+: text
  · obtain ⟨number, rfl⟩ := marked
    rw [toComponent_segmentMark, elim_error_ok_eq_error_iff] at refused
    rw [← refused.2]
  · rw [toComponent_of_unmarked marked, elim_error_ok_eq_error_iff] at refused
    rw [← refused.2]

/-! ## Paths -/

/-- The parts, each after a slash. -/
def joined (parts : List (List Char)) : List Char :=
  parts.flatMap ('/' :: ·)

/-- The text is a path of these parts, after the scheme or without it. -/
structure PathForm (text : List Char) (parts : List (List Char)) : Prop where
  nonempty : parts ≠ []
  free : ∀ part ∈ parts, '/' ∉ part
  spelled : text = joined parts ∨ text = scheme ++ joined parts

/-- The text is a URI of the name: a path whose non-empty parts are URIs of its components. -/
def NameForm (signed : Bool) (text : List Char) (name : Name) : Prop :=
  ∃ parts, PathForm text parts ∧
    List.Forall₂ (ComponentForm signed) (parts.filter (· ≠ [])) name.components

theorem joined_cons (part : List Char) (parts : List (List Char)) :
    joined (part :: parts) = '/' :: (part ++ joined parts) := by
  simp [joined]

theorem splitOn_append_joined {front : List Char} {parts : List (List Char)}
    (frontFree : '/' ∉ front) (free : ∀ part ∈ parts, '/' ∉ part) :
    (front ++ joined parts).splitOn '/' = front :: parts := by
  induction parts generalizing front with
  | nil => simpa [joined] using List.splitOn_eq_singleton frontFree
  | cons part parts ih =>
    rw [List.forall_mem_cons] at free
    rw [joined_cons, List.splitOn_append_cons_self_of_not_mem frontFree, ih free.1 free.2]

theorem parts_joined {parts : List (List Char)} (free : ∀ part ∈ parts, '/' ∉ part) :
    Uri.parts (joined parts) = parts.filter (· ≠ []) := by
  have cut : (joined parts).splitOn '/' = [] :: parts :=
    splitOn_append_joined List.not_mem_nil free
  rw [Uri.parts, cut, List.filter_cons_of_neg (by simp)]
  refine List.filter_congr fun part _ => ?_
  cases part <;> rfl

/-- Every text is cut at its slashes. -/
theorem exists_eq_append_joined (text : List Char) :
    ∃ front parts, text = front ++ joined parts ∧ '/' ∉ front ∧ ∀ part ∈ parts, '/' ∉ part := by
  induction text with
  | nil => exact ⟨[], [], rfl, by simp, by simp⟩
  | cons c text ih =>
    obtain ⟨front, parts, rfl, frontFree, free⟩ := ih
    -- a slash closes the part before it, which was in front so far
    by_cases slash : c = '/'
    · subst slash
      refine ⟨[], front :: parts, by rw [joined_cons, List.nil_append], List.not_mem_nil, ?_⟩
      exact List.forall_mem_cons.mpr ⟨frontFree, free⟩
    · exact ⟨c :: front, parts, rfl, by simp [frontFree, Ne.symm slash], free⟩

theorem PathForm.withoutScheme {text : List Char} {parts : List (List Char)}
    (isPath : PathForm text parts) : Uri.withoutScheme text = joined parts := by
  obtain ⟨nonempty, _, rfl | rfl⟩ := isPath
  · obtain ⟨part, others, rfl⟩ := List.exists_cons_of_ne_nil nonempty
    rw [joined_cons]
    rfl
  · simp [Uri.withoutScheme]

theorem exists_pathForm {text : List Char} (absolute : (withoutScheme text).head? = some '/') :
    ∃ parts, PathForm text parts := by
  obtain ⟨front, parts, cut, frontFree, free⟩ := exists_eq_append_joined (withoutScheme text)
  rw [cut] at absolute
  -- a text before the first slash would start with one
  match front, frontFree with
  | c :: _, frontFree =>
    simp only [List.cons_append, List.head?_cons, Option.some.injEq] at absolute
    exact absurd (absolute ▸ List.mem_cons_self) frontFree
  | [], _ =>
    refine ⟨parts, ?_, free, ?_⟩
    · rintro rfl
      cases absolute
    · unfold withoutScheme at cut
      split at cut
      next schemed =>
        obtain ⟨rest, rfl⟩ := List.isPrefixOf_iff_prefix.mp schemed
        rw [List.drop_left] at cut
        exact .inr (congrArg (scheme ++ ·) cut)
      next => exact .inl cut

/-! ## Names -/

section Traversal

variable {α β ε : Type} {f : α → Except ε β}

theorem mapM_cons_ok {x : α} {y : β} (taken : f x = .ok y) (xs : List α) :
    (x :: xs).mapM f = (xs.mapM f).map (y :: ·) := by
  rw [List.mapM_cons, taken]
  cases xs.mapM f <;> rfl

theorem mapM_cons_error {x : α} {error : ε} (refused : f x = .error error) (xs : List α) :
    (x :: xs).mapM f = .error error := by
  rw [List.mapM_cons, refused]
  rfl

theorem mapM_eq_ok_iff {xs : List α} {ys : List β} :
    xs.mapM f = .ok ys ↔ List.Forall₂ (fun x y => f x = .ok y) xs ys := by
  induction xs generalizing ys with
  | nil => cases ys <;> simp [Pure.pure, Except.pure]
  | cons x xs ih =>
    rw [List.forall₂_cons_left_iff]
    cases taken : f x with
    | error error => simp [mapM_cons_error taken]
    | ok y =>
      rw [mapM_cons_ok taken]
      cases others : xs.mapM f with
      | error error => simp [Except.map, ← ih, others]
      | ok zs => simp [Except.map, ← ih, others, eq_comm]

/-- A traversal stops at the first element that is refused. -/
theorem mapM_eq_error_iff {xs : List α} {error : ε} :
    xs.mapM f = .error error ↔
      ∃ before x after, xs = before ++ x :: after ∧ (∀ y ∈ before, ∃ z, f y = .ok z) ∧
        f x = .error error := by
  constructor
  · intro refused
    induction xs with
    | nil => cases refused
    | cons x xs ih =>
      cases taken : f x with
      | error _ =>
        rw [mapM_cons_error taken] at refused
        cases refused
        exact ⟨[], x, xs, rfl, by simp, taken⟩
      | ok y =>
        rw [mapM_cons_ok taken] at refused
        cases others : xs.mapM f with
        | ok _ => rw [others] at refused; cases refused
        | error _ =>
          rw [others] at refused
          cases refused
          obtain ⟨before, z, after, rfl, allTaken, stopped⟩ := ih others
          exact ⟨x :: before, z, after, rfl, List.forall_mem_cons.mpr ⟨⟨y, taken⟩, allTaken⟩, stopped⟩
  · rintro ⟨before, x, after, rfl, allTaken, stopped⟩
    induction before with
    | nil => exact mapM_cons_error stopped after
    | cons first before ih =>
      rw [List.forall_mem_cons] at allTaken
      obtain ⟨⟨z, taken⟩, others⟩ := allTaken
      rw [List.cons_append, mapM_cons_ok taken, ih others]
      rfl

end Traversal

theorem toName_of_pathForm {text : List Char} {parts : List (List Char)}
    (isPath : PathForm text parts) :
    toName text = ((parts.filter (· ≠ [])).mapM toComponent).map Name.mk := by
  obtain ⟨part, others, rfl⟩ := List.exists_cons_of_ne_nil isPath.nonempty
  have absolute : (joined (part :: others)).head? = some '/' := by rw [joined_cons]; rfl
  simp only [toName, isPath.withoutScheme, if_pos absolute, parts_joined isPath.free]

theorem toName_of_relative {text : List Char} (relative : ¬ ∃ parts, PathForm text parts) :
    toName text = .error ⟨text⟩ := by
  have noSlash : ¬ (withoutScheme text).head? = some '/' := fun absolute =>
    relative (exists_pathForm absolute)
  simp only [toName, if_neg noSlash]

theorem toName_eq_ok_iff {text : List Char} {name : Name} :
    toName text = .ok name ↔ NameForm true text name := by
  have components {parts : List (List Char)} (isPath : PathForm text parts) :
      toName text = .ok name ↔
        List.Forall₂ (ComponentForm true) (parts.filter (· ≠ [])) name.components := by
    have each : List.Forall₂ (ComponentForm true) (parts.filter (· ≠ [])) name.components ↔
        (parts.filter (· ≠ [])).mapM toComponent = .ok name.components := by
      simp only [mapM_eq_ok_iff, toComponent_eq_ok_iff]
    obtain ⟨components⟩ := name
    rw [each, toName_of_pathForm isPath]
    cases (parts.filter (· ≠ [])).mapM toComponent <;> simp [Except.map]
  constructor
  · intro read
    by_cases absolute : ∃ parts, PathForm text parts
    · obtain ⟨parts, isPath⟩ := absolute
      exact ⟨parts, isPath, (components isPath).mp read⟩
    · rw [toName_of_relative absolute] at read
      cases read
  · rintro ⟨parts, isPath, isForm⟩
    exact (components isPath).mpr isForm

/-- What is reported of a text that is no name: the text, if it is no path, and otherwise the first
part that is no component. -/
inductive Refusal (text : List Char) : List Char → Prop
  | relative (noPath : ¬ ∃ parts, PathForm text parts) : Refusal text text
  | component {parts before after : List (List Char)} {part : List Char}
      (isPath : PathForm text parts) (cut : parts.filter (· ≠ []) = before ++ part :: after)
      (read : ∀ other ∈ before, ∃ component, ComponentForm true other component)
      (refused : ¬ ∃ component, ComponentForm true part component) : Refusal text part

theorem toComponent_eq_error_iff {text : List Char} {error : UriError} :
    toComponent text = .error error ↔
      error.text = text ∧ ¬ ∃ component, ComponentForm true text component := by
  constructor
  · intro refused
    refine ⟨text_of_toComponent_eq_error refused, ?_⟩
    rintro ⟨component, isForm⟩
    rw [toComponent_eq_ok_iff.mpr isForm] at refused
    cases refused
  · rintro ⟨same, noForm⟩
    cases found : toComponent text with
    | ok component => exact absurd ⟨component, toComponent_eq_ok_iff.mp found⟩ noForm
    | error other =>
      have reported : other.text = error.text :=
        (text_of_toComponent_eq_error found).trans same.symm
      exact congrArg (fun text => (.error ⟨text⟩ : Except UriError Component)) reported

theorem toName_eq_error_iff {text : List Char} {error : UriError} :
    toName text = .error error ↔ Refusal text error.text := by
  obtain ⟨reported⟩ := error
  constructor
  · intro refused
    by_cases absolute : ∃ parts, PathForm text parts
    · obtain ⟨parts, isPath⟩ := absolute
      rw [toName_of_pathForm isPath] at refused
      cases traversed : (parts.filter (· ≠ [])).mapM toComponent with
      | ok components => rw [traversed] at refused; cases refused
      | error error =>
        rw [traversed] at refused
        cases refused
        obtain ⟨before, part, after, cut, read, stopped⟩ := mapM_eq_error_iff.mp traversed
        obtain ⟨rfl, noForm⟩ := toComponent_eq_error_iff.mp stopped
        exact .component isPath cut (by simpa only [toComponent_eq_ok_iff] using read) noForm
    · rw [toName_of_relative absolute] at refused
      cases refused
      exact .relative absolute
  · intro refusal
    cases refusal with
    | relative noPath => exact toName_of_relative noPath
    | component isPath cut read refused =>
      have stopped := toComponent_eq_error_iff.mpr ⟨rfl, refused⟩
      have traversed := mapM_eq_error_iff.mpr
        ⟨_, _, _, cut, by simpa only [toComponent_eq_ok_iff] using read, stopped⟩
      rw [toName_of_pathForm isPath, traversed]
      rfl

end SegmentRetrieval.Uri
