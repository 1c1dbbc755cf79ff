import SegmentRetrieval.Proofs.Name.Grammar

/-! # Plus signs in name URIs

The plain and the signed grammar of name URIs differ where a plus sign stands in an escape or before
the digits of a segment number, and nowhere else.  So reading accepts the plain URIs, each for the name
it is a URI of, and beyond these only texts in which `%+` or `/seg=+` occurs.
-/

namespace SegmentRetrieval

namespace Uri

/-! ## Escapes and numbers -/

theorem escapeForm_false_iff {high low : Char} {byte : UInt8} :
    EscapeForm false high low byte ↔ EscapeForm true high low byte ∧ high ≠ '+' := by
  constructor
  · rintro (⟨isHigh, isLow⟩ | ⟨allowed, _⟩)
    · exact ⟨.digits isHigh isLow, isHigh.ne_plus⟩
    · cases allowed
  · rintro ⟨⟨isHigh, isLow⟩ | _, notPlus⟩
    · exact .digits isHigh isLow
    · exact absurd rfl notPlus

theorem EscapeForm.ne_percent {signed : Bool} {high low : Char} {byte : UInt8}
    (escape : EscapeForm signed high low byte) : high ≠ '%' ∧ low ≠ '%' := by
  have digit {c : Char} {value : Nat} (isForm : HexForm c value) : c ≠ '%' := by
    rintro rfl
    exact absurd isForm.isAlphanum (by decide)
  cases escape with
  | digits isHigh isLow => exact ⟨digit isHigh, digit isLow⟩
  | plus _ isLow => exact ⟨by decide, digit isLow⟩

theorem percent_infix_cons_iff {c : Char} (other : c ≠ '%') (text : List Char) :
    ['%', '+'] <:+: c :: text ↔ ['%', '+'] <:+: text := by
  rw [List.infix_cons_iff, List.cons_prefix_cons]
  simp [Ne.symm other]

theorem valueForm_false_iff {text : List Char} {bytes : Bytes} :
    ValueForm false text bytes ↔ ValueForm true text bytes ∧ ¬ ['%', '+'] <:+: text := by
  -- neither character of an escape is a percent sign, so a mark that starts inside it starts at its own
  have escapes {high low : Char} {byte : UInt8} (escape : EscapeForm true high low byte)
      (rest : List Char) : ['%', '+'] <:+: '%' :: high :: low :: rest ↔
        high = '+' ∨ ['%', '+'] <:+: rest := by
    obtain ⟨highOther, lowOther⟩ := escape.ne_percent
    rw [List.infix_cons_iff, percent_infix_cons_iff highOther, percent_infix_cons_iff lowOther]
    simp [eq_comm]
  constructor
  · intro isForm
    induction isForm with
    | nil => exact ⟨.nil, by simp⟩
    | plain unescaped _ ih =>
      exact ⟨.plain unescaped ih.1, by rw [percent_infix_cons_iff unescaped]; exact ih.2⟩
    | escaped escape _ ih =>
      obtain ⟨isEscape, notPlus⟩ := escapeForm_false_iff.mp escape
      refine ⟨.escaped isEscape ih.1, ?_⟩
      rw [escapes isEscape]
      exact not_or.mpr ⟨notPlus, ih.2⟩
  · rintro ⟨isForm, unsigned⟩
    induction isForm with
    | nil => exact .nil
    | plain unescaped _ ih =>
      rw [percent_infix_cons_iff unescaped] at unsigned
      exact .plain unescaped (ih unsigned)
    | escaped escape _ ih =>
      rw [escapes escape, not_or] at unsigned
      exact .escaped (escapeForm_false_iff.mpr ⟨escape, unsigned.1⟩) (ih unsigned.2)

theorem decimalForm_false_iff {text : List Char} {n : Nat} :
    DecimalForm false text n ↔ DecimalForm true text n ∧ text.head? ≠ some '+' := by
  constructor
  · rintro (⟨nonempty, digits⟩ | ⟨allowed, _, _⟩)
    · exact ⟨.digits nonempty digits, head?_ne_plus_of_digits digits⟩
    · cases allowed
  · rintro ⟨⟨nonempty, digits⟩ | _, notPlus⟩
    · exact .digits nonempty digits
    · exact absurd rfl notPlus

theorem DecimalForm.percent_not_mem {signed : Bool} {text : List Char} {n : Nat}
    (isNumber : DecimalForm signed text n) : '%' ∉ text := by
  have digits {text : List Char} (digits : ∀ c ∈ text, c.isDigit) : '%' ∉ text := fun member =>
    absurd (digits '%' member) (by decide)
  cases isNumber with
  | digits _ allDigits => exact digits allDigits
  | plus _ _ allDigits => exact List.not_mem_cons_of_ne_of_not_mem (by decide) (digits allDigits)

/-! ## Components -/

/-- A plus sign stands in an escape, or before the digits of a segment number. -/
def SignedPart (part : List Char) : Prop :=
  ['%', '+'] <:+: part ∨ segmentMark ++ ['+'] <+: part

instance (part : List Char) : Decidable (SignedPart part) :=
  inferInstanceAs (Decidable (_ ∨ _))

theorem SignedPart.ne_nil {part : List Char} (signed : SignedPart part) : part ≠ [] := by
  rintro rfl
  exact absurd signed (by decide)

theorem componentForm_false_iff {text : List Char} {component : Component} :
    ComponentForm false text component ↔
      ComponentForm true text component ∧ ¬ SignedPart text := by
  -- a number has no percent sign and a value no mark of a number, so each kind of part shows one of
  -- the two signs only
  have segments {number : List Char} {n : Nat} (isNumber : DecimalForm true number n) :
      SignedPart (segmentMark ++ number) ↔ number.head? = some '+' := by
    have noEscape : ¬ ['%', '+'] <:+: segmentMark ++ number := by
      intro inside
      have member : '%' ∈ segmentMark ++ number := inside.subset (by simp)
      rcases List.mem_append.mp member with marked | numbered
      · exact absurd marked (by decide)
      · exact isNumber.percent_not_mem numbered
    rw [SignedPart, or_iff_right noEscape, List.prefix_append_right_inj]
    cases number <;> simp [eq_comm]
  have values {part : List Char} (unmarked : ¬ segmentMark <+: part) :
      SignedPart part ↔ ['%', '+'] <:+: part := by
    rw [SignedPart, or_iff_left]
    exact fun signed => unmarked ((List.prefix_append _ _).trans signed)
  constructor
  · intro isForm
    cases isForm with
    | segment isNumber fits =>
      obtain ⟨isSigned, notPlus⟩ := decimalForm_false_iff.mp isNumber
      exact ⟨.segment isSigned fits, by rw [segments isSigned]; exact notPlus⟩
    | generic unmarked isValue allowed =>
      obtain ⟨isSigned, unsigned⟩ := valueForm_false_iff.mp isValue
      exact ⟨.generic unmarked isSigned allowed, by rw [values unmarked]; exact unsigned⟩
  · rintro ⟨isForm, unsigned⟩
    cases isForm with
    | segment isNumber fits =>
      rw [segments isNumber] at unsigned
      exact .segment (decimalForm_false_iff.mpr ⟨isNumber, unsigned⟩) fits
    | generic unmarked isValue allowed =>
      rw [values unmarked] at unsigned
      exact .generic unmarked (valueForm_false_iff.mpr ⟨isValue, unsigned⟩) allowed

/-! ## Marks in a path -/

section Marks

variable {mark front part rest : List Char} {parts : List (List Char)}

theorem eq_nil_of_prefix_of_slash (absent : '/' ∉ mark) (starts : mark <+: '/' :: rest) :
    mark = [] := by
  cases mark with
  | nil => rfl
  | cons c mark =>
    rw [List.cons_prefix_cons] at starts
    exact absurd (starts.1 ▸ List.mem_cons_self) absent

/-- A mark without a slash lies before a slash or behind it. -/
theorem infix_append_slash_iff (absent : '/' ∉ mark) :
    mark <:+: front ++ '/' :: rest ↔ mark <:+: front ∨ mark <:+: rest := by
  constructor
  · intro inside
    rcases List.infix_append_iff.mp inside with before | behind | ⟨left, right, rfl, ends, starts⟩
    · exact .inl before
    · rcases List.infix_cons_iff.mp behind with starts | behind
      · rw [eq_nil_of_prefix_of_slash absent starts]
        exact .inl (List.nil_infix)
      · exact .inr behind
    · rw [eq_nil_of_prefix_of_slash (fun member => absent (by simp [member])) starts,
        List.append_nil]
      exact .inl ends.isInfix
  · rintro (before | behind)
    · exact List.infix_append_of_infix_left before
    · exact List.infix_append_of_infix_right (List.infix_cons behind)

theorem infix_append_joined_iff (absent : '/' ∉ mark) :
    mark <:+: front ++ joined parts ↔ mark <:+: front ∨ ∃ part ∈ parts, mark <:+: part := by
  induction parts generalizing front with
  | nil => simp [joined]
  | cons part parts ih =>
    rw [joined_cons, infix_append_slash_iff absent, ih]
    simp

/-- A mark behind a slash starts what stands behind the first slash, or lies behind it. -/
theorem slash_infix_append_slash_iff (frontFree : '/' ∉ front) :
    '/' :: mark <:+: front ++ '/' :: rest ↔ mark <+: rest ∨ '/' :: mark <:+: rest := by
  induction front with
  | nil => rw [List.nil_append, List.infix_cons_iff, List.cons_prefix_cons, eq_self, true_and]
  | cons c front ih =>
    rw [List.mem_cons, not_or] at frontFree
    rw [List.cons_append, List.infix_cons_iff, List.cons_prefix_cons, ih frontFree.2]
    simp [frontFree.1]

theorem prefix_append_joined_iff (absent : '/' ∉ mark) :
    mark <+: part ++ joined parts ↔ mark <+: part := by
  refine ⟨fun starts => ?_, fun starts => List.prefix_append_of_prefix starts⟩
  rcases List.prefix_or_prefix_of_prefix starts (List.prefix_append part (joined parts)) with
    within | ⟨more, rfl⟩
  · exact within
  · -- what stands behind the part is nothing, or starts with a slash
    rw [List.prefix_append_right_inj] at starts
    have nothing : more = [] := by
      cases parts with
      | nil => exact List.prefix_nil.mp starts
      | cons next parts =>
        rw [joined_cons] at starts
        exact eq_nil_of_prefix_of_slash (fun member => absent (by simp [member])) starts
    simp [nothing]

theorem slash_infix_append_joined_iff (absent : '/' ∉ mark) (frontFree : '/' ∉ front)
    (free : ∀ part ∈ parts, '/' ∉ part) :
    '/' :: mark <:+: front ++ joined parts ↔ ∃ part ∈ parts, mark <+: part := by
  induction parts generalizing front with
  | nil =>
    simp only [joined, List.flatMap_nil, List.append_nil, List.not_mem_nil, false_and, exists_false,
      iff_false]
    exact fun inside => frontFree (inside.subset List.mem_cons_self)
  | cons part parts ih =>
    rw [List.forall_mem_cons] at free
    rw [joined_cons, slash_infix_append_slash_iff frontFree, prefix_append_joined_iff absent,
      ih free.1 free.2]
    simp

end Marks

/-! ## Names -/

/-- A plus sign stands in an escape, or before the digits of a segment number, in one of the parts of
the text. -/
def Signed (text : List Char) : Prop :=
  ['%', '+'] <:+: text ∨ '/' :: (segmentMark ++ ['+']) <:+: text

instance (text : List Char) : Decidable (Signed text) :=
  inferInstanceAs (Decidable (_ ∨ _))

theorem PathForm.signed_iff {text : List Char} {parts : List (List Char)}
    (isPath : PathForm text parts) : Signed text ↔ ∃ part ∈ parts, SignedPart part := by
  -- what stands before the first slash is nothing or the scheme, and neither sign occurs in it
  have behind {front : List Char} (frontFree : '/' ∉ front) (plain : ¬ ['%', '+'] <:+: front) :
      Signed (front ++ joined parts) ↔ ∃ part ∈ parts, SignedPart part := by
    rw [Signed, infix_append_joined_iff (by decide), or_iff_right plain,
      slash_infix_append_joined_iff (by decide) frontFree isPath.free]
    simp only [SignedPart, and_or_left, exists_or]
  rcases isPath.spelled with rfl | rfl
  · exact behind List.not_mem_nil (by decide)
  · exact behind (by decide) (by decide)

theorem nameForm_false_iff {text : List Char} {name : Name} :
    NameForm false text name ↔ NameForm true text name ∧ ¬ Signed text := by
  have each {parts : List (List Char)} (isPath : PathForm text parts) :
      List.Forall₂ (ComponentForm false) (parts.filter (· ≠ [])) name.components ↔
        List.Forall₂ (ComponentForm true) (parts.filter (· ≠ [])) name.components ∧
          ¬ Signed text := by
    have unsigned : (∀ part ∈ parts.filter (· ≠ []), ¬ SignedPart part) ↔ ¬ Signed text := by
      rw [isPath.signed_iff, not_exists]
      refine forall_congr' fun part => ?_
      simp only [List.mem_filter, decide_eq_true_eq, not_and]
      exact ⟨fun none member signed => none ⟨member, signed.ne_nil⟩ signed,
        fun none member => none member.1⟩
    have both : ComponentForm false = fun text component =>
        ¬ SignedPart text ∧ ComponentForm true text component := by
      funext text component
      rw [componentForm_false_iff, and_comm]
    rw [← unsigned, both, List.forall₂_and_left, and_comm]
  constructor
  · rintro ⟨parts, isPath, isForm⟩
    obtain ⟨isSigned, unsigned⟩ := (each isPath).mp isForm
    exact ⟨⟨parts, isPath, isSigned⟩, unsigned⟩
  · rintro ⟨⟨parts, isPath, isForm⟩, unsigned⟩
    exact ⟨parts, isPath, (each isPath).mpr ⟨isForm, unsigned⟩⟩

end Uri

/-- Reading gives a name for exactly the texts of the signed grammar.  Those of the plain one are the
ones that are read and have no plus sign where a digit should stand or before the digits of a number.
Of any other text the first part that is no component is reported, or the text where it is no path. -/
theorem Name.ofUri_exact (uri : String) :
    (∀ name, Name.ofUri uri = .ok name ↔ Uri.NameForm true uri.toList name) ∧
      (∀ name, Uri.NameForm false uri.toList name ↔
        Name.ofUri uri = .ok name ∧ ¬ Uri.Signed uri.toList) ∧
      ∀ error, Name.ofUri uri = .error error ↔ Uri.Refusal uri.toList error.text := by
  refine ⟨fun _ => Uri.toName_eq_ok_iff, fun name => ?_, fun _ => Uri.toName_eq_error_iff⟩
  rw [Uri.nameForm_false_iff, ← Uri.toName_eq_ok_iff]
  rfl

/-- A segment number and an escape with a plus sign are read, though neither text is a plain URI. -/
theorem Name.ofUri_plus :
    (Name.ofUri "/seg=+5" = .ok ⟨[.ofSegment 5]⟩ ∧
        ¬ ∃ name, Uri.NameForm false "/seg=+5".toList name) ∧
      Name.ofUri "/%+5" = .ok ⟨[.generic [5]]⟩ ∧
        ¬ ∃ name, Uri.NameForm false "/%+5".toList name := by
  have number : Uri.Signed "/seg=+5".toList := by decide +kernel
  have escape : Uri.Signed "/%+5".toList := by decide +kernel
  have unsigned {text : List Char} (signed : Uri.Signed text) :
      ¬ ∃ name, Uri.NameForm false text name := fun ⟨_, isForm⟩ =>
    (Uri.nameForm_false_iff.mp isForm).2 signed
  exact ⟨⟨by decide +kernel, unsigned number⟩, by decide +kernel, unsigned escape⟩

end SegmentRetrieval
