import SegmentRetrieval.Name.Basic

/-! # Names as URIs

A name is written as its components, each after a slash.  A segment component is written `seg=N`, a
generic one as its escaped bytes, one of another type as `TYPE=` and its escaped bytes.  Letters,
digits and `-._~` stand for themselves and every other byte is written `%XX`; a value of periods
only, the empty one among them, is written with three more periods, since `.` and `..` mean
something else in a path.

Reading takes an optional `ndn:`, skips empty parts, and knows segment and generic components only.
It takes a plus sign in front of the digits of a segment number and of an escape.
-/

namespace SegmentRetrieval

/-- A text that is no name, or the part of it that is no component. -/
structure UriError where
  text : List Char
deriving DecidableEq, Repr

def UriError.message : UriError → String
  | ⟨text⟩ => "invalid name URI: " ++ String.ofList text

namespace Uri

/-! ## Escaping -/

/-- Whether a byte is the period. -/
def isPeriod (byte : UInt8) : Bool :=
  byte == 0x2e

/-- Whether a character stands for itself in a URI. -/
def isUnreserved (c : Char) : Bool :=
  c.isAlphanum || c == '-' || c == '.' || c == '_' || c == '~'

def upperHexDigit (digit : Nat) : Char :=
  (Nat.digitChar digit).toUpper

def escapeByte (byte : UInt8) : List Char :=
  let c := Char.ofNat byte.toNat
  if isUnreserved c then [c]
  else ['%', upperHexDigit (byte.toNat / 16), upperHexDigit (byte.toNat % 16)]

/-- The text of a component value. -/
def escape (value : Bytes) : List Char :=
  if value.all isPeriod then List.replicate (value.length + 3) '.' else value.flatMap escapeByte

/-! ## Unescaping -/

/-- The value of a hexadecimal digit of either case. -/
def hexValue? (c : Char) : Option Nat :=
  if c.isDigit then some (c.toNat - '0'.toNat)
  else if 'a' ≤ c ∧ c ≤ 'f' then some (c.toNat - 'a'.toNat + 10)
  else if 'A' ≤ c ∧ c ≤ 'F' then some (c.toNat - 'A'.toNat + 10)
  else none

/-- The byte written by the two characters after a percent sign: two digits, or a plus sign and one. -/
def escapedByte? (high low : Char) : Option UInt8 :=
  if high = '+' then (hexValue? low).map UInt8.ofNat
  else
    match hexValue? high, hexValue? low with
    | some high, some low => some (UInt8.ofNat (high * 16 + low))
    | _, _ => none

/-- The bytes a text stands for: escapes replaced by their bytes, all else in UTF-8. -/
def unescape? : List Char → Option Bytes
  | [] => some []
  | '%' :: high :: low :: rest =>
    match escapedByte? high low, unescape? rest with
    | some byte, some bytes => some (byte :: bytes)
    | _, _ => none
  | c :: rest =>
    if c = '%' then none else (unescape? rest).map (String.utf8EncodeChar c ++ ·)

/-! ## Components -/

/-- The number that a non-empty run of decimal digits spells, after an optional plus sign. -/
def decimal? (text : List Char) : Option Nat :=
  let digits := if text.head? = some '+' then text.tail else text
  if digits ≠ [] ∧ digits.all Char.isDigit then some (Nat.ofDigitChars 10 digits 0) else none

/-- The mark of a segment number. -/
def segmentMark : List Char := ['s', 'e', 'g', '=']

def ofComponent (component : Component) : List Char :=
  match component.segment? with
  | some n => segmentMark ++ Nat.toDigits 10 n.toNat
  | none =>
    if component.type = Tlv.genericComponentType then escape component.value
    else Nat.toDigits 10 component.type.toNat ++ '=' :: escape component.value

/-- The value behind the bytes of a generic component: one of periods only is written with three
more, so fewer than three stand for nothing. -/
def removePadding? (value : Bytes) : Option Bytes :=
  if value ≠ [] ∧ value.all isPeriod then
    if value.length < 3 then none else some (value.drop 3)
  else some value

/-- The segment component of a decimal number that 64 bits hold. -/
def segmentComponent? (text : List Char) : Option Component :=
  match decimal? text with
  | none => none
  | some n => if n < UInt64.size then some (.ofSegment (UInt64.ofNat n)) else none

def genericComponent? (text : List Char) : Option Component :=
  ((unescape? text).bind removePadding?).map .generic

def toComponent (text : List Char) : Except UriError Component :=
  let component :=
    if segmentMark.isPrefixOf text then segmentComponent? (text.drop segmentMark.length)
    else genericComponent? text
  match component with
  | some component => .ok component
  | none => .error ⟨text⟩

/-! ## Names -/

/-- The scheme that may stand before a name. -/
def scheme : List Char := ['n', 'd', 'n', ':']

def withoutScheme (text : List Char) : List Char :=
  if scheme.isPrefixOf text then text.drop scheme.length else text

/-- The non-empty parts of a path. -/
def parts (path : List Char) : List (List Char) :=
  (path.splitOn '/').filter (! ·.isEmpty)

def ofName (name : Name) : List Char :=
  if name.components = [] then ['/']
  else name.components.flatMap fun component => '/' :: ofComponent component

def toName (text : List Char) : Except UriError Name :=
  let path := withoutScheme text
  if path.head? = some '/' then ((parts path).mapM toComponent).map Name.mk else .error ⟨text⟩

end Uri

/-- The text of a component. -/
def Component.toUri (component : Component) : String :=
  String.ofList (Uri.ofComponent component)

/-- The component a text stands for. -/
def Component.ofUri (text : String) : Except UriError Component :=
  Uri.toComponent text.toList

/-- The URI of a name. -/
def Name.toUri (name : Name) : String :=
  String.ofList (Uri.ofName name)

/-- The name a URI stands for. -/
def Name.ofUri (uri : String) : Except UriError Name :=
  Uri.toName uri.toList

end SegmentRetrieval
