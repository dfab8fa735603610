import PerlRegex.Utf8
namespace PerlRegex.Utf8

/-! The strict reader. Beyond the shape that `decode` asks for, a well-formed sequence has a
second byte within the bounds of its leading byte, which rules out overlong forms, surrogates and
code points above U+10FFFF. -/

def secondByteBounds (lead : UInt8) : UInt8 × UInt8 :=
  if lead = 0xE0 then (0xA0, 0xBF)
  else if lead = 0xED then (0x80, 0x9F)
  else if lead = 0xF0 then (0x90, 0xBF)
  else if lead = 0xF4 then (0x80, 0x8F)
  else (0x80, 0xBF)

def fittingBytes (lead : UInt8) : List UInt8 → Nat
  | [] => 0
  | second :: rest =>
      let (least, greatest) := secondByteBounds lead
      if announcedLength lead = 1 || second < least || greatest < second then 0
      else 1 + ((rest.take (announcedLength lead - 2)).takeWhile isContinuation).length

/-- Read one character strictly: the code point, or nothing if the bytes are malformed, and the
number of bytes to skip after the leading one. A malformed sequence extends as far as its bytes
could still have begun a character. -/
def readStrict (lead : UInt8) (rest : List UInt8) : Option Nat × Nat :=
  if lead < 0x80 then (some lead.toNat, 0)
  else
    let following := fittingBytes lead rest
    if following ≠ 0 ∧ following + 1 = announcedLength lead then
      (some (assemble lead (rest.take following)), following)
    else (none, following)

def invalidOffsetFrom? (offset : Nat) (bytes : List UInt8) : Option Nat :=
  match bytes with
  | [] => none
  | lead :: rest =>
      match readStrict lead rest with
      | (none, _) => some offset
      | (some _, following) =>
          invalidOffsetFrom? (offset + 1 + following) (rest.drop following)
termination_by bytes.length
decreasing_by simp only [List.length_drop, List.length_cons]; omega

def invalidOffset? (bytes : List UInt8) : Option Nat := invalidOffsetFrom? 0 bytes

def isValid (bytes : List UInt8) : Bool := (invalidOffset? bytes).isNone

def lossyCharacters (bytes : List UInt8) : List Char :=
  match bytes with
  | [] => []
  | lead :: rest =>
      let (codePoint, following) := readStrict lead rest
      (codePoint.elim (Char.ofNat 0xFFFD) Char.ofNat) :: lossyCharacters (rest.drop following)
termination_by bytes.length
decreasing_by simp only [List.length_drop, List.length_cons]; omega

def lossyText (bytes : List UInt8) : String := String.ofList (lossyCharacters bytes)

def text? (bytes : List UInt8) : Option String :=
  if isValid bytes then some (lossyText bytes) else none

def ofText (text : String) : List UInt8 := text.toUTF8.data.toList

end PerlRegex.Utf8
