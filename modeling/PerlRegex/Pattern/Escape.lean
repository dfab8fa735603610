import PerlRegex.Pattern.Node
import PerlRegex.Pattern.Reference
namespace PerlRegex.Pattern

/-! ## Escapes for one character -/

def checkCharacter (settings : Settings) (value offset : Nat) : Reading Nat :=
  let greatest := if settings.utf8 then 0x10FFFF else 0xFF
  if greatest < value then refuseFor .characterTooLarge offset
  else if settings.utf8 && 0xD800 ≤ value && value ≤ 0xDFFF then
    refuseFor .surrogateCharacter offset
  else .ok value

def readBracedNumber (radix : Nat) (text : List UInt8) (offset : Nat) :
    Reading (Nat × Nat) :=
  let digits := leadingDigits radix text.tail
  if !startsWith text '\x7b' then refuse .invalidEscape offset
  else if digits.isEmpty || !startsWith (text.tail.drop digits.length) '\x7d' then
    refuse .invalidEscape (offset + 1 + digits.length)
  else .ok (Ascii.digitsValue radix digits, digits.length + 2)

def controlCharacter (codePoint : Nat) : Nat := Ascii.toUpper codePoint ^^^ 0x40

/-- The character that an escape stands for. The byte after the backslash is `byte`, at `offset`,
and the length read does not count it. -/
def readCharacterEscape (settings : Settings) (byte : UInt8) (rest : List UInt8)
    (offset : Nat) : Reading (Nat × Nat) :=
  match Char.ofUInt8 byte with
  | 'a' => .ok (0x07, 0)
  | 'e' => .ok (0x1B, 0)
  | 'f' => .ok (0x0C, 0)
  | 'n' => .ok (0x0A, 0)
  | 'r' => .ok (0x0D, 0)
  | 't' => .ok (0x09, 0)
  | '0' => .ok (readDigits 8 2 rest)
  | 'o' => do
      let (value, used) ← readBracedNumber 8 rest (offset + 1)
      return (← checkCharacter settings value offset, used)
  | 'x' =>
      if startsWith rest '\x7b' then do
        let (value, used) ← readBracedNumber 16 rest (offset + 1)
        return (← checkCharacter settings value offset, used)
      else .ok (readDigits 16 2 rest)
  | 'c' =>
      match rest with
      | [] => refuseFor .controlAtEnd (offset + 1)
      | controlled :: _ =>
          if 0x80 ≤ controlled || Ascii.isControl controlled.toNat then
            refuseFor .controlNotAscii (offset + 1)
          else .ok (controlCharacter controlled.toNat, 1)
  | _ =>
      if Ascii.isAlphanumeric byte.toNat then
        if settings.extra then refuse .unknownEscape (offset + 1) else .ok (byte.toNat, 0)
      else .ok (readCharacter settings byte rest)

/-! ## Escapes for sets of characters -/

def escapeClass? : Char → Option (EscapeClass × Bool)
  | 'd' => some (.digit, false)
  | 'D' => some (.digit, true)
  | 'w' => some (.word, false)
  | 'W' => some (.word, true)
  | 's' => some (.space, false)
  | 'S' => some (.space, true)
  | 'h' => some (.horizontalSpace, false)
  | 'H' => some (.horizontalSpace, true)
  | 'v' => some (.verticalSpace, false)
  | 'V' => some (.verticalSpace, true)
  | _ => none

/-- The property named after `\p` or `\P`: one letter, or a name in braces that a circumflex may
negate once more. -/
def readProperty (negated : Bool) (text : List UInt8) (offset : Nat) :
    Reading (CharSetItem × Nat) :=
  if startsWith text '\x7b' then
    let signLength := if startsWith text.tail '^' then 1 else 0
    match upTo '\x7d' (text.tail.drop signLength) with
    | none => refuseFor .malformedProperty (offset + text.length)
    | some name =>
        let used := signLength + name.length + 2
        match Property.ofName? (Ascii.text name) with
        | none => refuse .unknownProperty (offset + used)
        | some kind => .ok (.property kind (negated != (signLength == 1)), used)
  else if startsWithAny text Ascii.isLetter then
    match Property.ofName? (Ascii.text (text.take 1)) with
    | none => refuse .unknownProperty (offset + 1)
    | some kind => .ok (.property kind negated, 1)
  else refuseFor .malformedProperty offset

/-! ## Quoted text -/

def readQuoted (settings : Settings) (text : List UInt8) : List Nat × Nat :=
  match text with
  | [] => ([], 0)
  | byte :: rest =>
      if Char.ofUInt8 byte == '\\' && startsWith rest 'E' then ([], 2)
      else
        let (character, following) := readCharacter settings byte rest
        let (characters, used) := readQuoted settings (rest.drop following)
        (character :: characters, 1 + following + used)
termination_by text.length
decreasing_by simp only [List.length_drop, List.length_cons]; omega

/-! ## Escapes outside brackets -/

inductive Escape where
  /-- Characters to be matched one after another. Quoted text may be empty. -/
  | characters (characters : List Nat)
  | set (item : CharSetItem)
  | notNewline
  | lineBreak
  | assertion (assertion : Assertion)
  | reference (reference : Reference)

/-- Digits after a backslash refer to a group if they can: if the number has one digit, if so many
groups are open already, or if the digits cannot be octal. Otherwise up to three octal digits give a
character. -/
def readNumericEscape (settings : Settings) (captures : Nat) (text : List UInt8) (start : Nat) :
    Reading (Escape × Nat) :=
  let digits := leadingDigits 10 text
  let number := groupNumber digits
  if 10 ≤ number && captures < number && startsWithAny text (· < 0x38) then do
    let (value, used) := readDigits 8 3 text
    return (.characters [← checkCharacter settings value start], used)
  else .ok (.reference (.number number start), digits.length)

def readEscape (settings : Settings) (captures : Nat) (text : List UInt8) (start : Nat) :
    Reading (Escape × Nat) :=
  match text with
  | [] => refuse .trailingEscape (start + 1)
  | byte :: rest =>
      let behind := start + 2
      match Char.ofUInt8 byte with
      | 'Q' =>
          let (characters, used) := readQuoted settings rest
          .ok (.characters characters, used + 1)
      | 'E' => .ok (.characters [], 1)
      | 'R' => .ok (.lineBreak, 1)
      | 'A' => .ok (.assertion .startOfText, 1)
      | 'z' => .ok (.assertion .endOfText, 1)
      | 'Z' => .ok (.assertion .endOfTextOrFinalNewline, 1)
      | 'G' => .ok (.assertion .startOffset, 1)
      | 'b' => .ok (.assertion (.wordBoundary false), 1)
      | 'B' => .ok (.assertion (.wordBoundary true), 1)
      | 'N' =>
          if startsWith rest '\x7b' then refuseFor (.unsupported (.escape 'N')) (start + 1)
          else .ok (.notNewline, 1)
      | 'g' => do
          let (reference, used) ← readRelativeReference rest captures start behind
          return (.reference reference, used + 1)
      | 'k' => do
          let (reference, used) ← readNamedReference rest start behind
          return (.reference reference, used + 1)
      | 'p' | 'P' => do
          let (item, used) ← readProperty (Char.ofUInt8 byte == 'P') rest behind
          return (.set item, used + 1)
      | 'X' | 'C' | 'K' | 'L' | 'l' | 'U' | 'u' =>
          refuseFor (.unsupported (.escape (Char.ofUInt8 byte))) (start + 1)
      | letter =>
          match escapeClass? letter with
          | some (kind, negated) => .ok (.set (.escape kind negated), 1)
          | none =>
              if Ascii.isDigit byte.toNat && letter != '0' then
                readNumericEscape settings captures text start
              else do
                let (character, used) ← readCharacterEscape settings byte rest (start + 1)
                return (.characters [character], used + 1)

end PerlRegex.Pattern
