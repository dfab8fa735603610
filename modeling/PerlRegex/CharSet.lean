import PerlRegex.CaseFolding
import PerlRegex.Unicode.Property
import PerlRegex.Utf8
namespace PerlRegex

/-! Sets of characters, as the bracketed classes and the class escapes of a pattern describe them.
A character is its code point: a Unicode scalar value in UTF-8 mode and a byte value otherwise.
Whether the escapes and the POSIX classes go by Unicode properties (`ucp`) is a parameter of every
test. -/

inductive EscapeClass where
  | digit
  | word
  | space
  | horizontalSpace
  | verticalSpace
  deriving DecidableEq, Repr

inductive PosixClass where
  | alnum
  | alpha
  | ascii
  | blank
  | cntrl
  | digit
  | graph
  | lower
  | print
  | punct
  | space
  | upper
  | word
  | xdigit
  deriving DecidableEq, Repr

inductive Property where
  | any
  | letter
  | uppercase
  | lowercase
  | number
  | decimalNumber
  | separator
  | control
  | punctuation
  | alphanumeric
  | perlSpace
  | perlWord
  deriving DecidableEq, Repr

/-! ## Membership -/

def isWordCharacter (ucp : Bool) (character : Nat) : Bool :=
  Ascii.isWord character || (ucp && Unicode.isAlphanumeric character)

def EscapeClass.contains (ucp : Bool) (character : Nat) : EscapeClass → Bool
  | digit => Ascii.isDigit character || (ucp && Unicode.isDecimal character)
  | word => isWordCharacter ucp character
  | space => Ascii.isSpace character || (ucp && Unicode.isWhiteSpace character)
  | horizontalSpace =>
      [0x09, 0x20, 0xA0, 0x1680, 0x180E, 0x202F, 0x205F, 0x3000].contains character
        || (0x2000 ≤ character && character ≤ 0x200A)
  | verticalSpace =>
      (0x0A ≤ character && character ≤ 0x0D) || [0x85, 0x2028, 0x2029].contains character

def PosixClass.containsAscii (character : Nat) : PosixClass → Bool
  | alnum => Ascii.isAlphanumeric character
  | alpha => Ascii.isLetter character
  | ascii => character < 0x80
  | blank => character == 0x20 || character == 0x09
  | cntrl => Ascii.isControl character
  | digit => Ascii.isDigit character
  | graph => Ascii.isGraphic character
  | lower => Ascii.isLower character
  | print => Ascii.isGraphic character || character == 0x20
  | punct => Ascii.isPunctuation character
  | space => Ascii.isSpace character
  | upper => Ascii.isUpper character
  | word => Ascii.isWord character
  | xdigit => Ascii.isHexDigit character

/-- With `ucp` the classes that a Unicode property answers to go by that property, the others
stay within ASCII. -/
def PosixClass.contains (ucp : Bool) (character : Nat) (posixClass : PosixClass) : Bool :=
  if !ucp then posixClass.containsAscii character
  else match posixClass with
    | alpha => Unicode.isAlphabetic character
    | alnum => Unicode.isAlphanumeric character
    | lower => Unicode.isLowercase character
    | upper => Unicode.isUppercase character
    | digit => Unicode.isDecimal character
    | space => Unicode.isWhiteSpace character
    | word => isWordCharacter true character
    | other => other.containsAscii character

def Property.contains (character : Nat) : Property → Bool
  | any => Utf8.isScalar character
  | letter => Unicode.isAlphabetic character
  | uppercase => Unicode.isUppercase character
  | lowercase => Unicode.isLowercase character
  | number => Unicode.isNumeric character
  | decimalNumber => Unicode.isDecimal character
  | separator => Unicode.isWhiteSpace character && !Unicode.isControl character
  | control => Unicode.isControl character
  | punctuation => Ascii.isPunctuation character || Unicode.isWidePunctuation character
  | alphanumeric => Unicode.isAlphanumeric character
  | perlSpace => Unicode.isWhiteSpace character
  | perlWord => isWordCharacter true character

/-! ## Names -/

def PosixClass.ofName? : String → Option PosixClass
  | "alnum" => some alnum
  | "alpha" => some alpha
  | "ascii" => some ascii
  | "blank" => some blank
  | "cntrl" => some cntrl
  | "digit" => some digit
  | "graph" => some graph
  | "lower" => some lower
  | "print" => some print
  | "punct" => some punct
  | "space" => some space
  | "upper" => some upper
  | "word" => some word
  | "xdigit" => some xdigit
  | _ => none

def Property.ofName? : String → Option Property
  | "Any" => some any
  | "L" | "L&" | "Letter" => some letter
  | "Lu" => some uppercase
  | "Ll" => some lowercase
  | "N" => some number
  | "Nd" => some decimalNumber
  | "Z" | "Zs" => some separator
  | "Cc" => some control
  | "P" => some punctuation
  | "Xan" => some alphanumeric
  | "Xsp" | "Xps" => some perlSpace
  | "Xwd" => some perlWord
  | _ => none

/-! ## Sets -/

inductive CharSetItem where
  | range (first last : Nat)
  | escape (kind : EscapeClass) (negated : Bool)
  | posix (kind : PosixClass) (negated : Bool)
  | property (kind : Property) (negated : Bool)
  deriving DecidableEq, Repr

def CharSetItem.contains (ucp : Bool) (character : Nat) : CharSetItem → Bool
  | .range first last => first ≤ character && character ≤ last
  | .escape kind negated => kind.contains ucp character != negated
  | .posix kind negated => kind.contains ucp character != negated
  | .property kind negated => kind.contains character != negated

structure CharSet where
  negated : Bool
  caseless : Bool
  items : List CharSetItem
  deriving DecidableEq, Repr

namespace CharSet

def single (item : CharSetItem) : CharSet where
  negated := false
  caseless := false
  items := [item]

def containsExactly (set : CharSet) (ucp : Bool) (character : Nat) : Bool :=
  set.items.any (·.contains ucp character)

/-- A caseless set takes a character if it holds any of the character's variants. Negation comes
last. -/
def contains (set : CharSet) (ucp : Bool) (character : Nat) : Bool :=
  (set.containsExactly ucp character
    || (set.caseless && (CaseFolding.variants character).tail.any (set.containsExactly ucp)))
    != set.negated

/-- Whether the members are known to be ASCII characters. Caseless sets are not: the variants of
an ASCII letter may lie beyond. -/
def isAsciiOnly (set : CharSet) : Bool :=
  !set.negated && !set.caseless && set.items.all fun
    | .range _ last => last < 0x80
    | _ => false

example : (CharSet.mk false true [.range 0x61 0x63]).contains false 0x42 = true := by
  decide +kernel
example : (CharSet.single (.escape .word false)).contains false 0xE9 = false := by decide +kernel

end CharSet

end PerlRegex
