import PerlRegex.Unicode.Alphabetic
import PerlRegex.Unicode.Lowercase
import PerlRegex.Unicode.Uppercase
import PerlRegex.Unicode.Numeric
import PerlRegex.Unicode.WhiteSpace
namespace PerlRegex.Unicode

/-! Properties of code points. A number that is no code point has none of them. -/

def isAlphabetic (codePoint : Nat) : Bool := alphabetic.contains codePoint

def isLowercase (codePoint : Nat) : Bool := lowercase.contains codePoint

def isUppercase (codePoint : Nat) : Bool := uppercase.contains codePoint

def isNumeric (codePoint : Nat) : Bool := numeric.contains codePoint

def isAlphanumeric (codePoint : Nat) : Bool := isAlphabetic codePoint || isNumeric codePoint

def isWhiteSpace (codePoint : Nat) : Bool := whiteSpace.contains codePoint

def isControl (codePoint : Nat) : Bool :=
  codePoint < 0x20 || (0x7F ≤ codePoint && codePoint < 0xA0)

/-- The first digits of the scripts whose ten decimal digits are recognised. -/
def decimalZeros : List Nat := [
  0x30, 0x660, 0x6F0, 0x7C0, 0x966, 0x9E6, 0xA66, 0xAE6, 0xB66, 0xBE6, 0xC66, 0xCE6, 0xD66, 0xE50,
  0xED0, 0xF20, 0x1040, 0xFF10]

def isDecimal (codePoint : Nat) : Bool :=
  decimalZeros.any fun first => first ≤ codePoint && codePoint < first + 10

def widePunctuation : List (Nat × Nat) := [
  (0xA1, 0xA1), (0xA7, 0xA7), (0xAB, 0xAB), (0xB6, 0xB7), (0xBB, 0xBB), (0xBF, 0xBF),
  (0x2010, 0x2027), (0x2030, 0x205E), (0x3001, 0x3003)]

def isWidePunctuation (codePoint : Nat) : Bool :=
  widePunctuation.any fun (first, last) => first ≤ codePoint && codePoint ≤ last

end PerlRegex.Unicode
