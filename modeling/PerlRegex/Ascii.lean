namespace PerlRegex.Ascii

/-! Classes of ASCII characters, as tests on code points. A code point beyond ASCII belongs to
none of them. -/

def isDigit (codePoint : Nat) : Bool := 0x30 ≤ codePoint && codePoint ≤ 0x39

def isUpper (codePoint : Nat) : Bool := 0x41 ≤ codePoint && codePoint ≤ 0x5A

def isLower (codePoint : Nat) : Bool := 0x61 ≤ codePoint && codePoint ≤ 0x7A

def isLetter (codePoint : Nat) : Bool := isUpper codePoint || isLower codePoint

def isAlphanumeric (codePoint : Nat) : Bool := isLetter codePoint || isDigit codePoint

def isWord (codePoint : Nat) : Bool := isAlphanumeric codePoint || codePoint == 0x5F

def isHexDigit (codePoint : Nat) : Bool :=
  isDigit codePoint || (0x41 ≤ codePoint && codePoint ≤ 0x46)
    || (0x61 ≤ codePoint && codePoint ≤ 0x66)

def isControl (codePoint : Nat) : Bool := codePoint < 0x20 || codePoint == 0x7F

def isGraphic (codePoint : Nat) : Bool := 0x21 ≤ codePoint && codePoint ≤ 0x7E

def isPunctuation (codePoint : Nat) : Bool := isGraphic codePoint && !isAlphanumeric codePoint

def isSpace (codePoint : Nat) : Bool :=
  (0x09 ≤ codePoint && codePoint ≤ 0x0D) || codePoint == 0x20

def toUpper (codePoint : Nat) : Nat := if isLower codePoint then codePoint - 0x20 else codePoint

def toLower (codePoint : Nat) : Nat := if isUpper codePoint then codePoint + 0x20 else codePoint

def digitValue? (radix codePoint : Nat) : Option Nat :=
  let value :=
    if isDigit codePoint then codePoint - 0x30
    else if isLetter codePoint then toLower codePoint - 0x61 + 10
    else radix
  if value < radix then some value else none

/-- The number that digits of a radix write. Bytes that are no digits count as zeros. -/
def digitsValue (radix : Nat) (digits : List UInt8) : Nat :=
  digits.foldl
    (fun value digit => value * radix + (digitValue? radix digit.toNat).getD 0) 0

/-- Bytes as text, every byte one character. Text that is meant to be ASCII is compared in this
form. -/
def text (bytes : List UInt8) : String := String.ofList (bytes.map Char.ofUInt8)

example : digitValue? 16 0x66 = some 15 := rfl
example : digitValue? 8 0x38 = none := rfl
example : digitsValue 10 [0x34, 0x32] = 42 := rfl

end PerlRegex.Ascii
