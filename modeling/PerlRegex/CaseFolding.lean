import PerlRegex.Ascii
import PerlRegex.Unicode.ToLowercase
import PerlRegex.Unicode.ToUppercase
namespace PerlRegex.CaseFolding

/-! Two characters match each other without regard to case if a chain of case partners leads from
one to the other. Partners are a small letter and its capital, and the pairs of `extraPairs`, which
tie further forms of a letter to its small form. -/

/-- The small letters that have another form, each with that form. -/
def extraPairs : List (Nat × Nat) := [
  (0x73, 0x17F), (0x6B, 0x212A), (0xE5, 0x212B), (0xDF, 0x1E9E), (0x3BC, 0xB5), (0x3B2, 0x3D0),
  (0x3B5, 0x3F5), (0x3B8, 0x3D1), (0x3B8, 0x3F4), (0x3B9, 0x345), (0x3B9, 0x1FBE), (0x3BA, 0x3F0),
  (0x3C0, 0x3D6), (0x3C1, 0x3F1), (0x3C3, 0x3C2), (0x3C6, 0x3D5), (0x3C9, 0x2126)]

def letterCases (codePoint : Nat) : List Nat :=
  if codePoint < 0x80 then
    if Ascii.isLower codePoint then [Ascii.toUpper codePoint]
    else if Ascii.isUpper codePoint then [Ascii.toLower codePoint]
    else []
  else
    (Unicode.toLowercase.find? codePoint).toList ++ (Unicode.toUppercase.find? codePoint).toList

def extraCases (codePoint : Nat) : List Nat :=
  extraPairs.filterMap fun (small, other) =>
    if codePoint = small then some other
    else if codePoint = other then some small
    else none

def partners (codePoint : Nat) : List Nat := letterCases codePoint ++ extraCases codePoint

def appendNew (found : List Nat) : List Nat → List Nat
  | [] => found
  | codePoint :: rest =>
      if found.contains codePoint then appendNew found rest
      else appendNew (found ++ [codePoint]) rest

/-- Look at up to `budget` members of `found`, beginning with the one numbered `next`, and append
the partners of each. Members appended on the way are looked at in their turn. -/
def closeFrom : (budget next : Nat) → (found : List Nat) → List Nat
  | 0, _, found => found
  | budget + 1, next, found =>
      match found[next]? with
      | none => found
      | some codePoint => closeFrom budget (next + 1) (appendNew found (partners codePoint))

/-- More than the number of characters that can match one another. The largest families, those of
theta and of iota, have four members. -/
def familyBound : Nat := 8

def variants (codePoint : Nat) : List Nat := closeFrom familyBound 0 [codePoint]

/-- The representative by which two characters are compared. Outside UTF-8 mode only the letters
of ASCII have cases. -/
def fold (utf8 : Bool) (codePoint : Nat) : Nat :=
  if codePoint < 0x80 then Ascii.toLower codePoint
  else if !utf8 then codePoint
  else match extraPairs.find? fun (_, other) => other == codePoint with
    | some (small, _) => small
    | none => (Unicode.toLowercase.find? codePoint).getD codePoint

example : variants 0x6B = [0x6B, 0x4B, 0x212A] := by decide +kernel
example : variants 0x31 = [0x31] := by decide +kernel
example : fold true 0x212A = 0x6B := by decide +kernel
example : fold false 0xC9 = 0xC9 := by decide +kernel

end PerlRegex.CaseFolding
