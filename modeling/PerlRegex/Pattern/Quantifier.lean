import PerlRegex.Pattern.Reading
namespace PerlRegex.Pattern

/-! Quantifiers: `*`, `+`, `?` and numbers in braces, each with an optional sign for its manner
after it. -/

def greatestRepeat : Nat := 65535

structure RepeatBounds where
  least : Nat
  greatest : Option Nat
  deriving DecidableEq, Repr

/-! ## Numbers in braces -/

/-- The digits inside braces that make a quantifier: one number, or two numbers and a comma between
them, of which the second may be missing. -/
structure Braces where
  low : List UInt8
  high : Option (List UInt8)
  deriving DecidableEq, Repr

namespace Braces

def scan? (text : List UInt8) : Option Braces :=
  let low := leadingDigits 10 text
  let rest := text.drop low.length
  if low.isEmpty then none
  else if startsWith rest '}' then some ⟨low, none⟩
  else if startsWith rest ',' then
    let high := leadingDigits 10 rest.tail
    if startsWith (rest.tail.drop high.length) '}' then some ⟨low, some high⟩ else none
  else none

def length (braces : Braces) : Nat :=
  braces.low.length + (braces.high.elim 0 fun high => high.length + 1)

def number (digits : List UInt8) (endOffset : Nat) : Reading Nat :=
  let value := Ascii.digitsValue 10 digits
  if greatestRepeat < value then refuse .quantifierTooBig endOffset else .ok value

def bounds (braces : Braces) (offset : Nat) : Reading RepeatBounds := do
  let least ← number braces.low (offset + 1 + braces.low.length)
  match braces.high with
  | none => return ⟨least, some least⟩
  | some [] => return ⟨least, none⟩
  | some high =>
      let greatest ← number high (offset + 1 + braces.length)
      if greatest < least then
        refuse .quantifierOutOfOrder (offset + 1 + braces.length)
      else return ⟨least, some greatest⟩

end Braces

/-! ## The manner of a repetition -/

structure RepeatManner where
  greedy : Bool
  possessive : Bool
  deriving DecidableEq, Repr

def readManner (ungreedy : Bool) (text : List UInt8) : RepeatManner × Nat :=
  if startsWith text '?' then (⟨ungreedy, false⟩, 1)
  else if startsWith text '+' then (⟨true, true⟩, 1)
  else (⟨!ungreedy, false⟩, 0)

end PerlRegex.Pattern
