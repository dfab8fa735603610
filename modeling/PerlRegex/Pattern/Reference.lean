import PerlRegex.Pattern.Reading
namespace PerlRegex.Pattern

/-! References to groups, as a pattern writes them. Which groups there are is known only when the
whole pattern has been read, so a reference keeps the offset at which to report that it refers to
nothing. -/

inductive Reference where
  | number (group offset : Nat)
  | name (name : String) (offset : Nat)
  deriving DecidableEq, Repr

def longestName : Nat := 32

def readName (terminator : Char) (text : List UInt8) (offset : Nat) :
    Reading (String × Nat) :=
  let name := leading Ascii.isWord text
  if startsWithAny text Ascii.isDigit then refuseFor .nameStartsWithDigit offset
  else if name.isEmpty || !startsWith (text.drop name.length) terminator then
    refuse .invalidGroupName (offset + name.length)
  else if longestName < name.length then refuseFor .nameTooLong (offset + name.length)
  else .ok (Ascii.text name, name.length + 1)

/-- Group numbers are counted in 64 bits, and a longer number counts as the greatest. -/
def groupNumber (digits : List UInt8) : Nat :=
  min (Ascii.digitsValue 10 digits) 0xFFFFFFFFFFFFFFFF

/-- The group that a number refers to: by itself with no sign, and counted back from or on from the
groups opened so far with one. -/
def referredGroup (sign : Option Char) (number captures start : Nat) :
    Reading Nat :=
  match sign with
  | some '-' =>
      if number = 0 || captures < number then refuse .unknownGroupReference start
      else .ok (captures + 1 - number)
  | some _ =>
      if 0xFFFFFFFFFFFFFFFF < captures + number then .error .overflow
      else if captures + number = 0 then refuse .unknownGroupReference start
      else .ok (captures + number)
  | none => if number = 0 then refuse .unknownGroupReference start else .ok number

/-- What stands between the sign, if any, and the end of a reference after `\g`: digits, or in
braces and without a sign a name. `stop` is the offset behind the reference. -/
def interpretReference (content : List UInt8) (braced : Bool) (captures start stop : Nat) :
    Reading Reference :=
  let sign : Option Char :=
    if startsWith content '-' then some '-'
    else if startsWith content '+' then some '+'
    else none
  let body := if sign.isSome then content.tail else content
  if !body.isEmpty && body.all fun byte => Ascii.isDigit byte.toNat then do
    return .number (← referredGroup sign (groupNumber body) captures start) start
  else if braced && sign.isNone && !body.isEmpty && !startsWithAny body Ascii.isDigit
      && body.all fun byte => Ascii.isWord byte.toNat then
    .ok (.name (Ascii.text body) start)
  else refuseFor .zeroReference stop

def readRelativeReference (text : List UInt8) (captures start offset : Nat) :
    Reading (Reference × Nat) :=
  if startsWith text '\x7b' then
    match upTo '\x7d' text.tail with
    | none => refuseFor .zeroReference (offset + 1)
    | some content => do
        let used := content.length + 2
        return (← interpretReference content true captures start (offset + used), used)
  else if startsWith text '<' || startsWith text '\x27' then
    refuseFor (.unsupported .subroutineCall) offset
  else
    let signLength := if startsWith text '-' || startsWith text '+' then 1 else 0
    let used := signLength + (leadingDigits 10 (text.drop signLength)).length
    do return (← interpretReference (text.take used) false captures start (offset + used), used)

def readNamedReference (text : List UInt8) (start offset : Nat) :
    Reading (Reference × Nat) := do
  let terminator ←
    if startsWith text '<' then .ok '>'
    else if startsWith text '\x27' then .ok '\x27'
    else if startsWith text '\x7b' then .ok '\x7d'
    else refuseFor .missingReferenceName offset
  let (name, used) ← readName terminator text.tail (offset + 1)
  return (.name name start, used + 1)

end PerlRegex.Pattern
