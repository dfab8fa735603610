import PerlRegex.Ascii
import PerlRegex.Error
import PerlRegex.Utf8
namespace PerlRegex.Pattern

/-! Reading a pattern means reading pieces off the front of its bytes. A reader is given the bytes
that follow some point together with their offset. It answers with what it read and with the
number of bytes that this took, so whoever calls it can see that the text left over is a tail of
the text it had. -/

/-- Why reading stopped: a fault of the pattern, or a group number that does not fit 64 bits. -/
inductive ReadFailure where
  | fault (fault : CompileFault) (offset : Nat)
  | overflow
  deriving DecidableEq, Repr

/-- Reading something gives it or stops. A reader of a piece gives a pair: the piece, and the
number of bytes it took. -/
abbrev Reading := Except ReadFailure

def refuse (kind : CompileErrorKind) (offset : Nat) : Reading α :=
  .error (.fault (.usual kind) offset)

def refuseFor (fault : CompileFault) (offset : Nat) : Reading α :=
  .error (.fault fault offset)

structure Settings where
  utf8 : Bool
  dollarEndOnly : Bool
  noAutoCapture : Bool
  extra : Bool

def leading (test : Nat → Bool) (text : List UInt8) : List UInt8 :=
  text.takeWhile fun byte => test byte.toNat

def startsWith (text : List UInt8) (character : Char) : Bool :=
  text.head?.any fun byte => Char.ofUInt8 byte == character

def startsWithAny (text : List UInt8) (test : Nat → Bool) : Bool :=
  text.head?.any fun byte => test byte.toNat

def upTo (character : Char) (text : List UInt8) : Option (List UInt8) :=
  let before := text.takeWhile fun byte => Char.ofUInt8 byte != character
  if before.length < text.length then some before else none

/-- The character whose first byte is `lead`, with the number of further bytes it takes. -/
def readCharacter (settings : Settings) (lead : UInt8) (rest : List UInt8) : Nat × Nat :=
  if settings.utf8 then
    match Utf8.decode (lead :: rest) with
    | some (codePoint, length) => (codePoint, length - 1)
    | none => (lead.toNat, 0)
  else (lead.toNat, 0)

def leadingDigits (radix : Nat) (text : List UInt8) : List UInt8 :=
  leading (fun codePoint => (Ascii.digitValue? radix codePoint).isSome) text

def readDigits (radix most : Nat) (text : List UInt8) : Nat × Nat :=
  let digits := leadingDigits radix (text.take most)
  (Ascii.digitsValue radix digits, digits.length)

end PerlRegex.Pattern
