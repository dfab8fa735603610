import PerlRegex.Regex
namespace PerlRegex

/-! A template is a replacement text with references to groups: `$1`, `$name`, and either of them
with braces around the name. A doubled dollar sign stands for one. A name without braces goes on as
long as it can, and a dollar sign that begins no reference stands for itself. -/

inductive TemplatePiece where
  | byte (byte : UInt8)
  | group (number : Nat)
  | named (name : String)
  deriving DecidableEq, Repr

abbrev Template := List TemplatePiece

namespace Template

def dollar : UInt8 := 0x24

def isWordByte (byte : UInt8) : Bool := Ascii.isWord byte.toNat

def readReference? (text : List UInt8) : Option (List UInt8 × Nat) :=
  if text.head? == some 0x7B then
    let inside := text.tail.takeWhile (· != 0x7D)
    if inside.length + 1 < text.length && !inside.isEmpty && inside.all isWordByte then
      some (inside, inside.length + 2)
    else none
  else
    let name := text.takeWhile isWordByte
    if name.isEmpty then none else some (name, name.length)

def reference (name : List UInt8) : TemplatePiece :=
  if name.all fun byte => Ascii.isDigit byte.toNat then .group (Ascii.digitsValue 10 name)
  else .named (Ascii.text name)

def parse (text : List UInt8) : Template :=
  match text with
  | [] => []
  | byte :: rest =>
      if byte ≠ dollar then .byte byte :: parse rest
      else if rest.head? == some dollar then .byte dollar :: parse (rest.drop 1)
      else match readReference? rest with
        | none => .byte dollar :: parse rest
        | some (name, used) => reference name :: parse (rest.drop used)
termination_by text.length
decreasing_by all_goals simp only [List.length_drop, List.length_cons]; omega

/-- The span that a reference stands for in a match. Of the groups with one name the first one that
took part counts. -/
def spanOf (regex : Regex) (captures : Captures) : TemplatePiece → Option Span
  | .byte _ => none
  | .group number => (captures[number]?).join
  | .named name =>
      match regex.groupNumbers name with
      | .ok numbers => numbers.findSome? fun number => (captures[number]?).join
      | .error _ => none

def expand (template : Template) (regex : Regex) (subject : Array UInt8) (captures : Captures) :
    List UInt8 :=
  template.flatMap fun
    | .byte byte => [byte]
    | piece => (spanOf regex captures piece).elim [] (·.bytes subject)

end Template

end PerlRegex
