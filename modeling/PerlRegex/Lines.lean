import PerlRegex.Options
import PerlRegex.Utf8
namespace PerlRegex

/-! Line ends in a text. All lengths and positions count bytes. A CR followed by an LF is one
sequence wherever both belong to the convention, and it is never cut in the middle. -/

structure LineRules where
  newline : Newline
  lineBreaks : LineBreaks
  utf8 : Bool
  deriving DecidableEq, Repr, Inhabited

namespace LineRules

/-- The length of NEL, LINE SEPARATOR or PARAGRAPH SEPARATOR at a position. Outside UTF-8 mode
only the byte of NEL counts, and in UTF-8 mode only the encoded characters do. -/
def unicodeBreakAt? (rules : LineRules) (text : Array UInt8) (position : Nat) : Option Nat :=
  if rules.utf8 then
    match Utf8.decodeAt text position with
    | some (codePoint, length) =>
        if [0x85, 0x2028, 0x2029].contains codePoint && 1 < length then some length else none
    | none => none
  else if text[position]? == some 0x85 then some 1
  else none

def newlineAt? (rules : LineRules) (text : Array UInt8) (position : Nat) : Option Nat :=
  match text[position]? with
  | none => none
  | some byte =>
      let followedByLf := text[position + 1]? == some 0x0A
      match rules.newline with
      | .lf => if byte = 0x0A then some 1 else none
      | .cr => if byte = 0x0D then some 1 else none
      | .crLf => if byte = 0x0D && followedByLf then some 2 else none
      | .anyCrLf =>
          if byte = 0x0D then some (if followedByLf then 2 else 1)
          else if byte = 0x0A then some 1
          else none
      | .any =>
          if byte = 0x0D then some (if followedByLf then 2 else 1)
          else if 0x0A ≤ byte && byte ≤ 0x0C then some 1
          else rules.unicodeBreakAt? text position

def newlineEndsAt (rules : LineRules) (text : Array UInt8) (position : Nat) : Bool :=
  if position = 0 then false
  else match text[position - 1]? with
    | none => false
    | some last =>
        let halfOfCrLf := last = 0x0D && text[position]? == some 0x0A
        match rules.newline with
        | .lf => last = 0x0A
        | .cr => last = 0x0D
        | .crLf => last = 0x0A && 2 ≤ position && text[position - 2]? == some 0x0D
        | .anyCrLf => !halfOfCrLf && (last = 0x0A || last = 0x0D)
        | .any =>
            !halfOfCrLf && ((0x0A ≤ last && last ≤ 0x0D)
              || [1, 2, 3].any fun length =>
                length ≤ position
                  && rules.unicodeBreakAt? text (position - length) == some length)

def lineBreakAt? (rules : LineRules) (text : Array UInt8) (position : Nat) : Option Nat :=
  match text[position]? with
  | none => none
  | some byte =>
      if byte = 0x0D then some (if text[position + 1]? == some 0x0A then 2 else 1)
      else if byte = 0x0A then some 1
      else match rules.lineBreaks with
        | .anyCrLf => none
        | .unicode =>
            if byte = 0x0B || byte = 0x0C then some 1
            else rules.unicodeBreakAt? text position

example : (LineRules.mk .anyCrLf .unicode true).newlineAt? #[0x61, 0x0D, 0x0A] 1 = some 2 := by
  decide
example : (LineRules.mk .any .unicode true).newlineEndsAt #[0x61, 0x0D, 0x0A] 2 = false := by
  decide

end LineRules

end PerlRegex
