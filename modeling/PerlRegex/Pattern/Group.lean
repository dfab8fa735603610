import PerlRegex.Options
import PerlRegex.Pattern.Reference
namespace PerlRegex.Pattern

/-! What an opening parenthesis begins, as the signs behind it say. -/

/-! ## Inline flags -/

structure Flags where
  caseless : Bool
  multiline : Bool
  dotAll : Bool
  extended : Bool
  ungreedy : Bool
  duplicateNames : Bool
  deriving DecidableEq, Repr

namespace Flags

def ofOptions (options : CompileOptions) : Flags where
  caseless := options.caseless
  multiline := options.multiline
  dotAll := options.dotAll
  extended := options.extended
  ungreedy := options.ungreedy
  duplicateNames := options.duplicateNames

def set? (flags : Flags) (on : Bool) : Char → Option Flags
  | 'i' => some { flags with caseless := on }
  | 'm' => some { flags with multiline := on }
  | 's' => some { flags with dotAll := on }
  | 'x' => some { flags with extended := on }
  | 'U' => some { flags with ungreedy := on }
  | 'J' => some { flags with duplicateNames := on }
  | _ => none

end Flags

/-! ## Openings

What an opening parenthesis and the signs behind it begin. Most openings begin a group. A comment, a
change of flags and a reference by name are complete with their closing parenthesis. -/

inductive Opening where
  | comment
  | setFlags (flags : Flags)
  | reference (name : String)
  /-- A group without capture, with flags of its own. -/
  | plain (flags : Flags)
  | capture
  | named (name : String)
  | atomic
  | lookahead (negated : Bool)
  | lookbehind (negated : Bool)
  deriving DecidableEq, Repr

/-- Flag letters up to the colon or the parenthesis behind them. Letters behind a hyphen turn their
flags off. `start` is the offset of the opening parenthesis, `offset` that of the text. -/
def readFlags (flags : Flags) (on : Bool) (text : List UInt8) (start offset : Nat) :
    Reading (Opening × Nat) :=
  match text with
  | [] => refuse .unterminatedGroup (start + 1)
  | byte :: rest =>
      match Char.ofUInt8 byte with
      | ')' => .ok (.setFlags flags, offset - start)
      | ':' => .ok (.plain flags, offset - start)
      | letter =>
          if letter == '-' && on then readFlags flags false rest start (offset + 1)
          else match flags.set? on letter with
            | some changed => readFlags changed on rest start (offset + 1)
            | none => refuse .unrecognizedGroupSyntax offset

/-- The opening whose signs begin with a question mark. `start` is the offset of the parenthesis and
`text` follows the question mark. Lengths are counted from behind the parenthesis. -/
def readSpecialOpening (flags : Flags) (text : List UInt8) (start : Nat) :
    Reading (Opening × Nat) :=
  let named (terminator : Char) (signs : Nat) : Reading (Opening × Nat) := do
    let (name, used) ←
      readName terminator (text.drop (signs - 1)) (start + 1 + signs)
    return (.named name, signs + used)
  let unsupported (construct : UnsupportedConstruct) : Reading (Opening × Nat) :=
    refuseFor (.unsupported construct) (start + 2)
  match text with
  | [] => refuse .unterminatedGroup (start + 1)
  | byte :: rest =>
      match Char.ofUInt8 byte with
      | '#' =>
          match upTo ')' rest with
          | none => refuseFor .unterminatedComment (start + 2 + text.length)
          | some comment => .ok (.comment, comment.length + 3)
      | ':' => .ok (.plain flags, 2)
      | '>' => .ok (.atomic, 2)
      | '=' => .ok (.lookahead false, 2)
      | '!' => .ok (.lookahead true, 2)
      | '<' =>
          if startsWith rest '=' then .ok (.lookbehind false, 3)
          else if startsWith rest '!' then .ok (.lookbehind true, 3)
          else named '>' 2
      | '\x27' => named '\x27' 2
      | 'P' =>
          if startsWith rest '<' then named '>' 3
          else if startsWith rest '=' then do
            let (name, used) ← readName ')' rest.tail (start + 4)
            return (.reference name, used + 3)
          else if startsWith rest '>' then unsupported .recursion
          else refuse .unrecognizedGroupSyntax (start + 2)
      | '|' => unsupported .branchReset
      | '(' => unsupported .conditional
      | 'C' => unsupported .callout
      | 'R' | '&' | '+' => unsupported .recursion
      | letter =>
          if Ascii.isDigit byte.toNat || (letter == '-' && startsWithAny rest Ascii.isDigit) then
            unsupported .recursion
          else readFlags flags true text start (start + 2)

def readOpening (settings : Settings) (flags : Flags) (text : List UInt8) (start : Nat) :
    Reading (Opening × Nat) :=
  if startsWith text '?' then readSpecialOpening flags text.tail start
  else if startsWith text '*' && startsWithAny text.tail Ascii.isUpper then
    refuseFor (.unsupported .verb) (start + 1)
  else if settings.noAutoCapture then .ok (.plain flags, 0)
  else .ok (.capture, 0)

end PerlRegex.Pattern
