import PerlRegex.Options
import PerlRegex.Pattern.Reading
namespace PerlRegex.Pattern

/-! A pattern may begin with verbs such as `(*UTF8)` that change the options it is compiled with.
The first verb that is not known here ends the run, and is left to be read as a group. -/

inductive Verb where
  | utf
  | ucp
  | newline (convention : Newline)
  | lineBreaks (convention : LineBreaks)
  | noStartOptimize
  deriving DecidableEq, Repr

namespace Verb

def ofName? : String → Option Verb
  | "UTF8" | "UTF" => some utf
  | "UCP" => some ucp
  | "CR" => some (newline .cr)
  | "LF" => some (newline .lf)
  | "CRLF" => some (newline .crLf)
  | "ANY" => some (newline .any)
  | "ANYCRLF" => some (newline .anyCrLf)
  | "BSR_ANYCRLF" => some (lineBreaks .anyCrLf)
  | "BSR_UNICODE" => some (lineBreaks .unicode)
  | "NO_START_OPT" => some noStartOptimize
  | _ => none

def apply (verb : Verb) (options : CompileOptions) (offset : Nat) : Reading CompileOptions :=
  match verb with
  | .utf =>
      if options.neverUtf then refuseFor .utfDisabled offset
      else .ok { options with utf8 := true }
  | .ucp => .ok { options with ucp := true }
  | .newline convention => .ok (options.withNewline convention)
  | .lineBreaks convention => .ok (options.withLineBreaks convention)
  | .noStartOptimize => .ok { options with noStartOptimize := true }

end Verb

def verbName? (text : List UInt8) : Option (List UInt8) :=
  if startsWith text '(' && startsWith text.tail '*' then upTo ')' (text.drop 2) else none

def readVerbs (options : CompileOptions) (text : List UInt8) (offset : Nat) :
    Reading (CompileOptions × Nat) :=
  match text with
  | [] => .ok (options, offset)
  | byte :: rest =>
      match verbName? (byte :: rest) with
      | none => .ok (options, offset)
      | some name =>
          match Verb.ofName? (Ascii.text name) with
          | none => .ok (options, offset)
          | some verb =>
              match verb.apply options offset with
              | .error failure => .error failure
              | .ok changed =>
                  readVerbs changed (rest.drop (name.length + 2)) (offset + name.length + 3)
termination_by text.length
decreasing_by simp only [List.length_drop, List.length_cons]; omega

end PerlRegex.Pattern
