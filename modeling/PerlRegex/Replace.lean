import PerlRegex.Scan
import PerlRegex.Template
namespace PerlRegex

/-! Replacing all matches of a subject: the text between the matches is kept, and each match makes
way for what is put in its place. -/

/-- A text under reconstruction: what has been written, how far the subject has been dealt with, and
the number of matches replaced. -/
structure Replacement where
  written : Array UInt8
  reached : Nat
  count : Nat

namespace Replacement

def start : Replacement where
  written := #[]
  reached := 0
  count := 0

def replace (replacement : Replacement) (subject : Array UInt8) (span : Span)
    (bytes : List UInt8) : Replacement where
  written := replacement.written ++ subject.extract replacement.reached span.start ++ bytes
  reached := span.stop
  count := replacement.count + 1

def finish (replacement : Replacement) (subject : Array UInt8) : List UInt8 :=
  (replacement.written ++ subject.extract replacement.reached subject.size).toList

end Replacement

namespace Regex

def replaceWith (regex : Regex) (subject : Array UInt8) (options : MatchOptions)
    (write : Span → Captures → List UInt8) : Except ExecError (List UInt8 × Nat) := do
  let replacement ← regex.foldMatches subject options
    (fun (replacement : Replacement) span captures =>
      .yield (replacement.replace subject span (write span captures)))
    Replacement.start
  return (replacement.finish subject, replacement.count)

def replaceAll (regex : Regex) (subject : Array UInt8) (bytes : List UInt8)
    (options : MatchOptions) : Except ExecError (List UInt8 × Nat) :=
  regex.replaceWith subject options fun _ _ => bytes

def replaceAllTemplate (regex : Regex) (subject : Array UInt8) (template : Template)
    (options : MatchOptions) : Except ExecError (List UInt8 × Nat) :=
  regex.replaceWith subject options fun _ captures => template.expand regex subject captures

def replaceAllText (regex : Regex) (subject : Array UInt8) (options : MatchOptions)
    (transform : String → String) : Except ExecError (List UInt8 × Nat) :=
  regex.replaceWith subject options fun span _ =>
    Utf8.ofText (transform (Utf8.lossyText (span.bytes subject)))

end Regex

end PerlRegex
