import PerlRegex.Reuse
namespace PerlRegex

/-! A matcher is bound to one regular expression at a time and keeps the result of its last
execution. All executions share its storage, those of earlier expressions too. Questions about a
result that is not there have empty answers. -/

inductive MatcherState where
  | unbound
  | bound
  | matched
  | cutShort
  | noMatch
  | failed
  deriving DecidableEq, Repr

structure Matcher where
  regex : Option Regex
  subject : Array UInt8
  /-- What executions work in, one after another. -/
  storage : Machine.Storage
  captures : Captures
  state : MatcherState
  code : Int
  error : Option ExecError

namespace Matcher

def isMatch (matcher : Matcher) : Bool :=
  matcher.state == .matched || matcher.state == .cutShort

/-! ## Binding -/

def new : Matcher where
  regex := none
  subject := #[]
  storage := .empty
  captures := []
  state := .unbound
  code := codeNoMatch
  error := none

def bind (matcher : Matcher) (regex : Regex) : Matcher where
  regex := some regex
  subject := #[]
  storage := matcher.storage
  captures := []
  state := .bound
  code := codeNoMatch
  error := none

/-! ## Running -/

def finish (matcher : Matcher) (state : MatcherState) (code : Int) (captures : Captures) :
    Matcher :=
  { matcher with state := state, code := code, captures := captures, error := none }

/-- Keep the error of an execution that did not. The first error since the last result without one
stays. -/
def fail (matcher : Matcher) (error : ExecError) : Matcher :=
  { matcher with
    state := .failed
    code := error.code
    captures := []
    error := matcher.error <|> some error }

def exec (matcher : Matcher) (subject : Array UInt8) (options : MatchOptions) : Matcher :=
  let asked := { matcher with subject := subject, captures := [] }
  match matcher.regex with
  | none => asked.fail .null
  | some regex =>
      let (result, storage) := regex.runIn matcher.storage subject 0 options
      let ran := { asked with storage := storage }
      match result with
      | .ok .noMatch => ran.finish .noMatch codeNoMatch []
      | .ok .matched => ran.finish .matched (Captures.code storage.captures) storage.captures
      | .ok (.cutShort span) => ran.finish .cutShort codePartial [some span]
      | .error error => ran.fail error

def execute (matcher : Matcher) (subject : Array UInt8) (options : MatchOptions) :
    Bool × Matcher :=
  let ran := matcher.exec subject options
  (ran.isMatch, ran)

def reset (matcher : Matcher) (regex : Regex) (subject : Array UInt8) (options : MatchOptions) :
    Matcher :=
  ((matcher.bind regex).execute subject options).2

end Matcher

def Regex.newMatcher (regex : Regex) : Matcher := Matcher.new.bind regex

def Regex.matcher (regex : Regex) (subject : Array UInt8) (options : MatchOptions) : Matcher :=
  Matcher.new.reset regex subject options

namespace Matcher

/-! ## Results -/

def isPartial (matcher : Matcher) : Bool := matcher.state == .cutShort

def groups (matcher : Matcher) : Nat := matcher.regex.elim 0 Regex.groups

def span? (matcher : Matcher) (group : Nat) : Option Span := (matcher.captures[group]?).join

def isPresent (matcher : Matcher) (group : Nat) : Bool := (matcher.span? group).isSome

def bytes (matcher : Matcher) (group : Nat) : List UInt8 :=
  (matcher.span? group).elim [] (·.bytes matcher.subject)

def text (matcher : Matcher) (group : Nat) : String :=
  (Utf8.text? (matcher.bytes group)).getD ""

/-- The bytes of all groups. After a partial match group 0 holds the part, and the others are
empty. -/
def allBytes (matcher : Matcher) : List (List UInt8) :=
  if matcher.isMatch then (List.range (matcher.groups + 1)).map matcher.bytes else []

def allTexts (matcher : Matcher) : List String :=
  if matcher.isMatch then (List.range (matcher.groups + 1)).map matcher.text else []

/-- The group a name stands for: the first one with the name that took part, and otherwise the first
one with the name. -/
def namedGroup (matcher : Matcher) (name : String) : Except ExecError Nat :=
  match matcher.regex with
  | none => .error .null
  | some regex => do
      let numbers ← regex.groupNumbers name
      return ((numbers.find? matcher.isPresent) <|> numbers.head?).getD 0

end Matcher

end PerlRegex
