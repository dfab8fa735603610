import PerlRegex.Options
namespace PerlRegex.CommandLine

/-! What a user can ask of the command line. -/

inductive Format where
  | json
  | text
  deriving DecidableEq, Repr

/-- What is to be done, and with what. A subject that is not given is read from standard input. -/
inductive Task where
  /-- List the matches of a pattern, at most so many of them. -/
  | test (pattern : String) (subject : Option String) (most : Nat)
  /-- Run a pattern once. -/
  | exec (pattern : String) (subject : Option String) (options : MatchOptions)
  /-- Replace all matches of a pattern. -/
  | replace (pattern replacement : String) (subject : Option String) (template : Bool)
  /-- Check a pattern and describe its groups. -/
  | validate (pattern : String)
  deriving DecidableEq, Repr

def Task.readsInput : Task → Bool
  | .test _ subject _ | .exec _ subject _ | .replace _ _ subject _ => subject.isNone
  | .validate _ => false

structure Invocation where
  format : Format
  options : CompileOptions
  study : Bool
  task : Task
  deriving DecidableEq, Repr

inductive Request where
  | carryOut (invocation : Invocation)
  /-- The user names no command and is told which ones there are. -/
  | commandList
  | help
  | version
  /-- Arguments that make no sense. -/
  | misuse
  deriving DecidableEq, Repr

def Request.readsInput : Request → Bool
  | .carryOut invocation => invocation.task.readsInput
  | _ => false

end PerlRegex.CommandLine
