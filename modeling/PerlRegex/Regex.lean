import PerlRegex.Execution
namespace PerlRegex

/-! A compiled regular expression with its study plan and its budgets. Releasing one takes its
program away. What others have been given of it stays with them. -/

structure Regex where
  program : Option Program
  plan : Option Plan
  limits : Limits

namespace Regex

/-! ## Making a regular expression -/

/-- Compile a pattern given as bytes. Outside UTF-8 mode every byte is one character. -/
def compile (pattern : List UInt8) (options : CompileOptions) : Except CompileFailure Regex := do
  return ⟨some (← Program.compile pattern options), none, {}⟩

/-- Make a plan in place of the one there is, which stays where the study fails. -/
def study (regex : Regex) (options : StudyOptions) : Except StudyError Regex :=
  match regex.program, options.partialMode? with
  | none, _ => .error .released
  | some _, none => .error .conflictingModes
  | some program, some mode =>
      .ok { regex with plan := some (.build program.pattern.options program.pattern.tree mode) }

/-- Compile and study. A study that fails leaves the expression without a plan. -/
def compileAndStudy (pattern : List UInt8) (options : CompileOptions) (study : StudyOptions) :
    Except CompileFailure Regex := do
  let regex ← compile pattern options
  return (regex.study study).toOption.getD regex

def setLimits (regex : Regex) (limits : Limits) : Regex := { regex with limits := limits }

def release (regex : Regex) : Regex := { regex with program := none, plan := none }

def isReleased (regex : Regex) : Bool := regex.program.isNone

/-! ## What a regular expression tells of itself -/

def source (regex : Regex) : String := regex.program.elim "" (·.source)

def options (regex : Regex) : CompileOptions := regex.program.elim {} (·.pattern.options)

def groups (regex : Regex) : Nat := regex.program.elim 0 (·.pattern.captures)

def namedGroups (regex : Regex) : List (String × Nat) :=
  regex.program.elim [] (·.pattern.names)

def groupNames (regex : Regex) : List String :=
  (List.range (regex.groups + 1)).map fun group =>
    (regex.namedGroups.find? fun (_, number) => number == group).elim "" (·.1)

def groupNumbers (regex : Regex) (name : String) : Except ExecError (List Nat) :=
  match regex.program with
  | none => .error .null
  | some program =>
      let numbers := Pattern.groupsNamed program.pattern.names name
      if numbers.isEmpty then .error (.unknownGroupName name) else .ok numbers

def groupIndex (regex : Regex) (name : String) : Except ExecError Nat := do
  return (← regex.groupNumbers name).min?.getD 0

/-- The bytes that every match begins with, and whether they are all of every match. -/
def leadingBytes (regex : Regex) : List UInt8 × Bool :=
  match regex.program with
  | none => ([], false)
  | some program =>
      let (characters, complete) := program.pattern.tree.leadingText
      let encode := if program.utf8 then Utf8.encode else fun character => [UInt8.ofNat character]
      (characters.flatMap encode, complete)

def leadingText (regex : Regex) : String × Bool :=
  (Utf8.lossyText regex.leadingBytes.1, regex.leadingBytes.2)

/-! ## Running a regular expression -/

/-- Run on a subject from an offset within it. Text before the offset can still be looked back
at. -/
def run (regex : Regex) (subject : Array UInt8) (startOffset : Nat) (options : MatchOptions) :
    Except ExecError Outcome :=
  match regex.program with
  | none => .error .null
  | some program => program.execute regex.plan regex.limits subject startOffset options

def exec (regex : Regex) (subject : Array UInt8) (options : MatchOptions) :
    Except ExecError Outcome :=
  regex.run subject 0 options

inductive ExecFailure where
  | error (cause : ExecError)
  /-- The start offset lies behind the end of the subject. -/
  | beyondSubject (startOffset length : Nat)
  deriving DecidableEq, Repr

def ExecFailure.message : ExecFailure → String
  | .error cause => cause.message
  | .beyondSubject startOffset length =>
      "start offset " ++ toString startOffset ++ " is beyond subject length " ++ toString length

def execAt (regex : Regex) (subject : Array UInt8) (startOffset : Nat) (options : MatchOptions) :
    Except ExecFailure Outcome :=
  if regex.isReleased then .error (.error .null)
  else if subject.size < startOffset then .error (.beyondSubject startOffset subject.size)
  else match regex.run subject startOffset options with
    | .ok outcome => .ok outcome
    | .error error => .error (.error error)

/-- Whether the pattern matches anywhere. An execution that fails counts as no match. -/
def isMatch (regex : Regex) (subject : Array UInt8) : Bool :=
  match regex.exec subject {} with
  | .ok (.matched _) => true
  | _ => false

def firstCaptures (regex : Regex) (subject : Array UInt8) (options : MatchOptions) :
    Option Captures :=
  match regex.exec subject options with
  | .ok (.matched captures) => some captures
  | _ => none

def findSpan (regex : Regex) (subject : Array UInt8) (options : MatchOptions) : Option Span := do
  (← regex.firstCaptures subject options).head?.join

def textOf? (subject : Array UInt8) (span : Span) : Option String :=
  if span.start ≤ span.stop && span.stop ≤ subject.size && Utf8.isBoundary subject span.start
      && Utf8.isBoundary subject span.stop then
    some (Utf8.lossyText (span.bytes subject))
  else none

def find (regex : Regex) (subject : Array UInt8) : Option String := do
  textOf? subject (← regex.findSpan subject {})

def captures (regex : Regex) (subject : Array UInt8) : Option (List (Option String)) := do
  return (← regex.firstCaptures subject {}).map (·.bind (textOf? subject))

end Regex

/-! ## Result codes -/

def Captures.code (captures : Captures) : Int :=
  (captures.reverse.dropWhile Option.isNone).length

def Outcome.code : Outcome → Int
  | noMatch => codeNoMatch
  | matched captures => Captures.code captures
  | cutShort _ => codePartial

end PerlRegex
