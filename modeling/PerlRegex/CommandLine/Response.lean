import PerlRegex.CommandLine.Request
import PerlRegex.Matcher
import PerlRegex.Replace
import PerlRegex.Report.Text
namespace PerlRegex.CommandLine

/-! What the command line answers to a request. A result goes to standard output and a failure to
standard error. A pattern that is not valid is a result of `validate` and a failure of the other
commands. -/

structure Response where
  exitCode : UInt32
  output : String
  errorOutput : String
  deriving DecidableEq, Repr

/-! ## Failures -/

inductive CommandFailure where
  | pattern (failure : CompileFailure)
  | study (error : StudyError)
  | execution (error : ExecError)
  /-- Standard input is not text. -/
  | malformedInput
  deriving DecidableEq, Repr

open Report in
def CommandFailure.record : CommandFailure → ErrorRecord
  | .pattern (.invalid error) => ⟨"INVALID_PATTERN", error.message, some error.offset⟩
  | .pattern .overflow => ⟨"COMMAND_ERROR", "group number is too large", none⟩
  | .study error => ⟨"COMMAND_ERROR", error.message, none⟩
  | .execution error => ⟨"EXEC_ERROR", error.message, none⟩
  | .malformedInput =>
      ⟨"INVALID_INPUT", "failed to read stdin: stream did not contain valid UTF-8", none⟩

/-! ## Records of results -/

def groupRecords (regex : Regex) (subject : Array UInt8) (captures : Captures) :
    List Report.GroupRecord :=
  (captures.zip regex.groupNames).zipIdx.tail.filterMap fun ((span, name), group) =>
    span.map fun span => {
      group := group
      name := if name.isEmpty then none else some name
      text := Utf8.lossyText (span.bytes subject)
      start := span.start
      stop := span.stop }

def matchRecord? (regex : Regex) (subject : Array UInt8) (captures : Captures) :
    Option Report.MatchRecord :=
  captures.head?.join.map fun span => {
    text := Utf8.lossyText (span.bytes subject)
    start := span.start
    stop := span.stop
    captures := groupRecords regex subject captures }

/-- The record of a scan. No time is measured, so that equal requests have equal answers. -/
def testRecord (regex : Regex) (subject : Array UInt8) (most : Nat) (all : List Captures) :
    Report.TestRecord :=
  let found := (all.take most).filterMap (matchRecord? regex subject)
  { pattern := regex.source
    studied := regex.plan.isSome
    groups := regex.groups
    inputLength := subject.size
    matched := !found.isEmpty
    matchCount := found.length
    found := found
    elapsedMicroseconds := 0 }

def stateName : MatcherState → String
  | .matched => "matched"
  | .cutShort => "partial"
  | _ => "no_match"

def execRecord (regex : Regex) (matcher : Matcher) : Report.ExecRecord where
  pattern := regex.source
  state := stateName matcher.state
  code := matcher.code
  span := (matcher.span? 0).map fun span => (span.start, span.stop)
  text := (matcher.span? 0).map fun span => Utf8.lossyText (span.bytes matcher.subject)
  captures := groupRecords regex matcher.subject matcher.captures

def validRecord (regex : Regex) : Report.ValidateRecord :=
  let (text, _) := regex.leadingText
  { pattern := regex.source
    valid := true
    groups := some regex.groups
    names := (regex.groupNames.filter fun name => !name.isEmpty).eraseDups
    literalText := if text.isEmpty then none else some text
    fault := none }

def invalidRecord (pattern : String) (error : CompileError) : Report.ValidateRecord where
  pattern := pattern
  valid := false
  groups := none
  names := []
  literalText := none
  fault := some ⟨error.kind.name, error.offset, error.message⟩

/-! ## Results -/

def write (format : Format) (document : Document) (readable : String) : String :=
  match format with
  | .json => document.render .pretty
  | .text => readable

def studyFor (options : MatchOptions) : StudyOptions where
  partialSoft := options.partialSoft
  partialHard := options.partialHard

def subjectOf (given : Option String) (input : List UInt8) :
    Except CommandFailure (Array UInt8) :=
  match given with
  | some text => .ok (Utf8.ofText text).toArray
  | none => if Utf8.isValid input then .ok input.toArray else .error .malformedInput

namespace Invocation

def compile (invocation : Invocation) (pattern : String) (study : StudyOptions) :
    Except CommandFailure Regex := do
  let regex ← (Regex.compile (Utf8.ofText pattern) invocation.options).mapError
    CommandFailure.pattern
  if invocation.study then (regex.study study).mapError CommandFailure.study else return regex

/-- Carry out a task. What is wrong with a pattern is found before anything is read. -/
def result (invocation : Invocation) (input : List UInt8) : Except CommandFailure String := do
  match invocation.task with
  | .test pattern subject most =>
      let regex ← invocation.compile pattern {}
      let subject ← subjectOf subject input
      let all ← (regex.capturesAll subject {}).mapError CommandFailure.execution
      let record := testRecord regex subject most all
      return write invocation.format record.document record.readable
  | .exec pattern subject options =>
      let regex ← invocation.compile pattern (studyFor options)
      let subject ← subjectOf subject input
      let matcher := regex.matcher subject options
      if let some error := matcher.error then throw (.execution error)
      let record := execRecord regex matcher
      return write invocation.format record.document record.readable
  | .replace pattern replacement subject template =>
      let regex ← invocation.compile pattern {}
      let subject ← subjectOf subject input
      let bytes := Utf8.ofText replacement
      let (result, count) ←
        (if template then regex.replaceAllTemplate subject (Template.parse bytes) {}
          else regex.replaceAll subject bytes {}).mapError CommandFailure.execution
      let record : Report.ReplaceRecord := {
        pattern := pattern
        replacement := replacement
        template := template
        subject := Utf8.lossyText subject.toList
        result := Utf8.lossyText result
        replacementsMade := count }
      return write invocation.format record.document record.readable
  | .validate pattern =>
      let record ← match Regex.compile (Utf8.ofText pattern) invocation.options with
        | .ok regex => pure (validRecord regex)
        | .error (.invalid error) => pure (invalidRecord pattern error)
        | .error failure => throw (.pattern failure)
      return write invocation.format record.document record.readable

end Invocation

/-! ## Responses -/

def banner : String := "pcrex: Perl-compatible regular expressions"

def versionText : String := "pcrex 0.1.0"

def usage : String :=
  Report.lines [
    banner,
    "",
    "Usage: pcrex <COMMAND>",
    "",
    "Commands:",
    "  test      List every match of a pattern with its captures",
    "  exec      Run a single match and report its state",
    "  replace   Replace every match",
    "  validate  Check that a pattern compiles and describe its groups",
    "",
    "Options:",
    "  -f, --format <FORMAT>  Output format [json|text] (default: json)",
    "  -i -m -s -x -u         Caseless, multiline, dotall, extended, UTF-8",
    "  --study                Study the pattern before matching",
    "  -h, --help             Print help",
    "  -V, --version          Print version"]

def Request.respond (request : Request) (input : List UInt8) : Response :=
  match request with
  | .carryOut invocation =>
      match invocation.result input with
      | .ok text => ⟨0, text ++ "\n", ""⟩
      | .error failure => ⟨1, "", failure.record.document.render .line ++ "\n"⟩
  | .commandList => ⟨0, "", usage⟩
  | .help => ⟨0, usage, ""⟩
  | .version => ⟨0, versionText ++ "\n", ""⟩
  | .misuse => ⟨2, "", usage⟩

end PerlRegex.CommandLine
