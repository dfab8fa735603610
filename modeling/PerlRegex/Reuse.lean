import PerlRegex.Machine.Storage
import PerlRegex.Regex
namespace PerlRegex

/-! Executions that work in a given storage, and leave it to the next one. -/

/-- What an execution comes to. Where it has found a match, the spans are in the storage. -/
inductive Finding where
  | noMatch
  | matched
  | cutShort (span : Span)
  deriving DecidableEq, Repr

def Finding.outcome (storage : Machine.Storage) : Finding → Outcome
  | noMatch => .noMatch
  | matched => .matched storage.captures
  | cutShort span => .cutShort span

namespace Execution

open Machine

def findingWithoutMatch (execution : Execution) (cut : Option Nat) : Finding :=
  match cut with
  | some start => .cutShort ⟨start, execution.subject.size⟩
  | none => .noMatch

def attemptIn (execution : Execution) (storage : Storage) (start budget : Nat) : Halt :=
  run
    { program := execution.program
      subject := execution.subject
      options := execution.options
      startOffset := execution.startOffset
      start := start
      frameLimit := execution.limits.frames }
    (storage.resetAttempt.state start) budget

def searchIn (execution : Execution) (last start budget : Nat) (cut : Option Nat)
    (storage : Storage) : Except ExecError Finding × Storage :=
  if last < start || execution.tooShort start then
    (.ok (execution.findingWithoutMatch cut), storage)
  else
    let proceed (budget : Nat) (cut : Option Nat) (storage : Storage) :
        Except ExecError Finding × Storage :=
      if execution.startsOnce || execution.subject.size ≤ start then
        (.ok (execution.findingWithoutMatch cut), storage)
      else execution.searchIn last (execution.nextStart start) budget cut storage
    if !execution.mayStart start then proceed budget cut storage
    else
      let halt := execution.attemptIn storage start budget
      let left := Storage.leftBy halt.state
      match halt.verdict with
      | .matched => (.ok .matched, left.setWhole ⟨start, halt.state.position⟩)
      | .cutShort => (.ok (.cutShort ⟨start, execution.subject.size⟩), left)
      | .failed =>
          proceed halt.budget (cut <|> if halt.state.touchedEnd then some start else none) left
      | .tooManyInstructions => (.error .matchLimit, left)
      | .tooManyFrames => (.error .recursionLimit, left)
      | .fault => (.error .internal, left)
termination_by execution.subject.size + 1 - start
decreasing_by
  all_goals
    have := execution.lt_nextStart start
    simp_all
    omega

/-- Run in a storage, which is made ready before the subject is looked at. -/
def findIn (execution : Execution) (storage : Storage) : Except ExecError Finding × Storage :=
  let ready := storage.prepare execution.program
  match execution.checkSubject with
  | .error error => (.error error, ready)
  | .ok () =>
      execution.searchIn execution.lastStart execution.startOffset execution.limits.instructions
        none ready

end Execution

def Program.executeIn (program : Program) (plan : Option Plan) (limits : Limits)
    (storage : Machine.Storage) (subject : Array UInt8) (startOffset : Nat)
    (options : MatchOptions) : Except ExecError Finding × Machine.Storage :=
  Execution.findIn ⟨program, program.usablePlan plan options, limits, subject, startOffset,
    options⟩ storage

def Regex.runIn (regex : Regex) (storage : Machine.Storage) (subject : Array UInt8)
    (startOffset : Nat) (options : MatchOptions) : Except ExecError Finding × Machine.Storage :=
  match regex.program with
  | none => (.error .null, storage)
  | some program =>
      program.executeIn regex.plan regex.limits storage subject startOffset options

end PerlRegex
