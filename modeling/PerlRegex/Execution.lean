import PerlRegex.Machine.Step
import PerlRegex.Study
namespace PerlRegex

/-! An execution runs a program on a subject. It tries start positions in increasing order from a
given offset, and the first attempt that gets anywhere decides. -/

inductive Outcome where
  | noMatch
  | matched (captures : Captures)
  /-- The subject ended while a match that began at the start of the span was still possible. -/
  | cutShort (span : Span)
  deriving DecidableEq, Repr

structure Execution where
  program : Program
  /-- The plan to go by, if there is one for this kind of execution. -/
  plan : Option Plan
  limits : Limits
  subject : Array UInt8
  startOffset : Nat
  options : MatchOptions

namespace Execution

/-! ## Start positions -/

def firstNewline (rules : LineRules) (subject : Array UInt8) (position : Nat) : Nat :=
  if subject.size ≤ position then subject.size
  else if (rules.newlineAt? subject position).isSome then position
  else firstNewline rules subject (position + 1)
termination_by subject.size - position

def lastStart (execution : Execution) : Nat :=
  if execution.program.pattern.options.firstLine then
    firstNewline execution.program.pattern.lineRules execution.subject execution.startOffset
  else execution.subject.size

def startsOnce (execution : Execution) : Bool :=
  execution.options.anchored || execution.program.pattern.options.anchored
    || execution.plan.any fun plan => plan.start == .startOffset

def tooShort (execution : Execution) (start : Nat) : Bool :=
  execution.plan.any fun plan => execution.subject.size - start < plan.minLength

def mayStart (execution : Execution) (start : Nat) : Bool :=
  execution.plan.all fun plan =>
    plan.mayStart execution.program.pattern.lineRules execution.subject execution.startOffset
      start

def nextStart (execution : Execution) (start : Nat) : Nat :=
  if execution.program.utf8 then Utf8.nextBoundary execution.subject (start + 1) else start + 1

theorem lt_nextStart (execution : Execution) (start : Nat) :
    start < execution.nextStart start := by
  unfold nextStart
  split
  · exact Nat.lt_of_lt_of_le (Nat.lt_succ_self start) (Utf8.le_nextBoundary _ _)
  · exact Nat.lt_succ_self start

/-! ## Attempts -/

def attempt (execution : Execution) (start budget : Nat) : Machine.Halt :=
  Machine.run
    { program := execution.program
      subject := execution.subject
      options := execution.options
      startOffset := execution.startOffset
      start := start
      frameLimit := execution.limits.frames }
    (.initial execution.program start) budget

/-- The outcome when no start position has led to a match: the first cut that an attempt noted. -/
def withoutMatch (execution : Execution) (cut : Option Nat) : Outcome :=
  match cut with
  | some start => .cutShort ⟨start, execution.subject.size⟩
  | none => .noMatch

/-- Try start positions from `start` to `last`. `cut` is the start of the first attempt that noted
the end of the subject. -/
def search (execution : Execution) (last start budget : Nat) (cut : Option Nat) :
    Except ExecError Outcome :=
  if last < start || execution.tooShort start then
    .ok (execution.withoutMatch cut)
  else
    let proceed (budget : Nat) (cut : Option Nat) : Except ExecError Outcome :=
      if execution.startsOnce || execution.subject.size ≤ start then
        .ok (execution.withoutMatch cut)
      else execution.search last (execution.nextStart start) budget cut
    if !execution.mayStart start then proceed budget cut
    else
      let halt := execution.attempt start budget
      match halt.verdict with
      | .matched =>
          .ok (.matched (Machine.capturesOf halt.state.slots ⟨start, halt.state.position⟩))
      | .cutShort => .ok (.cutShort ⟨start, execution.subject.size⟩)
      | .failed =>
          proceed halt.budget (cut <|> if halt.state.touchedEnd then some start else none)
      | .tooManyInstructions => .error .matchLimit
      | .tooManyFrames => .error .recursionLimit
      | .fault => .error .internal
termination_by execution.subject.size + 1 - start
decreasing_by
  all_goals
    have := execution.lt_nextStart start
    simp_all
    omega

def checkSubject (execution : Execution) : Except ExecError Unit :=
  if execution.program.utf8 && !execution.options.noUtf8Check then
    match Utf8.invalidOffset? execution.subject.toList with
    | some offset => .error (.badUtf8 offset)
    | none =>
        if Utf8.isBoundary execution.subject execution.startOffset then .ok ()
        else .error (.badUtf8Offset execution.startOffset)
  else .ok ()

def outcome (execution : Execution) : Except ExecError Outcome := do
  execution.checkSubject
  execution.search execution.lastStart execution.startOffset execution.limits.instructions none

end Execution

/-- The plan that an execution goes by. A plan serves one partial mode, and either side may ask to
go without. -/
def Program.usablePlan (program : Program) (plan : Option Plan) (options : MatchOptions) :
    Option Plan :=
  plan.filter fun plan =>
    plan.mode == options.partialMode && !program.pattern.options.noStartOptimize
      && !options.noStartOptimize

def Program.execute (program : Program) (plan : Option Plan) (limits : Limits)
    (subject : Array UInt8) (startOffset : Nat) (options : MatchOptions) :
    Except ExecError Outcome :=
  Execution.outcome ⟨program, program.usablePlan plan options, limits, subject, startOffset,
    options⟩

end PerlRegex
