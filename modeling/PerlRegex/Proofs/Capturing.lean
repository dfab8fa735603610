import PerlRegex.Proofs.Capturing.Reading
import PerlRegex.Proofs.Capturing.Searches
import PerlRegex.Proofs.Regex

/-! Capturing is inert. A pattern that refers to no group matches the same texts whether its plain
parentheses capture or only group. -/

namespace PerlRegex

open Machine (Attempt Decision)

/-! ## Decisions -/

/-- Decisions that are the same but for the spans of groups. -/
inductive Machine.Decision.Alike : Decision → Decision → Prop
  | matched {path other : Path} (same : other.position = path.position) :
      Decision.Alike (.matched path) (.matched other)
  | failed (touched : Bool) : Decision.Alike (.failed touched) (.failed touched)
  | cutShort : Decision.Alike .cutShort .cutShort

theorem Search.Alike.decide {attempt other : Attempt} (same : attempt.SameRules other)
    {search otherSearch : Search} (alike : search.Alike otherSearch) (touched : Bool) :
    (attempt.decide touched search).Alike (other.decide touched otherSearch) := by
  induction alike generalizing touched with
  | nil => exact .failed touched
  | found here _ induction =>
      rw [Attempt.decide, Attempt.decide, same.refusesEmpty, here]
      split
      · exact induction touched
      · exact .matched here
  | ended _ induction =>
      rw [Attempt.decide, Attempt.decide, same.options]
      split
      · exact induction touched
      · exact induction true
      · exact .cutShort

/-! ## Programs -/

/-- Programs that differ in their groups, and in whether plain parentheses were to capture. -/
structure Program.GroupsDiffer (program other : Program) : Prop where
  tree : program.pattern.tree.Alike other.pattern.tree
  options : other.pattern.options = program.pattern.options.groupsOnly
  lineRules : other.pattern.lineRules = program.pattern.lineRules

namespace Program.GroupsDiffer

variable {program other : Program} (differ : program.GroupsDiffer other)
include differ

theorem utf8 : other.utf8 = program.utf8 := by
  rw [Program.utf8, differ.options]
  rfl

theorem ucp : other.ucp = program.ucp := by
  rw [Program.ucp, differ.options]
  rfl

end Program.GroupsDiffer

def Outcome.withoutGroups : Outcome → Outcome
  | .matched captures => .matched (captures.take 1)
  | outcome => outcome

theorem Outcome.withoutGroups_set (captures : Captures) (span : Span)
    (positive : 0 < captures.length) :
    (Outcome.matched (captures.set 0 (some span))).withoutGroups = .matched [some span] := by
  cases captures with
  | nil => cases positive
  | cons first rest => rfl

namespace Execution

variable {program other : Program} (differ : program.GroupsDiffer other)
  (limits otherLimits : Limits) (subject : Array UInt8) (startOffset : Nat)
  (options : MatchOptions)
include differ

theorem sameRules_attemptAt (start : Nat) :
    (attemptAt ⟨program, none, limits, subject, startOffset, options⟩ start).SameRules
      (attemptAt ⟨other, none, otherLimits, subject, startOffset, options⟩ start) where
  subject := rfl
  options := rfl
  startOffset := rfl
  start := rfl
  utf8 := differ.utf8
  ucp := differ.ucp
  lineRules := differ.lineRules

theorem starts_of_groupsDiffer :
    starts ⟨other, none, otherLimits, subject, startOffset, options⟩ =
      starts ⟨program, none, limits, subject, startOffset, options⟩ := by
  have anchored : other.pattern.options.anchored = program.pattern.options.anchored := by
    rw [differ.options]
    rfl
  have firstLine : other.pattern.options.firstLine = program.pattern.options.firstLine := by
    rw [differ.options]
    rfl
  simp only [starts, startsFrom, positionsFrom, startsOnce, lastStart, differ.utf8, anchored,
    firstLine, differ.lineRules]

theorem checkSubject_of_groupsDiffer :
    checkSubject ⟨other, none, otherLimits, subject, startOffset, options⟩ =
      checkSubject ⟨program, none, limits, subject, startOffset, options⟩ := by
  simp only [checkSubject, differ.utf8]

theorem alike_decisionAt (start : Nat) :
    (decisionAt ⟨program, none, limits, subject, startOffset, options⟩ start).Alike
      (decisionAt ⟨other, none, otherLimits, subject, startOffset, options⟩ start) := by
  have same := sameRules_attemptAt differ limits otherLimits subject startOffset options start
  have origins : (attemptAt ⟨other, none, otherLimits, subject, startOffset, options⟩
        start).origin.position =
      (attemptAt ⟨program, none, limits, subject, startOffset, options⟩ start).origin.position :=
    rfl
  exact Search.Alike.decide same (differ.tree.interpret same origins) false

theorem withoutGroups_tryStarts (cut : Option Nat) (positions : List Nat) :
    (tryStarts ⟨other, none, otherLimits, subject, startOffset, options⟩ cut
        positions).withoutGroups =
      (tryStarts ⟨program, none, limits, subject, startOffset, options⟩ cut
        positions).withoutGroups := by
  induction positions generalizing cut with
  | nil => rfl
  | cons start rest induction =>
      have alike := alike_decisionAt differ limits otherLimits subject startOffset options start
      have positive : ∀ path,
          decisionAt ⟨program, none, limits, subject, startOffset, options⟩ start =
            .matched path → 0 < path.captures.length := fun _ => captures_pos_of_decisionAt
      have otherPositive : ∀ path,
          decisionAt ⟨other, none, otherLimits, subject, startOffset, options⟩ start =
            .matched path → 0 < path.captures.length := fun _ => captures_pos_of_decisionAt
      rw [tryStarts, tryStarts]
      generalize decisionAt ⟨program, none, limits, subject, startOffset, options⟩ start =
        decision at alike positive
      generalize decisionAt ⟨other, none, otherLimits, subject, startOffset, options⟩ start =
        otherDecision at alike otherPositive
      cases alike with
      | matched same =>
          dsimp only
          rw [Outcome.withoutGroups_set _ _ (positive _ rfl),
            Outcome.withoutGroups_set _ _ (otherPositive _ rfl), same]
      | failed touched => exact induction _
      | cutShort => rfl

/-- Unless one of them is given up, executions without a plan come to the same but for the spans of
groups. -/
theorem withoutGroups_outcome
    (compiled : Machine.Compiled program) (otherCompiled : Machine.Compiled other)
    (finished : ¬ Exhausted
      (outcome ⟨program, none, limits, subject, startOffset, options⟩))
    (otherFinished : ¬ Exhausted
      (outcome ⟨other, none, otherLimits, subject, startOffset, options⟩)) :
    (outcome ⟨other, none, otherLimits, subject, startOffset, options⟩).map
        Outcome.withoutGroups =
      (outcome ⟨program, none, limits, subject, startOffset, options⟩).map
        Outcome.withoutGroups := by
  have sameCheck := checkSubject_of_groupsDiffer differ limits otherLimits subject startOffset
    options
  cases checked : checkSubject ⟨program, none, limits, subject, startOffset, options⟩ with
  | error failure =>
      rw [outcome_of_error checked, outcome_of_error (sameCheck.trans checked)]
  | ok =>
      rw [outcome_eq_tryStarts compiled rfl checked finished,
        outcome_eq_tryStarts otherCompiled rfl (sameCheck.trans checked) otherFinished,
        starts_of_groupsDiffer differ limits otherLimits]
      exact congrArg Except.ok (withoutGroups_tryStarts differ limits otherLimits subject
        startOffset options none _)

end Execution

/-! ## Regular expressions -/

namespace Regex

/-- A result that was given up for want of instructions or frames. -/
def GivenUp (result : Except ExecFailure Outcome) : Prop :=
  result = .error (.error .matchLimit) ∨ result = .error (.error .recursionLimit)

instance (result : Except ExecFailure Outcome) : Decidable (GivenUp result) :=
  inferInstanceAs (Decidable (_ ∨ _))

theorem givenUp_of_exhausted {result : Except ExecError Outcome}
    (exhausted : Execution.Exhausted result) : GivenUp (result.mapError .error) := by
  rcases exhausted with rfl | rfl
  · exact .inl rfl
  · exact .inr rfl

/-- Capturing is inert. A pattern without references is compiled as it is, and once more so that
parentheses without a name only group. Then on every subject the two find matches of the same span,
or the same partial match, or nothing, or refuse the subject for the same cause, if neither is given
up for want of instructions or frames. -/
theorem execAt_noAutoCapture {text : List UInt8} {compileOptions : CompileOptions}
    {program other : Program} (compiled : Program.compile text compileOptions = .ok program)
    (otherCompiled :
      Program.compile text { compileOptions with noAutoCapture := true } = .ok other)
    (refersToNone : program.pattern.tree.references = []) (limits otherLimits : Limits)
    (subject : Array UInt8) (startOffset : Nat) (options : MatchOptions)
    (finished : ¬ GivenUp (execAt ⟨some program, none, limits⟩ subject startOffset options))
    (otherFinished :
      ¬ GivenUp (execAt ⟨some other, none, otherLimits⟩ subject startOffset options)) :
    (execAt ⟨some other, none, otherLimits⟩ subject startOffset options).map
        Outcome.withoutGroups =
      (execAt ⟨some program, none, limits⟩ subject startOffset options).map
        Outcome.withoutGroups := by
  have parsed := Program.parse_of_compile compiled
  have otherParsed := Program.parse_of_compile otherCompiled
  rcases Pattern.alike_of_parse parsed otherParsed refersToNone with ⟨tree, sameOptions, lineRules⟩
  have differ : program.GroupsDiffer other := ⟨tree, sameOptions, lineRules⟩
  rcases Nat.lt_or_ge subject.size startOffset with beyond | inside
  · rw [execAt_of_lt rfl beyond, execAt_of_lt rfl beyond]
  · rw [execAt_of_le rfl inside] at finished otherFinished ⊢
    rw [execAt_of_le rfl inside]
    have same := Execution.withoutGroups_outcome differ limits otherLimits subject startOffset
      options (.of_compile compiled) (.of_compile otherCompiled)
      (fun exhausted => finished (givenUp_of_exhausted exhausted))
      (fun exhausted => otherFinished (givenUp_of_exhausted exhausted))
    have commutes : ∀ result : Except ExecError Outcome,
        (result.mapError ExecFailure.error).map Outcome.withoutGroups =
          (result.map Outcome.withoutGroups).mapError ExecFailure.error := by
      intro result
      cases result <;> rfl
    rw [commutes, commutes]
    exact congrArg (Except.mapError ExecFailure.error) same

/-- `(?<=(a|b))((c)|d)*` looks back once at a capture, and without captures at each of two
alternatives. In `acd` it matches the last two characters in either case. -/
theorem execAt_noAutoCapture_lookbehind :
    ∃ program other,
      Program.compile "(?<=(a|b))((c)|d)*".toUTF8.toList {} = .ok program
      ∧ Program.compile "(?<=(a|b))((c)|d)*".toUTF8.toList { noAutoCapture := true } = .ok other
      ∧ program.pattern.tree.references = []
      ∧ execAt ⟨some program, none, {}⟩ "acd".toUTF8.data 0 {} =
        .ok (.matched [some ⟨1, 3⟩, some ⟨0, 1⟩, some ⟨2, 3⟩, some ⟨1, 2⟩])
      ∧ (execAt ⟨some other, none, {}⟩ "acd".toUTF8.data 0 {}).map Outcome.withoutGroups =
        .ok (.matched [some ⟨1, 3⟩]) := by
  have evaluated : ∃ program,
      Program.compile "(?<=(a|b))((c)|d)*".toUTF8.toList {} = .ok program
        ∧ program.pattern.tree.references = []
        ∧ execAt ⟨some program, none, {}⟩ "acd".toUTF8.data 0 {} =
          .ok (.matched [some ⟨1, 3⟩, some ⟨0, 1⟩, some ⟨2, 3⟩, some ⟨1, 2⟩]) :=
    exists_compiled (by decide +kernel)
  have otherEvaluated : ∃ other,
      Program.compile "(?<=(a|b))((c)|d)*".toUTF8.toList { noAutoCapture := true } = .ok other
        ∧ ¬ GivenUp (execAt ⟨some other, none, {}⟩ "acd".toUTF8.data 0 {}) :=
    exists_compiled (by decide +kernel)
  rcases evaluated with ⟨program, compiled, refersToNone, matched⟩
  rcases otherEvaluated with ⟨other, otherCompiled, otherFinished⟩
  refine ⟨program, other, compiled, otherCompiled, refersToNone, matched, ?_⟩
  rw [execAt_noAutoCapture compiled otherCompiled refersToNone {} {} _ 0 {}
    (by rw [matched]; decide) otherFinished, matched]
  rfl

end Regex

end PerlRegex
