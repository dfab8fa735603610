import PerlRegex.Matcher
import PerlRegex.Proofs.Reuse
import PerlRegex.Proofs.Safety
namespace PerlRegex

/-! A matcher shows what a fresh execution would. Whatever has been done with it before, its results
are those of the expression that it is bound to, run on the last subject. -/

/-! ## Fresh executions -/

namespace Regex

variable {regex : Regex} {subject : Array UInt8} {startOffset : Nat} {options : MatchOptions}

theorem Made.wellFormed_of_execAt (made : regex.Made) {captures : Captures}
    (found : regex.execAt subject startOffset options = .ok (.matched captures)) :
    captures.WellFormed regex.groups startOffset subject.size := by
  rcases exists_outcome_of_execAt found with ⟨program, present, outcome⟩
  have groups : regex.groups = program.pattern.captures := by
    rw [Regex.groups, present]
    rfl
  rw [groups]
  exact Execution.wellFormed_of_outcome (made.compiledProgram present) outcome

theorem Made.inside_of_execAt (made : regex.Made) {span : Span}
    (found : regex.execAt subject startOffset options = .ok (.cutShort span)) :
    span.start ≤ span.stop ∧ span.stop ≤ subject.size := by
  rcases exists_outcome_of_execAt found with ⟨program, present, outcome⟩
  let execution := regex.execution program subject startOffset options
  have compiled : Machine.Compiled execution.program := made.compiledProgram present
  rcases Execution.finds_outcome_from compiled with ⟨_, _, failed⟩ | finds
  · cases outcome.symm.trans failed
  · rw [outcome] at finds
    cases finds with
    | exhausted exhausted => exact absurd exhausted (Execution.not_exhausted_ok _)
    | cutShort _ upTo => exact ⟨Nat.le_trans upTo execution.lastStart_le, Nat.le_refl _⟩

end Regex

/-! ## Histories -/

namespace Matcher

/-- What can be done with a matcher. -/
inductive Operation where
  | new
  | bind (regex : Regex)
  | exec (subject : Array UInt8) (options : MatchOptions)
  | execute (subject : Array UInt8) (options : MatchOptions)
  | reset (regex : Regex) (subject : Array UInt8) (options : MatchOptions)

namespace Operation

def apply (matcher : Matcher) : Operation → Matcher
  | new => .new
  | bind regex => matcher.bind regex
  | exec subject options => matcher.exec subject options
  | execute subject options => (matcher.execute subject options).2
  | reset regex subject options => matcher.reset regex subject options

def binding? : Operation → Option Regex
  | bind regex | reset regex _ _ => some regex
  | new | exec _ _ | execute _ _ => none

def execution? : Operation → Option (Array UInt8 × MatchOptions)
  | exec subject options | execute subject options | reset _ subject options =>
      some (subject, options)
  | new | bind _ => none

end Operation

/-- What has been done with a matcher, latest first. -/
abbrev History := List Operation

def after : History → Matcher
  | [] => .new
  | operation :: earlier => operation.apply (after earlier)

/-- A fresh execution of an expression, if there is one. -/
def freshResult (regex? : Option Regex) (subject : Array UInt8) (options : MatchOptions) :
    Except Regex.ExecFailure Outcome :=
  match regex? with
  | none => .error (.error .null)
  | some regex => regex.execAt subject 0 options

namespace History

/-- The expression that was bound last. -/
def bound : History → Option Regex
  | [] | .new :: _ => none
  | .bind regex :: _ | .reset regex _ _ :: _ => some regex
  | .exec _ _ :: earlier | .execute _ _ :: earlier => bound earlier

def latest? (history : History) : Option (Array UInt8 × MatchOptions) :=
  history.head?.bind Operation.execution?

/-- What the last operation comes to, if it is an execution and starts afresh. -/
def fresh? (history : History) : Option (Except Regex.ExecFailure Outcome) :=
  history.latest?.map fun (subject, options) => freshResult history.bound subject options

/-- The errors since an expression was bound or an execution came to its end, latest first. -/
def errors : History → List ExecError
  | [] => []
  | operation :: earlier =>
      match fresh? (operation :: earlier) with
      | some (.error (.error cause)) =>
          cause :: (if operation.binding?.isSome then [] else errors earlier)
      | _ => []

end History

/-! ## What a matcher shows -/

/-- The state, the code and the spans of a matcher are those of a result. -/
def Shows (matcher : Matcher) : Except Regex.ExecFailure Outcome → Prop
  | .ok .noMatch =>
      matcher.state = .noMatch ∧ matcher.code = Outcome.noMatch.code ∧ matcher.captures = []
  | .ok (.matched captures) =>
      matcher.state = .matched ∧ matcher.code = (Outcome.matched captures).code
        ∧ matcher.captures = captures
  | .ok (.cutShort span) =>
      matcher.state = .cutShort ∧ matcher.code = (Outcome.cutShort span).code
        ∧ matcher.captures = [some span]
  | .error (.error cause) =>
      matcher.state = .failed ∧ matcher.code = cause.code ∧ matcher.captures = []
  | .error (.beyondSubject _ _) => False

/-- The error that is kept after a result, if one was kept before. -/
def errorAfter (former : Option ExecError) :
    Except Regex.ExecFailure Outcome → Option ExecError
  | .error (.error cause) => former <|> some cause
  | _ => none

theorem errorAfter_getLast? (former : List ExecError)
    (result : Except Regex.ExecFailure Outcome) :
    errorAfter former.getLast? result =
      (match some result with
        | some (.error (.error cause)) => cause :: former
        | _ => []).getLast? := by
  cases result with
  | ok => rfl
  | error failure =>
      cases failure with
      | beyondSubject => rfl
      | error cause =>
          dsimp only [errorAfter]
          rw [List.getLast?_cons]
          cases former.getLast? <;> rfl

theorem Shows.isSome_errorAfter {matcher : Matcher} {result : Except Regex.ExecFailure Outcome}
    (shows : matcher.Shows result) (former : Option ExecError) :
    (errorAfter former result).isSome = true ↔ matcher.state = .failed := by
  cases result with
  | ok outcome =>
      refine iff_of_false (by simp [errorAfter]) fun failed => ?_
      cases outcome <;> cases failed.symm.trans shows.1
  | error failure =>
      cases failure with
      | beyondSubject => exact shows.elim
      | error cause => exact iff_of_true (by cases former <;> rfl) shows.1

theorem exec_shows {matcher : Matcher} (made : ∀ regex ∈ matcher.regex, regex.Made)
    (subject : Array UInt8) (options : MatchOptions) :
    (matcher.exec subject options).regex = matcher.regex
      ∧ (matcher.exec subject options).subject = subject
      ∧ (matcher.exec subject options).Shows (freshResult matcher.regex subject options)
      ∧ (matcher.exec subject options).error =
        errorAfter matcher.error (freshResult matcher.regex subject options) := by
  cases bound : matcher.regex with
  | none =>
      rw [exec, bound]
      exact ⟨rfl, rfl, ⟨rfl, rfl, rfl⟩, rfl⟩
  | some regex =>
      have report := (made regex bound).reportOf_runIn matcher.storage subject 0 options
      rw [freshResult, Regex.execAt_eq_run (Nat.zero_le _), ← report, exec, bound]
      dsimp only
      rcases regex.runIn matcher.storage subject 0 options with ⟨result, storage⟩
      cases result with
      | error error => exact ⟨rfl, rfl, ⟨rfl, rfl, rfl⟩, rfl⟩
      | ok finding => cases finding <;> exact ⟨rfl, rfl, ⟨rfl, rfl, rfl⟩, rfl⟩

/-- The spans that a matcher holds are those that its state asks for, and lie in its subject. -/
structure Fits (matcher : Matcher) : Prop where
  matched : matcher.state = .matched →
    matcher.captures.length = matcher.groups + 1
      ∧ ∃ span, matcher.captures.head? = some (some span)
  cutShort : matcher.state = .cutShort → ∃ span, matcher.captures = [some span]
  otherwise : matcher.isMatch = false → matcher.captures = []
  inside : ∀ span, some span ∈ matcher.captures →
    span.start ≤ span.stop ∧ span.stop ≤ matcher.subject.size

variable {matcher : Matcher} {subject : Array UInt8} {options : MatchOptions}

theorem Fits.of_noCaptures (noCaptures : matcher.captures = [])
    (noMatch : matcher.isMatch = false) : matcher.Fits where
  matched := fun state => by simp [isMatch, state] at noMatch
  cutShort := fun state => by simp [isMatch, state] at noMatch
  otherwise := fun _ => noCaptures
  inside := fun span listed => by
    rw [noCaptures] at listed
    cases listed

theorem Fits.inside_of_span? (fits : matcher.Fits) {group : Nat} {span : Span}
    (found : matcher.span? group = some span) :
    span.start ≤ span.stop ∧ span.stop ≤ matcher.subject.size :=
  fits.inside span (List.mem_of_getElem? (Option.join_eq_some_iff.mp found))

theorem Shows.fits_of_matched {captures : Captures}
    (shows : matcher.Shows (.ok (.matched captures)))
    (wellFormed : captures.WellFormed matcher.groups 0 matcher.subject.size) : matcher.Fits := by
  rcases shows with ⟨state, _, rfl⟩
  constructor
  case matched =>
    intro _
    rcases wellFormed.whole with ⟨span, first, _⟩
    exact ⟨wellFormed.length, span, first⟩
  case cutShort => exact fun other => by cases state.symm.trans other
  case otherwise => exact fun noMatch => by simp [isMatch, state] at noMatch
  case inside =>
    exact fun span listed => ⟨wellFormed.ordered span listed, wellFormed.inside span listed⟩

theorem Shows.fits_of_cutShort {span : Span} (shows : matcher.Shows (.ok (.cutShort span)))
    (inside : span.start ≤ span.stop ∧ span.stop ≤ matcher.subject.size) : matcher.Fits := by
  rcases shows with ⟨state, _, same⟩
  constructor
  case matched => exact fun other => by cases state.symm.trans other
  case cutShort => exact fun _ => ⟨span, same⟩
  case otherwise => exact fun noMatch => by simp [isMatch, state] at noMatch
  case inside =>
    intro other listed
    rw [same, List.mem_singleton, Option.some.injEq] at listed
    exact listed ▸ inside

theorem Shows.fits (made : ∀ regex ∈ matcher.regex, regex.Made)
    (stored : matcher.subject = subject)
    (shows : matcher.Shows (freshResult matcher.regex subject options)) : matcher.Fits := by
  subst stored
  cases result : freshResult matcher.regex matcher.subject options with
  | error failure =>
      rw [result] at shows
      cases failure with
      | error cause => exact .of_noCaptures shows.2.2 (by simp [isMatch, shows.1])
      | beyondSubject => exact shows.elim
  | ok outcome =>
      rw [result] at shows
      cases bound : matcher.regex with
      | none =>
          rw [bound] at result
          cases result
      | some regex =>
          have madeRegex := made regex bound
          have groups : matcher.groups = regex.groups := by
            rw [Matcher.groups, bound]
            rfl
          rw [bound, freshResult] at result
          cases outcome with
          | noMatch => exact .of_noCaptures shows.2.2 (by simp [isMatch, shows.1])
          | matched captures =>
              exact shows.fits_of_matched (groups ▸ madeRegex.wellFormed_of_execAt result)
          | cutShort span => exact shows.fits_of_cutShort (madeRegex.inside_of_execAt result)

/-! ## What a history tells -/

/-- What a matcher tells is what its history says: the expression that is bound, the results of a
fresh execution after an execution and none before, and the first of the errors. -/
structure Reports (matcher : Matcher) (history : History) : Prop where
  regex : matcher.regex = history.bound
  fresh : ∀ result ∈ history.fresh?, matcher.Shows result
  subject : matcher.subject = history.latest?.elim #[] (·.1)
  idle : history.latest? = none →
    matcher.state = (if history.bound.isSome then .bound else .unbound)
      ∧ matcher.code = codeNoMatch
  error : matcher.error = history.errors.getLast?
  failed : matcher.error.isSome ↔ matcher.state = .failed
  fits : matcher.Fits

theorem History.made_of_bound {history : History}
    (made : ∀ operation ∈ history, ∀ regex ∈ operation.binding?, regex.Made) :
    ∀ regex ∈ history.bound, regex.Made := by
  induction history with
  | nil => exact fun regex bound => by cases bound
  | cons operation earlier induction =>
      have madeHere := made operation List.mem_cons_self
      have madeEarlier := induction fun other member => made other (List.mem_cons_of_mem _ member)
      cases operation with
      | new => exact fun regex bound => by cases bound
      | bind | reset => exact madeHere
      | exec | execute => exact madeEarlier

theorem reports_of_exec {operation : Operation} {earlier : History}
    (made : ∀ regex ∈ matcher.regex, regex.Made)
    (executes : operation.execution? = some (subject, options))
    (bound : matcher.regex = History.bound (operation :: earlier))
    (kept : matcher.error =
      (if operation.binding?.isSome then [] else History.errors earlier).getLast?) :
    (matcher.exec subject options).Reports (operation :: earlier) := by
  rcases exec_shows made subject options with ⟨sameRegex, sameSubject, shows, error⟩
  have latest : History.latest? (operation :: earlier) = some (subject, options) := executes
  have fresh : History.fresh? (operation :: earlier) =
      some (freshResult matcher.regex subject options) := by
    rw [History.fresh?, latest, ← bound]
    rfl
  constructor
  case regex => exact sameRegex.trans bound
  case fresh =>
    intro result freshly
    rw [fresh] at freshly
    injection freshly with same
    exact same ▸ shows
  case subject =>
    rw [latest]
    exact sameSubject
  case idle => exact fun idle => by cases latest.symm.trans idle
  case error =>
    rw [error, History.errors, fresh, kept]
    exact errorAfter_getLast? _ _
  case failed =>
    rw [error]
    exact shows.isSome_errorAfter _
  case fits =>
    rw [← sameRegex] at made shows
    exact shows.fits made sameSubject

theorem reports_of_idle {history : History} (regex : matcher.regex = history.bound)
    (idle : history.latest? = none) (subject : matcher.subject = #[])
    (state : matcher.state = if history.bound.isSome then .bound else .unbound)
    (code : matcher.code = codeNoMatch) (error : matcher.error = none)
    (noCaptures : matcher.captures = []) : matcher.Reports history := by
  have noFresh : history.fresh? = none := by
    rw [History.fresh?, idle]
    rfl
  have noErrors : history.errors = [] := by
    cases history with
    | nil => rfl
    | cons => rw [History.errors, noFresh]
  have other : matcher.state = .bound ∨ matcher.state = .unbound := by
    rw [state]
    split
    · exact .inl rfl
    · exact .inr rfl
  constructor
  case regex => exact regex
  case fresh => exact fun result fresh => by cases noFresh.symm.trans fresh
  case subject =>
    rw [idle]
    exact subject
  case idle => exact fun _ => ⟨state, code⟩
  case error =>
    rw [noErrors]
    exact error
  case failed =>
    rw [error]
    rcases other with same | same <;> simp [same]
  case fits =>
    refine .of_noCaptures noCaptures ?_
    rcases other with same | same <;> simp [isMatch, same]

end Matcher

open Matcher

/-- A matcher holds what its history says. An execution shows what a fresh one of the expression
that is bound would, whatever the storage has been used for. The error is the first one since
something was bound or an execution came to its end, and there is none in other states than that of
an error. There are spans only of a match, and all of them lie in the subject, so every group can be
read. -/
theorem after_reports {history : History}
    (made : ∀ operation ∈ history, ∀ regex ∈ operation.binding?, regex.Made) :
    (after history).Reports history
      ∧ ∀ group span, (after history).span? group = some span →
        span.start ≤ span.stop ∧ span.stop ≤ (after history).subject.size := by
  have reports : (after history).Reports history := by
    induction history with
    | nil => exact reports_of_idle rfl rfl rfl rfl rfl rfl rfl
    | cons operation earlier induction =>
        have madeBound := History.made_of_bound made
        have before := induction fun other member => made other (List.mem_cons_of_mem _ member)
        cases operation with
        | new | bind => exact reports_of_idle rfl rfl rfl rfl rfl rfl rfl
        | exec | execute =>
            exact reports_of_exec (before.regex ▸ madeBound) rfl before.regex before.error
        | reset regex subject options =>
            have bound : ((after earlier).bind regex).regex =
              History.bound (.reset regex subject options :: earlier) := rfl
            exact reports_of_exec (bound ▸ madeBound) rfl bound rfl
  exact ⟨reports, fun _ _ found => reports.fits.inside_of_span? found⟩

/-- With few instructions and frames `(a+)+b` runs out of instructions on `cccccccca` and out of
frames on `ab`, which stay behind in the storage. The code is that of the second error, and the
error is the first one. Then the matcher finds `a(b)?` in `xab` as if it were new. -/
theorem after_reports_reused :
    ∃ first second, Regex.compile "(a+)+b".toUTF8.toList {} = .ok first
      ∧ Regex.compile "a(b)?".toUTF8.toList {} = .ok second
      ∧ let failing : History := [.exec "ab".toUTF8.data {},
          .reset (first.setLimits ⟨12, 4⟩) "cccccccca".toUTF8.data {}]
        let history : History := .exec "xab".toUTF8.data {} :: .bind second :: failing
        (after failing).error = some .matchLimit
          ∧ (after failing).code = ExecError.recursionLimit.code
          ∧ (after failing).storage.frames.length = 4
          ∧ (after history).Reports history
          ∧ (after history).Shows (.ok (.matched [some ⟨1, 3⟩, some ⟨2, 3⟩])) := by
  have evaluatedFirst : ∃ program, Program.compile "(a+)+b".toUTF8.toList {} = .ok program
      ∧ let failed := after [.exec "ab".toUTF8.data {},
          .reset ⟨some program, none, ⟨12, 4⟩⟩ "cccccccca".toUTF8.data {}]
        failed.error = some .matchLimit ∧ failed.code = ExecError.recursionLimit.code
          ∧ failed.storage.frames.length = 4 :=
    exists_compiled (by decide +kernel)
  have evaluatedSecond : ∃ program, Program.compile "a(b)?".toUTF8.toList {} = .ok program
      ∧ Regex.execAt ⟨some program, none, {}⟩ "xab".toUTF8.data 0 {} =
        .ok (.matched [some ⟨1, 3⟩, some ⟨2, 3⟩]) :=
    exists_compiled (by decide +kernel)
  rcases evaluatedFirst with ⟨firstProgram, firstCompiled, error, code, frames⟩
  rcases evaluatedSecond with ⟨secondProgram, secondCompiled, found⟩
  let first : Regex := ⟨some firstProgram, none, {}⟩
  let second : Regex := ⟨some secondProgram, none, {}⟩
  have firstMade := Regex.compile_of_program firstCompiled
  have secondMade := Regex.compile_of_program secondCompiled
  have made : ∀ operation ∈ ([.exec "xab".toUTF8.data {}, .bind second, .exec "ab".toUTF8.data {},
      .reset (first.setLimits ⟨12, 4⟩) "cccccccca".toUTF8.data {}] : History),
      ∀ regex ∈ operation.binding?, regex.Made := by
    intro operation member regex bound
    simp only [List.mem_cons, List.not_mem_nil, or_false] at member
    rcases member with rfl | rfl | rfl | rfl
    · cases bound
    · injection bound with same
      exact same ▸ .compiled secondMade
    · cases bound
    · injection bound with same
      exact same ▸ .limited _ (.compiled firstMade)
  have reports := (after_reports made).1
  exact ⟨first, second, firstMade, secondMade, error, code, frames, reports,
    reports.fresh _ (congrArg some found)⟩

end PerlRegex
