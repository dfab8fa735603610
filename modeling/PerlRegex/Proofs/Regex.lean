import PerlRegex.Proofs.Execution
import PerlRegex.Regex
namespace PerlRegex.Regex

/-! Regular expressions as they are made: compiled, and then studied, limited and released in any
order. What an expression is asked comes down to executions of its program. -/

/-- A regular expression that has been compiled, whatever has been done to it since. -/
inductive Made : Regex → Prop
  | compiled {pattern : List UInt8} {options : CompileOptions} {regex : Regex} :
      compile pattern options = .ok regex → Made regex
  | studied {regex studied : Regex} {options : StudyOptions} :
      Made regex → regex.study options = .ok studied → Made studied
  | limited {regex : Regex} (limits : Limits) : Made regex → Made (regex.setLimits limits)
  | released {regex : Regex} : Made regex → Made regex.release

theorem Made.exists_compile {regex : Regex} (made : regex.Made) {program : Program}
    (present : regex.program = some program) :
    ∃ text options, Program.compile text options = .ok program := by
  induction made with
  | @compiled pattern options regex compiled =>
      unfold compile at compiled
      cases parsed : Program.compile pattern options with
      | error failure =>
          rw [parsed] at compiled
          cases compiled
      | ok other =>
          rw [parsed] at compiled
          injection compiled with same
          rw [← same] at present
          injection present with same
          exact ⟨pattern, options, same ▸ parsed⟩
  | @studied regex studied options _ studying induction =>
      unfold study at studying
      split at studying
      · cases studying
      · cases studying
      · injection studying with same
        rw [← same] at present
        exact induction present
  | limited limits _ induction => exact induction present
  | released => cases present

theorem Made.compiledProgram {regex : Regex} (made : regex.Made) {program : Program}
    (present : regex.program = some program) : Machine.Compiled program := by
  rcases made.exists_compile present with ⟨text, options, compiled⟩
  exact .of_compile compiled

theorem compile_of_program {pattern : List UInt8} {options : CompileOptions} {program : Program}
    (compiled : Program.compile pattern options = .ok program) :
    compile pattern options = .ok ⟨some program, none, {}⟩ := by
  rw [compile, compiled]
  rfl

/-! ## Executions -/

def execution (regex : Regex) (program : Program) (subject : Array UInt8) (startOffset : Nat)
    (options : MatchOptions) : Execution where
  program := program
  plan := program.usablePlan regex.plan options
  limits := regex.limits
  subject := subject
  startOffset := startOffset
  options := options

section Executions

variable {regex : Regex} {program : Program} {subject : Array UInt8} {startOffset : Nat}

theorem execAt_of_released (released : regex.program = none) (options : MatchOptions) :
    regex.execAt subject startOffset options = .error (.error .null) := by
  rw [execAt, isReleased, released]
  rfl

section Present

variable (present : regex.program = some program)
include present

theorem run_eq_outcome (options : MatchOptions) :
    regex.run subject startOffset options =
      (regex.execution program subject startOffset options).outcome := by
  rw [run, present]
  rfl

theorem execAt_of_lt (beyond : subject.size < startOffset) (options : MatchOptions) :
    regex.execAt subject startOffset options =
      .error (.beyondSubject startOffset subject.size) := by
  rw [execAt, isReleased, present, if_neg (by simp), if_pos beyond]

theorem execAt_of_le (inside : startOffset ≤ subject.size) (options : MatchOptions) :
    regex.execAt subject startOffset options =
      (regex.execution program subject startOffset options).outcome.mapError .error := by
  rw [execAt, isReleased, present, if_neg (by simp), if_neg (Nat.not_lt_of_le inside),
    run_eq_outcome present]
  cases (regex.execution program subject startOffset options).outcome <;> rfl

end Present

theorem execAt_eq_run (inside : startOffset ≤ subject.size) (options : MatchOptions) :
    regex.execAt subject startOffset options =
      (regex.run subject startOffset options).mapError .error := by
  cases present : regex.program with
  | none =>
      rw [execAt_of_released present, run, present]
      rfl
  | some program => rw [execAt_of_le present inside, run_eq_outcome present]

theorem exists_outcome_of_execAt {options : MatchOptions} {outcome : Outcome}
    (found : regex.execAt subject startOffset options = .ok outcome) :
    ∃ program, regex.program = some program
      ∧ (regex.execution program subject startOffset options).outcome = .ok outcome := by
  cases present : regex.program with
  | none =>
      rw [execAt_of_released present] at found
      cases found
  | some program =>
      refine ⟨program, rfl, ?_⟩
      rcases Nat.lt_or_ge subject.size startOffset with beyond | inside
      · rw [execAt_of_lt present beyond] at found
        cases found
      rw [execAt_of_le present inside] at found
      cases ran : (regex.execution program subject startOffset options).outcome with
      | error error =>
          rw [ran] at found
          cases found
      | ok other =>
          rw [ran] at found
          injection found with same
          rw [same]

end Executions

end PerlRegex.Regex
