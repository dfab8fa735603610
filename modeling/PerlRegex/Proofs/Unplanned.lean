import PerlRegex.Proofs.Budgets
import PerlRegex.Proofs.Study.Plans
namespace PerlRegex

/-! On a well-formed subject an expression comes to what its program comes to without a plan,
however it has been studied, unless it runs out of instructions or frames. -/

namespace Regex

variable {regex : Regex} {program : Program} {subject : Array UInt8} {startOffset : Nat}
  {options : MatchOptions}

/-! ## Running freely -/

namespace RunsFreely

variable {states : List Machine.State} {result : Except ExecFailure Outcome}
  (runs : regex.RunsFreely subject startOffset options states result)
include runs

theorem execAt_of_enough (limits : Limits) (instructions : states.length ≤ limits.instructions)
    (frames : Machine.mostHeld states ≤ limits.frames) :
    (regex.setLimits limits).execAt subject startOffset options = result := by
  have spent : ∃ rest, Machine.spend limits.frames states limits.instructions = .ok rest :=
    (Machine.exists_spend_iff ..).mpr ⟨instructions, Machine.mostHeld_le_iff.mp frames⟩
  rcases spent with ⟨rest, spent⟩
  rw [runs.execAt_limited, spent]
  rfl

theorem execAt_cases :
    regex.execAt subject startOffset options = result
      ∨ regex.execAt subject startOffset options = .error (.error .matchLimit)
      ∨ regex.execAt subject startOffset options = .error (.error .recursionLimit) := by
  have own : regex.execAt subject startOffset options = _ := runs.execAt_limited regex.limits
  rw [own]
  cases Machine.spend regex.limits.frames states regex.limits.instructions with
  | ok rest => exact .inl rfl
  | error shortage =>
      cases shortage with
      | instructions => exact .inr (.inl rfl)
      | frames => exact .inr (.inr rfl)

theorem eq_of_execAt_ok {limits : Limits} {outcome : Outcome}
    (limited : (regex.setLimits limits).execAt subject startOffset options = .ok outcome) :
    result = .ok outcome := by
  rw [runs.execAt_limited] at limited
  cases spending : Machine.spend limits.frames states limits.instructions with
  | ok rest =>
      rw [spending] at limited
      exact limited
  | error shortage =>
      rw [spending] at limited
      cases limited

end RunsFreely

theorem Made.exists_enough (made : regex.Made) (present : regex.program = some program)
    (inside : startOffset ≤ subject.size) (options : MatchOptions) :
    ∃ enough, ¬ Execution.Exhausted
      ((regex.setLimits enough).execution program subject startOffset options).unplanned.outcome := by
  rcases made.exists_compile present with ⟨text, compileOptions, compiled⟩
  have plainMade : Made ⟨some program, none, {}⟩ := .compiled (compile_of_program compiled)
  rcases plainMade.exists_runsFreely subject startOffset options with ⟨states, result, runs⟩
  let enough : Limits := ⟨states.length, Machine.mostHeld states⟩
  have ran := runs.execAt_of_enough enough (Nat.le_refl _) (Nat.le_refl _)
  have same : ((regex.setLimits enough).execution program subject startOffset
      options).unplanned.outcome.mapError .error = result :=
    (execAt_of_le rfl inside options).symm.trans ran
  refine ⟨enough, ?_⟩
  rintro (short | short)
  · rw [short] at same
    exact runs.result_ne .instructions same.symm
  · rw [short] at same
    exact runs.result_ne .frames same.symm

/-! ## Plans -/

theorem Made.plan_cases (made : regex.Made) (present : regex.program = some program) :
    regex.plan = none
      ∨ ∃ mode, regex.plan =
        some (.build program.pattern.options program.pattern.tree mode) := by
  induction made with
  | @compiled pattern options regex compiled =>
      left
      unfold compile at compiled
      cases made : Program.compile pattern options with
      | error failure =>
          rw [made] at compiled
          cases compiled
      | ok other =>
          rw [made] at compiled
          injection compiled with same
          rw [← same]
  | @studied regex studied options _ studying induction =>
      right
      unfold study at studying
      split at studying
      · cases studying
      · cases studying
      · rename_i other mode found _
        injection studying with same
        rw [← same] at present ⊢
        rw [found] at present
        injection present with same
        exact ⟨mode, by rw [same]⟩
  | limited limits _ induction => exact induction present
  | released => cases present

section Checked

variable (checked : program.utf8 = true →
  Utf8.isValid subject.toList = true ∧ Utf8.isBoundary subject startOffset = true)
include checked

theorem checkSubject_execution :
    (regex.execution program subject startOffset options).checkSubject = .ok () := by
  unfold Execution.checkSubject
  split
  · rename_i checks
    rcases checked (Bool.and_eq_true_iff.mp checks).1 with ⟨valid, boundary⟩
    have formed : Utf8.invalidOffset? subject.toList = none := Option.isNone_iff_eq_none.mp valid
    dsimp only [execution]
    rw [formed]
    exact if_pos boundary
  · rfl

theorem outcome_execution (made : regex.Made) (present : regex.program = some program)
    (finished : ¬ Execution.Exhausted
      (regex.execution program subject startOffset options).unplanned.outcome) :
    (regex.execution program subject startOffset options).outcome =
      (regex.execution program subject startOffset options).unplanned.outcome := by
  rcases made.plan_cases present with bare | ⟨mode, planned⟩
  · rw [execution, bare]
    rfl
  · rcases program.usablePlan_build mode options with ⟨unused, _⟩ | ⟨used, _⟩
    · rw [execution, planned, unused]
      rfl
    · have studied : (regex.execution program subject startOffset options).Studied :=
        (congrArg (program.usablePlan · options) planned).trans used
      exact Execution.outcome_eq_unplanned (made.compiledProgram present) studied
        (fun utf8 => Utf8.wellFormed_of_isValid (checked utf8).1) (fun utf8 => (checked utf8).2)
        finished

/-- Left to run freely an expression comes to what its program comes to without a plan, where the
program may take instructions and frames enough. -/
theorem Made.exists_runsFreely_unplanned (made : regex.Made) (present : regex.program = some program)
    (inside : startOffset ≤ subject.size) (options : MatchOptions) :
    ∃ enough states,
      let unplanned :=
        ((regex.setLimits enough).execution program subject startOffset options).unplanned
      regex.RunsFreely subject startOffset options states
        (.ok (unplanned.tryStarts none unplanned.starts)) := by
  -- How much is enough is found where there is no plan, and then a plan makes no difference.
  rcases made.exists_enough present inside options with ⟨enough, finished⟩
  rcases made.exists_runsFreely subject startOffset options with ⟨states, result, runs⟩
  refine ⟨enough, states, ?_⟩
  intro unplanned
  have allowed : unplanned.checkSubject = .ok () :=
    @checkSubject_execution regex program subject startOffset options checked
  have found : unplanned.outcome = .ok (unplanned.tryStarts none unplanned.starts) :=
    Execution.outcome_eq_tryStarts (made.compiledProgram present) rfl allowed finished
  have limited : (regex.setLimits enough).execAt subject startOffset options =
      .ok (unplanned.tryStarts none unplanned.starts) := by
    have stays : (regex.setLimits enough).program = some program := present
    rw [execAt_of_le stays inside, outcome_execution checked (made.limited enough) stays finished,
      found]
    rfl
  rw [← runs.eq_of_execAt_ok limited]
  exact runs

end Checked

end Regex

end PerlRegex
