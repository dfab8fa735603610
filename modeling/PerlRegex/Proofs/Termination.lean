import Mathlib.Data.Finite.Prod
import Mathlib.Data.Fintype.Order
import PerlRegex.Proofs.Execution
namespace PerlRegex

/-! Every execution comes to an end on its own. For a program and a subject there are budgets that
no execution exceeds, from whatever offset, with whatever options and by whatever plan. -/

/-! ## Attempts -/

namespace Machine.Attempt

variable {attempt : Attempt}

/-- The attempt halts by itself under all budgets that are not below the bound, and the instructions
that it executes are no more than the bound. -/
def HaltsWithin (attempt : Attempt) (bound : Nat) : Prop :=
  ∀ limit budget, bound ≤ limit → bound ≤ budget →
    let halt := run (attempt.withFrameLimit limit) (.initial attempt.program attempt.start) budget
    ¬ halt.Exhausted ∧ budget ≤ halt.budget + bound

theorem HaltsWithin.mono {bound larger : Nat} (halts : attempt.HaltsWithin bound)
    (le : bound ≤ larger) : attempt.HaltsWithin larger := by
  intro limit budget frames instructions
  rcases halts limit budget (Nat.le_trans le frames) (Nat.le_trans le instructions) with
    ⟨finished, spent⟩
  exact ⟨finished, Nat.le_trans spent (Nat.add_le_add_left le _)⟩

/-- However its loops are nested and whatever they repeat, a program goes through finitely many
states at one start position: the search for its tree is finite, and the machine follows it. -/
theorem exists_haltsWithin (compiled : Compiled attempt.program)
    (inside : attempt.start ≤ attempt.subject.size) : ∃ bound, attempt.HaltsWithin bound := by
  rcases leads_initial compiled inside with ⟨verdict, final, leads, describes⟩
  have decided : verdict ≠ .tooManyInstructions ∧ verdict ≠ .tooManyFrames := by
    cases decision : attempt.decide false attempt.search <;> rw [decision] at describes
    · rw [describes.1]
      decide
    · rw [describes.1]
      decide
    · rw [show verdict = .cutShort from describes]
      decide
  rcases leads.exists_bound decided.2 with ⟨bound, halts⟩
  refine ⟨bound, fun limit budget frames instructions => ?_⟩
  rcases halts limit budget frames instructions with ⟨rest, spent, same⟩
  have halted : run (attempt.withFrameLimit limit) (.initial attempt.program attempt.start)
      budget = ⟨verdict, final, rest⟩ := same
  rw [halted]
  exact ⟨fun exhausted => exhausted.elim decided.1 decided.2, spent⟩

end Machine.Attempt

instance : Finite MatchOptions :=
  Finite.of_injective
    (fun options => (options.anchored, options.notBol, options.notEol, options.notEmpty,
      options.noUtf8Check, options.partialSoft, options.noStartOptimize, options.partialHard,
      options.notEmptyAtStart))
    (by
      rintro ⟨⟩ ⟨⟩ same
      simpa using same)

theorem Machine.Compiled.exists_haltsWithin {program : Program}
    (compiled : Machine.Compiled program) (subject : Array UInt8) :
    ∃ bound, ∀ (options : MatchOptions) (startOffset start frameLimit : Nat),
      startOffset ≤ subject.size → start ≤ subject.size →
        (Machine.Attempt.mk program subject options startOffset start frameLimit).HaltsWithin
          bound := by
  let Setting := MatchOptions × Fin (subject.size + 1) × Fin (subject.size + 1)
  have each : ∀ setting : Setting, ∃ bound,
      (Machine.Attempt.mk program subject setting.1 setting.2.1 setting.2.2 0).HaltsWithin bound :=
    fun setting =>
      Machine.Attempt.exists_haltsWithin compiled (Nat.le_of_lt_succ setting.2.2.isLt)
  rcases Classical.axiomOfChoice each with ⟨boundOf, halts⟩
  rcases Finite.exists_le boundOf with ⟨bound, le⟩
  refine ⟨bound, fun options startOffset start _ offsetInside inside => ?_⟩
  let setting : Setting :=
    (options, ⟨startOffset, Nat.lt_succ_of_le offsetInside⟩, ⟨start, Nat.lt_succ_of_le inside⟩)
  exact (halts setting).mono (le setting)

/-! ## Searches -/

namespace Execution

variable {execution : Execution}

theorem not_exhausted_search (compiled : Machine.Compiled execution.program) {last bound : Nat}
    (lastInside : last ≤ execution.subject.size)
    (halts : ∀ start ≤ execution.subject.size, (execution.attemptAt start).HaltsWithin bound)
    (frames : bound ≤ execution.limits.frames) (start budget : Nat) (cut : Option Nat)
    (enough : (execution.subject.size + 1 - start) * bound ≤ budget) :
    ¬ Exhausted (execution.search last start budget cut) := by
  induction gap : execution.subject.size + 1 - start using Nat.strongRecOn
    generalizing start budget cut with
  | ind gap induction =>
      rcases search_cases compiled lastInside start budget cut with ended | ⟨inside, step⟩
      · rw [ended]
        exact not_exhausted_ok _
      have behind : ∀ left cut, (execution.subject.size - start) * bound ≤ left →
          ¬ Exhausted (execution.searchBehind last start left cut) := by
        intro left cut enough
        have later := execution.lt_nextStart start
        rw [searchBehind]
        split
        · exact not_exhausted_ok _
        · apply induction _ (by omega) _ _ _ _ rfl
          have fewer : execution.subject.size + 1 - execution.nextStart start ≤
              execution.subject.size - start := by omega
          exact Nat.le_trans (Nat.mul_le_mul_right bound fewer) enough
      have forOne : (execution.subject.size + 1 - start) * bound =
          (execution.subject.size - start) * bound + bound := by
        rw [← Nat.succ_mul]
        congr 1
        omega
      rcases halts start (Nat.le_trans inside lastInside) execution.limits.frames budget
        frames (by omega) with ⟨finished, spent⟩
      rcases step with skipped | ⟨_, exhausted⟩ | ⟨_, tried⟩
      · rw [skipped]
        exact behind budget cut (by omega)
      · exact absurd exhausted finished
      · rw [tried]
        cases execution.decisionAt start with
        | matched path => exact not_exhausted_ok _
        | cutShort => exact not_exhausted_ok _
        | failed touched =>
            have left : budget ≤ (execution.attempt start budget).budget + bound := spent
            exact behind _ _ (by omega)

end Execution

/-! ## Termination -/

/-- There is a bound for a program and a subject such that no execution whose budgets are not below
it is given up. -/
theorem execute_terminates {text : List UInt8} {options : CompileOptions} {program : Program}
    (compiled : Program.compile text options = .ok program) (subject : Array UInt8) :
    ∃ bound, ∀ (plan : Option Plan) (limits : Limits) (startOffset : Nat)
      (matchOptions : MatchOptions), bound ≤ limits.instructions → bound ≤ limits.frames →
        ¬ Execution.Exhausted (program.execute plan limits subject startOffset matchOptions) := by
  have made := Machine.Compiled.of_compile compiled
  rcases made.exists_haltsWithin subject with ⟨bound, halts⟩
  refine ⟨(subject.size + 1) * bound, ?_⟩
  intro plan limits startOffset matchOptions instructions frames
  let execution : Execution :=
    ⟨program, program.usablePlan plan matchOptions, limits, subject, startOffset, matchOptions⟩
  change ¬ Execution.Exhausted execution.outcome
  cases checked : execution.checkSubject with
  | error failure =>
      rw [Execution.outcome_of_error checked]
      rcases Execution.failure_of_checkSubject checked with ⟨_, rfl | rfl⟩ <;>
        simp [Execution.Exhausted]
  | ok =>
      rw [Execution.outcome_of_ok checked]
      rcases Nat.lt_or_ge subject.size startOffset with beyond | offsetInside
      · rw [Execution.search_of_lt (Nat.lt_of_le_of_lt execution.lastStart_le beyond)]
        exact Execution.not_exhausted_ok _
      · apply Execution.not_exhausted_search made execution.lastStart_le
        · exact fun start inside =>
            halts matchOptions startOffset start limits.frames offsetInside inside
        · exact Nat.le_trans (Nat.le_mul_of_pos_left bound (Nat.succ_pos _)) frames
        · exact Nat.le_trans (Nat.mul_le_mul_right bound (Nat.sub_le _ _)) instructions

/-- `(?:(a*)*|\1)*b` repeats what may be empty within what may be empty. On `aac` ten instructions
are not enough to find that it does not match, but some number is. -/
theorem execute_terminates_nested :
    ∃ program bound, Program.compile "(?:(a*)*|\\1)*b".toUTF8.toList {} = .ok program
      ∧ Execution.Exhausted (program.execute none ⟨10, 10⟩ "aac".toUTF8.data 0 {})
      ∧ ¬ Execution.Exhausted (program.execute none ⟨bound, bound⟩ "aac".toUTF8.data 0 {}) := by
  have evaluated : ∃ program,
      Program.compile "(?:(a*)*|\\1)*b".toUTF8.toList {} = .ok program
        ∧ Execution.Exhausted (program.execute none ⟨10, 10⟩ "aac".toUTF8.data 0 {}) :=
    exists_compiled (by decide +kernel)
  rcases evaluated with ⟨program, compiled, tooFew⟩
  rcases execute_terminates compiled "aac".toUTF8.data with ⟨bound, finished⟩
  exact ⟨program, bound, compiled, tooFew,
    finished none ⟨bound, bound⟩ 0 {} (Nat.le_refl _) (Nat.le_refl _)⟩

end PerlRegex
