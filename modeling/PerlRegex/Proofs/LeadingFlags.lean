import PerlRegex.Proofs.Execution
import PerlRegex.Proofs.Pattern.LeadingFlags
import PerlRegex.Proofs.Regex

/-! A pattern that begins with a group of flags compiles to the program of the pattern behind the
group, compiled with the options of the flags, and the two programs run alike. -/

namespace PerlRegex

def Program.withFlags (program : Program) (source : String) (added : List InlineFlag) : Program :=
  { program with
    source := source
    pattern := { program.pattern with options := program.pattern.options.withFlags added } }

namespace Machine

namespace Attempt

variable (attempt : Attempt) (source : String) (added : List InlineFlag)

def withFlags : Attempt := { attempt with program := attempt.program.withFlags source added }

theorem back_withFlags (position count : Nat) :
    (attempt.withFlags source added).back position count = attempt.back position count := by
  induction count generalizing position with
  | zero => rfl
  | succ count induction =>
      have same : (attempt.withFlags source added).characterBefore position =
          attempt.characterBefore position := rfl
      simp only [back, same, induction]

theorem repeatFolded_withFlags (stop budget captured position : Nat) :
    (attempt.withFlags source added).repeatFolded stop budget captured position =
      attempt.repeatFolded stop budget captured position := by
  induction budget generalizing captured position with
  | zero => rfl
  | succ budget induction =>
      have same : ∀ position, (attempt.withFlags source added).characterAt position =
          attempt.characterAt position := fun _ => rfl
      have mode : (attempt.withFlags source added).program.utf8 = attempt.program.utf8 := rfl
      simp only [repeatFolded, same, mode, induction]

theorem repeats_withFlags (span : Span) (caseless : Bool) (position : Nat) :
    (attempt.withFlags source added).repeats span caseless position =
      attempt.repeats span caseless position := by
  rw [repeats, repeats, repeatFolded_withFlags]
  rfl

/-- No instruction asks for the flags. They have gone into the tree when it was read. -/
theorem execute_withFlags (state : State) (instruction : Instruction) :
    (attempt.withFlags source added).execute state instruction =
      attempt.execute state instruction := by
  cases instruction with
  | backreference groups caseless =>
      simp only [execute, matchReference, repeats_withFlags]
      rfl
  | look direction negated next => simp only [execute, look, back_withFlags]
  | _ => rfl

theorem step_withFlags (state : State) :
    (attempt.withFlags source added).step state = attempt.step state := by
  have fetched : (attempt.withFlags source added).program.instructions =
      attempt.program.instructions := rfl
  rw [step, step, fetched]
  cases attempt.program.instructions[state.address]? with
  | none => rfl
  | some instruction => exact execute_withFlags attempt source added state instruction

end Attempt

theorem run_withFlags (attempt : Attempt) (source : String) (added : List InlineFlag)
    (state : State) (budget : Nat) :
    run (attempt.withFlags source added) state budget = run attempt state budget := by
  induction budget generalizing state with
  | zero => rfl
  | succ budget induction =>
      rw [run, run, Attempt.step_withFlags]
      cases attempt.step state with
      | next following => exact induction following
      | halt verdict final => rfl

end Machine

namespace Execution

variable (execution : Execution) (source : String) (added : List InlineFlag)

def withFlags : Execution := { execution with program := execution.program.withFlags source added }

theorem attempt_withFlags (start budget : Nat) :
    (execution.withFlags source added).attempt start budget = execution.attempt start budget :=
  Machine.run_withFlags (execution.attemptAt start) source added
    (.initial execution.program start) budget

theorem search_withFlags (last start budget : Nat) (cut : Option Nat) :
    (execution.withFlags source added).search last start budget cut =
      execution.search last start budget cut := by
  apply search_congr
  case attempt => exact attempt_withFlags execution source added
  all_goals intros
  all_goals rfl

theorem outcome_withFlags : (execution.withFlags source added).outcome = execution.outcome := by
  unfold outcome
  rw [search_withFlags]
  rfl

end Execution

namespace Program

/-- What two programs have in common that do the same on every subject, studied or not. -/
structure ActsAlike (program other : Program) : Prop where
  tree : other.pattern.tree = program.pattern.tree
  captures : other.pattern.captures = program.pattern.captures
  names : other.pattern.names = program.pattern.names
  plan : ∀ mode, Plan.build other.pattern.options other.pattern.tree mode =
    Plan.build program.pattern.options program.pattern.tree mode
  execute : ∀ plan limits subject startOffset options,
    other.execute plan limits subject startOffset options =
      program.execute plan limits subject startOffset options

theorem actsAlike_withFlags (program : Program) (source : String) (added : List InlineFlag) :
    ActsAlike (program.withFlags source added) program where
  tree := rfl
  captures := rfl
  names := rfl
  plan := fun _ => rfl
  execute := fun plan limits subject startOffset options =>
    (Execution.outcome_withFlags ⟨program, program.usablePlan plan options, limits, subject,
      startOffset, options⟩ source added).symm

section Compilation

variable (added : List InlineFlag) (text : List UInt8) (options : CompileOptions)
  (plain : ¬ [0x28, 0x2A] <+: text)
include plain

theorem compile_group_of_ok {program : Program}
    (compiled : compile text (options.withFlags added) = .ok program) :
    ∃ other, compile (InlineFlag.group added ++ text) options = .ok other
      ∧ other.withFlags program.source added = program := by
  have read := parse_of_compile compiled
  have behind := Pattern.parse_group added text options plain
  rw [read] at behind
  have effective : program.pattern.options = options.withFlags added := by
    rcases Pattern.steps_of_parse read with ⟨offset, _, _, verbs, _⟩
    rw [Pattern.readVerbs_of_not_isPrefix _ plain] at verbs
    injection verbs with verbs
    injection verbs with same
    exact same.symm
  obtain ⟨source, ⟨tree, captures, names, _, rules⟩, instructions, registers⟩ := program
  dsimp only at effective
  subst effective
  rw [compile, read] at compiled
  rw [compile, behind]
  unfold Pattern.program at compiled ⊢
  dsimp only at compiled ⊢
  split at compiled
  · cases compiled
  · rename_i fits
    injection compiled with same
    injection same with _ _ sameInstructions sameRegisters
    refine ⟨_, if_neg fits, ?_⟩
    rw [← sameInstructions, ← sameRegisters]
    rfl

theorem compile_of_compile_group {other : Program}
    (compiled : compile (InlineFlag.group added ++ text) options = .ok other) :
    ∃ program, compile text (options.withFlags added) = .ok program := by
  have behind := Pattern.parse_group added text options plain
  have otherRead := parse_of_compile compiled
  rw [compile, otherRead] at compiled
  rw [otherRead] at behind
  cases read : Pattern.parse text (options.withFlags added) with
  | ok pattern =>
      rw [read] at behind
      injection behind with same
      have tree : other.pattern.tree = pattern.tree := by rw [same]
      have mode : other.pattern.options.utf8 = pattern.options.utf8 := by
        rcases Pattern.steps_of_parse read with ⟨offset, _, _, verbs, _⟩
        rw [Pattern.readVerbs_of_not_isPrefix _ plain] at verbs
        injection verbs with verbs
        injection verbs with effective
        rw [same, ← effective]
        rfl
      rw [compile, read]
      unfold Pattern.program at compiled ⊢
      dsimp only at compiled ⊢
      rw [tree, mode] at compiled
      split at compiled
      · cases compiled
      · rename_i fits
        exact ⟨_, if_neg fits⟩
  | error failure =>
      rw [read] at behind
      cases failure with
      | fault cause offset =>
          rcases behind with impossible | ⟨_, _, impossible⟩ <;> cases impossible
      | overflow => cases behind

end Compilation

/-- A pattern behind a group of flags is the pattern on its own, compiled with the options of the
flags. It is read to the same tree with the same groups and line rules, or refused for the same
cause, and the cause is reported behind the group where it is reported in the pattern, if it is not
in the options. It compiles if the pattern does, and then the two programs do the same on every
subject. -/
theorem compile_behind_flags (added : List InlineFlag) (text : List UInt8)
    (options : CompileOptions) (plain : ¬ [0x28, 0x2A] <+: text) :
    (match Pattern.parse text (options.withFlags added) with
      | .ok pattern =>
          Pattern.parse (InlineFlag.group added ++ text) options =
            .ok { pattern with options := options }
      | .error (.fault cause offset) =>
          Pattern.parse (InlineFlag.group added ++ text) options =
              .error (.fault cause ((InlineFlag.group added).length + offset))
            ∨ cause.kind = .inconsistentOptions ∧ offset = 0
              ∧ Pattern.parse (InlineFlag.group added ++ text) options = .error (.fault cause 0)
      | .error .overflow =>
          Pattern.parse (InlineFlag.group added ++ text) options = .error .overflow)
    ∧ (∀ program, compile text (options.withFlags added) = .ok program →
        ∃ other, compile (InlineFlag.group added ++ text) options = .ok other
          ∧ program.ActsAlike other)
    ∧ ∀ other, compile (InlineFlag.group added ++ text) options = .ok other →
        ∃ program, compile text (options.withFlags added) = .ok program := by
  refine ⟨Pattern.parse_group added text options plain, fun program compiled => ?_,
    fun other compiled => compile_of_compile_group added text options plain compiled⟩
  rcases compile_group_of_ok added text options plain compiled with ⟨other, behind, same⟩
  refine ⟨other, behind, ?_⟩
  rw [← same]
  exact other.actsAlike_withFlags program.source added

/-- Caseless extended `(?<n>k) +# twice`, with a reference on the next line, compiles behind `(?ix)`
without options, and what is wrong with `a)` is found five bytes further on behind it. -/
theorem compile_behind_ix :
    (¬ [0x28, 0x2A] <+: "(?<n>k) +# twice\n\\k<n>".toUTF8.toList)
    ∧ (∃ program other,
      compile "(?<n>k) +# twice\n\\k<n>".toUTF8.toList { caseless := true, extended := true } =
        .ok program
      ∧ compile "(?ix)(?<n>k) +# twice\n\\k<n>".toUTF8.toList {} = .ok other
      ∧ program.ActsAlike other)
    ∧ Pattern.parse "(?ix)a)".toUTF8.toList {} =
        .error (.fault (.usual .unmatchedParenthesis) 6) := by
  let flags : List InlineFlag := [.caseless, .extended]
  have plain : ¬ [0x28, 0x2A] <+: "(?<n>k) +# twice\n\\k<n>".toUTF8.toList := by decide +kernel
  have text : "(?ix)(?<n>k) +# twice\n\\k<n>".toUTF8.toList =
      InlineFlag.group flags ++ "(?<n>k) +# twice\n\\k<n>".toUTF8.toList := by decide +kernel
  have faultyText : "(?ix)a)".toUTF8.toList = InlineFlag.group flags ++ "a)".toUTF8.toList := by
    decide +kernel
  rw [text, faultyText]
  refine ⟨plain, ?_, ?_⟩
  · have compiled : ∃ program,
        compile "(?<n>k) +# twice\n\\k<n>".toUTF8.toList { caseless := true, extended := true } =
          .ok program ∧ True := exists_compiled (by decide +kernel)
    rcases compiled with ⟨program, compiled, _⟩
    rcases (compile_behind_flags flags _ {} plain).2.1 program compiled with
      ⟨other, behind, alike⟩
    exact ⟨program, other, compiled, behind, alike⟩
  · have alone : Pattern.parse "a)".toUTF8.toList { caseless := true, extended := true } =
        .error (.fault (.usual .unmatchedParenthesis) 1) :=
      Pattern.Reading.eq_error (by decide +kernel)
    have faults := (compile_behind_flags flags "a)".toUTF8.toList {} (by decide +kernel)).1
    have added : ({} : CompileOptions).withFlags flags =
        { caseless := true, extended := true } := by
      decide
    rw [added, alone] at faults
    rcases faults with behind | ⟨impossible, _⟩
    · exact behind
    · cases impossible

end Program
end PerlRegex
