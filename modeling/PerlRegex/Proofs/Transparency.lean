import PerlRegex.Proofs.Regex
import PerlRegex.Proofs.Transparency.Machine

/-! UTF-8 mode makes no difference to patterns and subjects of ASCII characters. The pattern
compiles in the mode if it compiles outside of it, with the same groups, and what an execution
finds, or where it gives up, is the same. -/

namespace PerlRegex

/-! ## Executions -/

namespace Execution

def inUtf8 (execution : Execution) : Execution :=
  { execution with program := execution.program.inUtf8 }

theorem firstNewline_inUtf8 {subject : Array UInt8} (ascii : Utf8.AllAscii subject.toList)
    (rules : LineRules) (position : Nat) :
    firstNewline rules.inUtf8 subject position = firstNewline rules subject position := by
  fun_induction firstNewline rules subject position with
  | case1 position beyond => rw [firstNewline, if_pos beyond]
  | case2 position inside found =>
      rw [firstNewline, if_neg inside, LineRules.newlineAt_inUtf8 ascii, if_pos found]
  | case3 position inside absent induction =>
      rw [firstNewline, if_neg inside, LineRules.newlineAt_inUtf8 ascii, if_neg absent, induction]

variable {execution : Execution} (ascii : Utf8.AllAscii execution.subject.toList)
include ascii

theorem checkSubject_of_allAscii : execution.checkSubject = .ok () := by
  rw [checkSubject, ascii.invalidOffset, Utf8.isBoundary_of_allAscii ascii]
  split <;> rfl

theorem nextStart_of_allAscii (start : Nat) : execution.nextStart start = start + 1 := by
  rw [nextStart, Utf8.nextBoundary_of_allAscii ascii, ite_self]

theorem nextStart_inUtf8 (start : Nat) :
    execution.inUtf8.nextStart start = execution.nextStart start :=
  (@nextStart_of_allAscii execution.inUtf8 ascii start).trans
    (nextStart_of_allAscii ascii start).symm

theorem lastStart_inUtf8 : execution.inUtf8.lastStart = execution.lastStart := by
  have sameLine := firstNewline_inUtf8 ascii execution.program.pattern.lineRules
    execution.startOffset
  rw [lastStart, lastStart, ← sameLine]
  rfl

theorem mayStart_inUtf8 (start : Nat) :
    execution.inUtf8.mayStart start = execution.mayStart start := by
  have sameEnd := LineRules.newlineEndsAt_inUtf8 ascii execution.program.pattern.lineRules start
  simp only [mayStart, Plan.mayStart, ← sameEnd]
  rfl

variable (transparent : execution.program.Transparent)
include transparent

theorem attempt_inUtf8 (start budget : Nat) :
    execution.inUtf8.attempt start budget = execution.attempt start budget :=
  @Machine.run_inUtf8 (execution.attemptAt start) ascii transparent
    (.initial execution.program start) budget

theorem search_inUtf8 (last start budget : Nat) (cut : Option Nat) :
    execution.inUtf8.search last start budget cut = execution.search last start budget cut := by
  apply search_congr
  case nextStart => exact nextStart_inUtf8 ascii
  case mayStart => exact mayStart_inUtf8 ascii
  case attempt => exact attempt_inUtf8 ascii transparent
  all_goals rfl

theorem outcome_inUtf8 : execution.inUtf8.outcome = execution.outcome := by
  rw [outcome_of_ok (checkSubject_of_allAscii ascii),
    outcome_of_ok (@checkSubject_of_allAscii execution.inUtf8 ascii), lastStart_inUtf8 ascii]
  exact search_inUtf8 ascii transparent _ _ _ none

end Execution

/-! ## Regular expressions -/

/-- A regular expression of ASCII characters is also one in UTF-8 mode, unless the mode is
forbidden. It has the same groups there, under the same names, and on every subject of ASCII
characters an execution gives what it gives without the mode: the same spans, the same cut, or the
same error. -/
theorem Regex.execAt_inUtf8 {text : List UInt8} {options : CompileOptions} {regex : Regex}
    (ascii : Utf8.AllAscii text) (allowed : options.neverUtf = false)
    (compiled : compile text options = .ok regex) :
    ∃ wide, compile text options.inUtf8 = .ok wide ∧ wide.options = regex.options.inUtf8
      ∧ wide.groups = regex.groups ∧ wide.namedGroups = regex.namedGroups
      ∧ wide.groupNames = regex.groupNames
      ∧ ∀ (limits : Limits) (subject : Array UInt8), Utf8.AllAscii subject.toList →
        ∀ (startOffset : Nat) (matchOptions : MatchOptions),
          (wide.setLimits limits).execAt subject startOffset matchOptions =
            (regex.setLimits limits).execAt subject startOffset matchOptions := by
  cases made : Program.compile text options with
  | error failure =>
      rw [compile, made] at compiled
      cases compiled
  | ok program =>
      rw [compile_of_program made] at compiled
      injection compiled with same
      rcases Program.compile_inUtf8 ascii allowed made with ⟨wideMade, transparent⟩
      rw [← same]
      refine ⟨_, compile_of_program wideMade, rfl, rfl, rfl, rfl, ?_⟩
      intro limits subject subjectAscii startOffset matchOptions
      let narrow : Regex := ⟨some program, none, limits⟩
      let wide : Regex := ⟨some program.inUtf8, none, limits⟩
      change wide.execAt subject startOffset matchOptions =
        narrow.execAt subject startOffset matchOptions
      rcases Nat.lt_or_ge subject.size startOffset with beyond | inside
      · rw [@execAt_of_lt wide _ _ _ rfl beyond, @execAt_of_lt narrow _ _ _ rfl beyond]
      · rw [@execAt_of_le wide _ _ _ rfl inside, @execAt_of_le narrow _ _ _ rfl inside]
        congr 1
        exact @Execution.outcome_inUtf8 (narrow.execution program subject startOffset matchOptions)
          subjectAscii transparent

/-- Caseless `(?<n>k+)(\xe9|\x41)\1\b` names a character beyond ASCII, and in UTF-8 mode the letter
`k` has a variant beyond ASCII as well. Without the mode it finds `kKAkk` at offset 2, or gives up
where five instructions have to do, and so it does in the mode. -/
theorem Regex.execAt_inUtf8_caseless :
    ∃ wide,
      compile "(?<n>k+)(\\xe9|\\x41)\\1\\b".toUTF8.toList { caseless := true, utf8 := true } =
        .ok wide
      ∧ wide.groupNames = ["", "n", ""]
      ∧ (wide.setLimits ⟨1000, 1000⟩).execAt "..kKAkk".toUTF8.data 1 {} =
        .ok (.matched [some ⟨2, 7⟩, some ⟨2, 4⟩, some ⟨4, 5⟩])
      ∧ (wide.setLimits ⟨5, 1000⟩).execAt "..kKAkk".toUTF8.data 1 {} =
        .error (.error .matchLimit) := by
  have evaluated : ∃ program,
      Program.compile "(?<n>k+)(\\xe9|\\x41)\\1\\b".toUTF8.toList { caseless := true } =
        .ok program
      ∧ (Regex.mk (some program) none {}).groupNames = ["", "n", ""]
      ∧ (Regex.mk (some program) none ⟨1000, 1000⟩).execAt "..kKAkk".toUTF8.data 1 {} =
        .ok (.matched [some ⟨2, 7⟩, some ⟨2, 4⟩, some ⟨4, 5⟩])
      ∧ (Regex.mk (some program) none ⟨5, 1000⟩).execAt "..kKAkk".toUTF8.data 1 {} =
        .error (.error .matchLimit) :=
    exists_compiled (by decide +kernel)
  rcases evaluated with ⟨program, made, names, found, gaveUp⟩
  rcases execAt_inUtf8 (by decide +kernel) rfl (compile_of_program made) with
    ⟨wide, compiled, _, _, _, sameNames, same⟩
  have subjectAscii : Utf8.AllAscii "..kKAkk".toUTF8.data.toList := by decide +kernel
  refine ⟨wide, compiled, sameNames.trans names, ?_, ?_⟩
  · exact (same ⟨1000, 1000⟩ _ subjectAscii 1 {}).trans found
  · exact (same ⟨5, 1000⟩ _ subjectAscii 1 {}).trans gaveUp

end PerlRegex
