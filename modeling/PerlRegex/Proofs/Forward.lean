import PerlRegex.Proofs.Forward.Machine
import PerlRegex.Proofs.Unplanned
import PerlRegex.Proofs.Utf8.Texts
namespace PerlRegex

/-! An expression that does not look back finds in the rest of a subject what it finds from there on
in the whole of it. Nothing tells the two executions apart but the distance. -/

/-! ## Plans -/

theorem StartKind.join_ne_lineStart {first second : StartKind} (firstKind : first ≠ .lineStart)
    (secondKind : second ≠ .lineStart) : first.join second ≠ .lineStart := by
  cases first <;> cases second <;> simp_all [join]

theorem Node.startKind_of_forward {tree : Node Reference} (forward : tree.looksBack = false) :
    tree.startKind ≠ .lineStart := by
  induction tree with
  | assertion condition =>
      cases condition with
      | lineStart => cases forward
      | _ => simp [startKind]
  | group body induction | capture number body induction | atomic body induction =>
      exact induction forward
  | sequence first second induction _ =>
      rw [looksBack, Bool.or_eq_false_iff] at forward
      exact induction forward.1
  | alternation first second firstInduction secondInduction =>
      rw [looksBack, Bool.or_eq_false_iff] at forward
      exact StartKind.join_ne_lineStart (firstInduction forward.1) (secondInduction forward.2)
  | _ => simp [startKind]

theorem Plan.start_of_forward {options : CompileOptions} {tree : Node Reference}
    (forward : tree.looksBack = false) (mode : PartialMode) :
    (Plan.build options tree mode).start ≠ .lineStart := by
  rw [build]
  dsimp only
  split
  · simp
  · exact Node.startKind_of_forward forward

/-! ## Executions -/

def Outcome.shift (distance : Nat) : Outcome → Outcome
  | .noMatch => .noMatch
  | .matched captures => .matched (captures.map (Option.map (Span.shift distance)))
  | .cutShort span => .cutShort (span.shift distance)

namespace Execution

/-- The same execution with a text put in front of its subject. -/
def behind (execution : Execution) (front : Array UInt8) : Execution :=
  { execution with
    subject := front ++ execution.subject
    startOffset := front.size + execution.startOffset }

variable {execution : Execution} {front : Array UInt8}

theorem size_behind :
    (execution.behind front).subject.size = front.size + execution.subject.size :=
  Array.size_append

theorem firstNewline_behind (rules : LineRules) (text : Array UInt8) (position : Nat) :
    firstNewline rules (front ++ text) (front.size + position) =
      front.size + firstNewline rules text position := by
  fun_induction firstNewline rules text position with
  | case1 position beyond =>
      rw [firstNewline, if_pos (by rw [Array.size_append]; omega), Array.size_append]
  | case2 position inside found =>
      rw [firstNewline, if_neg (by rw [Array.size_append]; omega), LineRules.newlineAt_behind,
        if_pos found]
  | case3 position inside absent induction =>
      rw [firstNewline, if_neg (by rw [Array.size_append]; omega), LineRules.newlineAt_behind,
        if_neg absent, Nat.add_assoc, induction]

theorem lastStart_behind :
    (execution.behind front).lastStart = front.size + execution.lastStart := by
  have newline : firstNewline (execution.behind front).program.pattern.lineRules
      (execution.behind front).subject (execution.behind front).startOffset =
        front.size + firstNewline execution.program.pattern.lineRules execution.subject
          execution.startOffset := firstNewline_behind _ _ _
  have sameOptions : (execution.behind front).program.pattern.options =
      execution.program.pattern.options := rfl
  rw [lastStart, lastStart, newline, size_behind, sameOptions]
  split <;> rfl

theorem tooShort_behind (start : Nat) :
    (execution.behind front).tooShort (front.size + start) = execution.tooShort start := by
  have left : front.size + execution.subject.size - (front.size + start) =
      execution.subject.size - start := Nat.add_sub_add_left ..
  rw [tooShort, tooShort, size_behind, left]
  rfl

theorem nextStart_behind (start : Nat) :
    (execution.behind front).nextStart (front.size + start) =
      front.size + execution.nextStart start := by
  have boundary := Utf8.nextBoundary_behind front execution.subject (start + 1)
  have sameMode : (execution.behind front).program = execution.program := rfl
  rw [nextStart, nextStart, sameMode]
  split
  · exact boundary
  · rfl

theorem mayStart_behind (planned : ∀ plan, execution.plan = some plan → plan.start ≠ .lineStart)
    (start : Nat) :
    (execution.behind front).mayStart (front.size + start) = execution.mayStart start := by
  have samePlan : (execution.behind front).plan = execution.plan := rfl
  rw [mayStart, mayStart, samePlan]
  cases present : execution.plan with
  | none => rfl
  | some plan =>
      have kind := planned plan present
      have byte := getElem?_behind front execution.subject start
      have atOffset := beq_behind front.size start execution.startOffset
      rw [Option.all_some, Option.all_some, Plan.mayStart, Plan.mayStart, ← byte]
      cases start : plan.start with
      | lineStart => exact absurd start kind
      | anywhere => rfl
      | startOffset =>
          dsimp only
          rw [← atOffset]
          rfl

theorem withoutMatch_behind (cut : Option Nat) :
    (execution.behind front).withoutMatch (cut.map (front.size + ·)) =
      (execution.withoutMatch cut).shift front.size := by
  cases cut with
  | none => rfl
  | some start => rw [Option.map_some, withoutMatch, size_behind]; rfl

theorem orElse_behind (distance start : Nat) (cut : Option Nat) (touched : Bool) :
    (cut.map (distance + ·) <|> if touched then some (distance + start) else none) =
      (cut <|> if touched then some start else none).map (distance + ·) := by
  cases cut <;> cases touched <;> rfl

/-- From a position on the search goes the same way behind the text. -/
def SearchesAlike (execution : Execution) (front : Array UInt8) (last start : Nat) : Prop :=
  ∀ budget cut,
    (execution.behind front).search (front.size + last) (front.size + start) budget
        (cut.map (front.size + ·)) =
      (execution.search last start budget cut).map (Outcome.shift front.size)

section Rest

variable {last start : Nat} (rest : start < execution.subject.size →
  execution.SearchesAlike front last (execution.nextStart start))
include rest

theorem searchBehind_behind (budget : Nat) (cut : Option Nat) :
    (execution.behind front).searchBehind (front.size + last) (front.size + start) budget
        (cut.map (front.size + ·)) =
      (execution.searchBehind last start budget cut).map (Outcome.shift front.size) := by
  have sameOnce : (execution.behind front).startsOnce = execution.startsOnce := rfl
  rw [searchBehind, searchBehind, nextStart_behind, sameOnce, size_behind, withoutMatch_behind]
  simp only [Nat.add_le_add_iff_left]
  split
  · rfl
  · rename_i goesOn
    rw [Bool.or_eq_true, decide_eq_true_eq, not_or, Nat.not_le] at goesOn
    exact rest goesOn.2 budget cut

theorem afterAttempt_behind {cut : Option Nat} {halt far : Machine.Halt}
    (moved : Machine.Halt.Moved front.size halt far) :
    (execution.behind front).afterAttempt (front.size + last) (front.size + start)
        (cut.map (front.size + ·)) far =
      (execution.afterAttempt last start cut halt).map (Outcome.shift front.size) := by
  rw [afterAttempt, afterAttempt, moved.verdict]
  cases halt.verdict with
  | matched =>
      have span : Span.mk (front.size + start) far.state.position =
          (Span.mk start halt.state.position).shift front.size := by
        rw [moved.state.position]
        rfl
      dsimp only
      rw [span, moved.state.slots, Machine.capturesOf_moved]
      rfl
  | cutShort =>
      dsimp only
      rw [size_behind]
      rfl
  | failed =>
      dsimp only
      rw [moved.budget, moved.state.touchedEnd, orElse_behind, searchBehind_behind rest]
  | tooManyInstructions | tooManyFrames | fault => rfl

end Rest

section Search

variable (compiled : Machine.Compiled execution.program)
  (forward : execution.program.pattern.tree.looksBack = false)
include compiled forward

theorem attempt_behind (start budget : Nat) :
    Machine.Halt.Moved front.size (execution.attempt start budget)
      ((execution.behind front).attempt (front.size + start) budget) :=
  @Machine.run_moved (execution.attemptAt start) front compiled forward _ _
    (Machine.initial_moved execution.program front.size start) budget

variable (planned : ∀ plan, execution.plan = some plan → plan.start ≠ .lineStart)
include planned

theorem search_behind (last start budget : Nat) (cut : Option Nat) :
    (execution.behind front).search (front.size + last) (front.size + start) budget
        (cut.map (front.size + ·)) =
      (execution.search last start budget cut).map (Outcome.shift front.size) := by
  -- The induction is on the positions that are left, as in the search itself.
  induction gap : execution.subject.size + 1 - start using Nat.strongRecOn
    generalizing start budget cut with
  | ind gap induction =>
      have later := execution.lt_nextStart start
      have rest : start < execution.subject.size →
          execution.SearchesAlike front last (execution.nextStart start) :=
        fun before budget cut => induction _ (by omega) _ budget cut rfl
      rw [search_eq, search_eq, mayStart_behind planned, tooShort_behind,
        searchBehind_behind rest, withoutMatch_behind,
        afterAttempt_behind rest (attempt_behind compiled forward start budget)]
      simp only [Nat.add_lt_add_iff_left]
      split
      · rfl
      · split <;> rfl

theorem outcome_behind (checked : execution.checkSubject = .ok ())
    (farChecked : (execution.behind front).checkSubject = .ok ()) :
    (execution.behind front).outcome = execution.outcome.map (Outcome.shift front.size) := by
  rw [outcome_of_ok checked, outcome_of_ok farChecked, lastStart_behind]
  exact search_behind compiled forward planned _ _ _ none

end Search

end Execution

/-! ## Regular expressions -/

namespace Regex

variable {regex : Regex} {program : Program}

theorem Made.planned_of_forward (made : regex.Made) (present : regex.program = some program)
    (forward : program.pattern.tree.looksBack = false) (options : MatchOptions) {plan : Plan}
    (planned : program.usablePlan regex.plan options = some plan) : plan.start ≠ .lineStart := by
  have given := (Option.filter_eq_some_iff.mp planned).1
  rcases made.plan_cases present with none | ⟨mode, built⟩
  · rw [none] at given
    cases given
  · rw [built] at given
    injection given with same
    exact same ▸ Plan.start_of_forward forward mode

theorem checked_rest {subject : Array UInt8} {startOffset : Nat}
    (inside : startOffset ≤ subject.size) (valid : Utf8.isValid subject.toList = true)
    (boundary : Utf8.isBoundary subject startOffset = true) :
    Utf8.isValid (subject.extract startOffset subject.size).toList = true := by
  have formed := Utf8.wellFormed_of_isValid valid
  have between := Utf8.between_of_isBoundary formed inside boundary
  exact (between.wellFormed_extract (Utf8.between_size formed)).isValid

/-- An expression that neither looks behind nor asks for the start of the text or of a line, or for
a word boundary, does not depend on what precedes the start offset. From there on it finds in the
whole subject what it finds in the rest of it alone, with all offsets that much further on: a match
with the same groups, the same cut, or none, or it gives up for the same reason. That holds with any
plan, limits and options, in UTF-8 mode for a well-formed subject and an offset between
characters. -/
theorem execAt_rest (made : regex.Made) (present : regex.program = some program)
    (forward : program.pattern.tree.looksBack = false) {subject : Array UInt8} {startOffset : Nat}
    (inside : startOffset ≤ subject.size)
    (checked : program.utf8 = true →
      Utf8.isValid subject.toList = true ∧ Utf8.isBoundary subject startOffset = true)
    (options : MatchOptions) :
    regex.execAt subject startOffset options =
      (regex.execAt (subject.extract startOffset subject.size) 0 options).map
        (Outcome.shift startOffset) := by
  let front := subject.extract 0 startOffset
  let rest := subject.extract startOffset subject.size
  have length : front.size = startOffset := by
    rw [Array.size_extract, Nat.min_eq_left inside, Nat.sub_zero]
  have whole : front ++ rest = subject := by
    rw [Array.extract_append_extract, Nat.zero_min, Nat.max_eq_right inside, Array.extract_size]
  -- The subject is its rest with the front put in front of it, and so is the execution.
  have sameExecution : regex.execution program subject startOffset options =
      (regex.execution program rest 0 options).behind front := by
    rw [execution, Execution.behind]
    dsimp only [execution]
    rw [whole, length, Nat.add_zero]
  have restChecked : program.utf8 = true →
      Utf8.isValid rest.toList = true ∧ Utf8.isBoundary rest 0 = true :=
    fun utf8 => ⟨checked_rest inside (checked utf8).1 (checked utf8).2, rfl⟩
  have farChecked : (regex.execution program subject startOffset options).checkSubject = .ok () :=
    checkSubject_execution checked
  have planned : ∀ plan, (regex.execution program rest 0 options).plan = some plan →
      plan.start ≠ .lineStart :=
    fun plan => made.planned_of_forward present forward options
  have compiled : Machine.Compiled (regex.execution program rest 0 options).program :=
    made.compiledProgram present
  rw [sameExecution] at farChecked
  have further := Execution.outcome_behind compiled forward planned
    (checkSubject_execution restChecked) farChecked
  rw [execAt_of_le present inside, execAt_of_le present (Nat.zero_le _), sameExecution, further,
    length]
  cases (regex.execution program rest 0 options).outcome <;> rfl

/-- In `éé`, CR LF, `é`, from the second character on, `(é|)*\R\1$` finds what it finds in the rest
alone at its start: a match with an iteration that captures `é`. So it does where nine instructions
have to do, and gives up. -/
theorem execAt_rest_repeated :
    ∃ program, Program.compile "(é|)*\\R\\1$".toUTF8.toList { utf8 := true } = .ok program
      ∧ (Regex.mk (some program) none {}).execAt "é\r\né".toUTF8.data 0 {} =
        .ok (.matched [some ⟨0, 6⟩, some ⟨0, 2⟩])
      ∧ (Regex.mk (some program) none {}).execAt "éé\r\né".toUTF8.data 2 {} =
        .ok (.matched [some ⟨2, 8⟩, some ⟨2, 4⟩])
      ∧ (Regex.mk (some program) none ⟨9, 1000⟩).execAt "éé\r\né".toUTF8.data 2 {} =
        .error (.error .matchLimit) := by
  have evaluated : ∃ program,
      Program.compile "(é|)*\\R\\1$".toUTF8.toList { utf8 := true } = .ok program
      ∧ program.pattern.tree.looksBack = false
      ∧ (Regex.mk (some program) none {}).execAt "é\r\né".toUTF8.data 0 {} =
        .ok (.matched [some ⟨0, 6⟩, some ⟨0, 2⟩])
      ∧ (Regex.mk (some program) none ⟨9, 1000⟩).execAt "é\r\né".toUTF8.data 0 {} =
        .error (.error .matchLimit) :=
    exists_compiled (by decide +kernel)
  rcases evaluated with ⟨program, compiled, forward, found, gaveUp⟩
  have made : Made ⟨some program, none, {}⟩ := .compiled (compile_of_program compiled)
  have checked : program.utf8 = true →
      Utf8.isValid "éé\r\né".toUTF8.data.toList = true
        ∧ Utf8.isBoundary "éé\r\né".toUTF8.data 2 = true := fun _ => by decide +kernel
  have inside : 2 ≤ "éé\r\né".toUTF8.data.size := by decide +kernel
  have rest : "éé\r\né".toUTF8.data.extract 2 "éé\r\né".toUTF8.data.size =
      "é\r\né".toUTF8.data := by decide +kernel
  have whole := execAt_rest made rfl forward inside checked {}
  have limited := execAt_rest (made.limited ⟨9, 1000⟩) rfl forward inside checked {}
  rw [rest, found] at whole
  rw [rest] at limited
  exact ⟨program, compiled, found, whole, limited.trans (congrArg _ gaveUp)⟩

end Regex

end PerlRegex
