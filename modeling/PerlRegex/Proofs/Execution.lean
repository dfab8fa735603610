import PerlRegex.Execution
import PerlRegex.Proofs.Between
import PerlRegex.Proofs.Machine.Decision
import PerlRegex.Proofs.Pattern.Numbering
namespace PerlRegex

/-! An execution without a plan finds what direct interpretation of the tree finds, start position
by start position. -/

/-! ## Compiled programs -/

instance decidableEqExcept {Failure Result : Type} [DecidableEq Failure] [DecidableEq Result] :
    DecidableEq (Except Failure Result)
  | .ok result, .ok other => decidable_of_iff (result = other) (by simp)
  | .error failure, .error other => decidable_of_iff (failure = other) (by simp)
  | .ok _, .error _ => .isFalse (by simp)
  | .error _, .ok _ => .isFalse (by simp)

/-- A pattern that compiles to a program with a property, where both can be evaluated. -/
theorem exists_compiled {text : List UInt8} {options : CompileOptions} {property : Program → Prop}
    [DecidablePred property]
    (evaluated : ((Program.compile text options).toOption.any fun program => property program)
      = true) :
    ∃ program, Program.compile text options = .ok program ∧ property program := by
  cases compiled : Program.compile text options with
  | error failure =>
      rw [compiled] at evaluated
      cases evaluated
  | ok program =>
      rw [compiled] at evaluated
      exact ⟨program, rfl, of_decide_eq_true evaluated⟩

theorem Program.parse_of_compile {text : List UInt8} {options : CompileOptions} {program : Program}
    (compiled : Program.compile text options = .ok program) :
    Pattern.parse text options = .ok program.pattern := by
  rw [Program.compile] at compiled
  split at compiled
  · cases compiled
  · rename_i pattern parsed
    unfold Pattern.program at compiled
    dsimp only at compiled
    split at compiled
    · cases compiled
    · injection compiled with same
      rw [← same]
      exact parsed

theorem Machine.Compiled.of_compile {text : List UInt8} {options : CompileOptions}
    {program : Program} (compiled : Program.compile text options = .ok program) :
    Machine.Compiled program := by
  rw [Program.compile] at compiled
  split at compiled
  · cases compiled
  · rename_i pattern parsed
    unfold Pattern.program at compiled
    dsimp only at compiled
    split at compiled
    · cases compiled
    · injection compiled with same
      rw [← same]
      exact ⟨Pattern.utf8_lineRules_of_parse parsed, rfl, rfl, Pattern.groupsBelow_of_parse parsed⟩

namespace Execution

/-! ## Start positions -/

theorem firstNewline_le (rules : LineRules) (subject : Array UInt8) (position : Nat) :
    firstNewline rules subject position ≤ subject.size := by
  fun_induction firstNewline rules subject position with
  | case1 => exact Nat.le_refl _
  | case2 => omega
  | case3 position _ _ induction => exact induction

theorem lastStart_le (execution : Execution) : execution.lastStart ≤ execution.subject.size := by
  rw [lastStart]
  split
  · exact firstNewline_le _ _ _
  · exact Nat.le_refl _

/-- The positions from `start` up to `last` at which a match may begin, in increasing order. In
UTF-8 mode these are `start` and the positions between characters behind it. -/
def positionsFrom (execution : Execution) (last start : Nat) : List Nat :=
  (List.range' start (last + 1 - start)).filter fun position =>
    position == start || !execution.program.utf8
      || Utf8.isBoundary execution.subject position

/-- The positions that are tried, where an anchored execution tries the first one only. -/
def startsFrom (execution : Execution) (last start : Nat) : List Nat :=
  if execution.startsOnce then (execution.positionsFrom last start).take 1
  else execution.positionsFrom last start

theorem mem_positionsFrom {execution : Execution} {last start position : Nat} :
    position ∈ execution.positionsFrom last start ↔
      start ≤ position ∧ position ≤ last ∧ (position = start ∨ execution.program.utf8 = false
        ∨ Utf8.isBoundary execution.subject position = true) := by
  simp only [positionsFrom, List.mem_filter, List.mem_range'_1, Bool.or_eq_true, beq_iff_eq,
    Bool.not_eq_true', or_assoc]
  constructor
  · rintro ⟨⟨from_, below⟩, kept⟩
    exact ⟨from_, by omega, kept⟩
  · rintro ⟨from_, upTo, kept⟩
    exact ⟨⟨from_, by omega⟩, kept⟩

theorem isBoundary_of_lt_nextBoundary {text : Array UInt8} {start position : Nat}
    (positive : 0 < start) (le : start ≤ position)
    (before : position < Utf8.nextBoundary text start) :
    Utf8.isBoundary text position = false := by
  fun_induction Utf8.nextBoundary text start with
  | case1 start continues induction =>
      rcases Nat.lt_or_eq_of_le le with later | same
      · exact induction (Nat.succ_pos _) later before
      · rw [← same, Utf8.isBoundary, continues]
        simp
        omega
  | case2 start stops => omega

theorem isBoundary_nextBoundary (text : Array UInt8) (start : Nat) :
    Utf8.isBoundary text (Utf8.nextBoundary text start) = true := by
  fun_induction Utf8.nextBoundary text start with
  | case1 start continues induction => exact induction
  | case2 start stops => simp [Utf8.isBoundary, stops]

theorem increasing_positionsFrom (execution : Execution) (last start : Nat) :
    (execution.positionsFrom last start).Pairwise (· < ·) :=
  List.Pairwise.filter _ List.pairwise_lt_range'

theorem positionsFrom_of_lt {execution : Execution} {last start : Nat} (beyond : last < start) :
    execution.positionsFrom last start = [] := by
  rw [positionsFrom, Nat.sub_eq_zero_of_le beyond]
  rfl

theorem filter_range'_of_skipped {test : Nat → Bool} {start next : Nat} (le : start ≤ next)
    (skipped : ∀ position, start ≤ position → position < next → test position = false)
    (last : Nat) :
    (List.range' start (last + 1 - start)).filter test =
      (List.range' next (last + 1 - next)).filter test := by
  induction gap : next - start generalizing start with
  | zero =>
      have same : start = next := by omega
      rw [same]
  | succ gap induction =>
      have rest := @induction (start + 1) (by omega)
        (fun position later => skipped position (by omega)) (by omega)
      rw [← rest]
      rcases Nat.lt_or_ge last start with beyond | inside
      · rw [Nat.sub_eq_zero_of_le beyond, Nat.sub_eq_zero_of_le (by omega)]
        rfl
      · have count : last + 1 - start = last + 1 - (start + 1) + 1 := by omega
        rw [count, List.range'_succ, List.filter_cons_of_neg
          (by rw [skipped start (Nat.le_refl _) (by omega)]; simp)]

theorem positionsFrom_of_le {execution : Execution} {last start : Nat} (le : start ≤ last) :
    execution.positionsFrom last start =
      start :: execution.positionsFrom last (execution.nextStart start) := by
  have later := execution.lt_nextStart start
  have count : last + 1 - start = last + 1 - (start + 1) + 1 := by omega
  rw [positionsFrom, count, List.range'_succ, List.filter_cons_of_pos (by simp)]
  congr 1
  rw [filter_range'_of_skipped (Nat.succ_le_of_lt later), positionsFrom]
  · apply List.filter_congr
    intro position member
    have from_ := (List.mem_range'_1.mp member).1
    have notStart : (position == start) = false := by
      rw [beq_eq_false_iff_ne]
      omega
    rw [notStart, Bool.false_or]
    by_cases same : position = execution.nextStart start
    · rw [same, nextStart]
      split
      · rw [isBoundary_nextBoundary]
        simp
      · simp_all
    · rw [beq_eq_false_iff_ne.mpr same, Bool.false_or]
  · intro position from_ before
    have notStart : (position == start) = false := by
      rw [beq_eq_false_iff_ne]
      omega
    rw [nextStart] at before
    split at before
    · rename_i utf8
      rw [notStart, utf8, isBoundary_of_lt_nextBoundary (Nat.succ_pos start) from_ before]
      rfl
    · omega

theorem startsFrom_of_le {execution : Execution} {last start : Nat} (le : start ≤ last) :
    execution.startsFrom last start =
      start :: if execution.startsOnce then []
        else execution.startsFrom last (execution.nextStart start) := by
  rw [startsFrom, positionsFrom_of_le le]
  cases once : execution.startsOnce with
  | true => rfl
  | false => simp [startsFrom, once]

theorem startsFrom_of_lt {execution : Execution} {last start : Nat} (beyond : last < start) :
    execution.startsFrom last start = [] := by
  rw [startsFrom, positionsFrom_of_lt beyond]
  split <;> rfl

theorem mem_positionsFrom_of_mem_startsFrom {execution : Execution} {last start position : Nat}
    (member : position ∈ execution.startsFrom last start) :
    position ∈ execution.positionsFrom last start := by
  rw [startsFrom] at member
  split at member
  · exact List.mem_of_mem_take member
  · exact member

/-! ## Trying start positions -/

def attemptAt (execution : Execution) (start : Nat) : Machine.Attempt where
  program := execution.program
  subject := execution.subject
  options := execution.options
  startOffset := execution.startOffset
  start := start
  frameLimit := execution.limits.frames

/-- What the search for the pattern decides at a start position. -/
def decisionAt (execution : Execution) (start : Nat) : Machine.Decision :=
  (execution.attemptAt start).decide false (execution.attemptAt start).search

/-- The outcome of trying start positions one after another. `cut` is the first of those tried so
far at which the end of the subject was noted. -/
def tryStarts (execution : Execution) (cut : Option Nat) : List Nat → Outcome
  | [] => execution.withoutMatch cut
  | start :: rest =>
      match execution.decisionAt start with
      | .matched path => .matched (path.captures.set 0 (some ⟨start, path.position⟩))
      | .cutShort => .cutShort ⟨start, execution.subject.size⟩
      | .failed touched => execution.tryStarts (cut <|> if touched then some start else none) rest

/-- An execution that was given up for want of instructions or frames. -/
def Exhausted (result : Except ExecError Outcome) : Prop :=
  result = .error .matchLimit ∨ result = .error .recursionLimit

instance (result : Except ExecError Outcome) : Decidable (Exhausted result) :=
  inferInstanceAs (Decidable (_ ∨ _))

theorem not_exhausted_ok (outcome : Outcome) : ¬ Exhausted (.ok outcome) := by
  simp [Exhausted]

theorem failure_of_checkSubject {execution : Execution} {failure : ExecError}
    (refused : execution.checkSubject = .error failure) :
    ∃ offset, failure = .badUtf8 offset ∨ failure = .badUtf8Offset offset := by
  rw [checkSubject] at refused
  split at refused
  · split at refused
    · cases refused
      exact ⟨_, .inl rfl⟩
    · split at refused <;> cases refused
      exact ⟨_, .inr rfl⟩
  · cases refused

theorem describes_attempt {execution : Execution} (compiled : Machine.Compiled execution.program)
    {start : Nat} (inside : start ≤ execution.subject.size) (budget : Nat) :
    (execution.attempt start budget).Exhausted ∨
      (execution.decisionAt start).Describes (execution.attempt start budget).verdict
        (execution.attempt start budget).state :=
  Machine.run_initial compiled inside budget

theorem captures_pos_of_decisionAt {execution : Execution} {start : Nat} {path : Path}
    (decided : execution.decisionAt start = .matched path) : 0 < path.captures.length := by
  have advances := Node.advances_of_mem_results (Machine.Attempt.mem_results_of_decide decided)
  rw [advances.captures, Machine.Attempt.origin, List.length_replicate]
  exact Nat.succ_pos _

def searchBehind (execution : Execution) (last start budget : Nat) (cut : Option Nat) :
    Except ExecError Outcome :=
  if execution.startsOnce || execution.subject.size ≤ start then
    .ok (execution.withoutMatch cut)
  else execution.search last (execution.nextStart start) budget cut

def afterAttempt (execution : Execution) (last start : Nat) (cut : Option Nat)
    (halt : Machine.Halt) : Except ExecError Outcome :=
  match halt.verdict with
  | .matched =>
      .ok (.matched (Machine.capturesOf halt.state.slots ⟨start, halt.state.position⟩))
  | .cutShort => .ok (.cutShort ⟨start, execution.subject.size⟩)
  | .failed =>
      execution.searchBehind last start halt.budget
        (cut <|> if halt.state.touchedEnd then some start else none)
  | .tooManyInstructions => .error .matchLimit
  | .tooManyFrames => .error .recursionLimit
  | .fault => .error .internal

theorem search_eq (execution : Execution) (last start budget : Nat) (cut : Option Nat) :
    execution.search last start budget cut =
      if last < start || execution.tooShort start then .ok (execution.withoutMatch cut)
      else if execution.mayStart start then
        execution.afterAttempt last start cut (execution.attempt start budget)
      else execution.searchBehind last start budget cut := by
  rw [search]
  cases execution.mayStart start <;> rfl

/-- What a search comes to depends on the attempts, on which positions are tried, and on nothing
else. -/
theorem search_congr {execution other : Execution} (subject : other.subject = execution.subject)
    (plan : other.plan = execution.plan) (startsOnce : other.startsOnce = execution.startsOnce)
    (nextStart : ∀ start, other.nextStart start = execution.nextStart start)
    (mayStart : ∀ start, other.mayStart start = execution.mayStart start)
    (attempt : ∀ start budget, other.attempt start budget = execution.attempt start budget)
    (last start budget : Nat) (cut : Option Nat) :
    other.search last start budget cut = execution.search last start budget cut := by
  have tooShort : ∀ start, other.tooShort start = execution.tooShort start := by
    intro start
    rw [Execution.tooShort, Execution.tooShort, plan, subject]
  have withoutMatch : ∀ cut, other.withoutMatch cut = execution.withoutMatch cut := by
    intro cut
    cases cut
    case none => rfl
    case some partialStart => rw [Execution.withoutMatch, Execution.withoutMatch, subject]
  -- The induction is on the positions that are left, as in the search itself.
  induction gap : execution.subject.size + 1 - start using Nat.strongRecOn
    generalizing start budget cut with
  | ind gap induction =>
      have later := execution.lt_nextStart start
      have behind : ∀ budget cut, other.searchBehind last start budget cut =
          execution.searchBehind last start budget cut := by
        intro budget cut
        rw [searchBehind, searchBehind, startsOnce, subject, nextStart, withoutMatch]
        split
        · rfl
        · rename_i goesOn
          rw [Bool.or_eq_true, decide_eq_true_eq, not_or, Nat.not_le] at goesOn
          exact induction _ (by omega) _ _ _ rfl
      have after : ∀ halt, other.afterAttempt last start cut halt =
          execution.afterAttempt last start cut halt := by
        intro halt
        rw [afterAttempt, afterAttempt, subject]
        split
        case h_3 => exact behind _ _
        all_goals rfl
      rw [search_eq, search_eq, tooShort, mayStart, attempt, after, behind, withoutMatch]

theorem search_of_lt {execution : Execution} {last start : Nat} (beyond : last < start)
    (budget : Nat) (cut : Option Nat) :
    execution.search last start budget cut = .ok (execution.withoutMatch cut) := by
  rw [search_eq, if_pos (by simp [beyond])]

theorem search_of_skipped {execution : Execution} {last start : Nat} (inside : start ≤ last)
    (longEnough : execution.tooShort start = false) (skipped : execution.mayStart start = false)
    (budget : Nat) (cut : Option Nat) :
    execution.search last start budget cut = execution.searchBehind last start budget cut := by
  rw [search_eq, if_neg (by simp [Nat.not_lt_of_le inside, longEnough]), skipped]
  rfl

theorem search_of_admitted {execution : Execution} {last start : Nat} (inside : start ≤ last)
    (longEnough : execution.tooShort start = false) (admitted : execution.mayStart start = true)
    (budget : Nat) (cut : Option Nat) :
    execution.search last start budget cut =
      execution.afterAttempt last start cut (execution.attempt start budget) := by
  rw [search_eq, if_neg (by simp [Nat.not_lt_of_le inside, longEnough]), if_pos admitted]

theorem search_of_tried {execution : Execution} (compiled : Machine.Compiled execution.program)
    {last start : Nat} (inside : start ≤ last) (lastInside : last ≤ execution.subject.size)
    (longEnough : execution.tooShort start = false) (admitted : execution.mayStart start = true)
    (budget : Nat) (cut : Option Nat) :
    Exhausted (execution.search last start budget cut) ∧ (execution.attempt start budget).Exhausted
      ∨ ¬ (execution.attempt start budget).Exhausted
        ∧ execution.search last start budget cut =
          match execution.decisionAt start with
          | .matched path => .ok (.matched (path.captures.set 0 (some ⟨start, path.position⟩)))
          | .cutShort => .ok (.cutShort ⟨start, execution.subject.size⟩)
          | .failed touched =>
              execution.searchBehind last start (execution.attempt start budget).budget
                (cut <|> if touched then some start else none) := by
  rw [search_of_admitted inside longEnough admitted, afterAttempt]
  have described := describes_attempt compiled (Nat.le_trans inside lastInside) budget
  rcases Classical.em (execution.attempt start budget).Exhausted with exhausted | finished
  · refine .inl ⟨?_, exhausted⟩
    rcases exhausted with verdict | verdict <;> rw [verdict]
    · exact .inl rfl
    · exact .inr rfl
  · refine .inr ⟨finished, ?_⟩
    have describes := described.resolve_left finished
    cases decided : execution.decisionAt start with
    | matched path =>
        rw [decided] at describes
        rcases describes with ⟨verdict, position, represents⟩
        rw [verdict]
        simp only [Machine.capturesOf_eq represents (captures_pos_of_decisionAt decided), position]
    | cutShort =>
        rw [decided] at describes
        rw [show _ = _ from describes]
    | failed touched =>
        rw [decided] at describes
        rcases describes with ⟨verdict, same⟩
        simp only [verdict, same]

theorem search_cases {execution : Execution} (compiled : Machine.Compiled execution.program)
    {last : Nat} (lastInside : last ≤ execution.subject.size) (start budget : Nat)
    (cut : Option Nat) :
    execution.search last start budget cut = .ok (execution.withoutMatch cut)
      ∨ start ≤ last
        ∧ (execution.search last start budget cut = execution.searchBehind last start budget cut
          ∨ (Exhausted (execution.search last start budget cut)
            ∧ (execution.attempt start budget).Exhausted)
          ∨ ¬ (execution.attempt start budget).Exhausted
            ∧ execution.search last start budget cut =
              match execution.decisionAt start with
              | .matched path =>
                  .ok (.matched (path.captures.set 0 (some ⟨start, path.position⟩)))
              | .cutShort => .ok (.cutShort ⟨start, execution.subject.size⟩)
              | .failed touched =>
                  execution.searchBehind last start (execution.attempt start budget).budget
                    (cut <|> if touched then some start else none)) := by
  rcases Nat.lt_or_ge last start with beyond | inside
  · exact .inl (search_of_lt beyond budget cut)
  · cases short : execution.tooShort start with
    | true =>
        left
        rw [search, if_pos (by simp [short])]
    | false =>
        refine .inr ⟨inside, ?_⟩
        cases admitted : execution.mayStart start with
        | false => exact .inl (search_of_skipped inside short admitted budget cut)
        | true => exact .inr (search_of_tried compiled inside lastInside short admitted budget cut)

theorem search_eq_tryStarts {execution : Execution}
    (compiled : Machine.Compiled execution.program) (noPlan : execution.plan = none) {last : Nat}
    (lastInside : last ≤ execution.subject.size) (start budget : Nat) (cut : Option Nat)
    (finished : ¬ Exhausted (execution.search last start budget cut)) :
    execution.search last start budget cut =
      .ok (execution.tryStarts cut (execution.startsFrom last start)) := by
  induction gap : execution.subject.size + 1 - start using Nat.strongRecOn
    generalizing start budget cut with
  | ind gap induction =>
      have longEnough : execution.tooShort start = false := by simp [tooShort, noPlan]
      have admitted : execution.mayStart start = true := by simp [mayStart, noPlan]
      rcases Nat.lt_or_ge last start with beyond | inside
      · rw [search_of_lt beyond, startsFrom_of_lt beyond, tryStarts]
      · rcases search_of_tried compiled inside lastInside longEnough admitted budget cut with
          ⟨exhausted, _⟩ | ⟨_, same⟩
        · exact absurd exhausted finished
        · rw [same] at finished ⊢
          rw [startsFrom_of_le inside, tryStarts]
          cases decided : execution.decisionAt start with
          | matched path => rfl
          | cutShort => rfl
          | failed touched =>
              simp only [decided] at finished ⊢
              have later := execution.lt_nextStart start
              rw [searchBehind] at finished ⊢
              cases once : execution.startsOnce with
              | true => simp [tryStarts]
              | false =>
                  simp only [once, Bool.false_or, decide_eq_true_eq] at finished ⊢
                  split
                  · rename_i beyond
                    rw [startsFrom_of_lt (by omega)]
                    simp [tryStarts]
                  · rename_i before
                    rw [if_neg before] at finished
                    simp only [Bool.false_eq_true, if_false]
                    exact induction _ (by omega) _ _ _ finished rfl

theorem outcome_of_error {execution : Execution} {failure : ExecError}
    (refused : execution.checkSubject = .error failure) : execution.outcome = .error failure := by
  rw [outcome, refused]
  rfl

theorem outcome_of_ok {execution : Execution} (checked : execution.checkSubject = .ok ()) :
    execution.outcome =
      execution.search execution.lastStart execution.startOffset execution.limits.instructions
        none := by
  rw [outcome, checked]
  rfl

def starts (execution : Execution) : List Nat :=
  execution.startsFrom execution.lastStart execution.startOffset

section

variable {execution : Execution} {start : Nat} (member : start ∈ execution.starts)
include member

theorem le_size_of_mem_starts : start ≤ execution.subject.size :=
  Nat.le_trans (mem_positionsFrom.mp (mem_positionsFrom_of_mem_startsFrom member)).2.1
    execution.lastStart_le

/-- The start positions of an execution lie between characters if its start offset does. -/
theorem between_of_mem_starts
    (formed : execution.program.utf8 = true → Utf8.WellFormed execution.subject.toList)
    (boundary : execution.program.utf8 = true →
      Utf8.isBoundary execution.subject execution.startOffset = true) :
    (execution.attemptAt start).Between start := by
  intro utf8
  apply Utf8.between_of_isBoundary (formed utf8) (le_size_of_mem_starts member)
  rcases (mem_positionsFrom.mp (mem_positionsFrom_of_mem_startsFrom member)).2.2 with
    rfl | bytes | later
  · exact boundary utf8
  · rw [show execution.program.utf8 = true from utf8] at bytes
    cases bytes
  · exact later

end

theorem outcome_eq_tryStarts {execution : Execution}
    (compiled : Machine.Compiled execution.program) (noPlan : execution.plan = none)
    (checked : execution.checkSubject = .ok ()) (finished : ¬ Exhausted execution.outcome) :
    execution.outcome = .ok (execution.tryStarts none execution.starts) := by
  rw [outcome_of_ok checked] at finished ⊢
  exact search_eq_tryStarts compiled noPlan execution.lastStart_le _ _ _ finished

/-! ## Interpretation -/

/-- The spans of the match that interpretation finds: at the first start position where the tree
has a path that is not refused for being empty, the first such path. -/
def firstMatch? (execution : Execution) : Option Captures :=
  execution.starts.findSome? fun start =>
    let attempt := execution.attemptAt start
    let paths := execution.program.pattern.tree.results attempt attempt.origin
    (paths.find? fun path => !attempt.refusesEmpty path.position).map fun path =>
      path.captures.set 0 (some ⟨start, path.position⟩)

/-- The outcome by interpretation of the tree alone, for executions that ask for no partial
match. -/
def interpret (execution : Execution) : Except ExecError Outcome := do
  execution.checkSubject
  return match execution.firstMatch? with
    | some captures => .matched captures
    | none => .noMatch

theorem decisionAt_of_partialMode_none {execution : Execution} {position : Nat}
    (mode : execution.options.partialMode = .none) :
    execution.decisionAt position = .failed false
      ∨ ∃ path, execution.decisionAt position = .matched path := by
  have attemptMode : (execution.attemptAt position).options.partialMode = .none := mode
  rw [decisionAt, Machine.Attempt.decide_of_partialMode_none attemptMode]
  cases List.find? _ _ with
  | none => exact .inl rfl
  | some path => exact .inr ⟨path, rfl⟩

theorem tryStarts_of_partialMode_none {execution : Execution}
    (mode : execution.options.partialMode = .none) (starts : List Nat) :
    execution.tryStarts none starts =
      match starts.findSome? fun start =>
        ((execution.program.pattern.tree.results (execution.attemptAt start)
          (execution.attemptAt start).origin).find? fun path =>
            !(execution.attemptAt start).refusesEmpty path.position).map fun path =>
          path.captures.set 0 (some ⟨start, path.position⟩) with
      | some captures => .matched captures
      | none => .noMatch := by
  induction starts with
  | nil => rfl
  | cons start starts induction =>
      have attemptMode : (execution.attemptAt start).options.partialMode = .none := mode
      rw [tryStarts, decisionAt, Machine.Attempt.decide_of_partialMode_none attemptMode,
        List.findSome?_cons]
      have sameResults : Search.results (execution.attemptAt start).search =
          execution.program.pattern.tree.results (execution.attemptAt start)
            (execution.attemptAt start).origin := rfl
      rw [sameResults]
      cases List.find? (fun path => !(execution.attemptAt start).refusesEmpty path.position)
        (execution.program.pattern.tree.results (execution.attemptAt start)
          (execution.attemptAt start).origin) with
      | some path => rfl
      | none => exact induction

end Execution

/-! ## Compilation is correct -/

/-- The machine finds the match that interpretation of the tree finds, with the spans of all its
groups, and finds none where interpretation finds none. -/
theorem execute_eq_interpret {text : List UInt8} {options : CompileOptions} {program : Program}
    (compiled : Program.compile text options = .ok program) (limits : Limits)
    (subject : Array UInt8) (startOffset : Nat) (matchOptions : MatchOptions)
    (noPartial : matchOptions.partialMode = .none)
    (finished : ¬ Execution.Exhausted
      (program.execute none limits subject startOffset matchOptions)) :
    program.execute none limits subject startOffset matchOptions =
      Execution.interpret ⟨program, none, limits, subject, startOffset, matchOptions⟩ := by
  let execution : Execution := ⟨program, none, limits, subject, startOffset, matchOptions⟩
  have unplanned : program.execute none limits subject startOffset matchOptions =
      execution.outcome := rfl
  rw [unplanned] at finished ⊢
  cases checked : execution.checkSubject with
  | error failure =>
      rw [Execution.outcome_of_error checked, Execution.interpret, checked]
      rfl
  | ok =>
      rw [Execution.outcome_eq_tryStarts (.of_compile compiled) rfl checked finished,
        Execution.tryStarts_of_partialMode_none noPartial, Execution.interpret, checked]
      rfl

/-- `(a|ab)(c|bcd)(d*)` takes its alternatives from left to right: on `abcd` the first group stops
behind `a`, which leaves the whole of `bcd` to the second and nothing to the third. -/
theorem execute_alternatives :
    ∃ program, Program.compile "(a|ab)(c|bcd)(d*)".toUTF8.toList {} = .ok program
      ∧ program.execute none {} "abcd".toUTF8.data 0 {} =
        .ok (.matched [some ⟨0, 4⟩, some ⟨0, 1⟩, some ⟨1, 4⟩, some ⟨4, 4⟩]) := by
  have evaluated : ∃ program, Program.compile "(a|ab)(c|bcd)(d*)".toUTF8.toList {} = .ok program
      ∧ ¬ Execution.Exhausted (program.execute none {} "abcd".toUTF8.data 0 {})
      ∧ Execution.interpret ⟨program, none, {}, "abcd".toUTF8.data, 0, {}⟩ =
        .ok (.matched [some ⟨0, 4⟩, some ⟨0, 1⟩, some ⟨1, 4⟩, some ⟨4, 4⟩]) :=
    exists_compiled (by decide +kernel)
  rcases evaluated with ⟨program, compiled, finished, interpreted⟩
  refine ⟨program, compiled, ?_⟩
  rw [execute_eq_interpret compiled {} _ 0 {} rfl finished, interpreted]

end PerlRegex
