import PerlRegex.Proofs.Machine.Budgets
import PerlRegex.Proofs.Regex
namespace PerlRegex

/-! Limits decide how far an execution gets, and nothing else. Without limits it executes a certain
number of instructions and holds a certain number of frames at once. Given as much, it comes to the
same result, and otherwise to the error for what it lacks first. -/

open Machine Regex

def Machine.Shortage.error : Shortage → ExecError
  | instructions => .matchLimit
  | frames => .recursionLimit

theorem Machine.Shortage.error_injective {shortage other : Shortage}
    (same : shortage.error = other.error) : shortage = other := by
  cases shortage <;> cases other <;> simp_all [error]

def Machine.Shortage.afterSpending {Failure Result : Type} (errorFor : Shortage → Failure)
    (result : Except Failure Result) : Except Shortage Nat → Except Failure Result
  | .ok _ => result
  | .error shortage => .error (errorFor shortage)

section AfterSpending

variable {Failure Result : Type} {errorFor : Shortage → Failure} {result : Except Failure Result}
  {spending : Except Shortage Nat} (differs : ∀ shortage, result ≠ .error (errorFor shortage))
include differs

theorem Machine.Shortage.afterSpending_eq_result_iff :
    afterSpending errorFor result spending = result ↔ ∃ rest, spending = .ok rest := by
  cases spending with
  | ok rest => exact iff_of_true rfl ⟨rest, rfl⟩
  | error shortage => exact iff_of_false (differs shortage).symm (by simp)

theorem Machine.Shortage.afterSpending_eq_error_iff {shortage : Shortage}
    (injective : ∀ other, errorFor other = errorFor shortage → other = shortage) :
    afterSpending errorFor result spending = .error (errorFor shortage) ↔
      spending = .error shortage := by
  cases spending with
  | ok rest => exact iff_of_false (differs shortage) (by simp)
  | error other =>
      constructor
      · intro same
        injection same with same
        rw [injective other same]
      · intro same
        injection same with same
        rw [same, afterSpending]

end AfterSpending

/-! ## Executions without limits -/

namespace Execution

def withLimits (execution : Execution) (limits : Limits) : Execution :=
  { execution with limits := limits }

/-- The start position behind one that has led to no match, unless that was the last one. -/
def startBehind? (execution : Execution) (start : Nat) : Option Nat :=
  if execution.startsOnce || execution.subject.size ≤ start then none
  else some (execution.nextStart start)

/-- What an execution comes to without limits if it goes on at a start position, or at none, and the
states in which it executes an instruction, in all of its attempts. -/
inductive Searches (execution : Execution) (last : Nat) :
    Option Nat → Option Nat → List State → Outcome → Prop
  | ended {cut : Option Nat} : Searches execution last none cut [] (execution.withoutMatch cut)
  | givenUp {start : Nat} {cut : Option Nat} :
      last < start ∨ execution.tooShort start = true →
      Searches execution last (some start) cut [] (execution.withoutMatch cut)
  | passedOver {start : Nat} {cut : Option Nat} {states : List State} {outcome : Outcome} :
      start ≤ last → execution.tooShort start = false → execution.mayStart start = false →
      Searches execution last (execution.startBehind? start) cut states outcome →
      Searches execution last (some start) cut states outcome
  | matched {start : Nat} {cut : Option Nat} {states : List State} {final : State} :
      start ≤ last → execution.tooShort start = false → execution.mayStart start = true →
      (execution.attemptAt start).Runs (.initial execution.program start) states .matched final →
      Searches execution last (some start) cut states
        (.matched (capturesOf final.slots ⟨start, final.position⟩))
  | cutShort {start : Nat} {cut : Option Nat} {states : List State} {final : State} :
      start ≤ last → execution.tooShort start = false → execution.mayStart start = true →
      (execution.attemptAt start).Runs (.initial execution.program start) states .cutShort final →
      Searches execution last (some start) cut states
        (.cutShort ⟨start, execution.subject.size⟩)
  | failed {start : Nat} {cut : Option Nat} {states more : List State} {final : State}
      {outcome : Outcome} :
      start ≤ last → execution.tooShort start = false → execution.mayStart start = true →
      (execution.attemptAt start).Runs (.initial execution.program start) states .failed final →
      Searches execution last (execution.startBehind? start)
        (cut <|> if final.touchedEnd then some start else none) more outcome →
      Searches execution last (some start) cut (states ++ more) outcome

variable {execution : Execution} {last : Nat}

theorem exists_searches (compiled : Compiled execution.program)
    (lastInside : last ≤ execution.subject.size) (start : Nat) (cut : Option Nat) :
    ∃ states outcome, execution.Searches last (some start) cut states outcome := by
  induction gap : execution.subject.size + 1 - start using Nat.strongRecOn
    generalizing start cut with
  | ind gap induction =>
      rcases Nat.lt_or_ge last start with beyond | inside
      · exact ⟨_, _, .givenUp (.inl beyond)⟩
      cases short : execution.tooShort start with
      | true => exact ⟨_, _, .givenUp (.inr short)⟩
      | false =>
          have behind : ∀ cut, ∃ states outcome,
              execution.Searches last (execution.startBehind? start) cut states outcome := by
            intro cut
            have later := execution.lt_nextStart start
            rw [startBehind?]
            split
            · exact ⟨_, _, .ended⟩
            · exact induction _ (by omega) _ cut rfl
          cases admitted : execution.mayStart start with
          | false =>
              rcases behind cut with ⟨states, outcome, searches⟩
              exact ⟨_, _, .passedOver inside short admitted searches⟩
          | true =>
              let attempt := execution.attemptAt start
              have begins : attempt.start ≤ attempt.subject.size := Nat.le_trans inside lastInside
              rcases Attempt.exists_runs compiled begins with
                ⟨states, verdict, final, runs, describes⟩
              cases decided : (execution.attemptAt start).decide false
                  (execution.attemptAt start).search with
              | matched path =>
                  rw [decided] at describes
                  exact ⟨_, _, .matched inside short admitted (describes.1 ▸ runs)⟩
              | cutShort =>
                  rw [decided] at describes
                  have same : verdict = .cutShort := describes
                  exact ⟨_, _, .cutShort inside short admitted (same ▸ runs)⟩
              | failed touched =>
                  rw [decided] at describes
                  rcases behind (cut <|> if final.touchedEnd then some start else none) with
                    ⟨more, outcome, searches⟩
                  exact ⟨_, _, .failed inside short admitted (describes.1 ▸ runs) searches⟩

/-! ## Executions under limits -/

def searchFrom (execution : Execution) (last : Nat) (next : Option Nat) (budget : Nat)
    (cut : Option Nat) : Except ExecError Outcome :=
  match next with
  | none => .ok (execution.withoutMatch cut)
  | some start => execution.search last start budget cut

theorem searchBehind_eq_searchFrom (execution : Execution) (last start budget : Nat)
    (cut : Option Nat) :
    execution.searchBehind last start budget cut =
      execution.searchFrom last (execution.startBehind? start) budget cut := by
  unfold searchBehind startBehind?
  split <;> rfl

theorem afterAttempt_of_comesTo {halt : Halt} {verdict : Verdict} {final : State}
    {spending : Except Shortage Nat} (comes : halt.ComesTo verdict final spending) (start : Nat)
    (cut : Option Nat) :
    execution.afterAttempt last start cut halt =
      (spending.mapError Shortage.error).bind fun rest =>
        execution.afterAttempt last start cut ⟨verdict, final, rest⟩ := by
  cases spending with
  | ok rest =>
      rw [show halt = _ from comes]
      rfl
  | error shortage =>
      have givenUp : halt.verdict = shortage.verdict := comes
      rw [afterAttempt, givenUp]
      cases shortage <;> rfl

theorem search_of_runs {start : Nat} {states : List State} {verdict : Verdict} {final : State}
    (inside : start ≤ last) (long : execution.tooShort start = false)
    (admitted : execution.mayStart start = true)
    (runs : (execution.attemptAt start).Runs (.initial execution.program start) states verdict
      final)
    (defined : verdict ≠ .fault) (limits : Limits) (budget : Nat) (cut : Option Nat) :
    (execution.withLimits limits).search last start budget cut =
      ((spend limits.frames states budget).mapError Shortage.error).bind fun rest =>
        (execution.withLimits limits).afterAttempt last start cut ⟨verdict, final, rest⟩ := by
  have comes : ((execution.withLimits limits).attempt start budget).ComesTo verdict final
      (spend limits.frames states budget) := runs.comesTo defined ⟨rfl, Nat.zero_le _⟩ budget
  have longEnough : (execution.withLimits limits).tooShort start = false := long
  rw [← afterAttempt_of_comesTo comes]
  exact search_of_admitted inside longEnough admitted budget cut

/-- Under limits a search comes to the same as without, if there is enough for it, and otherwise to
the error for what it lacks. -/
theorem Searches.searchFrom_eq {next cut : Option Nat} {states : List State} {outcome : Outcome}
    (searches : execution.Searches last next cut states outcome) (limits : Limits) (budget : Nat) :
    (execution.withLimits limits).searchFrom last next budget cut =
      Shortage.afterSpending Shortage.error (.ok outcome)
        (spend limits.frames states budget) := by
  induction searches generalizing budget with
  | ended => rfl
  | @givenUp start cut stops =>
      rcases stops with beyond | short
      · exact search_of_lt beyond budget cut
      · have stillShort : (execution.withLimits limits).tooShort start = true := short
        rw [searchFrom, search, if_pos (by simp [stillShort])]
        rfl
  | @passedOver start cut states outcome inside long skipped _ induction =>
      have longEnough : (execution.withLimits limits).tooShort start = false := long
      refine (search_of_skipped inside longEnough skipped budget cut).trans ?_
      rw [searchBehind_eq_searchFrom]
      exact induction budget
  | matched inside long admitted runs =>
      refine (search_of_runs inside long admitted runs (by decide) ..).trans ?_
      cases spend limits.frames _ budget <;> rfl
  | cutShort inside long admitted runs =>
      refine (search_of_runs inside long admitted runs (by decide) ..).trans ?_
      cases spend limits.frames _ budget <;> rfl
  | @failed start cut states more final outcome inside long admitted runs _ induction =>
      refine (search_of_runs inside long admitted runs (by decide) ..).trans ?_
      rw [spend_append]
      cases spend limits.frames states budget with
      | error shortage => rfl
      | ok rest => exact (searchBehind_eq_searchFrom ..).trans (induction rest)

end Execution

/-! ## Regular expressions without limits -/

namespace Regex

/-- What a regular expression comes to on a subject without limits, together with the states in
which it executes an instruction. -/
inductive RunsFreely (regex : Regex) (subject : Array UInt8) (startOffset : Nat)
    (options : MatchOptions) : List State → Except ExecFailure Outcome → Prop
  | released :
      regex.program = none →
      RunsFreely regex subject startOffset options [] (.error (.error .null))
  | beyond {program : Program} :
      regex.program = some program → subject.size < startOffset →
      RunsFreely regex subject startOffset options []
        (.error (.beyondSubject startOffset subject.size))
  | refused {program : Program} {error : ExecError} :
      regex.program = some program → startOffset ≤ subject.size →
      (regex.execution program subject startOffset options).checkSubject = .error error →
      RunsFreely regex subject startOffset options [] (.error (.error error))
  | searched {program : Program} {states : List State} {outcome : Outcome} :
      regex.program = some program → startOffset ≤ subject.size →
      (regex.execution program subject startOffset options).checkSubject = .ok () →
      (regex.execution program subject startOffset options).Searches
        (regex.execution program subject startOffset options).lastStart (some startOffset) none
        states outcome →
      RunsFreely regex subject startOffset options states (.ok outcome)

variable {regex : Regex} {subject : Array UInt8} {startOffset : Nat} {options : MatchOptions}

theorem Made.exists_runsFreely (made : regex.Made) (subject : Array UInt8) (startOffset : Nat)
    (options : MatchOptions) :
    ∃ states result, regex.RunsFreely subject startOffset options states result := by
  cases present : regex.program with
  | none => exact ⟨_, _, .released present⟩
  | some program =>
      rcases Nat.lt_or_ge subject.size startOffset with beyond | inside
      · exact ⟨_, _, .beyond present beyond⟩
      cases checked : (regex.execution program subject startOffset options).checkSubject with
      | error error => exact ⟨_, _, .refused present inside checked⟩
      | ok =>
          have lastInside :=
            (regex.execution program subject startOffset options).lastStart_le
          rcases Execution.exists_searches (made.compiledProgram present) lastInside startOffset
            none with ⟨states, outcome, searches⟩
          exact ⟨_, _, .searched present inside checked searches⟩

theorem RunsFreely.execAt_limited {states : List State} {result : Except ExecFailure Outcome}
    (runs : regex.RunsFreely subject startOffset options states result) (limits : Limits) :
    (regex.setLimits limits).execAt subject startOffset options =
      Shortage.afterSpending (fun shortage => .error shortage.error) result
        (spend limits.frames states limits.instructions) := by
  cases runs with
  | released released =>
      have none : (regex.setLimits limits).program = none := released
      exact execAt_of_released none options
  | @beyond program present beyond =>
      have stays : (regex.setLimits limits).program = some program := present
      exact execAt_of_lt stays beyond options
  | @refused program error present inside refused =>
      have stays : (regex.setLimits limits).program = some program := present
      have limitedRefused :
          ((regex.setLimits limits).execution program subject startOffset options).checkSubject =
            .error error := refused
      rw [execAt_of_le stays inside, Execution.outcome_of_error limitedRefused]
      rfl
  | @searched program states outcome present inside checked searches =>
      have stays : (regex.setLimits limits).program = some program := present
      have limitedChecked :
          ((regex.setLimits limits).execution program subject startOffset options).checkSubject =
            .ok () := checked
      rw [execAt_of_le stays inside, Execution.outcome_of_ok limitedChecked]
      have found := searches.searchFrom_eq limits limits.instructions
      refine (congrArg (Except.mapError ExecFailure.error) found).trans ?_
      cases spend limits.frames states limits.instructions <;> rfl

theorem RunsFreely.result_ne {states : List State} {result : Except ExecFailure Outcome}
    (runs : regex.RunsFreely subject startOffset options states result) (shortage : Shortage) :
    result ≠ .error (.error shortage.error) := by
  cases runs with
  | released => cases shortage <;> simp [Shortage.error]
  | beyond => simp
  | refused _ _ refused =>
      rcases Execution.failure_of_checkSubject refused with ⟨_, rfl | rfl⟩ <;>
        cases shortage <;> simp [Shortage.error]
  | searched => simp

end Regex

/-! ## Limits -/

/-- Limits only cut an execution short. Without limits it executes an instruction in each of certain
states. It comes to the same result under limits that allow for as many instructions and for the
frames of each state, and otherwise to the error for what it lacks first. So a result stays what it
is under larger limits. -/
theorem execAt_setLimits {regex : Regex} (made : regex.Made) (subject : Array UInt8)
    (startOffset : Nat) (options : MatchOptions) :
    (∃ states result, regex.RunsFreely subject startOffset options states result)
      ∧ (∀ states result, regex.RunsFreely subject startOffset options states result →
        ∀ limits : Limits,
          let limited := (regex.setLimits limits).execAt subject startOffset options
          (limited = result ∨ limited = .error (.error .matchLimit)
              ∨ limited = .error (.error .recursionLimit))
            ∧ (limited = result ↔
              states.length ≤ limits.instructions ∧ mostHeld states ≤ limits.frames)
            ∧ (limited = .error (.error .recursionLimit) ↔
              ∃ index ≤ limits.instructions, ∃ state, states[index]? = some state
                ∧ limits.frames < state.held.length)
            ∧ (limited = .error (.error .matchLimit) ↔
              limits.instructions < states.length
                ∧ ∀ index ≤ limits.instructions, ∀ state, states[index]? = some state →
                  state.held.length ≤ limits.frames))
      ∧ ∀ limits larger : Limits, limits.instructions ≤ larger.instructions →
        limits.frames ≤ larger.frames →
        (regex.setLimits limits).execAt subject startOffset options
          ≠ .error (.error .matchLimit) →
        (regex.setLimits limits).execAt subject startOffset options
          ≠ .error (.error .recursionLimit) →
        (regex.setLimits larger).execAt subject startOffset options =
          (regex.setLimits limits).execAt subject startOffset options := by
  refine ⟨made.exists_runsFreely subject startOffset options, ?_, ?_⟩
  · intro states result runs limits limited
    have spent : limited = _ := runs.execAt_limited limits
    have injective : ∀ shortage other : Shortage,
        ExecFailure.error other.error = .error shortage.error → other = shortage :=
      fun _ _ same => Shortage.error_injective (ExecFailure.error.inj same)
    refine ⟨?_, ?_, ?_, ?_⟩
    · rw [spent]
      cases spend limits.frames states limits.instructions with
      | ok => exact .inl rfl
      | error shortage =>
          cases shortage with
          | instructions => exact .inr (.inl rfl)
          | frames => exact .inr (.inr rfl)
    · rw [spent, Shortage.afterSpending_eq_result_iff runs.result_ne, exists_spend_iff,
        mostHeld_le_iff]
    · rw [spent]
      exact (Shortage.afterSpending_eq_error_iff runs.result_ne (injective .frames)).trans
        (spend_eq_frames_iff ..)
    · rw [spent]
      exact (Shortage.afterSpending_eq_error_iff runs.result_ne (injective .instructions)).trans
        (spend_eq_instructions_iff ..)
  · intro limits larger moreInstructions moreFrames notMatchLimit notRecursionLimit
    rcases made.exists_runsFreely subject startOffset options with ⟨states, result, runs⟩
    rw [runs.execAt_limited] at notMatchLimit notRecursionLimit ⊢
    cases spent : spend limits.frames states limits.instructions with
    | error shortage =>
        rw [spent] at notMatchLimit notRecursionLimit
        cases shortage with
        | instructions => exact absurd rfl notMatchLimit
        | frames => exact absurd rfl notRecursionLimit
    | ok rest =>
        rcases (exists_spend_iff ..).mp ⟨rest, spent⟩ with ⟨instructions, frames⟩
        have enough : ∃ rest, spend larger.frames states larger.instructions = .ok rest :=
          (exists_spend_iff ..).mpr ⟨Nat.le_trans instructions moreInstructions,
            fun state member => Nat.le_trans (frames state member) moreFrames⟩
        rcases enough with ⟨left, spentLarger⟩
        rw [runs.execAt_limited, spent, spentLarger]
        rfl

/-- `(?!(a+)+b)a` on `aaa` executes 61 instructions to see that no `b` follows, and matches then. At
one point it holds 13 frames. With a frame less it comes to the error for that, although there are
instructions enough, and with an instruction less to the error for that. -/
theorem execAt_setLimits_nested :
    ∃ regex, Regex.compile "(?!(a+)+b)a".toUTF8.toList {} = .ok regex
      ∧ ∃ states,
        regex.RunsFreely "aaa".toUTF8.data 0 {} states (.ok (.matched [some ⟨0, 1⟩, none]))
          ∧ states.length = 61 ∧ mostHeld states = 13
          ∧ (regex.setLimits ⟨61, 12⟩).execAt "aaa".toUTF8.data 0 {} =
            .error (.error .recursionLimit)
          ∧ (regex.setLimits ⟨60, 13⟩).execAt "aaa".toUTF8.data 0 {} =
            .error (.error .matchLimit) := by
  have evaluated : ∃ program, Program.compile "(?!(a+)+b)a".toUTF8.toList {} = .ok program
      ∧ Regex.execAt ⟨some program, none, ⟨61, 13⟩⟩ "aaa".toUTF8.data 0 {} =
        .ok (.matched [some ⟨0, 1⟩, none])
      ∧ Regex.execAt ⟨some program, none, ⟨61, 12⟩⟩ "aaa".toUTF8.data 0 {} =
        .error (.error .recursionLimit)
      ∧ Regex.execAt ⟨some program, none, ⟨60, 13⟩⟩ "aaa".toUTF8.data 0 {} =
        .error (.error .matchLimit) :=
    exists_compiled (by decide +kernel)
  rcases evaluated with ⟨program, compiled, enough, tooManyFrames, tooFewInstructions⟩
  have made := Regex.compile_of_program compiled
  rcases execAt_setLimits (.compiled made) "aaa".toUTF8.data 0 {} with
    ⟨⟨states, result, runs⟩, limited, _⟩
  have found : (Regex.execAt ⟨some program, none, ⟨61, 13⟩⟩ "aaa".toUTF8.data 0 {}) = result := by
    rcases (limited states result runs ⟨61, 13⟩).1 with same | error | error
    · exact same
    · cases enough.symm.trans error
    · cases enough.symm.trans error
  rcases (limited states result runs ⟨61, 13⟩).2.1.mp found with ⟨instructions, frames⟩
  rcases (limited states result runs ⟨60, 13⟩).2.2.2.mp tooFewInstructions with ⟨more, _⟩
  have held : ¬ mostHeld states ≤ 12 := by
    intro fit
    have same := (limited states result runs ⟨61, 12⟩).2.1.mpr ⟨instructions, fit⟩
    cases enough.symm.trans (found.trans (same.symm.trans tooManyFrames))
  refine ⟨_, made, states, (found.symm.trans enough) ▸ runs, ?_, ?_, tooManyFrames,
    tooFewInstructions⟩
  · exact Nat.le_antisymm instructions more
  · exact Nat.le_antisymm frames (Nat.not_le.mp held)

end PerlRegex
