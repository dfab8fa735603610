import PerlRegex.Proofs.Machine.Storage
import PerlRegex.Proofs.Regex
import PerlRegex.Reuse
namespace PerlRegex

/-! An execution comes to the same outcome in every storage, whatever earlier executions have left
there. -/

open Machine

/-- What is reported of an execution that has worked in a storage and left it. -/
def reportOf : Except ExecError Finding × Storage → Except ExecError Outcome
  | (.ok finding, storage) => .ok (finding.outcome storage)
  | (.error error, _) => .error error

namespace Execution

variable {execution : Execution} {last : Nat}

theorem attemptIn_eq {storage : Storage} (ready : storage.Ready execution.program)
    (start budget : Nat) :
    execution.attemptIn storage start budget = execution.attempt start budget := by
  rw [attemptIn, ready.state_resetAttempt, attempt]

theorem reportOf_withoutMatch (cut : Option Nat) (storage : Storage) :
    reportOf (.ok (execution.findingWithoutMatch cut), storage) =
      .ok (execution.withoutMatch cut) := by
  cases cut <;> rfl

/-- Go on behind a start position that has led to no match, in the same storage. -/
def searchBehindIn (execution : Execution) (last start budget : Nat) (cut : Option Nat)
    (storage : Storage) : Except ExecError Finding × Storage :=
  if execution.startsOnce || execution.subject.size ≤ start then
    (.ok (execution.findingWithoutMatch cut), storage)
  else execution.searchIn last (execution.nextStart start) budget cut storage

theorem captures_of_matched (compiled : Compiled execution.program) {start budget : Nat}
    (inside : start ≤ execution.subject.size)
    (matched : (execution.attempt start budget).verdict = .matched) (whole : Span) :
    ((Storage.leftBy (execution.attempt start budget).state).setWhole whole).captures =
      capturesOf (execution.attempt start budget).state.slots whole := by
  rcases describes_attempt compiled inside budget with exhausted | describes
  · rcases exhausted with verdict | verdict <;> cases matched.symm.trans verdict
  cases decided : execution.decisionAt start with
  | matched path =>
      rw [decided] at describes
      rcases describes with ⟨_, _, represents⟩
      have positive := captures_pos_of_decisionAt decided
      have size := represents.size
      have slotCount : (execution.attempt start budget).state.slots.size =
          2 * (path.captures.length - 1 + 1) := by omega
      exact Storage.captures_setWhole slotCount whole
  | cutShort =>
      rw [decided] at describes
      cases matched.symm.trans describes
  | failed touched =>
      rw [decided] at describes
      cases matched.symm.trans describes.1

theorem reportOf_searchIn (compiled : Compiled execution.program)
    (lastInside : last ≤ execution.subject.size) (start budget : Nat) (cut : Option Nat)
    {storage : Storage} (ready : storage.Ready execution.program) :
    reportOf (execution.searchIn last start budget cut storage) =
      execution.search last start budget cut := by
  induction gap : execution.subject.size + 1 - start using Nat.strongRecOn
    generalizing start budget cut storage with
  | ind gap induction =>
      have behind : ∀ {budget : Nat} {cut : Option Nat} {storage : Storage},
          storage.Ready execution.program → start ≤ last →
          reportOf (execution.searchBehindIn last start budget cut storage) =
            execution.searchBehind last start budget cut := by
        intro budget cut storage ready inside
        have later := execution.lt_nextStart start
        unfold searchBehindIn searchBehind
        split
        · exact reportOf_withoutMatch cut storage
        · exact induction _ (by omega) _ _ _ ready rfl
      rw [search, searchIn]
      split
      · exact reportOf_withoutMatch cut storage
      · rename_i notGivenUp
        have inside : start ≤ last := by
          simp only [Bool.or_eq_true, decide_eq_true_eq, not_or] at notGivenUp
          exact Nat.not_lt.mp notGivenUp.1
        extract_lets proceedIn haltIn leftIn proceed halt
        have sameProceed : ∀ {budget : Nat} {cut : Option Nat} {storage : Storage},
            storage.Ready execution.program →
            reportOf (proceedIn budget cut storage) = proceed budget cut :=
          fun ready => behind ready inside
        split
        · exact sameProceed ready
        · have same : haltIn = halt := attemptIn_eq ready start budget
          have left : leftIn = .leftBy halt.state := congrArg (Storage.leftBy ·.state) same
          rw [same, left]
          have startInside := Nat.le_trans inside lastInside
          cases verdict : halt.verdict with
          | matched =>
              have captures := captures_of_matched compiled startInside verdict
                ⟨start, halt.state.position⟩
              exact congrArg (Except.ok <| Outcome.matched ·) captures
          | failed => exact sameProceed (Storage.ready_leftBy verdict)
          | cutShort | tooManyInstructions | tooManyFrames | fault => rfl

/-- The outcome of an execution does not depend on the storage that it works in. -/
theorem reportOf_findIn (compiled : Compiled execution.program) (storage : Storage) :
    reportOf (execution.findIn storage) = execution.outcome := by
  rw [findIn, outcome]
  cases execution.checkSubject with
  | error error => rfl
  | ok =>
      exact reportOf_searchIn compiled execution.lastStart_le _ _ _
        (storage.ready_prepare execution.program)

end Execution

theorem Regex.Made.reportOf_runIn {regex : Regex} (made : regex.Made) (storage : Storage)
    (subject : Array UInt8) (startOffset : Nat) (options : MatchOptions) :
    reportOf (regex.runIn storage subject startOffset options) =
      regex.run subject startOffset options := by
  cases present : regex.program with
  | none =>
      rw [runIn, run, present]
      rfl
  | some program =>
      rw [run_eq_outcome present, runIn, present]
      exact Execution.reportOf_findIn (made.compiledProgram present) storage

end PerlRegex
