import PerlRegex.Proofs.Execution
import PerlRegex.Proofs.Machine.Modes
namespace PerlRegex

/-! The results of an execution in the three modes of partial matching are consistent, with whatever
budgets: asking for partial matches costs no match, and the hard mode only stops earlier. -/

/-- The results in the three modes, for a subject of the given size and matches that are looked for
from an offset on. -/
structure PartialModesAgree (startOffset size : Nat)
    (none soft hard : Except ExecError Outcome) : Prop where
  matched : ∀ captures, soft = .ok (.matched captures) ↔ none = .ok (.matched captures)
  failed : ∀ failure, soft = .error failure ↔ none = .error failure
  softCutShort : ∀ span, soft = .ok (.cutShort span) →
    none = .ok .noMatch ∧ hard = .ok (.cutShort span)
  hardOther : (∀ span, hard ≠ .ok (.cutShort span)) → hard = none ∧ none = soft
  hardCutShort : ∀ span, hard = .ok (.cutShort span) →
    soft = .ok (.cutShort span)
      ∨ (∃ captures whole, soft = .ok (.matched captures)
        ∧ captures.head? = some (some whole) ∧ span.start ≤ whole.start)
      ∨ Execution.Exhausted soft
  inside : ∀ result ∈ [none, soft, hard], ∀ span, result = .ok (.cutShort span) →
    startOffset ≤ span.start ∧ span.start < span.stop ∧ span.stop = size

namespace Execution

variable {execution : Execution}

def inMode (execution : Execution) (mode : PartialMode) : Execution :=
  { execution with options := execution.options.inMode mode }

/-! ## What the modes come to -/

/-- All that the results in the three modes can be together. Where the hard mode stops at the end of
the subject, the other two go on as one. -/
inductive ModesAgree (first size : Nat) : (none soft hard : Except ExecError Outcome) → Prop
  | alike {result : Except ExecError Outcome} :
      (∀ span, result ≠ .ok (.cutShort span)) → ModesAgree first size result result result
  | cutShort {start : Nat} : first ≤ start → start < size →
      ModesAgree first size (.ok .noMatch) (.ok (.cutShort ⟨start, size⟩))
        (.ok (.cutShort ⟨start, size⟩))
  | matched {start : Nat} {captures : Captures} {whole : Span} : first ≤ start → start < size →
      captures.head? = some (some whole) → start ≤ whole.start →
      ModesAgree first size (.ok (.matched captures)) (.ok (.matched captures))
        (.ok (.cutShort ⟨start, size⟩))
  | exhausted {start : Nat} {result : Except ExecError Outcome} : first ≤ start → start < size →
      Exhausted result → ModesAgree first size result result (.ok (.cutShort ⟨start, size⟩))

theorem ModesAgree.partialModesAgree {first size : Nat}
    {none soft hard : Except ExecError Outcome} (agree : ModesAgree first size none soft hard) :
    PartialModesAgree first size none soft hard := by
  cases agree with
  | alike other =>
      refine ⟨fun _ => .rfl, fun _ => .rfl, fun span cut => absurd cut (other span),
        fun _ => ⟨rfl, rfl⟩, fun span cut => absurd cut (other span), ?_⟩
      intro result member span cut
      simp only [List.mem_cons, List.not_mem_nil, or_false, or_self] at member
      exact absurd (member ▸ cut) (other span)
  | @cutShort start from_ room =>
      refine ⟨by simp, by simp, ?_, fun other => absurd rfl (other _), ?_, ?_⟩
      · exact fun span cut => ⟨rfl, cut⟩
      · exact fun span cut => .inl cut
      · intro result member span cut
        simp only [List.mem_cons, List.not_mem_nil, or_false] at member
        rcases member with rfl | rfl | rfl <;> cases cut
        · exact ⟨from_, room, rfl⟩
        · exact ⟨from_, room, rfl⟩
  | @matched start captures whole from_ room head later =>
      refine ⟨fun _ => .rfl, fun _ => .rfl, fun _ cut => (nomatch cut),
        fun other => absurd rfl (other _), ?_, ?_⟩
      · intro span cut
        cases cut
        exact .inr (.inl ⟨captures, whole, rfl, head, later⟩)
      · intro result member span cut
        simp only [List.mem_cons, List.not_mem_nil, or_false] at member
        rcases member with rfl | rfl | rfl
        · cases cut
        · cases cut
        · cases cut
          exact ⟨from_, room, rfl⟩
  | @exhausted start _ from_ room exhausted =>
      have notCut : ∀ span, none ≠ .ok (.cutShort span) := by
        intro span cut
        exact absurd (cut ▸ exhausted) (not_exhausted_ok _)
      refine ⟨fun _ => .rfl, fun _ => .rfl, fun span cut => absurd cut (notCut span),
        fun other => absurd rfl (other _), fun span cut => .inr (.inr exhausted), ?_⟩
      intro result member span cut
      simp only [List.mem_cons, List.not_mem_nil, or_false] at member
      rcases member with rfl | rfl | rfl
      · exact absurd cut (notCut span)
      · exact absurd cut (notCut span)
      · cases cut
        exact ⟨from_, room, rfl⟩

/-! ## Attempts -/

theorem ended_of_attempt (compiled : Machine.Compiled execution.program) {start budget : Nat}
    (inside : start ≤ execution.subject.size) {plain : Machine.Halt}
    (halted : (execution.inMode .none).attempt start budget = plain.noting false) :
    plain.Exhausted ∨ plain.verdict = .matched ∨ plain.verdict = .failed := by
  have noPartial : (execution.inMode .none).options.partialMode = .none :=
    execution.options.partialMode_inMode .none
  have described := @describes_attempt (execution.inMode .none) compiled start inside budget
  rw [halted] at described
  rcases described with exhausted | describes
  · exact .inl exhausted
  · rcases @decisionAt_of_partialMode_none _ start noPartial with decided | ⟨path, decided⟩
    · rw [decided] at describes
      exact .inr (.inr describes.1)
    · rw [decided] at describes
      exact .inr (.inl describes.1)

theorem attempt_agree (compiled : Machine.Compiled execution.program) {start : Nat}
    (inside : start ≤ execution.subject.size) (budget : Nat) :
    (execution.attemptAt start).RunsAgree fun mode touched =>
      Machine.run ((execution.attemptAt start).inMode mode)
        ((Machine.State.initial execution.program start).noting touched) budget :=
  @Machine.Attempt.run_agree (execution.attemptAt start) compiled _
    (.initial execution.program inside) budget

/-- What a search makes of an attempt without partial matching, and of one that differs from it by
its note only: it is given up, it has found a match, or it goes on. -/
theorem afterAttempt_cases {start : Nat} {plain : Machine.Halt}
    (ended : plain.Exhausted ∨ plain.verdict = .matched ∨ plain.verdict = .failed) (last : Nat) :
    (∃ result, Exhausted result ∧ ∀ (execution : Execution) (cut : Option Nat) (touched : Bool),
        execution.afterAttempt last start cut (plain.noting touched) = result)
      ∨ (∃ captures whole, captures.head? = some (some whole) ∧ whole.start = start
        ∧ ∀ (execution : Execution) (cut : Option Nat) (touched : Bool),
          execution.afterAttempt last start cut (plain.noting touched) = .ok (.matched captures))
      ∨ ∀ (execution : Execution) (cut : Option Nat) (touched : Bool),
        execution.afterAttempt last start cut (plain.noting touched) =
          execution.searchBehind last start plain.budget
            (cut <|> if touched then some start else none) := by
  have sameVerdict : ∀ touched, (plain.noting touched).verdict = plain.verdict := fun _ => rfl
  simp only [afterAttempt, sameVerdict]
  rcases ended with (verdict | verdict) | verdict | verdict <;> rw [verdict]
  · exact .inl ⟨_, .inl rfl, fun _ _ _ => rfl⟩
  · exact .inl ⟨_, .inr rfl, fun _ _ _ => rfl⟩
  · let whole : Span := ⟨start, plain.state.position⟩
    exact .inr (.inl ⟨Machine.capturesOf plain.state.slots whole, whole, rfl, rfl,
      fun _ _ _ => rfl⟩)
  · exact .inr (.inr fun _ _ _ => rfl)

/-! ## Searches -/

theorem search_inMode (noPlan : execution.plan = none) {last start : Nat} (inside : start ≤ last)
    (mode : PartialMode) (budget : Nat) (cut : Option Nat) :
    (execution.inMode mode).search last start budget cut =
      (execution.inMode mode).afterAttempt last start cut
        ((execution.inMode mode).attempt start budget) :=
  search_of_admitted inside (by simp [tooShort, inMode, noPlan]) (by simp [mayStart, inMode, noPlan])
    budget cut

section Behind

variable {first cut last start : Nat} (from_ : first ≤ cut) (room : cut < execution.subject.size)
  (behind : cut ≤ start)
include from_ room behind

/-- Once the end of the subject has stood in the way at `cut`, the hard mode has stopped, and the
other two differ only in what they report when no match is found. -/
theorem modesAgree_afterAttempt {plain : Machine.Halt}
    (ended : plain.Exhausted ∨ plain.verdict = .matched ∨ plain.verdict = .failed)
    {earlier : Option Nat} {touched : Bool}
    (noted : (earlier <|> if touched then some start else none) = some cut)
    (further : ∀ budget, ModesAgree first execution.subject.size
      ((execution.inMode .none).search last (execution.nextStart start) budget none)
      ((execution.inMode .soft).search last (execution.nextStart start) budget (some cut))
      (.ok (.cutShort ⟨cut, execution.subject.size⟩))) :
    ModesAgree first execution.subject.size
      ((execution.inMode .none).afterAttempt last start none (plain.noting false))
      ((execution.inMode .soft).afterAttempt last start earlier (plain.noting touched))
      (.ok (.cutShort ⟨cut, execution.subject.size⟩)) := by
  rcases afterAttempt_cases ended last with
    ⟨result, exhausted, same⟩ | ⟨captures, whole, head, wholeStart, same⟩ | same
  · rw [same, same]
    exact .exhausted from_ room exhausted
  · rw [same, same]
    exact .matched from_ room head (wholeStart ▸ behind)
  · have noneCut : ((none : Option Nat) <|> if false then some start else none) = none := rfl
    have sameTest : ∀ mode, ((execution.inMode mode).startsOnce
        || (execution.inMode mode).subject.size ≤ start) =
          (execution.startsOnce || execution.subject.size ≤ start) := fun _ => rfl
    rw [same, same, noted, noneCut, searchBehind, searchBehind, sameTest, sameTest]
    split
    · exact .cutShort from_ room
    · exact further plain.budget

theorem modesAgree_behind (compiled : Machine.Compiled execution.program)
    (noPlan : execution.plan = none) (lastInside : last ≤ execution.subject.size)
    (budget : Nat) :
    ModesAgree first execution.subject.size
      ((execution.inMode .none).search last start budget none)
      ((execution.inMode .soft).search last start budget (some cut))
      (.ok (.cutShort ⟨cut, execution.subject.size⟩)) := by
  induction gap : execution.subject.size + 1 - start using Nat.strongRecOn
    generalizing start budget with
  | ind gap induction =>
      rcases Nat.lt_or_ge last start with beyond | inside
      · rw [search_of_lt beyond, search_of_lt beyond]
        exact .cutShort from_ room
      have startInside := Nat.le_trans inside lastInside
      have later := execution.lt_nextStart start
      have halts : ∃ (plain : Machine.Halt) (touched : Bool),
          (execution.inMode .none).attempt start budget = plain.noting false
            ∧ (execution.inMode .soft).attempt start budget = plain.noting touched := by
        cases attempt_agree compiled startInside budget with
        | alike plain same => exact ⟨plain, false, same .none false, same .soft false⟩
        | atEnd plain _ none soft _ => exact ⟨plain, true, none false, soft false⟩
      rcases halts with ⟨plain, touched, none, soft⟩
      have ended := ended_of_attempt compiled startInside none
      rw [search_inMode noPlan inside, search_inMode noPlan inside, none, soft]
      exact modesAgree_afterAttempt from_ room behind ended rfl fun left =>
        induction _ (by omega) (by omega) left rfl

end Behind

theorem modesAgree_search (compiled : Machine.Compiled execution.program)
    (noPlan : execution.plan = none) {first last start : Nat} (from_ : first ≤ start)
    (lastInside : last ≤ execution.subject.size) (budget : Nat) :
    ModesAgree first execution.subject.size
      ((execution.inMode .none).search last start budget none)
      ((execution.inMode .soft).search last start budget none)
      ((execution.inMode .hard).search last start budget none) := by
  have nothingFound : ModesAgree first execution.subject.size
      (.ok .noMatch) (.ok .noMatch) (.ok .noMatch) := .alike (by simp)
  induction gap : execution.subject.size + 1 - start using Nat.strongRecOn
    generalizing start budget with
  | ind gap induction =>
      rcases Nat.lt_or_ge last start with beyond | inside
      · rw [search_of_lt beyond, search_of_lt beyond, search_of_lt beyond]
        exact nothingFound
      have startInside := Nat.le_trans inside lastInside
      have later := execution.lt_nextStart start
      rw [search_inMode noPlan inside, search_inMode noPlan inside, search_inMode noPlan inside]
      cases attempt_agree compiled startInside budget with
      | alike plain same =>
          have halts : ∀ mode, (execution.inMode mode).attempt start budget =
              plain.noting false := fun mode => same mode false
          have ended := ended_of_attempt compiled startInside (halts .none)
          rw [halts, halts, halts]
          rcases afterAttempt_cases ended last with
            ⟨result, exhausted, same⟩ | ⟨captures, _, _, _, same⟩ | same
          · rw [same, same, same]
            apply ModesAgree.alike
            rcases exhausted with rfl | rfl <;> simp
          · rw [same, same, same]
            exact .alike (by simp)
          · have noneCut : ((none : Option Nat) <|> if false then some start else none) = none :=
              rfl
            have sameTest : ∀ mode, ((execution.inMode mode).startsOnce
                || (execution.inMode mode).subject.size ≤ start) =
                  (execution.startsOnce || execution.subject.size ≤ start) := fun _ => rfl
            have sameNext : ∀ mode, (execution.inMode mode).nextStart start =
                execution.nextStart start := fun _ => rfl
            simp only [same, noneCut, searchBehind, sameTest, sameNext]
            split
            · exact nothingFound
            · exact induction _ (by omega) (by omega) plain.budget rfl
      | atEnd plain room none soft hard =>
          have noneHalt : (execution.inMode .none).attempt start budget = plain.noting false :=
            none false
          have softHalt : (execution.inMode .soft).attempt start budget = plain.noting true :=
            soft false
          have stopped : ((execution.inMode .hard).attempt start budget).verdict = .cutShort :=
            hard false
          have hardResult : (execution.inMode .hard).afterAttempt last start Option.none
              ((execution.inMode .hard).attempt start budget) =
                .ok (.cutShort ⟨start, execution.subject.size⟩) := by
            rw [afterAttempt, stopped]
            rfl
          have ended := ended_of_attempt compiled startInside noneHalt
          rw [noneHalt, softHalt, hardResult]
          exact modesAgree_afterAttempt from_ room (Nat.le_refl start) ended rfl fun left =>
            modesAgree_behind from_ room (Nat.le_of_lt later) compiled noPlan lastInside left

theorem modesAgree_outcome (compiled : Machine.Compiled execution.program)
    (noPlan : execution.plan = none) :
    ModesAgree execution.startOffset execution.subject.size (execution.inMode .none).outcome
      (execution.inMode .soft).outcome (execution.inMode .hard).outcome := by
  have sameCheck : ∀ mode, (execution.inMode mode).checkSubject = execution.checkSubject :=
    fun _ => rfl
  cases checked : execution.checkSubject with
  | error failure =>
      have refused : ∀ mode, (execution.inMode mode).outcome = .error failure := fun mode =>
        outcome_of_error ((sameCheck mode).trans checked)
      rw [refused, refused, refused]
      exact .alike (by simp)
  | ok =>
      have searched : ∀ mode, (execution.inMode mode).outcome =
          (execution.inMode mode).search execution.lastStart execution.startOffset
            execution.limits.instructions none := fun mode =>
        outcome_of_ok ((sameCheck mode).trans checked)
      rw [searched, searched, searched]
      exact modesAgree_search compiled noPlan (Nat.le_refl _) execution.lastStart_le _

end Execution

/-! ## Consistency -/

/-- Executions of a program without a plan that differ in the mode of partial matching only. -/
theorem execute_inMode {text : List UInt8} {options : CompileOptions} {program : Program}
    (compiled : Program.compile text options = .ok program) (limits : Limits)
    (subject : Array UInt8) (startOffset : Nat) (matchOptions : MatchOptions) :
    PartialModesAgree startOffset subject.size
      (program.execute none limits subject startOffset (matchOptions.inMode .none))
      (program.execute none limits subject startOffset (matchOptions.inMode .soft))
      (program.execute none limits subject startOffset (matchOptions.inMode .hard)) :=
  Execution.ModesAgree.partialModesAgree
    (@Execution.modesAgree_outcome ⟨program, none, limits, subject, startOffset, matchOptions⟩
      (.of_compile compiled) rfl)

/-- On `ab`, the attempt of `abc|b` at the start runs out of text. The hard mode stops there, and the
others find the `b` behind it. -/
theorem execute_inMode_runs_out :
    ∃ program, Program.compile "abc|b".toUTF8.toList {} = .ok program
      ∧ PartialModesAgree 0 2 (.ok (.matched [some ⟨1, 2⟩])) (.ok (.matched [some ⟨1, 2⟩]))
        (.ok (.cutShort ⟨0, 2⟩)) := by
  have evaluated : ∃ program, Program.compile "abc|b".toUTF8.toList {} = .ok program
      ∧ program.execute none {} "ab".toUTF8.data 0 (({} : MatchOptions).inMode .none) =
        .ok (.matched [some ⟨1, 2⟩])
      ∧ program.execute none {} "ab".toUTF8.data 0 (({} : MatchOptions).inMode .soft) =
        .ok (.matched [some ⟨1, 2⟩])
      ∧ program.execute none {} "ab".toUTF8.data 0 (({} : MatchOptions).inMode .hard) =
        .ok (.cutShort ⟨0, 2⟩) :=
    exists_compiled (by decide +kernel)
  rcases evaluated with ⟨program, compiled, full, soft, hard⟩
  have agree := execute_inMode compiled {} "ab".toUTF8.data 0 {}
  rw [full, soft, hard] at agree
  exact ⟨program, compiled, agree⟩

end PerlRegex
