import PerlRegex.Proofs.Continuing.Trees
import PerlRegex.Proofs.Execution
namespace PerlRegex

/-! What an execution with hard partial matching finds is final, if no test that it comes to is
blind: a match, or the absence of one, stays when the subject goes on. -/

namespace Machine.Attempt

variable {attempt : Attempt} {more : Array UInt8}

theorem decide_of_agrees (hard : attempt.options.partialMode = .hard) {short long : Search}
    (agrees : Search.Agrees short long) (touched : Bool) :
    attempt.decide touched short = .cutShort
      ∨ (attempt.continued more).decide touched long = attempt.decide touched short := by
  induction agrees with
  | nil => exact .inr rfl
  | found path _ induction =>
      have sameTest : (attempt.continued more).refusesEmpty path.position
          = attempt.refusesEmpty path.position := rfl
      rw [decide, decide, sameTest]
      split
      · exact induction
      · exact .inr rfl
  | ended short long =>
      rw [decide, hard]
      exact .inl rfl

end Machine.Attempt

theorem MatchOptions.full_of_partialMode_none (options : MatchOptions)
    (noPartial : options.partialMode = .none) :
    { options with partialSoft := false, partialHard := false } = options := by
  rw [partialMode] at noPartial
  split at noPartial
  · cases noPartial
  · split at noPartial
    · cases noPartial
    · cases options
      simp_all

namespace Execution

/-- The execution on a subject that goes on, for a match in full. -/
def continued (execution : Execution) (more : Array UInt8) : Execution :=
  { execution with
    subject := execution.subject ++ more
    options := { execution.options with partialSoft := false, partialHard := false } }

/-- The start positions of a list that are tried, up to the first one where an attempt decides. -/
def tried (execution : Execution) : List Nat → List Nat
  | [] => []
  | start :: rest =>
      start :: match execution.decisionAt start with
        | .failed _ => execution.tried rest
        | _ => []

/-- The spans of the match that an attempt decides for, if there is one. -/
def matchAt? (execution : Execution) (start : Nat) : Option Captures :=
  match execution.decisionAt start with
  | .matched path => some (path.captures.set 0 (some ⟨start, path.position⟩))
  | _ => none

/-- What an execution comes to on a subject of the given size stays when the subject goes on,
exactly under a condition: a match that begins before the end, or that none does. -/
structure FinalIff (condition : Prop) (size : Nat) (short long : Except ExecError Outcome) :
    Prop where
  matched : ∀ captures start stop, short = .ok (.matched captures) →
    captures[0]? = some (some ⟨start, stop⟩) → start < size →
    (long = .ok (.matched captures) ↔ condition)
  noMatch : short = .ok .noMatch →
    ((∀ captures start stop, long = .ok (.matched captures) →
      captures[0]? = some (some ⟨start, stop⟩) → size ≤ start) ↔ condition)

namespace FinalIff

variable {condition : Prop} {size : Nat} {longer : Except ExecError Outcome}

theorem of_cutShort {span : Span} : FinalIff condition size (.ok (.cutShort span)) longer where
  matched := fun _ _ _ impossible => by cases impossible
  noMatch := fun impossible => by cases impossible

theorem of_error {failure : ExecError} : FinalIff condition size (.error failure) longer where
  matched := fun _ _ _ impossible => by cases impossible
  noMatch := fun impossible => by cases impossible

end FinalIff

/-! ## Start positions -/

theorem le_firstNewline {rules : LineRules} {text : Array UInt8} {start bound : Nat}
    (le : bound ≤ start) (inside : bound ≤ text.size) : bound ≤ firstNewline rules text start := by
  fun_induction firstNewline rules text start with
  | case1 => exact inside
  | case2 => exact le
  | case3 start _ _ induction => exact induction (Nat.le_succ_of_le le)

theorem firstNewline_of_lt {rules : LineRules} {text : Array UInt8} {start : Nat}
    (inside : start < text.size) :
    firstNewline rules text start =
      if (rules.newlineAt? text start).isSome then start
      else firstNewline rules text (start + 1) := by
  rw [firstNewline, if_neg (Nat.not_le_of_lt inside)]

theorem le_firstNewline_continued {rules : LineRules} {text more : Array UInt8}
    (formed : rules.utf8 = true → Utf8.WellFormed text.toList) {position start : Nat}
    (inside : position < text.size) :
    position ≤ firstNewline rules text start
      ↔ position ≤ firstNewline rules (text ++ more) start := by
  have fits : text.size ≤ (text ++ more).size := by
    rw [Array.size_append]
    exact Nat.le_add_right _ _
  have below := Nat.le_of_lt inside
  fun_induction firstNewline rules text start with
  | case1 start beyond =>
      exact iff_of_true below (Nat.le_trans below (le_firstNewline beyond fits))
  | case2 start before newline =>
      have whole : ¬ (rules.newline = .crLf ∧ SplitsCrLf text more start) := by
        rintro ⟨convention, splits⟩
        rw [(LineRules.newlineAt_of_splits_crLf splits convention).1] at newline
        cases newline
      have startInside := Nat.lt_of_not_le before
      rw [← LineRules.isSome_newlineAt_continued formed startInside whole] at newline
      rw [firstNewline_of_lt (Nat.lt_of_lt_of_le startInside fits), if_pos newline]
  | case3 start before noNewline induction =>
      have startInside := Nat.lt_of_not_le before
      rw [firstNewline_of_lt (Nat.lt_of_lt_of_le startInside fits)]
      by_cases cut : rules.newline = .crLf ∧ SplitsCrLf text more start
      · have last := cut.2.1
        rw [(LineRules.newlineAt_of_splits_crLf cut.2 cut.1).2, Option.isSome_some, if_pos rfl]
        refine iff_of_true (Nat.le_trans below (le_firstNewline ?_ (Nat.le_refl _))) ?_ <;> omega
      · rw [LineRules.isSome_newlineAt_continued formed startInside cut, if_neg noNewline]
        exact induction

theorem le_of_mem_startsFrom {execution : Execution} {last start position : Nat}
    (member : position ∈ execution.startsFrom last start) : start ≤ position :=
  (mem_positionsFrom.mp (mem_positionsFrom_of_mem_startsFrom member)).1

theorem mem_of_tryStarts {execution : Execution} {cut : Option Nat} {starts : List Nat}
    {captures : Captures} {start stop : Nat}
    (matched : execution.tryStarts cut starts = .matched captures)
    (whole : captures[0]? = some (some ⟨start, stop⟩)) : start ∈ starts := by
  induction starts generalizing cut with
  | nil => cases cut <;> cases matched
  | cons position rest induction =>
      rw [tryStarts] at matched
      cases decided : execution.decisionAt position with
      | matched path =>
          rw [decided] at matched
          injection matched with matched
          rw [← matched, List.getElem?_set_self (captures_pos_of_decisionAt decided)] at whole
          simp only [Option.some.injEq, Span.mk.injEq] at whole
          exact whole.1 ▸ List.mem_cons_self
      | cutShort =>
          rw [decided] at matched
          cases matched
      | failed touched =>
          rw [decided] at matched
          exact List.mem_cons_of_mem _ (induction matched)

theorem whole_of_matchAt {execution : Execution} {start : Nat} {captures : Captures}
    (matched : execution.matchAt? start = some captures) :
    ∃ stop, captures[0]? = some (some ⟨start, stop⟩) := by
  rw [matchAt?] at matched
  split at matched
  · rename_i path decided
    injection matched with same
    refine ⟨path.position, ?_⟩
    rw [← same, List.getElem?_set_self (captures_pos_of_decisionAt decided)]
  · cases matched

theorem tryStarts_cons {execution : Execution} (mode : execution.options.partialMode = .none)
    (cut : Option Nat) (start : Nat) (rest : List Nat) :
    execution.tryStarts cut (start :: rest) =
      match execution.matchAt? start with
      | some captures => .matched captures
      | none => execution.tryStarts cut rest := by
  rw [tryStarts, matchAt?]
  rcases @decisionAt_of_partialMode_none _ start mode with failed | ⟨path, matched⟩
  · rw [failed]
    cases cut <;> rfl
  · rw [matched]

theorem mem_of_mem_tried {execution : Execution} {starts : List Nat} {position : Nat}
    (member : position ∈ execution.tried starts) : position ∈ starts := by
  induction starts with
  | nil => exact member
  | cons start rest induction =>
      rw [tried] at member
      rcases List.mem_cons.mp member with same | later
      · exact same ▸ List.mem_cons_self
      · cases decided : execution.decisionAt start with
        | failed touched =>
            rw [decided] at later
            exact List.mem_cons_of_mem _ (induction later)
        | matched path =>
            rw [decided] at later
            cases later
        | cutShort =>
            rw [decided] at later
            cases later

/-! ## Trying start positions -/

section Continued

variable {execution : Execution} {more : Array UInt8}

/-- The executions that are in question: the subject is well formed and goes on. -/
structure GoesOn (execution : Execution) (more : Array UInt8) : Prop where
  more : more ≠ #[]
  hard : execution.options.partialMode = .hard
  lines : execution.program.pattern.lineRules.utf8 = execution.program.utf8
  formed : execution.program.utf8 = true → Utf8.WellFormed execution.subject.toList

/-- No test that is come to at any of the start positions tried is blind. -/
def Sees (execution : Execution) (more : Array UInt8) (starts : List Nat) : Prop :=
  ∀ start ∈ execution.tried starts, start < execution.subject.size → ∀ test there,
    execution.program.pattern.tree.ComesTo (execution.attemptAt start)
      (execution.attemptAt start).origin test there →
    ¬ test.Blind (execution.attemptAt start) more there.position

/-- Every test that is come to at any of the start positions tried reports that the subject ended,
or comes out as it does when the subject goes on. -/
def Answers (execution : Execution) (more : Array UInt8) (starts : List Nat) : Prop :=
  ∀ start ∈ execution.tried starts, start < execution.subject.size → ∀ test there,
    execution.program.pattern.tree.ComesTo (execution.attemptAt start)
      (execution.attemptAt start).origin test there →
    Search.Agrees (test.interpret (execution.attemptAt start) there)
      (test.interpret ((execution.attemptAt start).continued more) there)

/-- Wherever an attempt is made, the subject cuts it short or it comes to the same match, if to any,
as on the longer subject. -/
def Persists (execution : Execution) (more : Array UInt8) (starts : List Nat) : Prop :=
  ∀ start ∈ execution.tried starts, start < execution.subject.size →
    execution.decisionAt start = .cutShort
      ∨ (execution.continued more).matchAt? start = execution.matchAt? start

theorem persists_cons_of_matched {start : Nat} {rest : List Nat} {path : Path}
    (before : start < execution.subject.size)
    (decided : execution.decisionAt start = .matched path) :
    execution.Persists more (start :: rest) ↔ (execution.continued more).matchAt? start
      = some (path.captures.set 0 (some ⟨start, path.position⟩)) := by
  have here : execution.matchAt? start
      = some (path.captures.set 0 (some ⟨start, path.position⟩)) := by rw [matchAt?, decided]
  unfold Persists
  rw [tried, decided]
  dsimp only
  rw [List.forall_mem_singleton, imp_iff_right before, decided, here]
  exact or_iff_right Machine.Decision.noConfusion

theorem persists_cons_of_failed {start : Nat} {rest : List Nat} {touched : Bool}
    (before : start < execution.subject.size)
    (decided : execution.decisionAt start = .failed touched) :
    execution.Persists more (start :: rest) ↔
      (execution.continued more).matchAt? start = none ∧ execution.Persists more rest := by
  have here : execution.matchAt? start = none := by rw [matchAt?, decided]
  unfold Persists
  rw [tried, decided]
  dsimp only
  rw [List.forall_mem_cons, imp_iff_right before, decided, here]
  exact and_congr_left fun _ => or_iff_right Machine.Decision.noConfusion

theorem finalIff_of_beyond {other : Execution} {cut otherCut : Option Nat}
    {starts others : List Nat} (beyond : ∀ start ∈ starts, execution.subject.size ≤ start)
    (othersBeyond : ∀ start ∈ others, execution.subject.size ≤ start) :
    FinalIff (execution.Persists more starts) execution.subject.size
      (.ok (execution.tryStarts cut starts)) (.ok (other.tryStarts otherCut others)) where
  matched := by
    intro captures start stop matched whole before
    injection matched with matched
    exact absurd (beyond start (mem_of_tryStarts matched whole)) (Nat.not_le_of_lt before)
  noMatch := by
    intro _
    refine iff_of_true ?_ fun start member before =>
      absurd (beyond start (mem_of_mem_tried member)) (Nat.not_le_of_lt before)
    intro captures start stop matched whole
    injection matched with matched
    exact othersBeyond start (mem_of_tryStarts matched whole)

theorem finalIff_of_nothing {other : Execution} {cut otherCut : Option Nat} :
    FinalIff (execution.Persists more []) execution.subject.size
      (.ok (execution.tryStarts cut [])) (.ok (other.tryStarts otherCut [])) :=
  finalIff_of_beyond (fun _ member => absurd member List.not_mem_nil)
    (fun _ member => absurd member List.not_mem_nil)

/-- One attempt in front of others: what it comes to is final if it is the same as on the longer
subject, and so is its failure if what the others come to is final. -/
theorem finalIff_cons {start : Nat} {rest longerRest : List Nat}
    (before : start < execution.subject.size) (later : ∀ position ∈ rest, start < position)
    (longerLater : ∀ position ∈ longerRest, start < position)
    (following : ∀ cut longerCut, FinalIff (execution.Persists more rest) execution.subject.size
      (.ok (execution.tryStarts cut rest))
      (.ok ((execution.continued more).tryStarts longerCut longerRest)))
    (cut longerCut : Option Nat) :
    FinalIff (execution.Persists more (start :: rest)) execution.subject.size
      (.ok (execution.tryStarts cut (start :: rest)))
      (.ok ((execution.continued more).tryStarts longerCut (start :: longerRest))) := by
  have longerMode : (execution.continued more).options.partialMode = .none := rfl
  rw [tryStarts, tryStarts_cons longerMode]
  cases decided : execution.decisionAt start with
  | cutShort => exact .of_cutShort
  | matched path =>
      rw [persists_cons_of_matched before decided]
      refine ⟨?_, fun impossible => by cases impossible⟩
      intro captures position stop matched whole _
      have same : path.captures.set 0 (some ⟨start, path.position⟩) = captures := by
        injection matched with matched
        injection matched
      rw [same]
      cases longer : (execution.continued more).matchAt? start with
      | some others => simp
      | none =>
          refine iff_of_false ?_ (by simp)
          intro found
          injection found with found
          have member := mem_of_tryStarts found whole
          rw [← same, List.getElem?_set_self (captures_pos_of_decisionAt decided)] at whole
          simp only [Option.some.injEq, Span.mk.injEq] at whole
          exact Nat.ne_of_lt (longerLater position member) whole.1
  | failed touched =>
      rw [persists_cons_of_failed before decided]
      cases longer : (execution.continued more).matchAt? start with
      | none =>
          simp only [true_and]
          exact following _ _
      | some others =>
          rcases whole_of_matchAt longer with ⟨end_, begins⟩
          have changed : ¬ (some others = none ∧ execution.Persists more rest) :=
            fun both => by cases both.1
          constructor
          · intro captures position stop matched whole _
            refine iff_of_false ?_ changed
            intro found
            injection matched with matched
            have member := mem_of_tryStarts matched whole
            injection found with found
            injection found with found
            rw [← found, begins] at whole
            simp only [Option.some.injEq, Span.mk.injEq] at whole
            exact Nat.ne_of_lt (later position member) whole.1
          · intro _
            refine iff_of_false ?_ changed
            intro beyond
            exact Nat.not_le_of_lt before (beyond others start end_ rfl begins)

theorem nextStart_continued (start : Nat) :
    (execution.continued more).nextStart start = execution.nextStart start
      ∨ execution.subject.size ≤ (execution.continued more).nextStart start
        ∧ execution.subject.size ≤ execution.nextStart start := by
  unfold nextStart
  by_cases utf8 : execution.program.utf8 = true
  · exact (if_pos utf8).symm ▸ (if_pos utf8).symm ▸
      Utf8.nextBoundary_continued execution.subject more (start + 1)
  · exact .inl ((if_neg utf8).trans (if_neg utf8).symm)

theorem finalIff_tryStarts {last longerLast : Nat}
    (sameLast : ∀ position < execution.subject.size, position ≤ last ↔ position ≤ longerLast)
    (start : Nat) (cut longerCut : Option Nat) :
    FinalIff (execution.Persists more (execution.startsFrom last start)) execution.subject.size
      (.ok (execution.tryStarts cut (execution.startsFrom last start)))
      (.ok ((execution.continued more).tryStarts longerCut
        ((execution.continued more).startsFrom longerLast start))) := by
  induction gap : execution.subject.size - start using Nat.strongRecOn
    generalizing start cut longerCut with
  | ind gap induction =>
      rcases Nat.lt_or_ge start execution.subject.size with before | beyond
      · rcases Nat.lt_or_ge last start with later | inside
        · have longerLater : longerLast < start := by
            rw [← Nat.not_le, ← sameLast start before]
            exact Nat.not_le_of_lt later
          rw [startsFrom_of_lt later, startsFrom_of_lt longerLater]
          exact finalIff_of_nothing
        · rw [startsFrom_of_le inside, startsFrom_of_le ((sameLast start before).mp inside)]
          have sameOnce : (execution.continued more).startsOnce = execution.startsOnce := rfl
          rw [sameOnce]
          cases once : execution.startsOnce with
          | true =>
              apply finalIff_cons before (fun _ member => absurd member List.not_mem_nil)
                (fun _ member => absurd member List.not_mem_nil)
              intro cut longerCut
              exact finalIff_of_nothing
          | false =>
              rw [if_neg Bool.false_ne_true, if_neg Bool.false_ne_true]
              have later := execution.lt_nextStart start
              have longerLater := (execution.continued more).lt_nextStart start
              apply finalIff_cons before
                (fun position member => Nat.lt_of_lt_of_le later (le_of_mem_startsFrom member))
                (fun position member =>
                  Nat.lt_of_lt_of_le longerLater (le_of_mem_startsFrom member))
              intro cut longerCut
              rcases nextStart_continued start with same | ⟨longerBeyond, beyond⟩
              · rw [same]
                exact induction _ (by omega) _ _ _ rfl
              · exact finalIff_of_beyond
                  (fun position member => Nat.le_trans beyond (le_of_mem_startsFrom member))
                  (fun position member => Nat.le_trans longerBeyond (le_of_mem_startsFrom member))
      · exact finalIff_of_beyond
          (fun position member => Nat.le_trans beyond (le_of_mem_startsFrom member))
          (fun position member => Nat.le_trans beyond (le_of_mem_startsFrom member))

theorem inside_origin {start : Nat} (inside : start ≤ execution.subject.size) :
    (execution.attemptAt start).origin.All (· ≤ (execution.attemptAt start).subject.size) :=
  .of_unset inside

theorem checkSubject_continued (checked : execution.checkSubject = .ok ())
    (valid : execution.program.utf8 = true →
      Utf8.isValid (execution.continued more).subject.toList = true)
    (before : execution.startOffset < execution.subject.size) :
    (execution.continued more).checkSubject = .ok () := by
  have sameBoundary : Utf8.isBoundary (execution.subject ++ more) execution.startOffset
      = Utf8.isBoundary execution.subject execution.startOffset :=
    Utf8.isBoundary_continued before
  rw [checkSubject] at checked ⊢
  by_cases strict : (execution.program.utf8 && !execution.options.noUtf8Check) = true
  · have longerValid := Option.isNone_iff_eq_none.mp (valid (Bool.and_eq_true_iff.mp strict).1)
    rw [if_pos strict] at checked
    apply (if_pos strict).trans
    rw [longerValid]
    cases invalid : Utf8.invalidOffset? execution.subject.toList with
    | some offset =>
        rw [invalid] at checked
        cases checked
    | none =>
        rw [invalid, ← sameBoundary] at checked
        dsimp only at checked ⊢
        split at checked
        · rename_i boundary
          exact if_pos boundary
        · cases checked
  · exact if_neg strict

variable (goesOn : execution.GoesOn more)
include goesOn

theorem GoesOn.attemptAt {start : Nat} (before : start < execution.subject.size) :
    (execution.attemptAt start).GoesOn more where
  more := goesOn.more
  started := before
  lines := goesOn.lines
  formed := goesOn.formed

theorem Sees.persists {starts : List Nat} (sees : execution.Sees more starts) :
    execution.Persists more starts := by
  intro start member before
  have agreed : execution.decisionAt start = .cutShort
      ∨ (execution.continued more).decisionAt start = execution.decisionAt start :=
    Machine.Attempt.decide_of_agrees goesOn.hard
      (Node.agrees_interpret (goesOn.attemptAt before) (inside_origin (Nat.le_of_lt before))
        (sees start member before))
      false
  apply agreed.imp_right
  intro same
  rw [matchAt?, same, matchAt?]

theorem le_lastStart_continued {position : Nat} (before : position < execution.subject.size) :
    position ≤ execution.lastStart ↔ position ≤ (execution.continued more).lastStart := by
  have formed : execution.program.pattern.lineRules.utf8 = true →
      Utf8.WellFormed execution.subject.toList := fun utf8 => goesOn.formed (goesOn.lines ▸ utf8)
  have longer : execution.subject.size < (execution.continued more).subject.size :=
    size_lt_continued goesOn.more
  unfold lastStart
  by_cases first : execution.program.pattern.options.firstLine = true
  · exact (if_pos first).symm ▸ (if_pos first).symm ▸ le_firstNewline_continued formed before
  · exact (if_neg first).symm ▸ (if_neg first).symm ▸ iff_of_true (by omega) (by omega)

theorem sees_iff_answers (starts : List Nat) :
    execution.Sees more starts ↔ execution.Answers more starts := by
  have sameTest : ∀ start, start < execution.subject.size → ∀ test there,
      execution.program.pattern.tree.ComesTo (execution.attemptAt start)
        (execution.attemptAt start).origin test there →
      (Search.Agrees (test.interpret (execution.attemptAt start) there)
          (test.interpret ((execution.attemptAt start).continued more) there)
        ↔ ¬ test.Blind (execution.attemptAt start) more there.position) :=
    fun start before test there comes =>
      Node.agrees_test_iff (goesOn.attemptAt before) comes.isTest
        (comes.all (Machine.Attempt.keeps_inside _) (inside_origin (Nat.le_of_lt before)))
  constructor
  · intro sees start tried before test there comes
    exact (sameTest start before test there comes).mpr (sees start tried before test there comes)
  · intro answers start tried before test there comes
    exact (sameTest start before test there comes).mp (answers start tried before test there comes)

theorem finalIff_outcome (compiled : Machine.Compiled execution.program)
    (noPlan : execution.plan = none)
    (valid : execution.program.utf8 = true →
      Utf8.isValid (execution.continued more).subject.toList = true)
    (finished : ¬ Exhausted execution.outcome)
    (longerFinished : ¬ Exhausted (execution.continued more).outcome) :
    FinalIff (execution.Persists more execution.starts) execution.subject.size execution.outcome
      (execution.continued more).outcome := by
  cases checked : execution.checkSubject with
  | error failure =>
      rw [outcome_of_error checked]
      exact .of_error
  | ok =>
      rw [outcome_eq_tryStarts compiled noPlan checked finished]
      cases longerChecked : (execution.continued more).checkSubject with
      | error failure =>
          have offset : execution.subject.size ≤ execution.startOffset := by
            apply Nat.le_of_not_lt
            intro before
            rw [checkSubject_continued checked valid before] at longerChecked
            cases longerChecked
          have beyond : ∀ start ∈ execution.starts, execution.subject.size ≤ start :=
            fun start member => Nat.le_trans offset (le_of_mem_startsFrom member)
          rw [outcome_of_error longerChecked]
          constructor
          · intro captures start stop matched whole before
            injection matched with matched
            exact absurd (beyond start (mem_of_tryStarts matched whole)) (Nat.not_le_of_lt before)
          · intro _
            apply iff_of_true (fun captures start stop impossible => by cases impossible)
            exact fun start member before =>
              absurd (beyond start (mem_of_mem_tried member)) (Nat.not_le_of_lt before)
      | ok =>
          rw [@outcome_eq_tryStarts (execution.continued more) compiled noPlan longerChecked
            longerFinished]
          exact finalIff_tryStarts (fun _ => le_lastStart_continued goesOn)
            execution.startOffset none none

end Continued

end Execution

/-! ## What is reported as final is final -/

/-- What hard partial matching finds, other than a partial match, holds on a subject that goes on
exactly if all attempts come to the same matches there. They do if no test that the execution comes
to is blind, that is, if all of these tests report that the subject ended or come out as on the
longer subject. -/
theorem execute_hard_final_iff {text : List UInt8} {options : CompileOptions} {program : Program}
    (compiled : Program.compile text options = .ok program) (limits : Limits)
    (subject more : Array UInt8) (startOffset : Nat) (matchOptions : MatchOptions)
    (noPartial : matchOptions.partialMode = .none) (goesOn : more ≠ #[])
    (valid : program.utf8 = true →
      Utf8.isValid subject.toList = true ∧ Utf8.isValid (subject ++ more).toList = true)
    (finished : ¬ Execution.Exhausted
      (program.execute none limits subject startOffset { matchOptions with partialHard := true }))
    (longerFinished : ¬ Execution.Exhausted
      (program.execute none limits (subject ++ more) startOffset matchOptions)) :
    let execution : Execution :=
      ⟨program, none, limits, subject, startOffset, { matchOptions with partialHard := true }⟩
    Execution.FinalIff (execution.Persists more execution.starts) subject.size
        (program.execute none limits subject startOffset { matchOptions with partialHard := true })
        (program.execute none limits (subject ++ more) startOffset matchOptions)
      ∧ (execution.Sees more execution.starts → execution.Persists more execution.starts)
      ∧ (execution.Sees more execution.starts ↔ execution.Answers more execution.starts) := by
  intro execution
  have goes : execution.GoesOn more :=
    { more := goesOn
      hard := by rfl
      lines := (Machine.Compiled.of_compile compiled).lines
      formed := fun utf8 =>
        Utf8.wellFormed_of_invalidOffset (Option.isNone_iff_eq_none.mp (valid utf8).1) }
  have longerOutcome : program.execute none limits (subject ++ more) startOffset matchOptions
      = (execution.continued more).outcome := by
    rw [← matchOptions.full_of_partialMode_none noPartial]
    rfl
  rw [longerOutcome] at longerFinished ⊢
  exact ⟨Execution.finalIff_outcome goes (.of_compile compiled) rfl (fun utf8 => (valid utf8).2)
    finished longerFinished, Execution.Sees.persists goes, Execution.sees_iff_answers goes _⟩

/-- `a+(b)` on `xaabx` is matched behind the `x` for good: on `xaabxy` it is matched there too. -/
theorem execute_hard_final_repeated :
    ∃ program, Program.compile "a+(b)".toUTF8.toList {} = .ok program
      ∧ program.execute none {} ("xaabx".toUTF8.data ++ "y".toUTF8.data) 0 {} =
        .ok (.matched [some ⟨1, 4⟩, some ⟨3, 4⟩]) := by
  have evaluated : ∃ program, Program.compile "a+(b)".toUTF8.toList {} = .ok program
      ∧ ¬ Execution.Exhausted
        (program.execute none {} ("xaabx".toUTF8.data ++ "y".toUTF8.data) 0 {})
      ∧ program.execute none {} "xaabx".toUTF8.data 0 { partialHard := true } =
        .ok (.matched [some ⟨1, 4⟩, some ⟨3, 4⟩])
      ∧ program.pattern.tree.neverBlind = true :=
    exists_compiled (by decide +kernel)
  rcases evaluated with ⟨program, compiled, longerFinished, matched, never⟩
  refine ⟨program, compiled, ?_⟩
  have finished : ¬ Execution.Exhausted
      (program.execute none {} "xaabx".toUTF8.data 0 { partialHard := true }) := by
    rw [matched]
    decide
  have valid : Utf8.isValid "xaabx".toUTF8.data.toList = true
      ∧ Utf8.isValid ("xaabx".toUTF8.data ++ "y".toUTF8.data).toList = true := by decide +kernel
  rcases execute_hard_final_iff compiled {} "xaabx".toUTF8.data "y".toUTF8.data 0 {} rfl
    (by decide +kernel) (fun _ => valid) finished longerFinished with ⟨final, persists, _⟩
  exact (final.matched _ 1 4 matched rfl (by decide +kernel)).mpr
    (persists fun _ _ _ _ _ comes => Node.not_blind_of_neverBlind never comes)

/-- A `^` behind a newline at the end of the subject fails without a report, and `(?m)a\n^` finds no
match in a text that another letter completes to one. -/
theorem no_match_of_line_start_lost :
    ∃ program, Program.compile "(?m)a\\n^".toUTF8.toList {} = .ok program
      ∧ program.execute none {} "a\n".toUTF8.data 0 { partialHard := true } = .ok .noMatch
      ∧ program.execute none {} ("a\n".toUTF8.data ++ "b".toUTF8.data) 0 {} =
        .ok (.matched [some ⟨0, 2⟩]) :=
  exists_compiled (by decide +kernel)

end PerlRegex
