import PerlRegex.Proofs.Execution
import PerlRegex.Proofs.Study.FirstBytes
import PerlRegex.Proofs.Study.MinLength
import PerlRegex.Proofs.Study.StartKind
namespace PerlRegex

/-! An execution that goes by a plan passes over start positions. It comes to the same outcome as
one without, as long as none of the positions it passes over decides the outcome. -/

namespace Execution

/-! ## Passing over start positions -/

def unplanned (execution : Execution) : Execution := { execution with plan := none }

@[simp] theorem attempt_unplanned (execution : Execution) (start budget : Nat) :
    execution.unplanned.attempt start budget = execution.attempt start budget := rfl

@[simp] theorem decisionAt_unplanned (execution : Execution) (start : Nat) :
    execution.unplanned.decisionAt start = execution.decisionAt start := rfl

theorem searchBehind_unplanned (execution : Execution) (last start budget : Nat)
    (cut : Option Nat) :
    execution.unplanned.searchBehind last start budget cut =
      if execution.unplanned.startsOnce || execution.subject.size ≤ start then
        .ok (execution.withoutMatch cut)
      else execution.unplanned.search last (execution.nextStart start) budget cut := rfl

/-- The plan rules out that a match begins at a position. -/
def Refuses (execution : Execution) (position : Nat) : Prop :=
  execution.tooShort position = true ∨ execution.mayStart position = false

/-- None of the positions from `start` on that the plan rules out decides the outcome `result`. Only
positions that satisfy `visited` are tried. -/
def RefusesRightly (execution : Execution) (visited : Nat → Prop) (last start : Nat)
    (result : Except ExecError Outcome) : Prop :=
  ∀ position, start ≤ position → position ≤ last → visited position →
    (position = start ∨ execution.unplanned.startsOnce = false) → execution.Refuses position →
    execution.decisionAt position = .failed false ∨
      ∃ path, execution.decisionAt position = .matched path
        ∧ result ≠ .ok (.matched (path.captures.set 0 (some ⟨position, path.position⟩)))

theorem RefusesRightly.next {execution : Execution} {visited : Nat → Prop} {last start : Nat}
    {result : Except ExecError Outcome}
    (rightly : execution.RefusesRightly visited last start result)
    (many : execution.unplanned.startsOnce = false) :
    execution.RefusesRightly visited last (execution.nextStart start) result := by
  intro position later inside visits _ refuses
  have := execution.lt_nextStart start
  exact rightly position (by omega) inside visits (.inr many) refuses

section Search

variable {execution : Execution} (compiled : Machine.Compiled execution.program) {last : Nat}
  (lastInside : last ≤ execution.subject.size) {visited : Nat → Prop}
include compiled lastInside

theorem search_of_refused {start budget : Nat} {cut : Option Nat} (inside : start ≤ last)
    (visits : visited start) (refuses : execution.Refuses start)
    (finished : ¬ Exhausted (execution.unplanned.search last start budget cut))
    (rightly : execution.RefusesRightly visited last start
      (execution.unplanned.search last start budget cut)) :
    ¬ (execution.attempt start budget).Exhausted
      ∧ execution.unplanned.search last start budget cut =
        execution.unplanned.searchBehind last start (execution.attempt start budget).budget
          cut := by
  rcases @search_of_tried execution.unplanned compiled last start inside lastInside rfl rfl budget
    cut with ⟨exhausted, _⟩ | ⟨fair, same⟩
  · exact absurd exhausted finished
  · refine ⟨fair, ?_⟩
    rw [decisionAt_unplanned, attempt_unplanned] at same
    rcases rightly start (Nat.le_refl _) inside visits (.inl rfl) refuses with
      failed | ⟨path, matched, other⟩
    · rw [failed] at same
      simpa using same
    · rw [matched] at same
      exact absurd same other

variable (next : ∀ position, visited position → visited (execution.nextStart position))
include next

theorem search_of_all_refused {start budget : Nat} {cut : Option Nat} (visits : visited start)
    (refuses : ∀ position, start ≤ position → execution.Refuses position)
    (finished : ¬ Exhausted (execution.unplanned.search last start budget cut))
    (rightly : execution.RefusesRightly visited last start
      (execution.unplanned.search last start budget cut)) :
    execution.unplanned.search last start budget cut = .ok (execution.withoutMatch cut) := by
  induction gap : execution.subject.size + 1 - start using Nat.strongRecOn
    generalizing start budget with
  | ind gap induction =>
      rcases Nat.lt_or_ge last start with beyond | inside
      · exact search_of_lt beyond budget cut
      · have behind := (search_of_refused compiled lastInside inside visits
          (refuses start (Nat.le_refl _)) finished rightly).2
        rw [behind] at finished rightly ⊢
        rw [searchBehind_unplanned] at finished rightly ⊢
        split
        · rfl
        · rename_i more
          rw [if_neg more] at finished rightly
          rw [Bool.or_eq_true, decide_eq_true_eq, not_or, Nat.not_le] at more
          have later := execution.lt_nextStart start
          have many := Bool.eq_false_iff.mpr more.1
          exact induction _ (by omega) (next start visits)
            (fun position after => refuses position (by omega)) finished (rightly.next many) rfl

/-- An execution that goes by a plan comes to the outcome of one without, if what the plan rules out
does not decide that outcome. It may use the budget that it saves. -/
theorem search_eq_unplanned {plan : Plan} (planned : execution.plan = some plan)
    {start budget more : Nat} {cut : Option Nat} (fromOffset : execution.startOffset ≤ start)
    (le : budget ≤ more) (visits : visited start)
    (finished : ¬ Exhausted (execution.unplanned.search last start budget cut))
    (rightly : execution.RefusesRightly visited last start
      (execution.unplanned.search last start budget cut)) :
    execution.search last start more cut = execution.unplanned.search last start budget cut := by
  induction gap : execution.subject.size + 1 - start using Nat.strongRecOn
    generalizing start budget more cut with
  | ind gap induction =>
      rcases Nat.lt_or_ge last start with beyond | inside
      · rw [search_of_lt beyond, search_of_lt beyond]
        rfl
      -- What follows an attempt that fails is the same on both sides.
      have behind : ∀ {budget more : Nat} {cut : Option Nat}, budget ≤ more →
          ¬ Exhausted (execution.unplanned.searchBehind last start budget cut) →
          execution.RefusesRightly visited last start
            (execution.unplanned.searchBehind last start budget cut) →
          execution.searchBehind last start more cut =
            execution.unplanned.searchBehind last start budget cut := by
        intro budget more cut le finished rightly
        rw [searchBehind_unplanned] at finished rightly ⊢
        have once : execution.startsOnce =
            (execution.unplanned.startsOnce || plan.start == .startOffset) := by
          simp [startsOnce, unplanned, planned]
        rw [searchBehind, once]
        split at finished
        · rename_i stops
          rw [Bool.or_right_comm, if_pos (by rw [stops]; rfl), if_pos stops]
        · rename_i goesOn
          rw [Bool.or_right_comm, if_neg goesOn]
          rw [if_neg goesOn] at rightly
          rw [Bool.or_eq_true, decide_eq_true_eq, not_or, Nat.not_le] at goesOn
          have many := Bool.eq_false_iff.mpr goesOn.1
          have later := execution.lt_nextStart start
          split
          · -- The plan knows that a match begins at the start offset, and that is behind.
            rename_i onlyFirst
            simp only [many, Nat.not_le_of_lt goesOn.2, decide_false, Bool.or_false,
              Bool.false_or, beq_iff_eq] at onlyFirst
            refine (search_of_all_refused compiled lastInside next (next start visits)
              (fun position after => ?_) finished (rightly.next many)).symm
            have : position ≠ execution.startOffset := by omega
            exact .inr (by simp [mayStart, planned, Plan.mayStart, onlyFirst, this])
          · exact induction _ (by omega) (by omega) le (next start visits) finished
              (rightly.next many) rfl
      cases short : execution.tooShort start with
      | true =>
          have refuses : ∀ position, start ≤ position → execution.Refuses position := by
            intro position later
            simp only [tooShort, planned, Option.any_some, decide_eq_true_eq] at short
            left
            simp only [tooShort, planned, Option.any_some, decide_eq_true_eq]
            omega
          rw [search_of_all_refused compiled lastInside next visits refuses finished rightly,
            search, short, Bool.or_true, if_pos rfl]
      | false =>
          cases admitted : execution.mayStart start with
          | false =>
              rcases search_of_refused compiled lastInside inside visits (.inr admitted) finished
                rightly with ⟨fair, same⟩
              rw [search_of_skipped inside short admitted]
              rw [same] at finished rightly ⊢
              exact behind (Nat.le_trans (Machine.budget_run_le _ _ _) le) finished rightly
          | true =>
              rcases @search_of_tried execution.unplanned compiled last start inside lastInside rfl
                rfl budget cut with ⟨exhausted, _⟩ | ⟨fair, same⟩
              · exact absurd exhausted finished
              rcases Machine.run_of_le fair le with ⟨rest, saved, moreRun⟩
              have moreAttempt : execution.attempt start more =
                  ⟨(execution.attempt start budget).verdict,
                    (execution.attempt start budget).state, rest⟩ := moreRun
              rcases search_of_tried compiled inside lastInside short admitted more cut with
                ⟨_, exhausted⟩ | ⟨_, sameMore⟩
              · rw [moreAttempt] at exhausted
                exact absurd exhausted fair
              rw [decisionAt_unplanned, attempt_unplanned] at same
              rw [same] at finished rightly ⊢
              rw [sameMore, moreAttempt]
              cases decided : execution.decisionAt start with
              | matched path => rfl
              | cutShort => rfl
              | failed touched =>
                  rw [decided] at finished rightly
                  exact behind saved finished rightly

end Search

/-! ## Plans made by a study -/

/-- The execution goes by the plan that a study of its program makes for its kind of execution. -/
def Studied (execution : Execution) : Prop :=
  execution.plan = some (.build execution.program.pattern.options execution.program.pattern.tree
    execution.options.partialMode)

/-- The table of first bytes rules out a match at a position. -/
def RefusesByte (execution : Execution) (position : Nat) : Prop :=
  ∃ bytes, Plan.firstBytesOf execution.program.utf8 execution.program.pattern.tree = some bytes
    ∧ (execution.subject[position]?).any bytes.contains = false

/-- The least length of a match rules out a match at a position. -/
def RefusesLength (execution : Execution) (position : Nat) : Prop :=
  execution.subject.size - position <
    execution.program.pattern.tree.minBytes execution.program.utf8

def pathsAt (execution : Execution) (position : Nat) : List Path :=
  execution.program.pattern.tree.results (execution.attemptAt position)
    (execution.attemptAt position).origin

section Studied

variable {execution : Execution} (studied : execution.Studied)
include studied

/-- Why a study rules out a position. A plan for partial matching goes by start positions alone. -/
theorem cases_of_refuses {position : Nat} (refuses : execution.Refuses position) :
    StartKind.admits
        (if execution.program.pattern.options.anchored then .startOffset
          else execution.program.pattern.tree.startKind)
        execution.program.pattern.lineRules execution.subject execution.startOffset position
        = false
      ∨ execution.options.partialMode = .none
        ∧ (execution.RefusesByte position ∨ execution.RefusesLength position) := by
  rw [Studied] at studied
  rcases refuses with short | refused
  · simp only [tooShort, studied, Option.any_some, decide_eq_true_eq, Plan.build] at short
    split at short
    · rename_i mode
      exact .inr ⟨mode, .inr short⟩
    · exact absurd short (Nat.not_lt_zero _)
  · simp only [mayStart, studied, Option.all_some, Plan.mayStart, Plan.build,
      Bool.and_eq_false_iff] at refused
    rcases refused with kind | table
    · exact .inl kind
    · split at table
      · cases table
      · rename_i bytes found
        split at found
        · rename_i mode
          exact .inr ⟨mode, .inl ⟨bytes, found, table⟩⟩
        · cases found

end Studied

theorem decisionAt_of_pathsAt_nil {execution : Execution} {position : Nat}
    (mode : execution.options.partialMode = .none) (noPath : execution.pathsAt position = []) :
    execution.decisionAt position = .failed false := by
  have attemptMode : (execution.attemptAt position).options.partialMode = .none := mode
  have results : Search.results (execution.attemptAt position).search = [] := noPath
  rw [decisionAt, Machine.Attempt.decide_of_partialMode_none attemptMode, results]
  rfl

/-- The kind of start never rules out a position where the search would come to anything, and never
the start offset. -/
theorem decisionAt_of_startKind {execution : Execution} {position : Nat}
    (from_ : execution.startOffset ≤ position)
    (many : position = execution.startOffset
      ∨ execution.program.pattern.options.anchored = false)
    (refused : StartKind.admits
        (if execution.program.pattern.options.anchored then .startOffset
          else execution.program.pattern.tree.startKind)
        execution.program.pattern.lineRules execution.subject execution.startOffset position
        = false) :
    execution.decisionAt position = .failed false := by
  have different : position ≠ execution.startOffset := by
    intro same
    rw [same] at refused
    cases kind : (if execution.program.pattern.options.anchored then StartKind.startOffset
      else execution.program.pattern.tree.startKind) <;>
      simp [kind, StartKind.admits] at refused
  rw [many.resolve_left different, if_neg (by simp)] at refused
  have later : (execution.attemptAt position).startOffset
      < (execution.attemptAt position).origin.position := Nat.lt_of_le_of_ne from_ different.symm
  have nothing : (execution.attemptAt position).search = [] :=
    Node.interpret_eq_nil_of_startKind later refused
  rw [decisionAt, nothing]
  rfl

theorem not_refusesByte_of_properAt {execution : Execution}
    (compiled : Machine.Compiled execution.program) {position : Nat} {path : Path}
    (proper : (execution.attemptAt position).ProperAt position)
    (found : path ∈ execution.pathsAt position) : ¬ execution.RefusesByte position := by
  rintro ⟨bytes, table, absent⟩
  rw [Plan.firstBytesOf] at table
  split at table
  · rename_i notNullable
    injection table with table
    rcases Node.beginsAt_of_mem_results compiled.lines notNullable proper found with
      ⟨_, empty⟩ | ⟨byte, present, begins⟩
    · cases empty
    · have presentHere : execution.subject[position]? = some byte := present
      rw [presentHere, Option.any_some, ← table, ByteSet.contains_ofTest] at absent
      have same : execution.program.pattern.tree.mayBeginWith execution.program.utf8 byte = true :=
        begins
      rw [same] at absent
      cases absent
  · cases table

/-! ## Well-formed subjects -/

def Checked (execution : Execution) : Prop :=
  execution.program.utf8 = true → Utf8.WellFormed execution.subject.toList

section Checked

variable {execution : Execution} (compiled : Machine.Compiled execution.program)
  (checked : execution.Checked) {position : Nat} (inside : position ≤ execution.subject.size)
  (boundary : execution.program.utf8 = true → Utf8.isBoundary execution.subject position = true)
include checked inside boundary

theorem between_origin : (execution.attemptAt position).origin.All
    (execution.attemptAt position).Between :=
  .of_unset fun utf8 => Utf8.between_of_isBoundary (checked utf8) inside (boundary utf8)

include compiled

theorem pathsAt_of_refusesLength (refused : execution.RefusesLength position) :
    execution.pathsAt position = [] := by
  rw [List.eq_nil_iff_forall_not_mem]
  intro path member
  have long : position + execution.program.pattern.tree.minBytes execution.program.utf8
      ≤ path.position :=
    Node.minBytes_le compiled.lines (between_origin checked inside boundary) member
  have fits : path.position ≤ execution.subject.size :=
    (Node.advances_of_mem_results member).inside inside
  rw [RefusesLength] at refused
  omega

theorem pathsAt_of_refusesByte (refused : execution.RefusesByte position) :
    execution.pathsAt position = [] := by
  rw [List.eq_nil_iff_forall_not_mem]
  intro path member
  have proper := Machine.Attempt.properAt_of_between
    (between_origin checked inside boundary).position
  exact not_refusesByte_of_properAt compiled proper member refused

end Checked

theorem refusesRightly_of_checked {execution : Execution}
    (compiled : Machine.Compiled execution.program) (studied : execution.Studied)
    (checked : execution.Checked) {last : Nat} (lastInside : last ≤ execution.subject.size)
    (result : Except ExecError Outcome) :
    execution.RefusesRightly
      (fun position => execution.program.utf8 = true →
        Utf8.isBoundary execution.subject position = true)
      last execution.startOffset result := by
  intro position from_ inside boundary many refuses
  left
  have within := Nat.le_trans inside lastInside
  rcases cases_of_refuses studied refuses with kind | ⟨mode, byte | length⟩
  · refine decisionAt_of_startKind from_ (many.imp_right fun many => ?_) kind
    simp only [startsOnce, unplanned, Bool.or_eq_false_iff] at many
    exact many.1.2
  · exact decisionAt_of_pathsAt_nil mode
      (pathsAt_of_refusesByte compiled checked within boundary byte)
  · exact decisionAt_of_pathsAt_nil mode
      (pathsAt_of_refusesLength compiled checked within boundary length)

theorem outcome_eq_unplanned {execution : Execution}
    (compiled : Machine.Compiled execution.program) (studied : execution.Studied)
    (checked : execution.Checked)
    (boundary : execution.program.utf8 = true →
      Utf8.isBoundary execution.subject execution.startOffset = true)
    (finished : ¬ Exhausted execution.unplanned.outcome) :
    execution.outcome = execution.unplanned.outcome := by
  have sameCheck : execution.unplanned.checkSubject = execution.checkSubject := rfl
  cases check : execution.checkSubject with
  | error failure => rw [outcome_of_error check, outcome_of_error (sameCheck.trans check)]
  | ok =>
      rw [outcome_of_ok (sameCheck.trans check)] at finished ⊢
      rw [outcome_of_ok check]
      have inside := execution.lastStart_le
      have next : ∀ position, (execution.program.utf8 = true →
            Utf8.isBoundary execution.subject position = true) →
          execution.program.utf8 = true →
          Utf8.isBoundary execution.subject (execution.nextStart position) = true := by
        intro position _ utf8
        rw [nextStart, if_pos utf8]
        exact isBoundary_nextBoundary _ _
      exact search_eq_unplanned compiled inside next studied (Nat.le_refl _) (Nat.le_refl _)
        boundary finished (refusesRightly_of_checked compiled studied checked inside _)

def studied (program : Program) (limits : Limits) (subject : Array UInt8) (startOffset : Nat)
    (options : MatchOptions) : Execution where
  program := program
  plan := some (.build program.pattern.options program.pattern.tree options.partialMode)
  limits := limits
  subject := subject
  startOffset := startOffset
  options := options

end Execution

/-! ## A study changes no result -/

/-- An execution with the plan of a study for `mode` goes by the first byte and by the length of
matches. -/
def Program.GoesByBytes (program : Program) (mode : PartialMode) (matchOptions : MatchOptions) :
    Prop :=
  mode = .none ∧ matchOptions.partialMode = .none
    ∧ program.pattern.options.noStartOptimize = false ∧ matchOptions.noStartOptimize = false

theorem Program.usablePlan_build (program : Program) (mode : PartialMode)
    (matchOptions : MatchOptions) :
    program.usablePlan (some (.build program.pattern.options program.pattern.tree mode))
        matchOptions = none ∧ ¬ program.GoesByBytes mode matchOptions
      ∨ program.usablePlan (some (.build program.pattern.options program.pattern.tree mode))
          matchOptions =
          some (.build program.pattern.options program.pattern.tree matchOptions.partialMode)
        ∧ (program.GoesByBytes mode matchOptions ↔ matchOptions.partialMode = .none) := by
  rw [usablePlan, GoesByBytes]
  rw [Option.filter_some]
  split
  · rename_i usable
    simp only [Bool.and_eq_true, beq_iff_eq, Bool.not_eq_true'] at usable
    rcases usable with ⟨⟨same, programAllows⟩, optionsAllow⟩
    have sameMode : mode = matchOptions.partialMode := same
    refine .inr ⟨by rw [sameMode], ?_⟩
    simp [sameMode, programAllows, optionsAllow]
  · rename_i unusable
    refine .inl ⟨rfl, ?_⟩
    rintro ⟨sameMode, full, programAllows, optionsAllow⟩
    exact unusable (by simp [Plan.build, sameMode, full, programAllows, optionsAllow])

theorem Program.execute_build (program : Program) (mode : PartialMode) (limits : Limits)
    (subject : Array UInt8) (startOffset : Nat) (matchOptions : MatchOptions) :
    program.execute (some (.build program.pattern.options program.pattern.tree mode)) limits
          subject startOffset matchOptions =
        program.execute none limits subject startOffset matchOptions
      ∧ ¬ program.GoesByBytes mode matchOptions
      ∨ program.execute (some (.build program.pattern.options program.pattern.tree mode)) limits
          subject startOffset matchOptions =
        (Execution.studied program limits subject startOffset matchOptions).outcome
      ∧ (program.GoesByBytes mode matchOptions ↔ matchOptions.partialMode = .none) := by
  rw [execute]
  rcases program.usablePlan_build mode matchOptions with ⟨unused, notByBytes⟩ | ⟨used, byBytes⟩
  · rw [unused]
    exact .inl ⟨rfl, notByBytes⟩
  · rw [used]
    exact .inr ⟨rfl, byBytes⟩

/-- On a subject that is well formed, with a start offset between two characters, an execution with
a plan comes to the outcome of one without, whatever the plan was made for. -/
theorem execute_studied {text : List UInt8} {options : CompileOptions} {program : Program}
    (compiled : Program.compile text options = .ok program) (mode : PartialMode)
    (limits : Limits) (subject : Array UInt8) (startOffset : Nat) (matchOptions : MatchOptions)
    (checked : program.utf8 = true →
      Utf8.isValid subject.toList = true ∧ Utf8.isBoundary subject startOffset = true)
    (finished : ¬ Execution.Exhausted
      (program.execute none limits subject startOffset matchOptions)) :
    program.execute (some (.build program.pattern.options program.pattern.tree mode)) limits
        subject startOffset matchOptions =
      program.execute none limits subject startOffset matchOptions := by
  rcases program.execute_build mode limits subject startOffset matchOptions with
    ⟨unused, _⟩ | ⟨planned, _⟩
  · exact unused
  · have wellFormed : Execution.Checked
        (.studied program limits subject startOffset matchOptions) := fun utf8 =>
      Utf8.wellFormed_of_invalidOffset (Option.isNone_iff_eq_none.mp (checked utf8).1)
    rw [planned]
    exact Execution.outcome_eq_unplanned (.of_compile compiled) rfl wellFormed
      (fun utf8 => (checked utf8).2) finished

/-- A study of `é(b)` passes over the `a` in front of the match and keeps the match. -/
theorem execute_studied_accented :
    ∃ program, Program.compile "é(b)".toUTF8.toList { utf8 := true } = .ok program
      ∧ program.execute (some (.build program.pattern.options program.pattern.tree .none)) {}
        "aéb".toUTF8.data 0 {} = .ok (.matched [some ⟨1, 4⟩, some ⟨3, 4⟩]) := by
  have evaluated : ∃ program,
      Program.compile "é(b)".toUTF8.toList { utf8 := true } = .ok program
        ∧ ¬ Execution.Exhausted (program.execute none {} "aéb".toUTF8.data 0 {})
        ∧ program.execute none {} "aéb".toUTF8.data 0 {} =
          .ok (.matched [some ⟨1, 4⟩, some ⟨3, 4⟩]) :=
    exists_compiled (by decide +kernel)
  rcases evaluated with ⟨program, compiled, finished, matched⟩
  refine ⟨program, compiled, ?_⟩
  have valid : Utf8.isValid "aéb".toUTF8.data.toList = true
      ∧ Utf8.isBoundary "aéb".toUTF8.data 0 = true := by decide +kernel
  rw [execute_studied compiled .none {} _ 0 {} (fun _ => valid) finished, matched]

end PerlRegex
