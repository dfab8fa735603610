import PerlRegex.Proofs.Study.Plans
namespace PerlRegex

/-! On a subject that has not been checked a study can lose a match. It does where the table of
first bytes or the least length rules out the position of the match, and nowhere else. Malformed
bytes may be decoded to characters whose own encodings begin with other bytes or are longer, and a
study goes by those. -/

namespace Execution

theorem refuses_of_cases {execution : Execution} (studied : execution.Studied)
    (mode : execution.options.partialMode = .none) {position : Nat}
    (refused : execution.RefusesByte position ∨ execution.RefusesLength position) :
    execution.Refuses position := by
  rw [Studied] at studied
  rcases refused with ⟨bytes, table, absent⟩ | short
  · right
    have known : Plan.firstBytesOf execution.program.pattern.options.utf8
        execution.program.pattern.tree = some bytes := table
    simp only [mayStart, studied, Option.all_some, Plan.mayStart, Plan.build, mode, if_true, known,
      absent, Bool.and_false]
  · left
    simp only [tooShort, studied, Option.any_some, Plan.build, mode, if_true, decide_eq_true_eq]
    exact short

theorem admits_of_search {execution : Execution}
    (compiled : Machine.Compiled execution.program) {last : Nat}
    (lastInside : last ≤ execution.subject.size) {start budget : Nat} {cut : Option Nat}
    {captures : Captures}
    (matched : execution.search last start budget cut = .ok (.matched captures)) :
    ∃ position stop, captures[0]? = some (some ⟨position, stop⟩)
      ∧ ¬ execution.Refuses position := by
  induction gap : execution.subject.size + 1 - start using Nat.strongRecOn
    generalizing start budget cut with
  | ind gap induction =>
      have unmatched : ∀ cut, execution.withoutMatch cut ≠ .matched captures := by
        intro cut
        cases cut <;> simp [withoutMatch]
      have behind : ∀ {budget : Nat} {cut : Option Nat},
          execution.searchBehind last start budget cut = .ok (.matched captures) →
          ∃ position stop, captures[0]? = some (some ⟨position, stop⟩)
            ∧ ¬ execution.Refuses position := by
        intro budget cut matched
        rw [searchBehind] at matched
        split at matched
        · injection matched with same
          exact absurd same (unmatched cut)
        · rename_i more
          rw [Bool.or_eq_true, decide_eq_true_eq, not_or, Nat.not_le] at more
          have later := execution.lt_nextStart start
          exact induction _ (by omega) matched rfl
      rcases Nat.lt_or_ge last start with beyond | inside
      · rw [search_of_lt beyond] at matched
        injection matched with same
        exact absurd same (unmatched cut)
      cases short : execution.tooShort start with
      | true =>
          rw [search, short, Bool.or_true, if_pos rfl] at matched
          injection matched with same
          exact absurd same (unmatched cut)
      | false =>
          cases admitted : execution.mayStart start with
          | false =>
              rw [search_of_skipped inside short admitted] at matched
              exact behind matched
          | true =>
              rcases search_of_tried compiled inside lastInside short admitted budget cut with
                ⟨exhausted, _⟩ | ⟨_, same⟩
              · rw [matched] at exhausted
                rcases exhausted with impossible | impossible <;> cases impossible
              rw [same] at matched
              cases decided : execution.decisionAt start with
              | matched path =>
                  simp only [decided] at matched
                  injection matched with matched
                  injection matched with matched
                  refine ⟨start, path.position, ?_, ?_⟩
                  · rw [← matched, List.getElem?_set_self (captures_pos_of_decisionAt decided)]
                  · rintro (refused | refused)
                    · rw [short] at refused
                      cases refused
                    · rw [admitted] at refused
                      cases refused
              | cutShort =>
                  simp only [decided] at matched
                  injection matched with matched
                  cases matched
              | failed touched =>
                  simp only [decided] at matched
                  exact behind matched

end Execution

/-! ## When a match is lost -/

/-- A study rules out a match that begins at a position: no match is empty and none begins with the
byte there, or the rest of the subject is too short. -/
def Program.RulesOut (program : Program) (subject : Array UInt8) (position : Nat) : Prop :=
  program.pattern.tree.nullable? = some false
      ∧ (subject[position]?).any (program.pattern.tree.mayBeginWith program.utf8) = false
    ∨ subject.size - position < program.pattern.tree.minBytes program.utf8

instance (program : Program) (subject : Array UInt8) (position : Nat) :
    Decidable (program.RulesOut subject position) :=
  inferInstanceAs (Decidable (_ ∧ _ ∨ _))

namespace Execution

theorem rulesOut_iff {execution : Execution} {position : Nat} :
    execution.program.RulesOut execution.subject position ↔
      execution.RefusesByte position ∨ execution.RefusesLength position := by
  refine or_congr ?_ Iff.rfl
  rw [RefusesByte, Plan.firstBytesOf]
  have sameTest : (ByteSet.ofTest fun byte =>
      execution.program.pattern.tree.mayBeginWith execution.program.utf8 byte).contains =
      execution.program.pattern.tree.mayBeginWith execution.program.utf8 :=
    funext fun byte => ByteSet.contains_ofTest _ byte
  constructor
  · rintro ⟨notNullable, absent⟩
    exact ⟨_, if_pos notNullable, by rw [sameTest, absent]⟩
  · rintro ⟨bytes, table, absent⟩
    split at table
    · rename_i notNullable
      injection table with table
      rw [← table, sameTest] at absent
      exact ⟨notNullable, absent⟩
    · cases table

theorem search_eq_unplanned_iff {execution : Execution}
    (compiled : Machine.Compiled execution.program) (studied : execution.Studied) {last : Nat}
    (lastInside : last ≤ execution.subject.size) {budget : Nat} {cut : Option Nat}
    (finished : ¬ Exhausted
      (execution.unplanned.search last execution.startOffset budget cut)) :
    execution.search last execution.startOffset budget cut =
        execution.unplanned.search last execution.startOffset budget cut ↔
      ¬ ∃ captures start stop,
        execution.unplanned.search last execution.startOffset budget cut
            = .ok (.matched captures)
          ∧ captures[0]? = some (some ⟨start, stop⟩)
          ∧ execution.options.partialMode = .none
          ∧ execution.program.RulesOut execution.subject start := by
  constructor
  · rintro same ⟨captures, start, stop, matched, whole, mode, ruledOut⟩
    rw [matched] at same
    rcases admits_of_search compiled lastInside same with ⟨position, end_, here, admitted⟩
    rw [whole] at here
    injection here with here
    injection here with here
    injection here with here _
    rw [← here] at admitted
    exact admitted (refuses_of_cases studied mode (rulesOut_iff.mp ruledOut))
  · intro kept
    have rightly : execution.RefusesRightly (fun _ => True) last execution.startOffset
        (execution.unplanned.search last execution.startOffset budget cut) := by
      intro position from_ inside _ many refuses
      rcases cases_of_refuses studied refuses with kind | ⟨mode, refused⟩
      · refine .inl (decisionAt_of_startKind from_ (many.imp_right fun many => ?_) kind)
        simp only [startsOnce, unplanned, Bool.or_eq_false_iff] at many
        exact many.1.2
      · rcases decisionAt_of_partialMode_none mode with failed | ⟨path, matched⟩
        · exact .inl failed
        · refine .inr ⟨path, matched, fun same => kept ⟨_, position, path.position, same, ?_, mode,
            rulesOut_iff.mpr refused⟩⟩
          rw [List.getElem?_set_self (captures_pos_of_decisionAt matched)]
    exact search_eq_unplanned compiled lastInside (fun _ _ => trivial) studied (Nat.le_refl _)
      (Nat.le_refl _) trivial finished rightly

theorem outcome_eq_unplanned_iff {execution : Execution}
    (compiled : Machine.Compiled execution.program) (studied : execution.Studied)
    (finished : ¬ Exhausted execution.unplanned.outcome) :
    execution.outcome = execution.unplanned.outcome ↔
      ¬ ∃ captures start stop, execution.unplanned.outcome = .ok (.matched captures)
        ∧ captures[0]? = some (some ⟨start, stop⟩) ∧ execution.options.partialMode = .none
        ∧ execution.program.RulesOut execution.subject start := by
  have sameCheck : execution.unplanned.checkSubject = execution.checkSubject := rfl
  cases check : execution.checkSubject with
  | error failure =>
      rw [outcome_of_error check, outcome_of_error (sameCheck.trans check)]
      apply iff_of_true rfl
      rintro ⟨_, _, _, impossible, _⟩
      cases impossible
  | ok =>
      rw [outcome_of_ok (sameCheck.trans check)] at finished ⊢
      rw [outcome_of_ok check]
      exact search_eq_unplanned_iff compiled studied execution.lastStart_le finished

end Execution

/-- Whether the subject has been checked or not, an execution with a plan comes to the outcome of
one without, except where it goes by the first byte and the length of matches and these rule out the
match that is there. -/
theorem execute_studied_iff {text : List UInt8} {options : CompileOptions} {program : Program}
    (compiled : Program.compile text options = .ok program) (mode : PartialMode)
    (limits : Limits) (subject : Array UInt8) (startOffset : Nat) (matchOptions : MatchOptions)
    (finished : ¬ Execution.Exhausted
      (program.execute none limits subject startOffset matchOptions)) :
    program.execute (some (.build program.pattern.options program.pattern.tree mode)) limits
          subject startOffset matchOptions =
        program.execute none limits subject startOffset matchOptions ↔
      ¬ ∃ captures start stop,
        program.execute none limits subject startOffset matchOptions = .ok (.matched captures)
          ∧ captures[0]? = some (some ⟨start, stop⟩) ∧ program.GoesByBytes mode matchOptions
          ∧ program.RulesOut subject start := by
  rcases program.execute_build mode limits subject startOffset matchOptions with
    ⟨unused, notByBytes⟩ | ⟨planned, byBytes⟩
  · apply iff_of_true unused
    rintro ⟨_, _, _, _, _, goes, _⟩
    exact notByBytes goes
  · rw [planned]
    simp only [byBytes]
    exact @Execution.outcome_eq_unplanned_iff
      (.studied program limits subject startOffset matchOptions) (.of_compile compiled) rfl finished

/-- A stray byte in front of the match does no harm: a study of `b` passes over it. -/
theorem execute_studied_behind_stray_byte :
    ∃ program, Program.compile "b".toUTF8.toList { utf8 := true } = .ok program
      ∧ program.execute (some (.build program.pattern.options program.pattern.tree .none)) {}
          #[0xFF, 0x62] 0 { noUtf8Check := true } =
        program.execute none {} #[0xFF, 0x62] 0 { noUtf8Check := true } := by
  have evaluated : ∃ program, Program.compile "b".toUTF8.toList { utf8 := true } = .ok program
      ∧ program.execute none {} #[0xFF, 0x62] 0 { noUtf8Check := true } =
        .ok (.matched [some ⟨1, 2⟩])
      ∧ ¬ program.RulesOut #[0xFF, 0x62] 1 :=
    exists_compiled (by decide +kernel)
  rcases evaluated with ⟨program, compiled, matched, admitted⟩
  refine ⟨program, compiled, ?_⟩
  apply (execute_studied_iff compiled .none {} _ 0 _ (by rw [matched]; decide)).mpr
  rintro ⟨captures, start, stop, found, whole, _, ruledOut⟩
  rw [matched] at found
  injection found with found
  injection found with found
  rw [← found] at whole
  injection whole with whole
  injection whole with whole
  injection whole with sameStart _
  rw [← sameStart] at ruledOut
  exact admitted ruledOut

/-- The stray byte E9 stands for `é` and is matched by it, but `é` is two bytes long where it is
encoded, and one byte is too short for that. -/
theorem match_of_stray_byte_lost :
    ∃ program, Program.compile "é".toUTF8.toList { utf8 := true } = .ok program
      ∧ program.execute none {} #[0xE9] 0 { noUtf8Check := true } = .ok (.matched [some ⟨0, 1⟩])
      ∧ program.execute (some (.build program.pattern.options program.pattern.tree .none)) {}
          #[0xE9] 0 { noUtf8Check := true } = .ok .noMatch :=
  exists_compiled (by decide +kernel)

end PerlRegex
