import PerlRegex.Proofs.Continuing.Agreement
import PerlRegex.Proofs.Continuing.Text
import PerlRegex.Proofs.Keeping
namespace PerlRegex

/-! What becomes of single tests when the subject goes on. A test either reports that the subject
ended, or comes out as before, unless it is blind: it looks at text behind the end of the subject
without a report. -/

namespace Machine.Attempt

/-- The attempt at the same start position on a subject that goes on, for a match in full. -/
def continued (attempt : Attempt) (more : Array UInt8) : Attempt :=
  { attempt with
    subject := attempt.subject ++ more
    options := { attempt.options with partialSoft := false, partialHard := false } }

variable {attempt : Attempt} {more : Array UInt8} {position : Nat}

theorem program_continued : (attempt.continued more).program = attempt.program := rfl

theorem subject_continued : (attempt.continued more).subject = attempt.subject ++ more := rfl

/-- The subject of an attempt goes on behind its end, which lies behind the start of the attempt. -/
structure GoesOn (attempt : Attempt) (more : Array UInt8) : Prop where
  more : more ≠ #[]
  started : attempt.start < attempt.subject.size
  lines : attempt.program.pattern.lineRules.utf8 = attempt.program.utf8
  formed : attempt.program.utf8 = true → Utf8.WellFormed attempt.subject.toList

namespace GoesOn

variable (goesOn : attempt.GoesOn more)
include goesOn

theorem linesFormed :
    attempt.program.pattern.lineRules.utf8 = true → Utf8.WellFormed attempt.subject.toList :=
  fun utf8 => goesOn.formed (goesOn.lines ▸ utf8)

theorem lt_size (inside : position ≤ attempt.subject.size) :
    position < (attempt.continued more).subject.size :=
  Nat.lt_of_le_of_lt inside (size_lt_continued goesOn.more)

theorem searchEnd_size : attempt.searchEnd attempt.subject.size = [.ended] := by
  rw [searchEnd, if_neg (Nat.not_le_of_lt goesOn.started)]

/-! ## Characters -/

theorem characterAt (inside : position < attempt.subject.size) :
    (attempt.continued more).characterAt position = attempt.characterAt position := by
  unfold Attempt.characterAt
  rw [program_continued, subject_continued]
  split
  · rename_i utf8
    exact Utf8.decodeAt_continued (goesOn.formed utf8) inside
  · rw [getElem?_continued inside]

theorem characterBefore (inside : position ≤ attempt.subject.size) :
    (attempt.continued more).characterBefore position = attempt.characterBefore position := by
  unfold Attempt.characterBefore
  rw [program_continued, subject_continued]
  split
  · rename_i utf8
    exact Utf8.decodeBefore_continued (goesOn.formed utf8) inside
  · split
    · rfl
    · have last : position - 1 < attempt.subject.size := by omega
      rw [getElem?_continued last]

theorem back {count : Nat} (inside : position ≤ attempt.subject.size) :
    (attempt.continued more).back position count = attempt.back position count := by
  induction count generalizing position with
  | zero => rfl
  | succ count induction =>
      rw [Attempt.back, Attempt.back, goesOn.characterBefore inside]
      split
      · rfl
      · exact induction (Nat.le_trans (Nat.sub_le _ _) inside)

theorem lookFrom {direction : LookDirection} (inside : position ≤ attempt.subject.size) :
    (attempt.continued more).lookFrom direction position
      = attempt.lookFrom direction position := by
  cases direction with
  | ahead => rfl
  | behind width => exact goesOn.back inside

theorem searchCharacter {accepts : Nat → Bool} {path : Path}
    (inside : path.position < attempt.subject.size) :
    (attempt.continued more).searchCharacter accepts path
      = attempt.searchCharacter accepts path := by
  rw [Attempt.searchCharacter]
  rw [goesOn.characterAt inside]
  rfl

theorem agrees_searchCharacter {accepts : Nat → Bool} {path : Path}
    (inside : path.position ≤ attempt.subject.size) :
    Search.Agrees (attempt.searchCharacter accepts path)
      ((attempt.continued more).searchCharacter accepts path) := by
  rcases Nat.lt_or_eq_of_le inside with before | last
  · rw [goesOn.searchCharacter before]
    exact .refl _
  · have nothing := characterAt_eq_none_iff.mpr (Nat.le_of_eq last.symm)
    rw [Attempt.searchCharacter, nothing]
    dsimp only
    rw [last, goesOn.searchEnd_size]
    exact .ended _ _

/-! ## References

A reference to text of the subject finds it again or not as before, unless the subject ended while
the text still agreed. -/

omit goesOn in
theorem repeatBytes {count captured : Nat} (inside : position ≤ attempt.subject.size)
    (within : captured + count ≤ attempt.subject.size) :
    Attempt.repeatBytes attempt.subject count captured position = .ranOut
      ∨ Attempt.repeatBytes (attempt.subject ++ more) count captured position
        = Attempt.repeatBytes attempt.subject count captured position := by
  induction count generalizing captured position with
  | zero => exact .inr rfl
  | succ count induction =>
      rw [Attempt.repeatBytes, Attempt.repeatBytes]
      rcases Nat.lt_or_eq_of_le inside with before | last
      · have capturedBefore : captured < attempt.subject.size := by omega
        rw [getElem?_continued before, getElem?_continued capturedBefore]
        split
        · exact .inr rfl
        · split
          · exact induction before (by omega)
          · exact .inr rfl
      · rw [Array.getElem?_eq_none (Nat.le_of_eq last.symm)]
        exact .inl rfl

theorem repeatFolded {stop budget captured : Nat} (inside : position ≤ attempt.subject.size)
    (within : stop ≤ attempt.subject.size) :
    attempt.repeatFolded stop budget captured position = .ranOut
      ∨ (attempt.continued more).repeatFolded stop budget captured position
        = attempt.repeatFolded stop budget captured position := by
  induction budget generalizing captured position with
  | zero => exact .inr rfl
  | succ budget induction =>
      rw [Attempt.repeatFolded, Attempt.repeatFolded, program_continued]
      by_cases done : stop ≤ captured
      · rw [if_pos done, if_pos done]
        exact .inr rfl
      rw [if_neg done, if_neg done]
      have capturedBefore : captured < attempt.subject.size := by omega
      rcases Nat.lt_or_eq_of_le inside with before | last
      · rw [goesOn.characterAt capturedBefore, goesOn.characterAt before]
        split
        · exact .inr rfl
        · exact .inr rfl
        · rename_i present
          split
          · exact induction (length_of_characterAt present).2
          · exact .inr rfl
      · left
        have nothing := characterAt_eq_none_iff.mpr (Nat.le_of_eq last.symm)
        cases expected : attempt.characterAt captured with
        | none =>
            exact absurd (characterAt_eq_none_iff.mp expected) (Nat.not_le_of_lt capturedBefore)
        | some pair => rw [nothing]

theorem repeats {span : Span} {caseless : Bool} (inside : position ≤ attempt.subject.size)
    (within : span.stop ≤ attempt.subject.size) :
    attempt.repeats span caseless position = .ranOut
      ∨ (attempt.continued more).repeats span caseless position
        = attempt.repeats span caseless position := by
  have room : ¬ attempt.subject.size < span.stop := Nat.not_lt_of_le within
  have longerRoom : ¬ (attempt.continued more).subject.size < span.stop :=
    Nat.not_lt_of_lt (goesOn.lt_size within)
  unfold Attempt.repeats
  rw [decide_eq_false room, decide_eq_false longerRoom]
  split
  · exact .inr rfl
  · rename_i ordered
    simp only [Bool.or_false, decide_eq_true_eq, Nat.not_lt] at ordered
    split
    · exact goesOn.repeatFolded inside within
    · exact repeatBytes inside (by omega)

theorem agrees_searchReference {groups : List Nat} {caseless : Bool} {path : Path}
    (inside : path.All (· ≤ attempt.subject.size)) :
    Search.Agrees (attempt.searchReference groups caseless path)
      ((attempt.continued more).searchReference groups caseless path) := by
  unfold searchReference
  cases found : groups.findSome? fun group => path.captures[group]?.join with
  | none => exact .refl _
  | some span =>
      rcases List.exists_of_findSome?_eq_some found with ⟨group, _, captured⟩
      have member : some span ∈ path.captures :=
        List.mem_of_getElem? (Option.join_eq_some_iff.mp captured)
      dsimp only
      rcases goesOn.repeats inside.position (inside.stop span member) with ranOut | same
      · rw [ranOut, goesOn.searchEnd_size]
        exact .ended _ _
      · rw [same]
        cases attempt.repeats span caseless path.position with
        | matched stop => exact .refl _
        | differs => exact .refl _
        | ranOut =>
            rw [goesOn.searchEnd_size]
            exact .ended _ _

end GoesOn

/-! ## Newlines -/

theorem not_splits_of_eq_size (last : position = attempt.subject.size) :
    ¬ SplitsCrLf attempt.subject more position := by
  rintro ⟨behind, _⟩
  omega

namespace GoesOn

variable (goesOn : attempt.GoesOn more) {path : Path}
  (inside : path.position ≤ attempt.subject.size)
include goesOn inside

/-- A CR at the end of the subject is a character of its own, and no longer one when an LF comes and
only both together are a newline. -/
theorem agrees_searchNotNewline_iff :
    Search.Agrees (attempt.searchNotNewline path) ((attempt.continued more).searchNotNewline path)
      ↔ ¬ (attempt.program.pattern.lineRules.newline = .crLf
        ∧ SplitsCrLf attempt.subject more path.position) := by
  unfold searchNotNewline
  rw [program_continued, subject_continued]
  rcases Nat.lt_or_eq_of_le inside with before | last
  · by_cases cut : attempt.program.pattern.lineRules.newline = .crLf
        ∧ SplitsCrLf attempt.subject more path.position
    · refine iff_of_false ?_ (not_not_intro cut)
      rcases LineRules.newlineAt_of_splits_crLf cut.2 cut.1 with ⟨nothing, newline⟩
      rw [nothing, newline, Option.isSome_none, Option.isSome_some, if_pos rfl,
        if_neg Bool.false_ne_true, Attempt.searchCharacter]
      cases present : attempt.characterAt path.position with
      | none => exact absurd (characterAt_eq_none_iff.mp present) (Nat.not_le_of_lt before)
      | some pair =>
          intro agrees
          cases agrees
    · rw [LineRules.isSome_newlineAt_continued goesOn.linesFormed before cut,
        goesOn.searchCharacter before]
      exact iff_of_true (.refl _) cut
  · have nothing : attempt.program.pattern.lineRules.newlineAt? attempt.subject path.position
        = none := by
      rw [LineRules.newlineAt?, Array.getElem?_eq_none (Nat.le_of_eq last.symm)]
    have ended := characterAt_eq_none_iff.mpr (Nat.le_of_eq last.symm)
    rw [nothing, Option.isSome_none, if_neg Bool.false_ne_true, Attempt.searchCharacter, ended]
    dsimp only
    rw [last, goesOn.searchEnd_size]
    exact iff_of_true (.ended _ _) fun cut => not_splits_of_eq_size rfl cut.2

theorem agrees_searchLineBreak_iff :
    Search.Agrees (attempt.searchLineBreak path) ((attempt.continued more).searchLineBreak path)
      ↔ ¬ SplitsCrLf attempt.subject more path.position := by
  have longer := goesOn.lt_size inside
  unfold searchLineBreak
  rw [program_continued]
  rw [subject_continued] at longer ⊢
  rcases Nat.lt_or_eq_of_le inside with before | last
  · by_cases splits : SplitsCrLf attempt.subject more path.position
    · refine iff_of_false ?_ (not_not_intro splits)
      rcases @LineRules.lineBreakAt_of_splits _ _ _ attempt.program.pattern.lineRules splits with
        ⟨one, two⟩
      rw [one, two]
      intro agrees
      have same := congrArg Path.position agrees.path_eq
      dsimp only at same
      omega
    · rw [LineRules.lineBreakAt_continued goesOn.linesFormed before splits]
      cases attempt.program.pattern.lineRules.lineBreakAt? attempt.subject path.position with
      | some length => exact iff_of_true (.refl _) splits
      | none =>
          dsimp only
          rw [if_neg (Nat.not_le_of_lt before), if_neg (Nat.not_le_of_lt longer)]
          exact iff_of_true (.refl _) splits
  · have nothing : attempt.program.pattern.lineRules.lineBreakAt? attempt.subject path.position
        = none := by
      rw [LineRules.lineBreakAt?, Array.getElem?_eq_none (Nat.le_of_eq last.symm)]
    rw [nothing]
    dsimp only
    rw [if_pos (Nat.le_of_eq last.symm), last, goesOn.searchEnd_size]
    exact iff_of_true (.ended _ _) (not_splits_of_eq_size rfl)

end GoesOn

/-! ## Conditions -/

/-- Whether a condition is blind at a position: the text behind the end of the subject decides about
it, and no attempt reports that. -/
def BlindTo (attempt : Attempt) (more : Array UInt8) (position : Nat) : Assertion → Prop
  | .endOfTextOrFinalNewline =>
      position < attempt.subject.size
        ∧ attempt.atFinalNewline position ≠ (attempt.continued more).atFinalNewline position
  | .lineStart multiline =>
      multiline = true ∧ position = attempt.subject.size
        ∧ attempt.program.pattern.lineRules.newlineEndsAt (attempt.subject ++ more) position = true
  | .lineEnd true _ =>
      attempt.program.pattern.lineRules.newline = .crLf ∧ SplitsCrLf attempt.subject more position
        ∨ attempt.options.notEol = true ∧ position = attempt.subject.size
          ∧ (attempt.program.pattern.lineRules.newlineAt? (attempt.subject ++ more) position).isSome
            = true
  | .lineEnd false endOnly =>
      endOnly = false ∧ attempt.options.notEol = false ∧ position < attempt.subject.size
        ∧ attempt.atFinalNewline position ≠ (attempt.continued more).atFinalNewline position
  | .startOfText | .endOfText | .startOffset | .wordBoundary _ => False

namespace GoesOn

variable (goesOn : attempt.GoesOn more) (inside : position ≤ attempt.subject.size)
include goesOn inside

theorem agrees_searchCondition_iff {condition : Assertion} {path : Path}
    (here : path.position = position) :
    Search.Agrees (attempt.searchCondition condition path)
        ((attempt.continued more).searchCondition condition path)
      ↔ (position = attempt.subject.size ∧ attempt.looksPastEnd condition = true)
        ∨ attempt.holds position condition = (attempt.continued more).holds position condition := by
  have before := Nat.ne_of_lt (goesOn.lt_size inside)
  unfold searchCondition
  rw [here, decide_eq_false before, Bool.false_and, if_neg Bool.false_ne_true, List.nil_append]
  by_cases reported : position = attempt.subject.size ∧ attempt.looksPastEnd condition = true
  · rw [decide_eq_true reported.1, reported.2, reported.1, goesOn.searchEnd_size]
    exact iff_of_true (.ended _ _) (.inl ⟨rfl, rfl⟩)
  · have silent : (position = attempt.subject.size && attempt.looksPastEnd condition) = false := by
      rw [Bool.eq_false_iff, ne_eq, Bool.and_eq_true, decide_eq_true_eq]
      exact reported
    rw [silent, if_neg Bool.false_ne_true, List.nil_append, Search.Agrees.if_found_iff,
      or_iff_right reported]

theorem not_atEnd : (position == (attempt.continued more).subject.size) = false :=
  beq_eq_false_iff_ne.mpr (Nat.ne_of_lt (goesOn.lt_size inside))

theorem holds_wordBoundary {negated : Bool} (before : position < attempt.subject.size) :
    attempt.holds position (.wordBoundary negated)
      = (attempt.continued more).holds position (.wordBoundary negated) := by
  rw [holds, holds, goesOn.characterAt before, goesOn.characterBefore inside]
  rfl

theorem holds_lineStart_iff {multiline : Bool} :
    attempt.holds position (.lineStart multiline)
        = (attempt.continued more).holds position (.lineStart multiline)
      ↔ ¬ attempt.BlindTo more position (.lineStart multiline) := by
  have started := goesOn.started
  have within := goesOn.lt_size inside
  rw [holds, holds, BlindTo]
  by_cases first : position = 0
  · rw [if_pos first, if_pos first]
    exact iff_of_true rfl fun blind => by omega
  rw [if_neg first, if_neg first, decide_eq_true within, Bool.and_true]
  have sameRules : (attempt.continued more).program.pattern.lineRules
      = attempt.program.pattern.lineRules := rfl
  rw [sameRules, subject_continued]
  rcases Nat.lt_or_eq_of_le inside with before | last
  · rw [decide_eq_true before, Bool.and_true,
      LineRules.newlineEndsAt_continued goesOn.linesFormed before]
    exact iff_of_true rfl fun blind => Nat.ne_of_lt before blind.2.1
  · rw [decide_eq_false (Nat.not_lt_of_le (Nat.le_of_eq last.symm)), Bool.and_false,
      Bool.false_and, eq_comm, Bool.and_eq_false_imp]
    simp [last]

theorem holds_lineEnd_iff {endOnly : Bool} :
    (position = attempt.subject.size ∧ attempt.looksPastEnd (.lineEnd true endOnly) = true)
        ∨ attempt.holds position (.lineEnd true endOnly)
          = (attempt.continued more).holds position (.lineEnd true endOnly)
      ↔ ¬ attempt.BlindTo more position (.lineEnd true endOnly) := by
  have longer := Nat.ne_of_lt (goesOn.lt_size inside)
  rw [holds, holds, looksPastEnd, BlindTo, if_neg longer, program_continued, subject_continued]
  rcases Nat.lt_or_eq_of_le inside with before | last
  · have notLast := Nat.ne_of_lt before
    rw [if_neg notLast]
    by_cases cut : attempt.program.pattern.lineRules.newline = .crLf
        ∧ SplitsCrLf attempt.subject more position
    · rcases LineRules.newlineAt_of_splits_crLf cut.2 cut.1 with ⟨nothing, newline⟩
      rw [nothing, newline]
      simp [notLast, cut]
    · rw [LineRules.isSome_newlineAt_continued goesOn.linesFormed before cut]
      simp [notLast, cut]
  · have whole : ¬ SplitsCrLf attempt.subject more attempt.subject.size :=
      not_splits_of_eq_size rfl
    rw [if_pos last]
    cases attempt.options.notEol <;> simp [last, whole]

theorem not_blindTo_iff {condition : Assertion} :
    (position = attempt.subject.size ∧ attempt.looksPastEnd condition = true)
        ∨ attempt.holds position condition = (attempt.continued more).holds position condition
      ↔ ¬ attempt.BlindTo more position condition := by
  have notAtEnd := goesOn.not_atEnd inside
  cases condition with
  | startOfText | startOffset => exact iff_of_true (.inr rfl) not_false
  | endOfText =>
      refine iff_of_true ?_ not_false
      rcases Nat.lt_or_eq_of_le inside with before | last
      · rw [holds, holds, notAtEnd, beq_eq_false_iff_ne.mpr (Nat.ne_of_lt before)]
        exact .inr rfl
      · exact .inl ⟨last, rfl⟩
  | wordBoundary negated =>
      refine iff_of_true ?_ not_false
      rcases Nat.lt_or_eq_of_le inside with before | last
      · exact .inr (goesOn.holds_wordBoundary inside before)
      · exact .inl ⟨last, rfl⟩
  | endOfTextOrFinalNewline =>
      rcases Nat.lt_or_eq_of_le inside with before | last
      · rw [holds, holds, notAtEnd, beq_eq_false_iff_ne.mpr (Nat.ne_of_lt before), Bool.false_or,
          Bool.false_or, BlindTo]
        simp [before, Nat.ne_of_lt before]
      · exact iff_of_true (.inl ⟨last, rfl⟩) fun blind => Nat.ne_of_lt blind.1 last
  | lineStart multiline =>
      rw [← goesOn.holds_lineStart_iff inside]
      exact or_iff_right fun reported => Bool.false_ne_true reported.2
  | lineEnd multiline endOnly =>
      cases multiline with
      | true => exact goesOn.holds_lineEnd_iff inside
      | false =>
          rcases Nat.lt_or_eq_of_le inside with before | last
          · rw [holds, holds, notAtEnd, beq_eq_false_iff_ne.mpr (Nat.ne_of_lt before),
              Bool.false_or, Bool.false_or, BlindTo]
            have sameOption : (attempt.continued more).options.notEol = attempt.options.notEol :=
              rfl
            rw [sameOption]
            cases endOnly <;> cases attempt.options.notEol <;>
              simp [before, Nat.ne_of_lt before]
          · refine iff_of_true ?_ fun blind => Nat.ne_of_lt blind.2.2.1 last
            cases silent : attempt.options.notEol with
            | true => exact .inr (by simp [holds, silent, continued])
            | false => exact .inl ⟨last, by simp [looksPastEnd, silent]⟩

end GoesOn

end Machine.Attempt

end PerlRegex
