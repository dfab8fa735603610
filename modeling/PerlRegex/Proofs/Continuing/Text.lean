import PerlRegex.Proofs.Lines
import PerlRegex.Proofs.Utf8.WellFormed
namespace PerlRegex

/-! What a text tells about its own positions when it goes on. In a well-formed text characters stay
what they are. Line ends do too, except where the text was cut between a CR and an LF. -/

section Text

variable {text more : Array UInt8} {position : Nat}

theorem getElem?_continued (inside : position < text.size) :
    (text ++ more)[position]? = text[position]? :=
  Array.getElem?_append_left inside

theorem size_lt_continued (goesOn : more ≠ #[]) : text.size < (text ++ more).size := by
  have positive := Array.size_pos_iff.mpr goesOn
  rw [Array.size_append]
  omega

/-! ## Characters -/

namespace Utf8

theorem isBoundary_continued (inside : position < text.size) :
    isBoundary (text ++ more) position = isBoundary text position := by
  rw [isBoundary, getElem?_continued inside]
  rfl

theorem decodeAt_continued (formed : WellFormed text.toList) (inside : position < text.size) :
    decodeAt (text ++ more) position = decodeAt text position := by
  cases boundary : isBoundary text position with
  | true =>
      rcases between_of_isBoundary formed (Nat.le_of_lt inside) boundary with
        ⟨front, back, same, length, _, backFormed⟩
      cases backFormed with
      | nil =>
          have whole := congrArg List.length same
          rw [List.append_nil, Array.length_toList] at whole
          omega
      | @cons codePoint lead tail rest encodes _ =>
          have sameLonger :
              (text ++ more).toList = front ++ lead :: (tail ++ (rest ++ more.toList)) := by
            rw [Array.toList_append, same]
            simp
          rw [← length, decodeAt_of_encodes encodes same, decodeAt_of_encodes encodes sameLonger]
  | false =>
      simp only [isBoundary, Bool.or_eq_false_iff, Bool.not_eq_false', Option.any_eq_true]
        at boundary
      rcases boundary.2 with ⟨byte, present, continues⟩
      have presentLonger : (text ++ more)[position]? = some byte :=
        (getElem?_continued inside).trans present
      rw [decodeAt_of_isContinuation present continues,
        decodeAt_of_isContinuation presentLonger continues]

theorem skipContinuationsBack_continued {budget : Nat} (inside : position < text.size) :
    skipContinuationsBack (text ++ more) budget position
      = skipContinuationsBack text budget position := by
  induction budget generalizing position with
  | zero => rfl
  | succ budget induction =>
      rw [skipContinuationsBack, skipContinuationsBack, getElem?_continued inside]
      split
      · exact induction (Nat.lt_of_le_of_lt (Nat.sub_le _ _) inside)
      · rfl

theorem decodeBefore_continued (formed : WellFormed text.toList) (inside : position ≤ text.size) :
    decodeBefore (text ++ more) position = decodeBefore text position := by
  rcases Nat.eq_zero_or_pos position with rfl | positive
  · rfl
  have last : position - 1 < text.size := by omega
  have start := Nat.lt_of_le_of_lt
    (le_of_skipContinuationsBack text (min 3 (position - 1)) (position - 1)) last
  rw [decodeBefore, decodeBefore, skipContinuationsBack_continued last]
  dsimp only
  rw [decodeAt_continued formed start, getElem?_continued last]

theorem nextBoundary_continued (text more : Array UInt8) (position : Nat) :
    nextBoundary (text ++ more) position = nextBoundary text position
      ∨ text.size ≤ nextBoundary (text ++ more) position
        ∧ text.size ≤ nextBoundary text position := by
  fun_induction nextBoundary text position with
  | case1 position continues induction =>
      have inside : position < text.size := by
        rcases (Option.any_eq_true _ _).mp continues with ⟨_, present, _⟩
        exact (Array.getElem?_eq_some_iff.mp present).1
      have continuesLonger : ((text ++ more)[position]?).any isContinuation = true := by
        rw [getElem?_continued inside]
        exact continues
      rw [nextBoundary, if_pos continuesLonger]
      exact induction
  | case2 position stops =>
      rcases Nat.lt_or_ge position text.size with inside | beyond
      · have stopsLonger : ¬ ((text ++ more)[position]?).any isContinuation = true := by
          rw [getElem?_continued inside]
          exact stops
        rw [nextBoundary, if_neg stopsLonger]
        exact .inl rfl
      · exact .inr ⟨Nat.le_trans beyond (le_nextBoundary _ _), beyond⟩

end Utf8

/-! ## Line ends -/

/-- The text ends with a CR at a position, and goes on with an LF. -/
def SplitsCrLf (text more : Array UInt8) (position : Nat) : Prop :=
  position + 1 = text.size ∧ text[position]? = some 0x0D ∧ more[0]? = some 0x0A

namespace LineRules

variable {rules : LineRules} (formed : rules.utf8 = true → Utf8.WellFormed text.toList)

theorem followedByLf_continued (inside : position < text.size)
    (whole : ¬ SplitsCrLf text more position) (cr : text[position]? = some 0x0D) :
    ((text ++ more)[position + 1]? == some 0x0A) = (text[position + 1]? == some 0x0A) := by
  rcases Nat.lt_or_ge (position + 1) text.size with within | beyond
  · rw [getElem?_continued within]
  · have last : position + 1 = text.size := by omega
    have notLf : more[0]? ≠ some 0x0A := fun lf => whole ⟨last, cr, lf⟩
    rw [last, Array.getElem?_append_right (Nat.le_refl _), Nat.sub_self,
      Array.getElem?_eq_none (Nat.le_refl text.size), beq_eq_false_iff_ne.mpr notLf]
    rfl

section Formed

include formed

theorem unicodeBreakAt_continued (inside : position < text.size) :
    rules.unicodeBreakAt? (text ++ more) position = rules.unicodeBreakAt? text position := by
  unfold unicodeBreakAt?
  split
  · rename_i utf8
    rw [Utf8.decodeAt_continued (formed utf8) inside]
  · rw [getElem?_continued inside]

theorem newlineAt_continued (inside : position < text.size)
    (whole : ¬ SplitsCrLf text more position) :
    rules.newlineAt? (text ++ more) position = rules.newlineAt? text position := by
  rw [newlineAt?, newlineAt?, getElem?_continued inside]
  cases present : text[position]? with
  | none => rfl
  | some byte =>
      dsimp only
      rw [unicodeBreakAt_continued formed inside]
      by_cases cr : byte = 0x0D
      · rw [followedByLf_continued inside whole (cr ▸ present)]
      · simp only [cr, decide_false, Bool.false_and, if_false, Bool.false_eq_true]

theorem newlineEndsAt_continued (inside : position < text.size) :
    rules.newlineEndsAt (text ++ more) position = rules.newlineEndsAt text position := by
  have before : ∀ distance, position - distance < text.size := fun distance =>
    Nat.lt_of_le_of_lt (Nat.sub_le _ _) inside
  rw [newlineEndsAt, newlineEndsAt, getElem?_continued inside, getElem?_continued (before 1),
    getElem?_continued (before 2)]
  simp only [unicodeBreakAt_continued formed (before _)]

theorem lineBreakAt_continued (inside : position < text.size)
    (whole : ¬ SplitsCrLf text more position) :
    rules.lineBreakAt? (text ++ more) position = rules.lineBreakAt? text position := by
  rw [lineBreakAt?, lineBreakAt?, getElem?_continued inside]
  cases present : text[position]? with
  | none => rfl
  | some byte =>
      dsimp only
      rw [unicodeBreakAt_continued formed inside]
      by_cases cr : byte = 0x0D
      · rw [followedByLf_continued inside whole (cr ▸ present)]
      · simp only [cr, if_false]

end Formed

/-! What a CR at the end is taken for, before and after an LF has come. -/

section Splits

variable (splits : SplitsCrLf text more position)
include splits

theorem getElem?_of_splits : (text ++ more)[position]? = some 0x0D
    ∧ (text ++ more)[position + 1]? = some 0x0A ∧ text[position + 1]? = none := by
  rcases splits with ⟨last, cr, lf⟩
  refine ⟨(getElem?_continued (by omega)).trans cr, ?_, ?_⟩
  · rw [last, Array.getElem?_append_right (Nat.le_refl _), Nat.sub_self, lf]
  · exact Array.getElem?_eq_none (Nat.le_of_eq last.symm)

/-- Where only both together end a line, the CR was none and becomes one. -/
theorem newlineAt_of_splits_crLf (convention : rules.newline = .crLf) :
    rules.newlineAt? text position = none ∧ rules.newlineAt? (text ++ more) position = some 2 := by
  rcases getElem?_of_splits splits with ⟨cr, lf, nothing⟩
  constructor
  · rw [newlineAt?, splits.2.1, nothing, convention]
    rfl
  · rw [newlineAt?, cr, lf, convention]
    rfl

theorem lineBreakAt_of_splits :
    rules.lineBreakAt? text position = some 1
      ∧ rules.lineBreakAt? (text ++ more) position = some 2 := by
  rcases getElem?_of_splits splits with ⟨cr, lf, nothing⟩
  constructor
  · rw [lineBreakAt?, splits.2.1, nothing]
    rfl
  · rw [lineBreakAt?, cr, lf]
    rfl

end Splits

include formed in
theorem isSome_newlineAt_continued (inside : position < text.size)
    (whole : ¬ (rules.newline = .crLf ∧ SplitsCrLf text more position)) :
    (rules.newlineAt? (text ++ more) position).isSome
      = (rules.newlineAt? text position).isSome := by
  by_cases splits : SplitsCrLf text more position
  · rcases getElem?_of_splits splits with ⟨cr, lf, nothing⟩
    rw [newlineAt?, newlineAt?, splits.2.1, cr, lf, nothing]
    cases convention : rules.newline with
    | crLf => exact absurd ⟨convention, splits⟩ whole
    | lf | cr | anyCrLf | any => rfl
  · rw [newlineAt_continued formed inside splits]

end LineRules

end Text

end PerlRegex
