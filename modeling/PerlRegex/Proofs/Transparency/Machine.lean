import PerlRegex.Proofs.Machine.Instructions
import PerlRegex.Proofs.Machine.Simulation
import PerlRegex.Proofs.Transparency.Programs

/-! The machine in UTF-8 mode, on a subject of ASCII characters. It takes the very steps that it
takes outside of the mode, so that runs agree in the budget that they use as well. -/

namespace PerlRegex.Machine

namespace Attempt

def inUtf8 (attempt : Attempt) : Attempt := { attempt with program := attempt.program.inUtf8 }

variable {attempt : Attempt} (ascii : Utf8.AllAscii attempt.subject.toList)
include ascii

/-! ## What is found at a position -/

theorem characterAt_of_allAscii (position : Nat) :
    attempt.characterAt position = attempt.subject[position]?.map fun byte => (byte.toNat, 1) := by
  rw [characterAt, Utf8.decodeAt_of_allAscii ascii, ite_self]

theorem characterBefore_of_allAscii (position : Nat) :
    attempt.characterBefore position =
      if position = 0 then none
      else attempt.subject[position - 1]?.map fun byte => (byte.toNat, 1) := by
  rw [characterBefore, Utf8.decodeBefore_of_allAscii ascii, ite_self]

theorem ascii_of_characterAt {position character length : Nat}
    (found : attempt.characterAt position = some (character, length)) : character < 0x80 := by
  rw [characterAt_of_allAscii ascii] at found
  rcases Option.map_eq_some_iff.mp found with ⟨byte, present, same⟩
  injection same with same
  exact same ▸ UInt8.lt_iff_toNat_lt.mp (Utf8.lt_of_allAscii ascii present)

theorem characterAt_inUtf8 (position : Nat) :
    attempt.inUtf8.characterAt position = attempt.characterAt position :=
  (@characterAt_of_allAscii attempt.inUtf8 ascii position).trans
    (characterAt_of_allAscii ascii position).symm

theorem characterBefore_inUtf8 (position : Nat) :
    attempt.inUtf8.characterBefore position = attempt.characterBefore position :=
  (@characterBefore_of_allAscii attempt.inUtf8 ascii position).trans
    (characterBefore_of_allAscii ascii position).symm

theorem back_inUtf8 (position count : Nat) :
    attempt.inUtf8.back position count = attempt.back position count := by
  induction count generalizing position with
  | zero => rfl
  | succ count induction => simp only [back, characterBefore_inUtf8 ascii, induction]

theorem newlineAt_inUtf8 (position : Nat) :
    attempt.inUtf8.program.pattern.lineRules.newlineAt? attempt.inUtf8.subject position =
      attempt.program.pattern.lineRules.newlineAt? attempt.subject position :=
  LineRules.newlineAt_inUtf8 ascii _ position

theorem holds_inUtf8 (position : Nat) (condition : Assertion) :
    attempt.inUtf8.holds position condition = attempt.holds position condition := by
  have final : attempt.inUtf8.atFinalNewline position = attempt.atFinalNewline position := by
    rw [atFinalNewline, atFinalNewline, newlineAt_inUtf8 ascii]
    rfl
  have lineStart := LineRules.newlineEndsAt_inUtf8 ascii attempt.program.pattern.lineRules position
  cases condition with
  | startOfText | endOfText | startOffset => rfl
  | endOfTextOrFinalNewline =>
      rw [holds, holds, final]
      rfl
  | lineStart multiline =>
      rw [holds, holds, ← lineStart]
      rfl
  | lineEnd multiline endOnly =>
      cases multiline with
      | true =>
          rw [holds, holds, newlineAt_inUtf8 ascii]
          rfl
      | false =>
          rw [holds, holds, final]
          rfl
  | wordBoundary negated =>
      rw [holds, holds, characterAt_inUtf8 ascii, characterBefore_inUtf8 ascii]
      rfl

theorem repeatFolded_inUtf8 (stop budget captured position : Nat) :
    attempt.inUtf8.repeatFolded stop budget captured position =
      attempt.repeatFolded stop budget captured position := by
  induction budget generalizing captured position with
  | zero => rfl
  | succ budget induction =>
      rw [repeatFolded, repeatFolded, characterAt_inUtf8 ascii, characterAt_inUtf8 ascii]
      split
      · rfl
      · cases expected : attempt.characterAt captured with
        | none => rfl
        | some first =>
            cases found : attempt.characterAt position with
            | none => rfl
            | some second =>
                have firstAscii := ascii_of_characterAt ascii expected
                have secondAscii := ascii_of_characterAt ascii found
                simp only [CaseFolding.fold_of_ascii firstAscii,
                  CaseFolding.fold_of_ascii secondAscii, induction]

theorem repeats_inUtf8 (span : Span) (caseless : Bool) (position : Nat) :
    attempt.inUtf8.repeats span caseless position = attempt.repeats span caseless position := by
  rw [repeats, repeats, repeatFolded_inUtf8 ascii]
  rfl

/-! ## Steps -/

theorem consume_inUtf8 (state : State) {accepts wideAccepts : Nat → Bool}
    (agree : ∀ character < 0x80, wideAccepts character = accepts character) :
    attempt.inUtf8.consume state wideAccepts = attempt.consume state accepts := by
  rw [consume, consume, characterAt_inUtf8 ascii]
  cases found : attempt.characterAt state.position with
  | none => rfl
  | some pair =>
      have small := ascii_of_characterAt ascii found
      simp only [agree pair.1 small]

theorem test_inUtf8 (state : State) (condition : Assertion) :
    attempt.inUtf8.test state condition = attempt.test state condition := by
  simp only [test, holds_inUtf8 ascii]
  rfl

theorem execute_inUtf8 (state : State) (instruction : Instruction) :
    attempt.inUtf8.execute state instruction = attempt.execute state instruction := by
  cases instruction with
  | character | oneOf | anyCharacter | charSet => exact consume_inUtf8 ascii state fun _ _ => rfl
  | notNewline =>
      have sameTaking : attempt.inUtf8.consume state (fun _ => true) = _ :=
        consume_inUtf8 ascii state fun _ _ => rfl
      rw [execute, execute, newlineAt_inUtf8 ascii, sameTaking]
  | lineBreak =>
      have sameBreak := LineRules.lineBreakAt_inUtf8 ascii attempt.program.pattern.lineRules
        state.position
      rw [execute, execute, takeLineBreak, takeLineBreak, ← sameBreak]
      rfl
  | assertion condition => exact test_inUtf8 ascii state condition
  | backreference groups caseless =>
      simp only [execute, matchReference, repeats_inUtf8 ascii]
      rfl
  | look direction negated next =>
      simp only [execute, look, back_inUtf8 ascii]
  | _ => rfl

theorem step_inUtf8 (transparent : attempt.program.Transparent) (state : State) :
    attempt.inUtf8.step state = attempt.step state := by
  rcases transparent.fetch state.address with
    ⟨missing, wideMissing⟩ | ⟨_, _, fetched, wideFetched, alike⟩
  · rw [step_of_none missing, @step_of_none attempt.inUtf8 state wideMissing]
  · rw [step_of_some fetched, @step_of_some attempt.inUtf8 state _ wideFetched]
    cases alike with
    | same => exact execute_inUtf8 ascii state _
    | literal small caseless =>
        rw [execute_literalInstruction, execute_literalInstruction]
        exact consume_inUtf8 ascii state fun character ascii =>
          Node.literalAccepts_of_ascii small ascii caseless

end Attempt

theorem run_inUtf8 {attempt : Attempt} (ascii : Utf8.AllAscii attempt.subject.toList)
    (transparent : attempt.program.Transparent) (state : State) (budget : Nat) :
    run attempt.inUtf8 state budget = run attempt state budget := by
  induction budget generalizing state with
  | zero => rfl
  | succ budget induction =>
      rw [run, run, Attempt.step_inUtf8 ascii transparent]
      cases attempt.step state with
      | next following => exact induction following
      | halt verdict final => rfl

end PerlRegex.Machine
