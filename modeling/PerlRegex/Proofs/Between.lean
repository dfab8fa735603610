import PerlRegex.Proofs.Keeping
import PerlRegex.Proofs.Utf8.WellFormed
namespace PerlRegex

/-! In a well-formed subject searches keep to the positions between characters. Outside UTF-8 mode
every position is one. -/

namespace Machine.Attempt

/-- A position between two characters of the subject. -/
def Between (attempt : Attempt) (position : Nat) : Prop :=
  attempt.program.utf8 = true → Utf8.Between attempt.subject position

variable {attempt : Attempt} {position : Nat}

namespace Between

theorem characterAt (between : attempt.Between position) {character length : Nat}
    (found : attempt.characterAt position = some (character, length)) :
    attempt.Between (position + length) := by
  intro utf8
  have inside := length_of_characterAt found
  rw [Attempt.characterAt, if_pos utf8] at found
  rcases (between utf8).decodeAt (by omega) with ⟨_, _, _, _, _, decoded, next⟩
  rw [decoded] at found
  injection found with same
  injection same with _ same
  exact same ▸ next

theorem characterBefore (between : attempt.Between position) {character length : Nat}
    (found : attempt.characterBefore position = some (character, length)) :
    attempt.Between (position - length) := by
  intro utf8
  rw [Attempt.characterBefore, if_pos utf8] at found
  have positive := Utf8.length_of_decodeBefore found
  rcases (between utf8).decodeBefore (by omega) with ⟨_, _, decoded, previous⟩
  rw [decoded] at found
  injection found with same
  injection same with _ same
  exact same ▸ previous

theorem back (between : attempt.Between position) {count start : Nat}
    (reached : attempt.back position count = some start) : attempt.Between start := by
  induction count generalizing position with
  | zero =>
      injection reached with same
      exact same ▸ between
  | succ count induction =>
      rw [Attempt.back] at reached
      split at reached
      · cases reached
      · rename_i found
        exact induction (between.characterBefore found) reached

theorem lookFrom (between : attempt.Between position) {direction : LookDirection} {start : Nat}
    (room : attempt.lookFrom direction position = some start) : attempt.Between start := by
  cases direction with
  | ahead =>
      injection room with same
      exact same ▸ between
  | behind width => exact between.back room

theorem ascii (between : attempt.Between position) {byte : UInt8}
    (present : attempt.subject[position]? = some byte) (small : byte < 0x80) :
    attempt.Between (position + 1) := by
  have decoded : attempt.characterAt position = some (byte.toNat, 1) := by
    rw [Attempt.characterAt, Utf8.decodeAt, present]
    simp [small]
  exact between.characterAt decoded

theorem lineBreakAt (between : attempt.Between position)
    (lines : attempt.program.pattern.lineRules.utf8 = attempt.program.utf8) {length : Nat}
    (found : attempt.program.pattern.lineRules.lineBreakAt? attempt.subject position
      = some length) : attempt.Between (position + length) := by
  rcases LineRules.lineBreakAt_cases found with
    ⟨byte, present, ⟨_, small, rfl⟩ | ⟨rfl, followed, rfl⟩ | wide⟩
  · exact between.ascii present (UInt8.lt_of_le_of_lt small (by decide))
  · exact (between.ascii present (by decide)).ascii followed (by decide)
  · rcases LineRules.unicodeBreakAt_eq_some_iff.mp wide with
      ⟨utf8, codePoint, decoded, _⟩ | ⟨notUtf8, _⟩
    · have character : attempt.characterAt position = some (codePoint, length) := by
        rw [Attempt.characterAt, if_pos (lines ▸ utf8), decoded]
      exact between.characterAt character
    · intro utf8
      rw [lines, utf8] at notUtf8
      cases notUtf8

end Between

/-! ## References -/

theorem copied_of_repeatBytes {subject : Array UInt8} {count captured stop : Nat}
    (matched : repeatBytes subject count captured position = .matched stop) :
    ∀ index < count, subject[position + index]? = subject[captured + index]? := by
  induction count generalizing captured position with
  | zero =>
      intro index below
      omega
  | succ count induction =>
      intro index below
      rw [repeatBytes] at matched
      split at matched
      · cases matched
      · rename_i byte present
        split at matched
        · rename_i same
          cases index with
          | zero => rw [Nat.add_zero, Nat.add_zero, present, beq_iff_eq.mp same]
          | succ index =>
              have rest := induction matched index (by omega)
              rw [Nat.add_right_comm, Nat.add_right_comm captured] at rest
              exact rest
        · cases matched

theorem Between.repeatFolded (between : attempt.Between position) {limit budget captured stop : Nat}
    (matched : attempt.repeatFolded limit budget captured position = .matched stop) :
    attempt.Between stop := by
  induction budget generalizing captured position with
  | zero =>
      injection matched with same
      exact same ▸ between
  | succ budget induction =>
      rw [Attempt.repeatFolded] at matched
      split at matched
      · injection matched with same
        exact same ▸ between
      · split at matched
        · cases matched
        · cases matched
        · rename_i present
          split at matched
          · exact induction (between.characterAt present) matched
          · cases matched

theorem Between.repeats (between : attempt.Between position) {span : Span} {caseless : Bool}
    {stop : Nat} (startBetween : attempt.Between span.start)
    (stopBetween : attempt.Between span.stop)
    (matched : attempt.repeats span caseless position = .matched stop) :
    attempt.Between stop := by
  rw [Attempt.repeats] at matched
  split at matched
  · cases matched
  · rename_i ordered
    split at matched
    · exact between.repeatFolded matched
    · intro utf8
      rw [(stop_of_repeatBytes matched).1]
      simp only [Bool.or_eq_true, decide_eq_true_eq, not_or, Nat.not_lt] at ordered
      exact (between utf8).of_copy (startBetween utf8) (stopBetween utf8) ordered.1
        (copied_of_repeatBytes matched)

theorem keeps_between (lines : attempt.program.pattern.lineRules.utf8 = attempt.program.utf8) :
    attempt.Keeps attempt.Between where
  character := fun between found => between.characterAt found
  lineBreak := fun between found => between.lineBreakAt lines found
  look := fun between room => between.lookFrom room
  reference := fun between start stop matched => between.repeats start stop matched

end Machine.Attempt

end PerlRegex
