import PerlRegex.Machine.Probe
namespace PerlRegex

/-! Decoding takes at least one byte, and never more than there are. -/

namespace Utf8

theorem announcedLength_pos (lead : UInt8) : 1 ≤ announcedLength lead := by
  rw [announcedLength]
  repeat' split
  all_goals omega

theorem length_of_decode {bytes : List UInt8} {codePoint length : Nat}
    (decoded : decode bytes = some (codePoint, length)) :
    1 ≤ length ∧ length ≤ bytes.length := by
  cases bytes with
  | nil => simp [decode] at decoded
  | cons lead rest =>
      simp only [decode] at decoded
      split at decoded
      · simp only [Option.some.injEq, Prod.mk.injEq] at decoded
        simp [← decoded.2]
      · rename_i complete
        simp only [Option.some.injEq, Prod.mk.injEq] at decoded
        have positive := announcedLength_pos lead
        simp at complete
        simp only [List.length_cons]
        omega

theorem length_of_decodeAt {text : Array UInt8} {position codePoint length : Nat}
    (decoded : decodeAt text position = some (codePoint, length)) :
    1 ≤ length ∧ position + length ≤ text.size := by
  simp only [decodeAt] at decoded
  split at decoded
  · simp at decoded
  · rename_i lead found
    have inside : position < text.size := (Array.getElem?_eq_some_iff.mp found).1
    split at decoded
    · simp only [Option.some.injEq, Prod.mk.injEq] at decoded
      omega
    · have bounds := length_of_decode decoded
      simp only [Array.length_toList, Array.size_extract] at bounds
      omega

theorem decodeAt_eq_none_iff {text : Array UInt8} {position : Nat} :
    decodeAt text position = none ↔ text.size ≤ position := by
  constructor
  · intro missing
    apply Nat.le_of_not_lt
    intro inside
    simp only [decodeAt, Array.getElem?_eq_getElem inside] at missing
    split at missing
    · simp at missing
    · have nonempty : (text.extract position (position + 4)).toList ≠ [] := by
        simp only [ne_eq, Array.toList_eq_nil_iff, Array.extract_eq_empty_iff]
        omega
      rcases List.exists_cons_of_ne_nil nonempty with ⟨lead, rest, shape⟩
      rw [shape] at missing
      simp only [decode] at missing
      split at missing <;> simp at missing
  · intro beyond
    simp [decodeAt, Array.getElem?_eq_none beyond]

theorem le_of_skipContinuationsBack (text : Array UInt8) (budget position : Nat) :
    skipContinuationsBack text budget position ≤ position := by
  induction budget generalizing position with
  | zero => exact Nat.le_refl _
  | succ budget induction =>
      rw [skipContinuationsBack]
      split
      · exact Nat.le_trans (induction _) (Nat.sub_le _ _)
      · exact Nat.le_refl _

theorem length_of_decodeBefore {text : Array UInt8} {position codePoint length : Nat}
    (decoded : decodeBefore text position = some (codePoint, length)) :
    1 ≤ length ∧ length ≤ position := by
  simp only [decodeBefore] at decoded
  split at decoded
  · simp at decoded
  · rename_i positive
    split at decoded
    · rename_i found
      have bounds := length_of_decodeAt found
      split at decoded
      · simp only [Option.some.injEq, Prod.mk.injEq] at decoded
        omega
      · rcases Option.map_eq_some_iff.mp decoded with ⟨byte, _, same⟩
        simp only [Prod.mk.injEq] at same
        omega
    · simp at decoded

end Utf8

namespace Machine.Attempt

theorem length_of_characterAt {attempt : Attempt} {position character length : Nat}
    (found : attempt.characterAt position = some (character, length)) :
    1 ≤ length ∧ position + length ≤ attempt.subject.size := by
  rw [characterAt] at found
  split at found
  · exact Utf8.length_of_decodeAt found
  · rcases Option.map_eq_some_iff.mp found with ⟨byte, present, same⟩
    have inside := (Array.getElem?_eq_some_iff.mp present).1
    simp only [Prod.mk.injEq] at same
    omega

theorem characterAt_eq_none_iff {attempt : Attempt} {position : Nat} :
    attempt.characterAt position = none ↔ attempt.subject.size ≤ position := by
  rw [characterAt]
  split
  · exact Utf8.decodeAt_eq_none_iff
  · simp

end Machine.Attempt

end PerlRegex
