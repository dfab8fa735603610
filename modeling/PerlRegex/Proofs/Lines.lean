import PerlRegex.Lines
import PerlRegex.Proofs.Utf8.Decoding
namespace PerlRegex.LineRules

/-! What ends a line takes text that is there: one of four ASCII characters, a CR with the LF behind
it, or one of three characters beyond ASCII. -/

variable {rules : LineRules} {text : Array UInt8} {position length : Nat}

theorem unicodeBreakAt_eq_some_iff :
    rules.unicodeBreakAt? text position = some length ↔
      (rules.utf8 = true ∧ ∃ codePoint, Utf8.decodeAt text position = some (codePoint, length)
        ∧ [0x85, 0x2028, 0x2029].contains codePoint = true ∧ 1 < length)
      ∨ (rules.utf8 = false ∧ text[position]? = some 0x85 ∧ length = 1) := by
  rw [unicodeBreakAt?]
  by_cases utf8 : rules.utf8 = true
  · rw [if_pos utf8]
    constructor
    · intro found
      split at found
      · rename_i codePoint taken decoded
        split at found
        · rename_i accepted
          rw [Bool.and_eq_true, decide_eq_true_eq] at accepted
          injection found with same
          rw [← same]
          exact .inl ⟨utf8, codePoint, decoded, accepted⟩
        · cases found
      · cases found
    · rintro (⟨_, codePoint, decoded, listed, wide⟩ | ⟨notUtf8, _⟩)
      · rw [decoded]
        dsimp only
        rw [if_pos (by rw [listed, decide_eq_true wide]; rfl)]
      · rw [notUtf8] at utf8
        cases utf8
  · rw [if_neg utf8]
    have notUtf8 : rules.utf8 = false := Bool.eq_false_iff.mpr utf8
    constructor
    · intro found
      split at found
      · rename_i nel
        injection found with same
        exact .inr ⟨notUtf8, beq_iff_eq.mp nel, same.symm⟩
      · cases found
    · rintro (⟨impossible, _⟩ | ⟨_, nel, rfl⟩)
      · exact absurd impossible utf8
      · rw [if_pos (beq_iff_eq.mpr nel)]

theorem unicodeBreakAt_length (found : rules.unicodeBreakAt? text position = some length) :
    1 ≤ length ∧ position + length ≤ text.size := by
  rcases unicodeBreakAt_eq_some_iff.mp found with ⟨_, _, decoded, _⟩ | ⟨_, present, rfl⟩
  · exact Utf8.length_of_decodeAt decoded
  · exact ⟨Nat.le_refl _, (Array.getElem?_eq_some_iff.mp present).1⟩

theorem lineBreakAt_cases (found : rules.lineBreakAt? text position = some length) :
    ∃ byte, text[position]? = some byte
      ∧ (0x0A ≤ byte ∧ byte ≤ 0x0D ∧ length = 1
        ∨ byte = 0x0D ∧ text[position + 1]? = some 0x0A ∧ length = 2
        ∨ rules.unicodeBreakAt? text position = some length) := by
  rw [lineBreakAt?] at found
  split at found
  · cases found
  · rename_i byte present
    refine ⟨byte, present, ?_⟩
    split at found
    · rename_i cr
      split at found
      · rename_i followed
        injection found with same
        exact .inr (.inl ⟨cr, beq_iff_eq.mp followed, same.symm⟩)
      · injection found with same
        exact .inl ⟨by rw [cr]; decide, by rw [cr]; decide, same.symm⟩
    · split at found
      · rename_i lf
        injection found with same
        exact .inl ⟨by rw [lf]; decide, by rw [lf]; decide, same.symm⟩
      · split at found
        · cases found
        · split at found
          · rename_i ascii
            injection found with same
            rw [Bool.or_eq_true, decide_eq_true_eq, decide_eq_true_eq] at ascii
            rcases ascii with same' | same' <;> rw [same'] <;>
              exact .inl ⟨by decide, by decide, same.symm⟩
          · exact .inr (.inr found)

theorem lineBreakAt_length (found : rules.lineBreakAt? text position = some length) :
    1 ≤ length ∧ position + length ≤ text.size := by
  rcases lineBreakAt_cases found with ⟨byte, present, ⟨_, _, rfl⟩ | ⟨_, followed, rfl⟩ | wide⟩
  · exact ⟨Nat.le_refl _, (Array.getElem?_eq_some_iff.mp present).1⟩
  · exact ⟨by decide, (Array.getElem?_eq_some_iff.mp followed).1⟩
  · exact unicodeBreakAt_length wide

end PerlRegex.LineRules
