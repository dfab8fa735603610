import PerlRegex.Lines
import PerlRegex.Proofs.Utf8.Texts

/-! Texts of ASCII characters only. In UTF-8 mode they are what they are outside of it: every byte is
a character, every position lies between characters, and no line ends with a character beyond
ASCII. -/

namespace PerlRegex

namespace Utf8

def AllAscii (text : List UInt8) : Prop := ∀ byte ∈ text, byte < 0x80

instance decidableAllAscii (text : List UInt8) : Decidable (AllAscii text) :=
  inferInstanceAs (Decidable (∀ byte ∈ text, byte < 0x80))

namespace AllAscii

variable {byte : UInt8} {rest text : List UInt8}

theorem head (ascii : AllAscii (byte :: rest)) : byte < 0x80 := ascii byte List.mem_cons_self

theorem tail (ascii : AllAscii (byte :: rest)) : AllAscii rest :=
  fun other member => ascii other (List.mem_cons_of_mem byte member)

theorem drop (ascii : AllAscii text) (count : Nat) : AllAscii (text.drop count) :=
  fun other member => ascii other (List.mem_of_mem_drop member)

theorem wellFormed (ascii : AllAscii text) : WellFormed text := by
  induction text with
  | nil => exact .nil
  | cons byte rest induction =>
      exact .cons (WellFormed.encodes_of_ascii ascii.head) (induction ascii.tail)

theorem invalidOffset (ascii : AllAscii text) : invalidOffset? text = none :=
  ascii.wellFormed.invalidOffsetFrom 0

end AllAscii

/-! ## Positions -/

section Positions

variable {text : Array UInt8} (ascii : AllAscii text.toList)
include ascii

theorem lt_of_allAscii {position : Nat} {byte : UInt8} (present : text[position]? = some byte) :
    byte < 0x80 :=
  ascii byte (Array.mem_toList_iff.mpr (Array.mem_of_getElem? present))

theorem not_continuation_of_allAscii (position : Nat) :
    (text[position]?).any isContinuation = false := by
  cases present : text[position]? with
  | none => rfl
  | some byte =>
      have small := lt_of_allAscii ascii present
      rw [Option.any_some, isContinuation, decide_eq_false (UInt8.not_le.mpr small)]
      rfl

theorem decodeAt_of_allAscii (position : Nat) :
    decodeAt text position = text[position]?.map fun byte => (byte.toNat, 1) := by
  rw [decodeAt]
  cases present : text[position]? with
  | none => rfl
  | some byte => exact if_pos (lt_of_allAscii ascii present)

theorem skipContinuationsBack_of_allAscii (budget position : Nat) :
    skipContinuationsBack text budget position = position := by
  cases budget with
  | zero => rfl
  | succ budget =>
      rw [skipContinuationsBack, not_continuation_of_allAscii ascii]
      rfl

theorem decodeBefore_of_allAscii (position : Nat) :
    decodeBefore text position =
      if position = 0 then none else text[position - 1]?.map fun byte => (byte.toNat, 1) := by
  unfold decodeBefore
  split
  · rfl
  · dsimp only
    rw [skipContinuationsBack_of_allAscii ascii, decodeAt_of_allAscii ascii]
    cases text[position - 1]? with
    | none => rfl
    | some byte => exact if_pos (by omega)

theorem isBoundary_of_allAscii (position : Nat) : isBoundary text position = true := by
  rw [isBoundary, not_continuation_of_allAscii ascii, Bool.not_false, Bool.or_true]

theorem nextBoundary_of_allAscii (position : Nat) : nextBoundary text position = position := by
  rw [nextBoundary, not_continuation_of_allAscii ascii]
  rfl

end Positions

end Utf8

/-! ## Lines -/

namespace LineRules

def inUtf8 (rules : LineRules) : LineRules := { rules with utf8 := true }

section

variable {text : Array UInt8} (ascii : Utf8.AllAscii text.toList) (rules : LineRules)
include ascii

theorem unicodeBreakAt_of_allAscii (position : Nat) :
    rules.unicodeBreakAt? text position = none := by
  rw [unicodeBreakAt?, Utf8.decodeAt_of_allAscii ascii]
  split
  · cases text[position]? with
    | none => rfl
    | some byte => exact if_neg (by simp)
  · apply if_neg
    intro isBreak
    exact absurd (Utf8.lt_of_allAscii ascii (beq_iff_eq.mp isBreak)) (by decide)

theorem newlineAt_inUtf8 (position : Nat) :
    rules.inUtf8.newlineAt? text position = rules.newlineAt? text position := by
  rw [newlineAt?, newlineAt?, unicodeBreakAt_of_allAscii ascii, unicodeBreakAt_of_allAscii ascii]
  rfl

theorem newlineEndsAt_inUtf8 (position : Nat) :
    rules.inUtf8.newlineEndsAt text position = rules.newlineEndsAt text position := by
  simp only [newlineEndsAt, unicodeBreakAt_of_allAscii ascii]
  rfl

theorem lineBreakAt_inUtf8 (position : Nat) :
    rules.inUtf8.lineBreakAt? text position = rules.lineBreakAt? text position := by
  rw [lineBreakAt?, lineBreakAt?, unicodeBreakAt_of_allAscii ascii,
    unicodeBreakAt_of_allAscii ascii]
  rfl

end

end LineRules

end PerlRegex
